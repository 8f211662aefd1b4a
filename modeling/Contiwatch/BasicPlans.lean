import Contiwatch.Lib.CronExpr
import Contiwatch.SchedulerLoops
import Mathlib.Data.List.Dedup

/-!
# Basic Plans

A basic plan is a list of days and a time of the day. `buildCronFromBasic` writes it as a cron
expression, which the cron library reads again. The days go through a map, in the order of its
iteration, and are sorted after that; `schedulerPlanKey` compares the plans by the text.

## Main results

* `dowValues_eq_of_perm` — the order of the map does not matter.
* `buildCronFromBasic_correct` — when an expression is built, when it fires, and that it is the same
  for the same days and no others.
* `schedulerPlanKey_basic` — what the keys of two basic plans say.
-/

namespace Contiwatch

/-- The weekday of a day number, counted from Sunday. -/
def weekday (day : Int64) : ℕ := if day = 7 then 0 else day.toInt.toNat

/-- The days are those from Monday to Sunday. -/
def WeekDays (days : List Int64) : Prop := ∀ day ∈ days, 1 ≤ day ∧ day ≤ 7

/-- The values that `normalizeBasicDays` sorts, with the keys of its map in some order. -/
def dowValues (keys : List Int64) : List ℤ :=
  (keys.map fun day => if day = 7 then 0 else day.toInt).insertionSort (· ≤ ·)

/-- The text of an expression. -/
def basicText (keys : List Int64) (hour minute : ℕ) : String :=
  toString minute ++ " " ++ toString hour ++ " * * " ++
    ",".intercalate ((dowValues keys).map toString)

/-- The values as numbers. -/
def dowNumbers (keys : List Int64) : List ℕ := (dowValues keys).map Int.toNat

/-! ### Days -/

/-- The order in which the map is read does not matter. -/
theorem dowValues_eq_of_perm {keys keys' : List Int64} (h : keys.Perm keys') :
    dowValues keys = dowValues keys' := by
  have hperm : (dowValues keys).Perm (dowValues keys') :=
    (List.perm_insertionSort _ _).trans ((h.map _).trans (List.perm_insertionSort _ _).symm)
  exact hperm.eq_of_sortedLE List.sortedLE_insertionSort List.sortedLE_insertionSort

/-- The days of the plan, by their cron numbers. -/
theorem mem_dowNumbers {keys : List Int64} {v : ℕ} :
    v ∈ dowNumbers keys ↔ ∃ day ∈ keys, weekday day = v := by
  simp only [dowNumbers, dowValues, List.mem_map, List.mem_insertionSort, exists_exists_and_eq_and]
  refine exists_congr fun day => and_congr_right fun _ => ?_
  rw [weekday, apply_ite Int.toNat, Int.toNat_zero]

/-- A day of the week is small enough to be the same as an integer. -/
theorem weekDays_toInt {day : Int64} (h : 1 ≤ day ∧ day ≤ 7) : 1 ≤ day.toInt ∧ day.toInt ≤ 7 :=
  ⟨Int64.le_iff_toInt_le.mp h.1, Int64.le_iff_toInt_le.mp h.2⟩

/-- A cron number of a day is below seven. -/
theorem weekday_lt {day : Int64} (h : 1 ≤ day ∧ day ≤ 7) : weekday day < 7 := by
  have hint := weekDays_toInt h
  rw [weekday]
  split_ifs with hsun
  · decide
  · have hne : day.toInt ≠ 7 := fun h7 => hsun (Int64.toInt_inj.mp h7)
    omega

/-- Days of one weekday are the same. -/
theorem weekday_inj {day day' : Int64} (h : 1 ≤ day ∧ day ≤ 7) (h' : 1 ≤ day' ∧ day' ≤ 7)
    (heq : weekday day = weekday day') : day = day' := by
  have hint := weekDays_toInt h
  have hint' := weekDays_toInt h'
  rw [weekday, weekday] at heq
  split_ifs at heq with h1 h2 h2
  · exact h1.trans h2.symm
  · omega
  · omega
  · exact Int64.toInt_inj.mp (by omega)

/-- The values are written as numbers. -/
theorem dowValues_toString {keys : List Int64} (h : WeekDays keys) :
    (dowValues keys).map toString = (dowNumbers keys).map toString := by
  rw [dowNumbers, List.map_map]
  refine List.map_congr_left fun v hv => ?_
  obtain ⟨day, hday, rfl⟩ := List.mem_map.mp ((List.mem_insertionSort _).mp hv)
  have hnonneg : 0 ≤ if day = 7 then 0 else day.toInt := by
    have hint := weekDays_toInt (h day hday)
    split_ifs <;> omega
  obtain ⟨n, hn⟩ := Int.eq_ofNat_of_zero_le hnonneg
  rw [hn]
  rfl

/-! ### Expressions -/

/-- The text of the days. -/
theorem normalizeBasicDays_ok_iff {days : List Int64} {text : String} :
    normalizeBasicDays days = .ok text ↔
      WeekDays days ∧ text = ",".intercalate ((dowValues days.dedup).map toString) := by
  have hweek : (days.find? fun day => day < 1 || 7 < day) = none ↔ WeekDays days := by
    simp [WeekDays, Int64.not_lt]
  rw [normalizeBasicDays]
  cases hfind : days.find? fun day => day < 1 || 7 < day with
  | some day =>
      refine iff_of_false nofun fun h => ?_
      cases hfind.symm.trans (hweek.mpr h.1)
  | none =>
      exact ⟨fun h => ⟨hweek.mp hfind, (Except.ok.inj h).symm⟩,
        fun h => congrArg Except.ok h.2.symm⟩

/-- The expression of a basic plan. -/
theorem buildCronFromBasic_ok_iff {days : List Int64} {timeValue expr : String} :
    buildCronFromBasic days timeValue = .ok expr ↔
      days ≠ [] ∧ WeekDays days ∧ ∃ hour minute,
        parseClock timeValue.toList = some (hour, minute) ∧
          expr = basicText days.dedup hour minute := by
  rw [buildCronFromBasic]
  by_cases hnil : days = []
  · rw [if_pos hnil]
    exact iff_of_false nofun fun h => h.1 hnil
  rw [if_neg hnil]
  cases hclock : parseClock timeValue.toList with
  | none => exact iff_of_false nofun fun ⟨_, _, _, _, h, _⟩ => nomatch h
  | some clock =>
      obtain ⟨hour, minute⟩ := clock
      dsimp only
      cases hdays : normalizeBasicDays days with
      | error err =>
          refine iff_of_false nofun fun ⟨_, hweek, _⟩ => ?_
          cases hdays.symm.trans (normalizeBasicDays_ok_iff.mpr ⟨hweek, rfl⟩)
      | ok dowList =>
          obtain ⟨hweek, rfl⟩ := normalizeBasicDays_ok_iff.mp hdays
          constructor
          · exact fun h => ⟨hnil, hweek, hour, minute, rfl, (Except.ok.inj h).symm⟩
          · rintro ⟨-, -, _, _, hsome, rfl⟩
            obtain ⟨rfl, rfl⟩ := Prod.mk.inj (Option.some.inj hsome)
            rfl

/-- Hours and minutes of the day. -/
theorem parseClock_lt {value : List Char} {hour minute : ℕ}
    (h : parseClock value = some (hour, minute)) : hour < 24 ∧ minute < 60 := by
  rw [parseClock] at h
  split at h
  · cases h
  · split_ifs at h with hhour
    split at h
    · split at h
      · split_ifs at h with hminute
        obtain ⟨rfl, rfl⟩ := Prod.mk.inj (Option.some.inj h)
        exact ⟨Nat.not_le.mp hhour, Nat.not_le.mp hminute⟩
      · cases h
    · cases h

/-- The expression, read by the grammar, fires at that time on the listed days. -/
theorem basic_fires {days : List Int64} (hne : days ≠ []) (hweek : WeekDays days) {hour minute : ℕ}
    (hhour : hour < 24) (hminute : minute < 60) :
    ∃ e, Cron.parse (basicText days.dedup hour minute).toList = some e ∧
      ∀ t : Cron.Clock, t.Valid → (e.Fires t ↔
        t.hour = hour ∧ t.minute = minute ∧ ∃ day ∈ days, weekday day = t.dow) := by
  have hmem : ∀ v, v ∈ dowNumbers days.dedup ↔ ∃ day ∈ days, weekday day = v := by
    simp only [mem_dowNumbers, List.mem_dedup, implies_true]
  have hnumbers : dowNumbers days.dedup ≠ [] := by
    obtain ⟨day, hday⟩ := List.exists_mem_of_ne_nil days hne
    exact List.ne_nil_of_mem ((hmem _).mpr ⟨day, hday, rfl⟩)
  have hbounds : ∀ v ∈ dowNumbers days.dedup, Cron.dowBounds.min ≤ v ∧ v ≤ Cron.dowBounds.max := by
    intro v hv
    obtain ⟨day, hday, rfl⟩ := (hmem v).mp hv
    exact ⟨Nat.zero_le _, Nat.le_of_lt_succ (weekday_lt (hweek day hday))⟩
  have hdedup : WeekDays days.dedup := fun day hday => hweek day (List.mem_dedup.mp hday)
  have htext : (basicText days.dedup hour minute).toList =
      [' '].intercalate [Nat.toDigits 10 minute, Nat.toDigits 10 hour, ['*'], ['*'],
        [','].intercalate ((dowNumbers days.dedup).map (Nat.toDigits 10))] := by
    have hmap : ((dowNumbers days.dedup).map toString).map String.toList =
        (dowNumbers days.dedup).map (Nat.toDigits 10) :=
      List.map_map.trans (List.map_congr_left fun _ _ => Nat.toList_repr)
    simp only [basicText, dowValues_toString hdedup, String.toList_append,
      String.toList_intercalate, hmap, List.intercalate_cons_cons, List.intercalate_singleton,
      Nat.toString_eq_repr, Nat.toList_repr, List.append_assoc]
    rfl
  have hwords : ∀ w ∈ [Nat.toDigits 10 minute, Nat.toDigits 10 hour, ['*'], ['*'],
      [','].intercalate ((dowNumbers days.dedup).map (Nat.toDigits 10))], w ≠ [] ∧ ' ' ∉ w := by
    have hnumber : ∀ n, Nat.toDigits 10 n ≠ [] ∧ ' ' ∉ Nat.toDigits 10 n := fun n =>
      ⟨Nat.toDigits_ne_nil, Cron.not_mem_toDigits rfl n⟩
    simp [hnumber, Cron.numbers_word hnumbers]
  obtain ⟨e, he, hfires⟩ := Cron.parse_unwords hwords
    (Cron.reads_number (Nat.zero_le _) (Nat.le_of_lt_succ hminute))
    (Cron.reads_number (Nat.zero_le _) (Nat.le_of_lt_succ hhour))
    (Cron.reads_star (by decide)) (Cron.reads_star (by decide))
    (Cron.reads_numbers hnumbers hbounds)
  refine ⟨e, htext ▸ he, fun t ht => (hfires t).trans ?_⟩
  -- the stars hold at every valid time
  have hdom : t.dom ∈ {v | Cron.domBounds.min ≤ v ∧ v ≤ Cron.domBounds.max} := ht.dom
  have hmonth : t.month ∈ {v | Cron.monthBounds.min ≤ v ∧ v ≤ Cron.monthBounds.max} := ht.month
  rw [if_pos (Bool.true_or false), and_iff_right hdom, and_iff_right hmonth, Set.mem_ofPred_eq,
    hmem]
  exact and_left_comm

/-- The days of which the text speaks are those that it was made of. -/
theorem basic_subset {days days' : List Int64} (hne : days ≠ []) (hne' : days' ≠ [])
    (hweek : WeekDays days) (hweek' : WeekDays days') {hour minute hour' minute' : ℕ}
    (hhour : hour < 24) (hminute : minute < 60) (hhour' : hour' < 24) (hminute' : minute' < 60)
    (h : basicText days.dedup hour minute = basicText days'.dedup hour' minute') :
    (hour, minute) = (hour', minute') ∧ ∀ day ∈ days, day ∈ days' := by
  obtain ⟨e, he, hfires⟩ := basic_fires hne hweek hhour hminute
  obtain ⟨e', he', hfires'⟩ := basic_fires hne' hweek' hhour' hminute'
  obtain rfl : e = e' := Option.some.inj (he.symm.trans (h ▸ he'))
  have hday : ∀ day ∈ days, (hour = hour' ∧ minute = minute') ∧ day ∈ days' := by
    intro day hday
    have hvalid : Cron.Clock.Valid ⟨minute, hour, 1, 1, weekday day⟩ :=
      ⟨hminute, hhour, by simp, by simp, weekday_lt (hweek day hday)⟩
    obtain ⟨hh, hm, day', hday', heq⟩ :=
      (hfires' _ hvalid).mp ((hfires _ hvalid).mpr ⟨rfl, rfl, day, hday, rfl⟩)
    have hsame := weekday_inj (hweek' day' hday') (hweek day hday) heq
    exact ⟨⟨hh, hm⟩, hsame ▸ hday'⟩
  obtain ⟨day, hmem⟩ := List.exists_mem_of_ne_nil days hne
  exact ⟨Prod.ext (hday day hmem).1.1 (hday day hmem).1.2, fun day hmem => (hday day hmem).2⟩

/-- **The days and the time.** Two texts are the same exactly if the times are the same and the
lists have the same days. -/
theorem basicText_inj {days days' : List Int64} (hne : days ≠ []) (hne' : days' ≠ [])
    (hweek : WeekDays days) (hweek' : WeekDays days') {hour minute hour' minute' : ℕ}
    (hhour : hour < 24) (hminute : minute < 60) (hhour' : hour' < 24) (hminute' : minute' < 60) :
    basicText days.dedup hour minute = basicText days'.dedup hour' minute' ↔
      (hour, minute) = (hour', minute') ∧ ∀ day, day ∈ days ↔ day ∈ days' := by
  constructor
  · intro h
    obtain ⟨hclock, hsub⟩ := basic_subset hne hne' hweek hweek' hhour hminute hhour' hminute' h
    obtain ⟨-, hsub'⟩ := basic_subset hne' hne hweek' hweek hhour' hminute' hhour hminute h.symm
    exact ⟨hclock, fun day => ⟨hsub day, hsub' day⟩⟩
  · rintro ⟨hclock, hdays⟩
    obtain ⟨rfl, rfl⟩ := Prod.mk.inj hclock
    have hperm : days.dedup.Perm days'.dedup :=
      (List.perm_ext_iff_of_nodup days.nodup_dedup days'.nodup_dedup).mpr (by simpa using hdays)
    rw [basicText, basicText, dowValues_eq_of_perm hperm]

/-- What two expressions say of their plans. -/
theorem buildCronFromBasic_inj {days days' : List Int64} {timeValue timeValue' expr expr' : String}
    (h : buildCronFromBasic days timeValue = .ok expr)
    (h' : buildCronFromBasic days' timeValue' = .ok expr') :
    expr = expr' ↔ parseClock timeValue.toList = parseClock timeValue'.toList ∧
      ∀ day, day ∈ days ↔ day ∈ days' := by
  obtain ⟨hne, hweek, hour, minute, hclock, rfl⟩ := buildCronFromBasic_ok_iff.mp h
  obtain ⟨hne', hweek', hour', minute', hclock', rfl⟩ := buildCronFromBasic_ok_iff.mp h'
  obtain ⟨hhour, hminute⟩ := parseClock_lt hclock
  obtain ⟨hhour', hminute'⟩ := parseClock_lt hclock'
  rw [hclock, hclock', Option.some_inj]
  exact basicText_inj hne hne' hweek hweek' hhour hminute hhour' hminute'

/-- The keys of two basic plans are the same exactly if the times and the days are, so that the
scheduler starts again only if one of them changes. -/
theorem schedulerPlanKey_basic (lib : SchedulerLib) {days days' : List Int64}
    {timeValue timeValue' expr expr' : String} (h : buildCronFromBasic days timeValue = .ok expr)
    (h' : buildCronFromBasic days' timeValue' = .ok expr') :
    schedulerPlanKey lib ⟨schedulerModeBasic, expr, 0⟩ =
        schedulerPlanKey lib ⟨schedulerModeBasic, expr', 0⟩ ↔
      parseClock timeValue.toList = parseClock timeValue'.toList ∧
        ∀ day, day ∈ days ↔ day ∈ days' := by
  have hmode : ¬ schedulerModeBasic = schedulerModeLegacy := by decide
  simp only [schedulerPlanKey, if_neg hmode, String.append_right_inj]
  exact buildCronFromBasic_inj h h'

/-- **Basic plans.** An expression is built if there is a day, all days are those of a week and the
time is one. In whatever order the map is read, it is the same; it fires at that time on the listed
days, and it is that of another plan exactly if the times and the sets of days are the same. -/
theorem buildCronFromBasic_correct (days : List Int64) (timeValue : String) :
    ((buildCronFromBasic days timeValue).isOk = true ↔
      days ≠ [] ∧ (∀ day ∈ days, 1 ≤ day ∧ day ≤ 7) ∧
        (parseClock timeValue.toList).isSome = true) ∧
    ∀ expr, buildCronFromBasic days timeValue = .ok expr →
      (∃ hour minute e, parseClock timeValue.toList = some (hour, minute) ∧
        (∀ keys : List Int64, keys.Nodup → (∀ day, day ∈ keys ↔ day ∈ days) →
          expr = basicText keys hour minute) ∧
        Cron.parse expr.toList = some e ∧
        ∀ t : Cron.Clock, t.Valid → (e.Fires t ↔
          t.hour = hour ∧ t.minute = minute ∧ ∃ day ∈ days, weekday day = t.dow)) ∧
      ∀ days' timeValue' expr', buildCronFromBasic days' timeValue' = .ok expr' →
        (expr = expr' ↔ parseClock timeValue.toList = parseClock timeValue'.toList ∧
          ∀ day, day ∈ days ↔ day ∈ days') := by
  refine ⟨?_, fun expr hexpr => ?_⟩
  · have hok : (buildCronFromBasic days timeValue).isOk = true ↔
        ∃ expr, buildCronFromBasic days timeValue = .ok expr := by
      cases buildCronFromBasic days timeValue with
      | error err => exact iff_of_false nofun nofun
      | ok expr => exact iff_of_true rfl ⟨expr, rfl⟩
    simp only [hok, buildCronFromBasic_ok_iff, Option.isSome_iff_exists, Prod.exists]
    constructor
    · rintro ⟨-, hne, hweek, hour, minute, hclock, -⟩
      exact ⟨hne, hweek, hour, minute, hclock⟩
    · rintro ⟨hne, hweek, hour, minute, hclock⟩
      exact ⟨_, hne, hweek, hour, minute, hclock, rfl⟩
  refine ⟨?_, fun days' timeValue' expr' => buildCronFromBasic_inj hexpr⟩
  obtain ⟨hne, hweek, hour, minute, hclock, rfl⟩ := buildCronFromBasic_ok_iff.mp hexpr
  obtain ⟨hhour, hminute⟩ := parseClock_lt hclock
  obtain ⟨e, he, hfires⟩ := basic_fires hne hweek hhour hminute
  refine ⟨hour, minute, e, hclock, fun keys hnodup hkeys => ?_, he, hfires⟩
  have hperm : days.dedup.Perm keys :=
    (List.perm_ext_iff_of_nodup days.nodup_dedup hnodup).mpr fun day =>
      List.mem_dedup.trans (hkeys day).symm
  rw [basicText, basicText, dowValues_eq_of_perm hperm]

end Contiwatch
