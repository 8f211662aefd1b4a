import Mathlib.Order.Bounds.Basic
import Mathlib.Tactic.SplitIfs

/-!
# Cron Expressions

The standard cron grammar with five fields: minute, hour, day of the month, month and day of the
week, in which Sunday is 0. A field is a list of ranges, separated by commas. A range is a star, a
number or two numbers, with a step after a slash if there is one: the step counts from the first
value, and a number alone with a step has no end. A step may be larger than all values. If neither
field for the day has a star, one of them is enough. Names of months and days are left out.

## Main results

* `reads_numbers`, `reads_star`, `reads_every` — what fields stand for.
* `parse_unwords` — the expression with five fields, and what it matches.
* `firesEvery_step` — a step in the field of the minutes fires at steady intervals exactly if it
  divides the hour.
-/

namespace Cron

/-- The values of a field. -/
structure Bounds where
  min : ℕ
  max : ℕ

def minuteBounds : Bounds := ⟨0, 59⟩

def hourBounds : Bounds := ⟨0, 23⟩

def domBounds : Bounds := ⟨1, 31⟩

def monthBounds : Bounds := ⟨1, 12⟩

def dowBounds : Bounds := ⟨0, 6⟩

/-- What a field stands for, and whether it has a star. -/
structure Field where
  holds : ℕ → Bool
  star : Bool

/-! ### Reading -/

/-- A number. -/
def readNumber (cs : List Char) : Option ℕ :=
  if cs ≠ [] ∧ cs.all Char.isDigit then some (Nat.ofDigitChars 10 cs 0) else none

/-- The first and the last value of a range, and whether it is a star. -/
def readEnds (b : Bounds) (stepped : Bool) (range : List Char) : Option (ℕ × ℕ × Bool) :=
  match range.splitOn '-' with
  | [low] =>
      if low = ['*'] ∨ low = ['?'] then some (b.min, b.max, true)
      else (readNumber low).map fun n => (n, if stepped then b.max else n, false)
  | [low, high] =>
      (readNumber low).bind fun m => (readNumber high).map fun n => (m, n, false)
  | _ => none

/-- The values from the first to the last one, by steps. -/
def rangeField (b : Bounds) (step : ℕ) : ℕ × ℕ × Bool → Option Field
  | (first, last, star) =>
      if first < b.min ∨ b.max < last ∨ last < first ∨ step = 0 then none
      else some ⟨fun v => first ≤ v && v ≤ last && (v - first) % step = 0, star && step = 1⟩

/-- A range. -/
def readRange (b : Bounds) (expr : List Char) : Option Field :=
  match expr.splitOn '/' with
  | [range] => (readEnds b false range).bind (rangeField b 1)
  | [range, step] =>
      (readNumber step).bind fun k => (readEnds b true range).bind (rangeField b k)
  | _ => none

/-- A field. -/
def readField (b : Bounds) (field : List Char) : Option Field :=
  ((field.splitOn ',').mapM (readRange b)).map fun ranges =>
    ⟨fun v => ranges.any (·.holds v), ranges.any (·.star)⟩

/-- An expression. -/
structure Expr where
  minute : Field
  hour : Field
  dom : Field
  month : Field
  dow : Field

/-- The words of a text. -/
def words (cs : List Char) : List (List Char) := (cs.splitOn ' ').filter (· ≠ [])

/-- The expression that a text stands for. -/
def parse (cs : List Char) : Option Expr :=
  match words cs with
  | [minute, hour, dom, month, dow] => do
      let minute ← readField minuteBounds minute
      let hour ← readField hourBounds hour
      let dom ← readField domBounds dom
      let month ← readField monthBounds month
      let dow ← readField dowBounds dow
      return ⟨minute, hour, dom, month, dow⟩
  | _ => none

/-! ### Meaning -/

/-- What a clock and a calendar show. -/
structure Clock where
  minute : ℕ
  hour : ℕ
  dom : ℕ
  month : ℕ
  dow : ℕ

/-- The values are those of the fields. -/
structure Clock.Valid (t : Clock) : Prop where
  minute : t.minute < 60
  hour : t.hour < 24
  dom : 1 ≤ t.dom ∧ t.dom ≤ 31
  month : 1 ≤ t.month ∧ t.month ≤ 12
  dow : t.dow < 7

/-- The expression fires at a time. -/
def Expr.Fires (e : Expr) (t : Clock) : Prop :=
  e.minute.holds t.minute = true ∧ e.hour.holds t.hour = true ∧ e.month.holds t.month = true ∧
    if e.dom.star || e.dow.star then e.dom.holds t.dom = true ∧ e.dow.holds t.dow = true
    else e.dom.holds t.dom = true ∨ e.dow.holds t.dow = true

/-- Times as numbers of minutes, in hours of sixty minutes. -/
structure Calendar where
  clock : ℕ → Clock
  valid : ∀ t, (clock t).Valid
  minute_eq : ∀ t, (clock t).minute = t % 60

/-! ### What fields stand for -/

/-- A field stands for these values. -/
def Reads (b : Bounds) (cs : List Char) (values : Set ℕ) (star : Bool) : Prop :=
  ∃ f, readField b cs = some f ∧ f.star = star ∧ ∀ v, f.holds v = true ↔ v ∈ values

/-- Without the separator there is one part. -/
theorem splitOn_of_not_mem {c : Char} {cs : List Char} (h : c ∉ cs) : cs.splitOn c = [cs] := by
  have hone := List.splitOn_intercalate c (List.forall_mem_singleton.mpr h) (List.cons_ne_nil cs [])
  rwa [List.intercalate_singleton] at hone

/-- The digits of a number are read as it. -/
theorem readNumber_toDigits (n : ℕ) : readNumber (Nat.toDigits 10 n) = some n := by
  have hdigits : (Nat.toDigits 10 n).all Char.isDigit = true :=
    List.all_eq_true.mpr fun c hc => Nat.isDigit_of_mem_toDigits (by decide) (by decide) hc
  rw [readNumber, if_pos ⟨Nat.toDigits_ne_nil, hdigits⟩, Nat.ofDigitChars_ten_toDigits]

/-- A number is written with digits only. -/
theorem not_mem_toDigits {c : Char} (hc : c.isDigit = false) (n : ℕ) : c ∉ Nat.toDigits 10 n :=
  fun h => absurd (Nat.isDigit_of_mem_toDigits (by decide) (by decide) h)
    (ne_of_eq_of_ne hc Bool.noConfusion)

/-- A number is no star. -/
theorem toDigits_ne_star (n : ℕ) : Nat.toDigits 10 n ≠ ['*'] ∧ Nat.toDigits 10 n ≠ ['?'] :=
  ⟨fun h => not_mem_toDigits (c := '*') rfl n (h ▸ List.mem_cons_self),
    fun h => not_mem_toDigits (c := '?') rfl n (h ▸ List.mem_cons_self)⟩

/-- A number stands for itself. -/
theorem readRange_toDigits {b : Bounds} {n : ℕ} (hmin : b.min ≤ n) (hmax : n ≤ b.max) :
    ∃ f, readRange b (Nat.toDigits 10 n) = some f ∧ f.star = false ∧
      ∀ v, f.holds v = true ↔ v = n := by
  have hends : readEnds b false (Nat.toDigits 10 n) = some (n, n, false) := by
    rw [readEnds, splitOn_of_not_mem (not_mem_toDigits rfl n)]
    simp [toDigits_ne_star, readNumber_toDigits]
  have hread : readRange b (Nat.toDigits 10 n) = rangeField b 1 (n, n, false) := by
    rw [readRange, splitOn_of_not_mem (not_mem_toDigits rfl n)]
    dsimp only
    rw [hends, Option.bind_some]
  refine ⟨⟨fun v => n ≤ v && v ≤ n && (v - n) % 1 = 0, false⟩, ?_, rfl, fun v => ?_⟩
  · rw [hread, rangeField, if_neg (by omega)]
    rfl
  · simp only [Nat.mod_one, decide_true, Bool.and_true, Bool.and_eq_true, decide_eq_true_eq]
    omega

/-- All values, by steps. -/
theorem rangeField_all {b : Bounds} (hb : b.min ≤ b.max) {n : ℕ} (hn : 0 < n) :
    ∃ f, rangeField b n (b.min, b.max, true) = some f ∧ f.star = decide (n = 1) ∧
      ∀ v, f.holds v = true ↔ b.min ≤ v ∧ v ≤ b.max ∧ n ∣ v - b.min := by
  refine ⟨⟨fun v => b.min ≤ v && v ≤ b.max && (v - b.min) % n = 0, true && n = 1⟩, ?_,
    Bool.true_and _, fun v => ?_⟩
  · rw [rangeField, if_neg (by omega)]
  · simp only [Bool.and_eq_true, decide_eq_true_eq, and_assoc, Nat.dvd_iff_mod_eq_zero]

/-- A field of one range. -/
theorem reads_range {b : Bounds} {cs : List Char} {f : Field} (hcs : ',' ∉ cs)
    (h : readRange b cs = some f) : Reads b cs {v | f.holds v = true} f.star := by
  refine ⟨⟨fun v => [f].any (·.holds v), [f].any (·.star)⟩, ?_, Bool.or_false _, fun v => ?_⟩
  · simp [readField, splitOn_of_not_mem hcs, h]
  · exact iff_of_eq (congrArg (· = true) (Bool.or_false _))

/-- A field may be read with any description of its values. -/
theorem Reads.congr {b : Bounds} {cs : List Char} {values values' : Set ℕ} {star star' : Bool}
    (h : Reads b cs values star) (hvalues : values = values') (hstar : star = star') :
    Reads b cs values' star' :=
  hvalues ▸ hstar ▸ h

/-- A star stands for all values. -/
theorem reads_star {b : Bounds} (hb : b.min ≤ b.max) :
    Reads b ['*'] {v | b.min ≤ v ∧ v ≤ b.max} true := by
  obtain ⟨f, hf, hstar, hholds⟩ := rangeField_all hb Nat.one_pos
  have hread : readRange b ['*'] = some f := hf
  refine (reads_range (by decide) hread).congr (Set.ext fun v => ?_) hstar
  exact (hholds v).trans (by simp)

/-- A star with a step. -/
theorem reads_every {b : Bounds} (hb : b.min ≤ b.max) {n : ℕ} (hn : 0 < n) :
    Reads b ('*' :: '/' :: Nat.toDigits 10 n) {v | b.min ≤ v ∧ v ≤ b.max ∧ n ∣ v - b.min}
      (n = 1) := by
  obtain ⟨f, hf, hstar, hholds⟩ := rangeField_all hb hn
  have hsplit : ('*' :: '/' :: Nat.toDigits 10 n).splitOn '/' = [['*'], Nat.toDigits 10 n] := by
    have hnot : ∀ w ∈ [['*'], Nat.toDigits 10 n], '/' ∉ w := by simp [not_mem_toDigits]
    have hsplit := List.splitOn_intercalate '/' hnot (List.cons_ne_nil _ _)
    rwa [List.intercalate_cons_cons, List.intercalate_singleton] at hsplit
  have hread : readRange b ('*' :: '/' :: Nat.toDigits 10 n) = some f := by
    rw [readRange, hsplit]
    dsimp only
    rw [readNumber_toDigits, Option.bind_some, ← hf]
    rfl
  refine (reads_range ?_ hread).congr (Set.ext hholds) hstar
  simp [not_mem_toDigits]

/-- A number alone. -/
theorem reads_number {b : Bounds} {n : ℕ} (hmin : b.min ≤ n) (hmax : n ≤ b.max) :
    Reads b (Nat.toDigits 10 n) {n} false := by
  obtain ⟨f, hf, hstar, hholds⟩ := readRange_toDigits hmin hmax
  exact (reads_range (not_mem_toDigits rfl n) hf).congr (Set.ext hholds) hstar

/-- The numbers of a list, one by one. -/
theorem mapM_readRange_toDigits {b : Bounds} (ns : List ℕ)
    (h : ∀ n ∈ ns, b.min ≤ n ∧ n ≤ b.max) :
    ∃ fs, (ns.map (Nat.toDigits 10)).mapM (readRange b) = some fs ∧ fs.any (·.star) = false ∧
      ∀ v, fs.any (·.holds v) = true ↔ v ∈ ns := by
  induction ns with
  | nil => exact ⟨[], rfl, rfl, fun v => by simp⟩
  | cons n ns ih =>
      obtain ⟨hn, hns⟩ := List.forall_mem_cons.mp h
      obtain ⟨f, hf, hstar, hholds⟩ := readRange_toDigits hn.1 hn.2
      obtain ⟨fs, hfs, hstars, hvalues⟩ := ih hns
      refine ⟨f :: fs, by simp [hf, hfs], ?_, fun v => ?_⟩
      · rw [List.any_cons, hstar, hstars, Bool.false_or]
      · rw [List.any_cons, Bool.or_eq_true, hholds, hvalues, List.mem_cons]

/-- A list of numbers stands for them. -/
theorem reads_numbers {b : Bounds} {ns : List ℕ} (hne : ns ≠ [])
    (h : ∀ n ∈ ns, b.min ≤ n ∧ n ≤ b.max) :
    Reads b ([','].intercalate (ns.map (Nat.toDigits 10))) {v | v ∈ ns} false := by
  obtain ⟨fs, hfs, hstar, hvalues⟩ := mapM_readRange_toDigits ns h
  have hsplit : ([','].intercalate (ns.map (Nat.toDigits 10))).splitOn ',' =
      ns.map (Nat.toDigits 10) :=
    List.splitOn_intercalate ',' (List.forall_mem_map.mpr fun n _ => not_mem_toDigits rfl n)
      (mt List.map_eq_nil_iff.mp hne)
  refine ⟨⟨fun v => fs.any (·.holds v), fs.any (·.star)⟩, ?_, hstar, hvalues⟩
  rw [readField, hsplit, hfs, Option.map_some]

/-! ### Five fields -/

/-- The words of a text are those that it was made of. -/
theorem words_intercalate {ws : List (List Char)} (hne : ws ≠ [])
    (h : ∀ w ∈ ws, w ≠ [] ∧ ' ' ∉ w) : words ([' '].intercalate ws) = ws := by
  rw [words, List.splitOn_intercalate ' ' (fun w hw => (h w hw).2) hne, List.filter_eq_self]
  exact fun w hw => decide_eq_true (h w hw).1

/-- A list of numbers is a word. -/
theorem numbers_word {ns : List ℕ} (hne : ns ≠ []) :
    [','].intercalate (ns.map (Nat.toDigits 10)) ≠ [] ∧
      ' ' ∉ [','].intercalate (ns.map (Nat.toDigits 10)) := by
  induction ns with
  | nil => exact absurd rfl hne
  | cons n ns ih =>
      have hspace : ' ' ∉ Nat.toDigits 10 n := not_mem_toDigits rfl n
      cases ns with
      | nil => simpa using hspace
      | cons m ns =>
          obtain ⟨-, hrest⟩ := ih (List.cons_ne_nil m ns)
          rw [List.map_cons, List.map_cons, List.intercalate_cons_cons]
          rw [List.map_cons] at hrest
          simp [hspace, hrest]

/-- An expression is read by its fields. -/
theorem parse_unwords {minute hour dom month dow : List Char}
    {minutes hours doms months dows : Set ℕ} {s₁ s₂ s₃ s₄ s₅ : Bool}
    (hwords : ∀ w ∈ [minute, hour, dom, month, dow], w ≠ [] ∧ ' ' ∉ w)
    (hminute : Reads minuteBounds minute minutes s₁) (hhour : Reads hourBounds hour hours s₂)
    (hdom : Reads domBounds dom doms s₃) (hmonth : Reads monthBounds month months s₄)
    (hdow : Reads dowBounds dow dows s₅) :
    ∃ e, parse ([' '].intercalate [minute, hour, dom, month, dow]) = some e ∧
      ∀ t, e.Fires t ↔ t.minute ∈ minutes ∧ t.hour ∈ hours ∧ t.month ∈ months ∧
        if s₃ || s₅ then t.dom ∈ doms ∧ t.dow ∈ dows else t.dom ∈ doms ∨ t.dow ∈ dows := by
  obtain ⟨f₁, h₁, -, hv₁⟩ := hminute
  obtain ⟨f₂, h₂, -, hv₂⟩ := hhour
  obtain ⟨f₃, h₃, rfl, hv₃⟩ := hdom
  obtain ⟨f₄, h₄, -, hv₄⟩ := hmonth
  obtain ⟨f₅, h₅, rfl, hv₅⟩ := hdow
  refine ⟨⟨f₁, f₂, f₃, f₄, f₅⟩, ?_, fun t => ?_⟩
  · rw [parse, words_intercalate (List.cons_ne_nil _ _) hwords]
    simp [h₁, h₂, h₃, h₄, h₅]
  · simp only [Expr.Fires, hv₁, hv₂, hv₃, hv₄, hv₅]

/-! ### Intervals -/

/-- The expression fires, and after that again and again in intervals of this many minutes. -/
def Expr.FiresEvery (e : Expr) (cal : Calendar) (n : ℕ) : Prop :=
  (∃ t, e.Fires (cal.clock t)) ∧
    ∀ t, e.Fires (cal.clock t) → IsLeast {u | t < u ∧ e.Fires (cal.clock u)} (t + n)

/-- An interval between steady times divides the time from the first of them to any other. -/
theorem dvd_of_apart {F : ℕ → Prop} {n a : ℕ} (hn : 0 < n) (hzero : F 0) (ha : F a)
    (h : ∀ t, F t → IsLeast {u | t < u ∧ F u} (t + n)) : n ∣ a := by
  have hmultiple : ∀ k, F (n * k) := by
    intro k
    induction k with
    | zero => exact hzero
    | succ k ih => exact (h _ ih).1.2
  by_contra hdvd
  -- the last multiple before `a` is followed by one after it
  have hlt : n * (a / n) < a :=
    lt_of_le_of_ne (Nat.mul_div_le a n) fun heq => hdvd ⟨a / n, heq.symm⟩
  have hle : n * (a / n) + n ≤ a := (h _ (hmultiple _)).2 ⟨hlt, ha⟩
  exact absurd (Nat.lt_mul_div_succ a hn) (Nat.not_lt.mpr (Nat.mul_succ n (a / n) ▸ hle))

/-- An expression with a step in the field of the minutes fires by the minutes alone. -/
theorem parse_step {n : ℕ} (hn : 0 < n) :
    ∃ e, parse ([' '].intercalate ['*' :: '/' :: Nat.toDigits 10 n, ['*'], ['*'], ['*'], ['*']]) =
        some e ∧
      ∀ t : Clock, t.Valid → (e.Fires t ↔ n ∣ t.minute) := by
  have hwords : ∀ w ∈ ['*' :: '/' :: Nat.toDigits 10 n, ['*'], ['*'], ['*'], ['*']],
      w ≠ [] ∧ ' ' ∉ w := by
    simp [not_mem_toDigits]
  obtain ⟨e, he, hfires⟩ := parse_unwords hwords (reads_every (by decide) hn)
    (reads_star (by decide)) (reads_star (by decide)) (reads_star (by decide))
    (reads_star (by decide))
  refine ⟨e, he, fun t ht => (hfires t).trans ?_⟩
  have hminute := ht.minute
  have hhour := ht.hour
  have hdom := ht.dom
  have hmonth := ht.month
  have hdow := ht.dow
  simp [minuteBounds, hourBounds, domBounds, monthBounds, dowBounds]
  omega

/-- **Steps of minutes.** The expression fires in intervals of so many minutes exactly if they are
the step and divide the hour. -/
theorem firesEvery_step {e : Expr} {k n : ℕ} (hn : 0 < n) (cal : Calendar)
    (hfires : ∀ t : Clock, t.Valid → (e.Fires t ↔ k ∣ t.minute)) (hk : n ∣ 60 → k = n) :
    e.FiresEvery cal n ↔ n ∣ 60 := by
  have htime : ∀ t, e.Fires (cal.clock t) ↔ k ∣ t % 60 := fun t =>
    cal.minute_eq t ▸ hfires _ (cal.valid t)
  simp only [Expr.FiresEvery, htime]
  constructor
  · exact fun h => dvd_of_apart hn (by simp) (by simp) h.2
  · intro hdvd
    obtain rfl := hk hdvd
    have hmod : ∀ t, k ∣ t % 60 ↔ k ∣ t := fun t => Nat.dvd_mod_iff hdvd
    simp only [hmod]
    refine ⟨⟨0, Nat.dvd_zero k⟩, fun t ht => ⟨⟨Nat.lt_add_of_pos_right hn, ?_⟩, ?_⟩⟩
    · exact Nat.dvd_add ht (Nat.dvd_refl k)
    · rintro u ⟨hlt, hu⟩
      have hle : k ≤ u - t := Nat.le_of_dvd (Nat.sub_pos_of_lt hlt) (Nat.dvd_sub hu ht)
      omega

end Cron
