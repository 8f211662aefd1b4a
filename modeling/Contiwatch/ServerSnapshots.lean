import Contiwatch.ServerInfo
import Mathlib.Data.Int.ConditionallyCompleteOrder

/-!
# Server States in the Browser

The page keeps the last snapshot of every server in `cachedServerInfo` of `web/static/app.js`.
Snapshots come one by one over the event stream, and as lists over the stream and in answers to
requests, with delays of their own. `shouldReplaceServerInfo` is to keep an older snapshot from
taking the place of a newer one.

## Main results

* `deliveries_eq` — a list of snapshots counts as its snapshots, one after another.
* `run_shown_iff` — the snapshot shown is the newest one of those delivered, at every moment,
  exactly if no completed check comes after a newer snapshot that is marked as being checked, and
  snapshots of one millisecond come in turn.
* `old_check_can_return` — three snapshots, of which the oldest is shown at the end.
-/

namespace Contiwatch

/-- `cachedServerInfo`. -/
abbrev ServerInfoCache := String → Option ServerInfoSnapshot

/-- The key of an entry. -/
def ServerInfoSnapshot.cacheKey (info : ServerInfoSnapshot) : String :=
  info.type.text ++ ":" ++ info.name

/-- What the browser receives: a snapshot, or a list of them. -/
inductive ServerDelivery
  | serverInfo (info : ServerInfoSnapshot)
  | serverInfoSnapshot (list : List ServerInfoSnapshot)

/-- The snapshots received. -/
def ServerDelivery.items : ServerDelivery → List ServerInfoSnapshot
  | .serverInfo info => [info]
  | .serverInfoSnapshot list => list

section

/- The milliseconds that the browser reads off a time. -/
variable (readMs : ℕ → ℤ)

/-- `serverInfoCheckedAtMs`; a snapshot always has a time. -/
def serverInfoCheckedAtMs (info : ServerInfoSnapshot) : ℤ := readMs info.checkedAt

/-- `shouldReplaceServerInfo`. -/
def shouldReplaceServerInfo (existing : Option ServerInfoSnapshot)
    (incoming : ServerInfoSnapshot) : Bool :=
  match existing with
  | none => true
  | some existing =>
      if incoming.address ≠ "" ∧ existing.address ≠ "" ∧ incoming.address ≠ existing.address then
        true
      else
        let incomingCheckedAt := serverInfoCheckedAtMs readMs incoming
        let existingCheckedAt := serverInfoCheckedAtMs readMs existing
        if existing.checking ∧ ¬ incoming.checking then true
        else if ¬ existing.checking ∧ incoming.checking then existingCheckedAt ≤ incomingCheckedAt
        else if existingCheckedAt < incomingCheckedAt then true
        else if incomingCheckedAt < existingCheckedAt then false
        else if existing.status = .unset ∧ incoming.status ≠ .unset then true
        else if existing.status ≠ .unset ∧ incoming.status = .unset then false
        else existing.status = .unknown ∧ incoming.status ≠ .unknown

/-- The part of `mergeServerInfoSnapshot`, and of the listener for `server_info`, that is for one
snapshot. -/
def mergeServerInfo (cache : ServerInfoCache) (info : ServerInfoSnapshot) : ServerInfoCache :=
  if info.name = "" ∨ info.type = .unset then cache
  else if shouldReplaceServerInfo readMs (cache info.cacheKey) info then
    Function.update cache info.cacheKey (some info)
  else cache

/-- `mergeServerInfoSnapshot`. -/
def mergeServerInfoSnapshot (cache : ServerInfoCache) (list : List ServerInfoSnapshot) :
    ServerInfoCache := list.foldl (mergeServerInfo readMs) cache

/-- A delivery changes the cache. -/
def deliver (cache : ServerInfoCache) : ServerDelivery → ServerInfoCache
  | .serverInfo info => mergeServerInfo readMs cache info
  | .serverInfoSnapshot list => mergeServerInfoSnapshot readMs cache list

/-- The cache after snapshots have been delivered to a page that had none. -/
def cachedServerInfo (items : List ServerInfoSnapshot) : ServerInfoCache :=
  items.foldl (mergeServerInfo readMs) fun _ => none

/-- Deliveries count as their snapshots, one after another. -/
theorem deliveries_eq (deliveries : List ServerDelivery) :
    deliveries.foldl (deliver readMs) (fun _ => none) =
      cachedServerInfo readMs (deliveries.flatMap ServerDelivery.items) := by
  rw [cachedServerInfo]
  generalize (fun _ => none : ServerInfoCache) = cache
  induction deliveries generalizing cache with
  | nil => rfl
  | cons d deliveries ih =>
      rw [List.foldl_cons, ih, List.flatMap_cons, List.foldl_append]
      cases d <;> rfl

/-! ### What should be shown -/

/-- The snapshots of a server among those delivered. -/
def snapshotsOf (key : String) (items : List ServerInfoSnapshot) : List ServerInfoSnapshot :=
  items.filter fun info => ¬ (info.name = "" ∨ info.type = .unset) ∧ info.cacheKey = key

/-- The entry of a server is its newest snapshot, and no older one has taken the place of a
completed check. -/
structure ShownRight (key : String) (items : List ServerInfoSnapshot) : Prop where
  newest : ∀ entry, cachedServerInfo readMs items key = some entry →
    ∀ info ∈ snapshotsOf key items, info.checkedAt ≤ entry.checkedAt
  kept : ∀ front entry, front <+: items → cachedServerInfo readMs front key = some entry →
    entry.checking = false → ∃ entry', cachedServerInfo readMs items key = some entry' ∧
      entry.checkedAt ≤ entry'.checkedAt

/-- A snapshot of the same millisecond takes the place of the entry. -/
def TakesPlace (existing incoming : ServerInfoSnapshot) : Prop :=
  existing.checking ≠ incoming.checking ∨
    (existing.status = .unset ∧ incoming.status ≠ .unset) ∨
    (existing.status = .unknown ∧ incoming.status ≠ .unset ∧ incoming.status ≠ .unknown)

/-- The snapshot comes in turn: if it is a completed check, no newer one is shown as being checked;
and in the millisecond of the entry it is not older if it takes its place, and not newer if not. -/
structure InTurn (existing incoming : ServerInfoSnapshot) : Prop where
  completed : existing.checking = true → incoming.checking = false →
    existing.checkedAt ≤ incoming.checkedAt
  replaces : readMs existing.checkedAt = readMs incoming.checkedAt →
    TakesPlace existing incoming → existing.checkedAt ≤ incoming.checkedAt
  stays : readMs existing.checkedAt = readMs incoming.checkedAt →
    ¬ TakesPlace existing incoming → incoming.checkedAt ≤ existing.checkedAt

variable {readMs} {key : String} {items : List ServerInfoSnapshot}
  {existing incoming : ServerInfoSnapshot}

/-! ### One snapshot -/

/-- The first snapshot of a server is taken. -/
theorem shouldReplaceServerInfo_none (info : ServerInfoSnapshot) :
    shouldReplaceServerInfo readMs none info = true := rfl

variable (readMs) in
/-- When a snapshot with the same address takes the place of the entry. -/
theorem shouldReplaceServerInfo_iff (haddress : incoming.address = existing.address) :
    shouldReplaceServerInfo readMs (some existing) incoming = true ↔
      (existing.checking = true ∧ incoming.checking = false) ∨
        readMs existing.checkedAt < readMs incoming.checkedAt ∨
        (readMs existing.checkedAt = readMs incoming.checkedAt ∧ TakesPlace existing incoming) := by
  have hsame : ¬ (incoming.address ≠ "" ∧ existing.address ≠ "" ∧
      incoming.address ≠ existing.address) := fun h => h.2.2 haddress
  simp only [shouldReplaceServerInfo, if_neg hsame, serverInfoCheckedAtMs, TakesPlace]
  cases existing.checking <;> cases incoming.checking
  case false.true => simp [le_iff_lt_or_eq]
  case true.false => simp
  all_goals
    rcases lt_trichotomy (readMs existing.checkedAt) (readMs incoming.checkedAt) with h | h | h
    · simp [h]
    · cases existing.status <;> cases incoming.status <;> simp [h]
    · simp [h, h.not_gt, h.ne']

/-- A snapshot comes in turn exactly if it is not older when it takes the place of the entry, and
not newer when it does not. -/
theorem inTurn_iff (hms : Monotone readMs) (haddress : incoming.address = existing.address) :
    InTurn readMs existing incoming ↔
      if shouldReplaceServerInfo readMs (some existing) incoming then
        existing.checkedAt ≤ incoming.checkedAt
      else incoming.checkedAt ≤ existing.checkedAt := by
  have hreplace := shouldReplaceServerInfo_iff readMs haddress
  split_ifs with h
  · rw [hreplace] at h
    constructor
    · rintro ⟨hcompleted, hreplaces, -⟩
      rcases h with ⟨hchecking, hdone⟩ | hlt | ⟨heq, htakes⟩
      · exact hcompleted hchecking hdone
      · exact (hms.reflect_lt hlt).le
      · exact hreplaces heq htakes
    · intro hle
      refine ⟨fun _ _ => hle, fun _ _ => hle, fun heq htakes => ?_⟩
      rcases h with ⟨hchecking, hdone⟩ | hlt | ⟨-, htakes'⟩
      · exact absurd (Or.inl (by rw [hchecking, hdone]; exact Bool.noConfusion)) htakes
      · exact absurd heq hlt.ne
      · exact absurd htakes' htakes
  · rw [hreplace] at h
    obtain ⟨hflags, hnot⟩ := not_or.mp h
    obtain ⟨hlt, htakes⟩ := not_or.mp hnot
    constructor
    · rintro ⟨-, -, hstays⟩
      rcases (not_lt.mp hlt).lt_or_eq with hgt | heq
      · exact (hms.reflect_lt hgt).le
      · exact hstays heq.symm fun htakes' => htakes ⟨heq.symm, htakes'⟩
    · intro hle
      refine ⟨fun hchecking hdone => absurd ⟨hchecking, hdone⟩ hflags,
        fun heq htakes' => absurd ⟨heq, htakes'⟩ htakes, fun _ _ => hle⟩

/-! ### Runs -/

/-- One more snapshot is merged into the cache. -/
theorem cachedServerInfo_snoc (items : List ServerInfoSnapshot) (info : ServerInfoSnapshot) :
    cachedServerInfo readMs (items ++ [info]) =
      mergeServerInfo readMs (cachedServerInfo readMs items) info :=
  List.foldl_append ..

/-- The snapshots of one server come in their order. -/
theorem snapshotsOf_append (items items' : List ServerInfoSnapshot) :
    snapshotsOf key (items ++ items') = snapshotsOf key items ++ snapshotsOf key items' :=
  List.filter_append ..

variable (readMs) in
/-- What a snapshot does to an entry. -/
theorem cachedServerInfo_cases (key : String) (items : List ServerInfoSnapshot)
    (info : ServerInfoSnapshot) :
    (snapshotsOf key [info] = [] ∧
        cachedServerInfo readMs (items ++ [info]) key = cachedServerInfo readMs items key) ∨
      (snapshotsOf key [info] = [info] ∧ cachedServerInfo readMs (items ++ [info]) key =
        if shouldReplaceServerInfo readMs (cachedServerInfo readMs items key) info then some info
        else cachedServerInfo readMs items key) := by
  rw [cachedServerInfo_snoc, mergeServerInfo, snapshotsOf, List.filter_singleton]
  by_cases hskip : info.name = "" ∨ info.type = .unset
  · rw [if_pos hskip]
    exact Or.inl ⟨by simp [hskip], rfl⟩
  rw [if_neg hskip]
  by_cases hkey : info.cacheKey = key
  · subst hkey
    refine Or.inr ⟨by simp [hskip], ?_⟩
    split_ifs
    · exact Function.update_self ..
    · rfl
  · refine Or.inl ⟨by simp [hkey], ?_⟩
    split_ifs
    · exact Function.update_of_ne (Ne.symm hkey) ..
    · rfl

variable (readMs) in
/-- An entry is one of the snapshots of its server, and there is none only while none has come. -/
theorem cachedServerInfo_mem (key : String) (items : List ServerInfoSnapshot) :
    (cachedServerInfo readMs items key = none ∧ snapshotsOf key items = []) ∨
      ∃ entry ∈ snapshotsOf key items, cachedServerInfo readMs items key = some entry := by
  induction items using List.reverseRecOn with
  | nil => exact Or.inl ⟨rfl, rfl⟩
  | append_singleton items info ih =>
      rw [snapshotsOf_append]
      rcases cachedServerInfo_cases readMs key items info with
        ⟨hnil, hsame⟩ | ⟨hinfo, hnext⟩
      · rwa [hnil, hsame, List.append_nil]
      rw [hinfo, hnext]
      refine Or.inr ?_
      split_ifs with hreplace
      · exact ⟨info, List.mem_append_right _ List.mem_cons_self, rfl⟩
      · rcases ih with ⟨hnone, -⟩ | ⟨entry, hentry, hsome⟩
        · rw [hnone] at hreplace
          exact absurd rfl hreplace
        · exact ⟨entry, List.mem_append_left _ hentry, hsome⟩

/-- A snapshot that comes in turn leaves an entry that is not older than it and the entry before. -/
theorem entry_of_inTurn (hms : Monotone readMs) {info : ServerInfoSnapshot} {address : String}
    (hitems : ∀ x ∈ snapshotsOf key items, x.address = address) (hinfo : info.address = address)
    (hours : snapshotsOf key [info] = [info])
    (hturn : ∀ entry, cachedServerInfo readMs items key = some entry → InTurn readMs entry info) :
    ∃ entry', cachedServerInfo readMs (items ++ [info]) key = some entry' ∧
      info.checkedAt ≤ entry'.checkedAt ∧
      ∀ entry, cachedServerInfo readMs items key = some entry →
        entry.checkedAt ≤ entry'.checkedAt := by
  rcases cachedServerInfo_cases readMs key items info with ⟨hnil, -⟩ | ⟨-, hnext⟩
  · rw [hours] at hnil
    cases hnil
  rw [hnext]
  rcases cachedServerInfo_mem readMs key items with ⟨hnone, -⟩ | ⟨entry, hmem, hsome⟩
  · rw [hnone, shouldReplaceServerInfo_none, if_pos rfl]
    exact ⟨info, rfl, Nat.le_refl _, nofun⟩
  · have hfits := (inTurn_iff hms (hinfo.trans (hitems entry hmem).symm)).mp (hturn entry hsome)
    rw [hsome]
    split_ifs at hfits ⊢ with hreplace
    · exact ⟨info, rfl, Nat.le_refl _, fun entry' heq => Option.some.inj heq ▸ hfits⟩
    · exact ⟨entry, rfl, hfits, fun entry' heq => Option.some.inj heq ▸ Nat.le_refl _⟩

/-- A snapshot that comes in turn leaves the right entry. -/
theorem ShownRight.snoc (hms : Monotone readMs) {info : ServerInfoSnapshot} {address : String}
    (h : ShownRight readMs key items)
    (haddress : ∀ x ∈ snapshotsOf key (items ++ [info]), x.address = address)
    (hturn : info ∈ snapshotsOf key [info] → ∀ entry,
      cachedServerInfo readMs items key = some entry → InTurn readMs entry info) :
    ShownRight readMs key (items ++ [info]) := by
  rw [snapshotsOf_append] at haddress
  rcases cachedServerInfo_cases readMs key items info with
    ⟨hnil, hsame⟩ | ⟨hours, -⟩
  · constructor
    · rw [snapshotsOf_append, hnil, List.append_nil, hsame]
      exact h.newest
    · intro front entry hfront hentry hdone
      rcases List.prefix_concat_iff.mp hfront with rfl | hfront
      · exact ⟨entry, hentry, Nat.le_refl _⟩
      · rw [hsame]
        exact h.kept front entry hfront hentry hdone
  · have hmem : info ∈ snapshotsOf key [info] := by
      rw [hours]
      exact List.mem_cons_self
    obtain ⟨entry', hentry', hle, hold⟩ := entry_of_inTurn hms
      (fun x hx => haddress x (List.mem_append_left _ hx))
      (haddress info (List.mem_append_right _ hmem)) hours (hturn hmem)
    constructor
    · intro entry hentry x hx
      obtain rfl := Option.some.inj (hentry'.symm.trans hentry)
      rw [snapshotsOf_append, hours] at hx
      rcases List.mem_append.mp hx with hx | hx
      · rcases cachedServerInfo_mem readMs key items with
          ⟨-, hnone⟩ | ⟨before, -, hbefore⟩
        · rw [hnone] at hx
          cases hx
        · exact (h.newest before hbefore x hx).trans (hold before hbefore)
      · rw [List.mem_singleton.mp hx]
        exact hle
    · intro front entry hfront hentry hdone
      rcases List.prefix_concat_iff.mp hfront with rfl | hfront
      · exact ⟨entry, hentry, Nat.le_refl _⟩
      · obtain ⟨before, hbefore, hkept⟩ := h.kept front entry hfront hentry hdone
        exact ⟨entry', hentry', hkept.trans (hold before hbefore)⟩

/-- A snapshot after which the newest one is shown, as before it, comes in turn. -/
theorem inTurn_of_newest (hms : Monotone readMs) {info entry : ServerInfoSnapshot}
    {address : String} (haddress : ∀ x ∈ snapshotsOf key (items ++ [info]), x.address = address)
    (hours : info ∈ snapshotsOf key [info])
    (hentry : cachedServerInfo readMs items key = some entry)
    (h : ShownRight readMs key (items ++ [info])) : InTurn readMs entry info := by
  rw [snapshotsOf_append] at haddress
  obtain ⟨entry', hmem, hsome⟩ : ∃ entry' ∈ snapshotsOf key items,
      cachedServerInfo readMs items key = some entry' := by
    rcases cachedServerInfo_mem readMs key items with ⟨hnone, -⟩ | hsome
    · rw [hnone] at hentry
      cases hentry
    · exact hsome
  obtain rfl := Option.some.inj (hsome.symm.trans hentry)
  have hall := h.newest
  rw [snapshotsOf_append] at hall
  rcases cachedServerInfo_cases readMs key items info with
    ⟨hnil, -⟩ | ⟨-, hnext⟩
  · rw [hnil] at hours
    cases hours
  rw [inTurn_iff hms ((haddress info (List.mem_append_right _ hours)).trans
    (haddress entry' (List.mem_append_left _ hmem)).symm)]
  rw [hnext, hsome] at hall
  split_ifs at hall ⊢
  · exact hall info rfl entry' (List.mem_append_left _ hmem)
  · exact hall entry' rfl info (List.mem_append_right _ hours)

/-- **The newest snapshot is shown**, and takes the place of older ones only, at every moment of a
run in which the snapshots of a server have one address, exactly if they come in turn. -/
theorem run_shown_iff (hms : Monotone readMs) {address : String}
    (haddress : ∀ x ∈ snapshotsOf key items, x.address = address) :
    (∀ front, front <+: items → ShownRight readMs key front) ↔
      ∀ front info, front ++ [info] <+: items → info ∈ snapshotsOf key [info] →
        ∀ entry, cachedServerInfo readMs front key = some entry → InTurn readMs entry info := by
  have hfront {front : List ServerInfoSnapshot} (hpre : front <+: items) :
      ∀ x ∈ snapshotsOf key front, x.address = address :=
    fun x hx => haddress x ((hpre.filter _).subset hx)
  constructor
  · intro h front info hpre hours entry hentry
    exact inTurn_of_newest hms (hfront hpre) hours hentry (h _ hpre)
  · intro h front hpre
    induction front using List.reverseRecOn with
    | nil =>
        refine ⟨nofun, fun front entry hnil hentry => ?_⟩
        rw [List.prefix_nil.mp hnil] at hentry
        cases hentry
    | append_singleton front info ih =>
        exact (ih ((List.prefix_append front [info]).trans hpre)).snoc hms (hfront hpre)
          (h front info hpre)

end

/-! ### Snapshots that come in turn, and out of turn -/

/-- The browser reads nanoseconds as milliseconds. -/
def toMs (t : ℕ) : ℤ := (t / 1000000 : ℕ)

/-- Rounding to milliseconds keeps the order. -/
theorem monotone_toMs : Monotone toMs :=
  fun _ _ h => Int.ofNat_le.mpr (Nat.div_le_div_right h)

/-- A snapshot of a server that is online. -/
def onlineInfo (checkedAt : ℕ) (checking : Bool) : ServerInfoSnapshot :=
  ⟨.remote, "nas", "http://nas:8080", "1.0", .online, checkedAt, checking⟩

/-- A check that is repeated, in turn. -/
theorem shown_in_turn :
    ShownRight toMs "remote:nas" [onlineInfo 5000000 true] ∧
      ShownRight toMs "remote:nas" [onlineInfo 5000000 true, onlineInfo 9000000 false] := by
  have haddress : ∀ x ∈ snapshotsOf "remote:nas"
      [onlineInfo 5000000 true, onlineInfo 9000000 false], x.address = "http://nas:8080" := by
    decide
  have hshown := (run_shown_iff monotone_toMs haddress).mpr (by
    rintro front info ⟨back, hback⟩ - entry hentry
    rcases front with _ | ⟨first, _ | ⟨second, front⟩⟩
    · cases hentry
    · obtain ⟨rfl, rfl, -⟩ : first = onlineInfo 5000000 true ∧ info = onlineInfo 9000000 false ∧
          back = [] := by simpa using hback
      have hcached : cachedServerInfo toMs [onlineInfo 5000000 true] "remote:nas" =
          some (onlineInfo 5000000 true) := by decide
      obtain rfl := Option.some.inj (hcached.symm.trans hentry)
      exact ⟨fun _ _ => by decide, fun _ _ => by decide, fun h => absurd h (by decide)⟩
    · simp at hback)
  exact ⟨hshown _ (List.prefix_append _ [_]), hshown _ (List.prefix_refl _)⟩

/-- A completed check comes back after a newer one, because the newer one is being repeated. -/
theorem old_check_can_return :
    ¬ ∀ (readMs : ℕ → ℤ) (key address : String) (items : List ServerInfoSnapshot),
      Monotone readMs → (∀ x ∈ snapshotsOf key items, x.address = address) →
      ShownRight readMs key items := by
  intro h
  have hright := h toMs "remote:nas" "http://nas:8080"
    [onlineInfo 9000000 false, onlineInfo 9000000 true, onlineInfo 5000000 false]
    monotone_toMs (by decide)
  have hnewest := hright.newest (onlineInfo 5000000 false) (by decide)
    (onlineInfo 9000000 false) (by decide)
  exact absurd hnewest (by decide)

end Contiwatch
