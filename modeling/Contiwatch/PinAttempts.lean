import Contiwatch.Lib.GoMap
import Contiwatch.Lib.GoTime
import Contiwatch.Lib.TokenBucket
import Mathlib.Algebra.Order.Floor.Ring
import Mathlib.Data.Rat.Floor

/-!
# PIN Attempts

The brute-force protection of `internal/server/pin_guard.go`: the table of failed attempts
per client address with its lockout backoff, its pruning and its capacity, and the global
token bucket. Every operation runs in one critical section under `pinMu`; a reading of the
clock is the argument `now`. The token count is an exact rational.

## Main results

* `pinBeforeVerify_spec` — what the check before a comparison can do: it prunes, and it
  refuses a client whose lock lies in the future or when no token is left.
* `AttemptInv` — the invariant that joins table and bucket: for every instant `T`, the
  entries updated since `T` and the tokens left are paid for by the burst and the time
  since `T`. `AttemptInv.before` and `AttemptInv.failure` keep it.
* `AttemptInv.room_keeps_lock` — under the invariant, the eviction that makes room for a
  client drops no entry whose lock is in force.
-/

namespace Contiwatch

open GoTime

/-! ### Constants -/

/-- `pinAttemptRetention`. -/
def pinAttemptRetention : ℕ := 24 * hour

/-- `pinAttemptPruneEvery`. -/
def pinAttemptPruneEvery : ℕ := 10 * minute

/-- `pinAttemptMaxEntries`. -/
def pinAttemptMaxEntries : ℕ := 4096

/-- `pinGlobalBurst`. -/
def pinGlobalBurst : ℚ := 20

/-- `pinGlobalRefillRate`, in tokens per second. -/
def pinGlobalRefillRate : ℚ := 1

/-! ### State and operations -/

/-- `pinAttemptEntry`: the failures on record for one client address. -/
structure PinAttemptEntry where
  failures : ℕ
  lockedTo : ℕ
  updatedAt : ℕ
  deriving DecidableEq, Repr

/-- The zero value of `pinAttemptEntry`, read for an absent key. -/
instance : Inhabited PinAttemptEntry := ⟨⟨0, 0, 0⟩⟩

/-- The fields of `Server` that track PIN attempts. -/
structure PinAttemptState where
  pinAttempts : GoMap String PinAttemptEntry
  pinAttemptsLastPruned : ℕ
  pinGlobalTokens : ℚ
  pinGlobalLastRefill : ℕ

/-- The attempt fields as `New` sets them at `now`. -/
def PinAttemptState.new (now : ℕ) : PinAttemptState where
  pinAttempts := ∅
  pinAttemptsLastPruned := 0
  pinGlobalTokens := pinGlobalBurst
  pinGlobalLastRefill := now

/-- `entry := s.pinAttempts[ip]`: the zero entry for an absent key. -/
def PinAttemptState.entry (s : PinAttemptState) (ip : String) : PinAttemptEntry :=
  (s.pinAttempts.lookup ip).getD default

/-- The client's lock lies in the future. -/
def PinAttemptEntry.Locked (e : PinAttemptEntry) (now : ℕ) : Prop :=
  e.lockedTo ≠ 0 ∧ now < e.lockedTo

instance (e : PinAttemptEntry) (now : ℕ) : Decidable (e.Locked now) :=
  inferInstanceAs (Decidable (_ ∧ _))

/-- The deletion test of the pruning loop. -/
def PinAttemptEntry.Stale (e : PinAttemptEntry) (now : ℕ) : Prop :=
  e.updatedAt = 0 ∨ pinAttemptRetention < now - e.updatedAt

instance (e : PinAttemptEntry) (now : ℕ) : Decidable (e.Stale now) :=
  inferInstanceAs (Decidable (_ ∨ _))

/-- `prunePinAttemptsLocked`: drop entries past their retention, at most once every ten
minutes unless the table is full. -/
def prunePinAttemptsLocked (now : ℕ) (s : PinAttemptState) : PinAttemptState :=
  if GoMap.len s.pinAttempts = 0 then { s with pinAttemptsLastPruned := now }
  else if GoMap.len s.pinAttempts < pinAttemptMaxEntries ∧ s.pinAttemptsLastPruned ≠ 0 ∧
      now - s.pinAttemptsLastPruned < pinAttemptPruneEvery then s
  else
    { s with
      pinAttempts := GoMap.filter (fun _ e => !decide (e.Stale now)) s.pinAttempts
      pinAttemptsLastPruned := now }

/-- One turn of the eviction loop: keep the older of the best entry so far and `ip`'s. The
empty address marks that no entry was seen. -/
def olderEntry (m : GoMap String PinAttemptEntry) (best : String × ℕ) (ip : String) :
    String × ℕ :=
  match m.lookup ip with
  | some e => if best.1 = "" ∨ e.updatedAt < best.2 then (ip, e.updatedAt) else best
  | none => best

/-- `ensurePinAttemptCapacityLocked`: a full table gives up its oldest entry. `order` is the
order in which `range` visits the table; among equally old entries the first one goes. -/
def ensurePinAttemptCapacityLocked (order : List String) (s : PinAttemptState) :
    PinAttemptState :=
  if GoMap.len s.pinAttempts < pinAttemptMaxEntries then s
  else
    let oldest := order.foldl (olderEntry s.pinAttempts) ("", 0)
    if oldest.1 ≠ "" then { s with pinAttempts := s.pinAttempts.erase oldest.1 } else s

/-- `consumeGlobalPinAttemptLocked`: take a token of the global bucket, or report the
seconds to wait. -/
def consumeGlobalPinAttemptLocked (now : ℕ) (s : PinAttemptState) :
    (Bool × ℕ) × PinAttemptState :=
  let s := if s.pinGlobalLastRefill = 0 then
      { s with pinGlobalTokens := pinGlobalBurst, pinGlobalLastRefill := now }
    else s
  let elapsed := seconds (now - s.pinGlobalLastRefill)
  let s := if 0 < elapsed then
      { s with
        pinGlobalTokens :=
          min pinGlobalBurst (s.pinGlobalTokens + elapsed * pinGlobalRefillRate)
        pinGlobalLastRefill := now }
    else s
  if s.pinGlobalTokens < 1 then
    let waitSeconds := ⌈(1 - s.pinGlobalTokens) / pinGlobalRefillRate⌉₊
    ((false, if waitSeconds < 1 then 1 else waitSeconds), s)
  else ((true, 0), { s with pinGlobalTokens := s.pinGlobalTokens - 1 })

/-- `pinBeforeVerify`: prune, refuse a locked client, then ask the global bucket. -/
def pinBeforeVerify (now : ℕ) (ip : String) (s : PinAttemptState) :
    (Bool × ℕ) × PinAttemptState :=
  let s := prunePinAttemptsLocked now s
  let entry := s.entry ip
  if entry.Locked now then
    let secs := (entry.lockedTo - now) / second
    ((false, if secs < 1 then 1 else secs), s)
  else consumeGlobalPinAttemptLocked now s

/-- `pinOnVerifySuccess`: forget the client's failures. -/
def pinOnVerifySuccess (ip : String) (s : PinAttemptState) : PinAttemptState :=
  { s with pinAttempts := s.pinAttempts.erase ip }

/-- The backoff: one minute at the fifth failure, doubling up to 32 minutes. -/
def lockFor (failures : ℕ) : ℕ :=
  2 ^ (if failures - 5 > 5 then 5 else failures - 5) * minute

/-- The entry written by a failure at `now` over the entry `e`. -/
def PinAttemptEntry.fail (e : PinAttemptEntry) (now : ℕ) : PinAttemptEntry where
  failures := e.failures + 1
  lockedTo := if 5 ≤ e.failures + 1 then now + lockFor (e.failures + 1) else e.lockedTo
  updatedAt := now

/-- The answer `(lockApplied, retryAfterSeconds)` to a failure over the entry `e`. -/
def PinAttemptEntry.failAnswer (e : PinAttemptEntry) : Bool × ℕ :=
  if 5 ≤ e.failures + 1 then (true, lockFor (e.failures + 1) / second) else (false, 0)

/-- `pinOnVerifyFailure`: prune, make room for a new client, then record the failure and,
from the fifth on, a lock. -/
def pinOnVerifyFailure (now : ℕ) (order : List String) (ip : String)
    (s : PinAttemptState) : (Bool × ℕ) × PinAttemptState :=
  let s := prunePinAttemptsLocked now s
  let s := if ip ∈ s.pinAttempts then s else ensurePinAttemptCapacityLocked order s
  ((s.entry ip).failAnswer,
    { s with pinAttempts := s.pinAttempts.insert ip ((s.entry ip).fail now) })

/-! ### Pruning -/

/-- Pruning does not touch the bucket. -/
@[simp] theorem prunePinAttemptsLocked_tokens (now : ℕ) (s : PinAttemptState) :
    (prunePinAttemptsLocked now s).pinGlobalTokens = s.pinGlobalTokens := by
  simp only [prunePinAttemptsLocked]
  split_ifs <;> rfl

/-- Nor the time of its refill. -/
@[simp] theorem prunePinAttemptsLocked_lastRefill (now : ℕ) (s : PinAttemptState) :
    (prunePinAttemptsLocked now s).pinGlobalLastRefill = s.pinGlobalLastRefill := by
  simp only [prunePinAttemptsLocked]
  split_ifs <;> rfl

/-- Pruning only drops entries. -/
theorem lookup_of_lookup_prune {now : ℕ} {s : PinAttemptState} {ip : String}
    {e : PinAttemptEntry}
    (h : (prunePinAttemptsLocked now s).pinAttempts.lookup ip = some e) :
    s.pinAttempts.lookup ip = some e := by
  simp only [prunePinAttemptsLocked] at h
  split_ifs at h
  · exact h
  · exact h
  · rw [GoMap.lookup_filter, Option.filter_eq_some_iff] at h
    exact h.1

/-- Pruning keeps every entry within its retention. -/
theorem lookup_prune_of_not_stale {now : ℕ} {s : PinAttemptState} {ip : String}
    {e : PinAttemptEntry} (h : s.pinAttempts.lookup ip = some e) (hfresh : ¬ e.Stale now) :
    (prunePinAttemptsLocked now s).pinAttempts.lookup ip = some e := by
  simp only [prunePinAttemptsLocked]
  split_ifs
  · exact h
  · exact h
  · rw [GoMap.lookup_filter, h, Option.filter_some, if_pos (by simpa using hfresh)]

/-! ### Eviction -/

/-- `best` names an entry of `m` together with its update time. -/
def IsEntry (m : GoMap String PinAttemptEntry) (best : String × ℕ) : Prop :=
  best.1 ≠ "" ∧ ∃ e, m.lookup best.1 = some e ∧ e.updatedAt = best.2

/-- One turn of the eviction loop at a key of the table: the result names an entry no younger
than the one just seen, nor than the best one before. -/
theorem isEntry_olderEntry {m : GoMap String PinAttemptEntry} {best : String × ℕ}
    {ip : String} {e : PinAttemptEntry} (hip : ip ≠ "") (he : m.lookup ip = some e)
    (hbest : best.1 = "" ∨ IsEntry m best) :
    IsEntry m (olderEntry m best ip) ∧ (olderEntry m best ip).2 ≤ e.updatedAt ∧
      (best.1 ≠ "" → (olderEntry m best ip).2 ≤ best.2) := by
  simp only [olderEntry, he]
  by_cases hcond : best.1 = "" ∨ e.updatedAt < best.2
  · rw [if_pos hcond]
    refine ⟨⟨hip, e, he, rfl⟩, le_rfl, fun hne => ?_⟩
    exact (hcond.resolve_left hne).le
  · rw [if_neg hcond]
    obtain ⟨hne, hle⟩ := not_or.mp hcond
    exact ⟨hbest.resolve_left hne, not_lt.mp hle, fun _ => le_rfl⟩

/-- **The eviction loop finds an oldest entry**, whatever the order of the visit. Induction
on the keys still to visit; the best entry so far is carried along. -/
theorem isEntry_foldl_olderEntry {m : GoMap String PinAttemptEntry} (order : List String)
    (hkeys : ∀ ip ∈ order, ip ≠ "" ∧ ip ∈ m) (best : String × ℕ) (hbest : IsEntry m best) :
    IsEntry m (order.foldl (olderEntry m) best) ∧
      (order.foldl (olderEntry m) best).2 ≤ best.2 ∧
      ∀ ip ∈ order, ∀ e, m.lookup ip = some e →
        (order.foldl (olderEntry m) best).2 ≤ e.updatedAt := by
  induction order generalizing best with
  | nil => exact ⟨hbest, le_rfl, by simp⟩
  | cons ip order ih =>
      obtain ⟨hip, hmem⟩ := hkeys ip (List.mem_cons_self ..)
      obtain ⟨e, he⟩ := Finmap.mem_iff.mp hmem
      obtain ⟨hentry, hle, hbest'⟩ := isEntry_olderEntry hip he (Or.inr hbest)
      obtain ⟨h1, h2, h3⟩ := ih (fun ip' h => hkeys ip' (List.mem_cons_of_mem _ h)) _ hentry
      refine ⟨h1, le_trans h2 (hbest' hbest.1), ?_⟩
      intro ip' hip' e' he'
      rcases List.mem_cons.mp hip' with rfl | hrest
      · rw [he] at he'
        obtain rfl := Option.some.inj he'
        exact le_trans h2 hle
      · exact h3 ip' hrest e' he'

/-- A full table gives up one entry, an oldest one. -/
theorem ensurePinAttemptCapacityLocked_full {order : List String} {s : PinAttemptState}
    (hrange : GoMap.IsRange s.pinAttempts order) (hempty : "" ∉ s.pinAttempts)
    (hfull : pinAttemptMaxEntries ≤ GoMap.len s.pinAttempts) :
    ∃ victim e, s.pinAttempts.lookup victim = some e ∧
      (∀ ip e', s.pinAttempts.lookup ip = some e' → e.updatedAt ≤ e'.updatedAt) ∧
      ensurePinAttemptCapacityLocked order s =
        { s with pinAttempts := s.pinAttempts.erase victim } := by
  have hkeys : ∀ ip ∈ order, ip ≠ "" ∧ ip ∈ s.pinAttempts := by
    intro ip hip
    have hmem := (hrange.2 ip).mp hip
    refine ⟨?_, hmem⟩
    rintro rfl
    exact hempty hmem
  cases order with
  | nil =>
      have hnone : GoMap.len s.pinAttempts = 0 := by
        rw [GoMap.len_eq_zero]
        intro ip
        rw [Finmap.lookup_eq_none]
        exact fun hip => absurd ((hrange.2 ip).mpr hip) (List.not_mem_nil)
      rw [hnone] at hfull
      exact absurd hfull (by decide)
  | cons ip order =>
      obtain ⟨hip, hmem⟩ := hkeys ip (List.mem_cons_self ..)
      obtain ⟨e₀, he₀⟩ := Finmap.mem_iff.mp hmem
      obtain ⟨hentry, hle, -⟩ := isEntry_olderEntry hip he₀ (Or.inl rfl : ("", 0).1 = "" ∨ _)
      obtain ⟨⟨hne, e, he, heq⟩, h2, h3⟩ := isEntry_foldl_olderEntry order
        (fun ip' h => hkeys ip' (List.mem_cons_of_mem _ h)) _ hentry
      refine ⟨_, e, he, ?_, ?_⟩
      · intro ip' e' he'
        have hin := (hrange.2 ip').mpr (Finmap.mem_of_lookup_eq_some he')
        rw [heq]
        rcases List.mem_cons.mp hin with rfl | hrest
        · rw [he₀] at he'
          obtain rfl := Option.some.inj he'
          exact le_trans h2 hle
        · exact h3 ip' hrest e' he'
      · rw [ensurePinAttemptCapacityLocked, if_neg (not_lt.mpr hfull), List.foldl_cons]
        exact if_pos hne

/-! ### The global bucket -/

/-- The two bucket fields as a token bucket, with the clock in seconds. -/
def PinAttemptState.bucket (s : PinAttemptState) : Bucket ℚ :=
  ⟨s.pinGlobalTokens, seconds s.pinGlobalLastRefill⟩

/-- **The code's limiter is a token bucket**: taking a token is `Bucket.take`, and nothing
else changes. -/
theorem consumeGlobalPinAttemptLocked_eq {now : ℕ} {s : PinAttemptState}
    (hrefill : s.pinGlobalLastRefill ≠ 0) (hnow : s.pinGlobalLastRefill ≤ now) :
    ((consumeGlobalPinAttemptLocked now s).1.1 =
        (s.bucket.take pinGlobalBurst pinGlobalRefillRate (seconds now)).1) ∧
      (consumeGlobalPinAttemptLocked now s).2.bucket =
        (s.bucket.take pinGlobalBurst pinGlobalRefillRate (seconds now)).2 ∧
      (consumeGlobalPinAttemptLocked now s).2.pinGlobalLastRefill = now ∧
      (consumeGlobalPinAttemptLocked now s).2.pinAttempts = s.pinAttempts := by
  have helapsed : seconds now - seconds s.pinGlobalLastRefill =
      seconds (now - s.pinGlobalLastRefill) := (seconds_sub hnow).symm
  simp only [consumeGlobalPinAttemptLocked, if_neg hrefill, Bucket.take, Bucket.refill,
    PinAttemptState.bucket, helapsed]
  by_cases hpos : 0 < seconds (now - s.pinGlobalLastRefill)
  · simp only [if_pos hpos]
    split_ifs <;> exact ⟨rfl, rfl, rfl, rfl⟩
  · have hlast : s.pinGlobalLastRefill = now := by
      rw [seconds_pos] at hpos
      omega
    simp only [if_neg hpos]
    split_ifs <;> exact ⟨rfl, rfl, hlast, rfl⟩

/-! ### The invariant -/

/-- The number of clients whose entry was updated at or after `T`. -/
def PinAttemptState.updatedSince (s : PinAttemptState) (T : ℕ) : ℕ :=
  GoMap.count (fun e => decide (T ≤ e.updatedAt)) s.pinAttempts

/-- The invariant of the attempt fields at the clock reading `clock`. The parameter `k` is
the number of recorded failures that the bucket has not charged to the time since its
latest refill: `0` between an admission and the failure it leads to, `1` otherwise. -/
structure AttemptInv (clock : ℕ) (k : ℕ) (s : PinAttemptState) : Prop where
  no_empty : "" ∉ s.pinAttempts
  capacity : GoMap.len s.pinAttempts ≤ pinAttemptMaxEntries
  updated : ∀ {ip e}, s.pinAttempts.lookup ip = some e →
    0 < e.updatedAt ∧ e.updatedAt ≤ clock ∧ e.lockedTo ≤ e.updatedAt + 32 * minute
  refilled : 0 < s.pinGlobalLastRefill ∧ s.pinGlobalLastRefill ≤ clock
  valid : s.bucket.Valid pinGlobalBurst
  /-- Entries since `T` and tokens left are paid for by the burst and the time since `T`. -/
  paid : ∀ T ≤ s.pinGlobalLastRefill, (s.updatedSince T : ℚ) + s.pinGlobalTokens ≤
    20 + k + (seconds s.pinGlobalLastRefill - seconds T)
  late : ∀ T, s.pinGlobalLastRefill < T → s.updatedSince T ≤ k

/-- A new guard satisfies the invariant. -/
theorem attemptInv_new {now : ℕ} (hnow : 0 < now) :
    AttemptInv now 1 (PinAttemptState.new now) where
  no_empty := Finmap.notMem_empty
  capacity := by simp [PinAttemptState.new]
  updated := by
    intro ip e h
    exact absurd h (by simp [PinAttemptState.new])
  refilled := ⟨hnow, le_rfl⟩
  valid := ⟨by norm_num [PinAttemptState.bucket, PinAttemptState.new, pinGlobalBurst], le_rfl⟩
  paid := by
    intro T hT
    have := seconds_le_seconds.mpr hT
    simp only [PinAttemptState.updatedSince, PinAttemptState.new, GoMap.count_empty,
      pinGlobalBurst] at this ⊢
    push_cast
    linarith
  late := by
    intro T _
    simp [PinAttemptState.updatedSince, PinAttemptState.new]

/-- The invariant survives the passing of time and the loss of entries: whatever keeps the
bucket and only drops entries keeps it. -/
theorem AttemptInv.of_drop {clock clock' : ℕ} {k : ℕ} {s s' : PinAttemptState}
    (h : AttemptInv clock k s) (hclock : clock ≤ clock')
    (htokens : s'.pinGlobalTokens = s.pinGlobalTokens)
    (hlast : s'.pinGlobalLastRefill = s.pinGlobalLastRefill)
    (hdrop : ∀ ip e, s'.pinAttempts.lookup ip = some e → s.pinAttempts.lookup ip = some e) :
    AttemptInv clock' k s' where
  no_empty := by
    intro hmem
    obtain ⟨e, he⟩ := Finmap.mem_iff.mp hmem
    exact h.no_empty (Finmap.mem_of_lookup_eq_some (hdrop _ _ he))
  capacity := by
    refine le_trans (Finset.card_le_card fun ip hip => ?_) h.capacity
    obtain ⟨e, he⟩ := Finmap.mem_iff.mp (Finmap.mem_keys.mp hip)
    exact Finmap.mem_keys.mpr (Finmap.mem_of_lookup_eq_some (hdrop _ _ he))
  updated := by
    intro ip e he
    obtain ⟨h0, h1, h2⟩ := h.updated (hdrop _ _ he)
    exact ⟨h0, le_trans h1 hclock, h2⟩
  refilled := by
    rw [hlast]
    exact ⟨h.refilled.1, le_trans h.refilled.2 hclock⟩
  valid := by
    have := h.valid
    rw [Bucket.Valid, PinAttemptState.bucket] at this ⊢
    rwa [htokens]
  paid := by
    intro T hT
    rw [hlast] at hT ⊢
    rw [htokens]
    have hcount : (s'.updatedSince T : ℚ) ≤ s.updatedSince T :=
      Nat.cast_le.mpr (GoMap.count_le_of_lookup hdrop)
    exact le_trans (add_le_add_left hcount _) (h.paid T hT)
  late := by
    intro T hT
    rw [hlast] at hT
    exact le_trans (GoMap.count_le_of_lookup hdrop) (h.late T hT)

/-- Pruning keeps it. -/
theorem AttemptInv.prune {clock now : ℕ} {k : ℕ} {s : PinAttemptState}
    (h : AttemptInv clock k s) (hnow : clock ≤ now) :
    AttemptInv now k (prunePinAttemptsLocked now s) :=
  h.of_drop hnow (by simp) (by simp) fun _ _ => lookup_of_lookup_prune

/-- A success keeps it. -/
theorem AttemptInv.success {clock now : ℕ} {k : ℕ} {s : PinAttemptState}
    (h : AttemptInv clock k s) (hnow : clock ≤ now) (ip : String) :
    AttemptInv now k (pinOnVerifySuccess ip s) := by
  refine h.of_drop hnow rfl rfl fun ip' e he => ?_
  by_cases heq : ip' = ip
  · subst heq
    exact absurd he (by simp [pinOnVerifySuccess])
  · rwa [pinOnVerifySuccess, Finmap.lookup_erase_ne heq] at he

/-- No entry is younger than the clock. -/
theorem AttemptInv.updatedSince_eq_zero {clock T : ℕ} {k : ℕ} {s : PinAttemptState}
    (h : AttemptInv clock k s) (hT : clock < T) : s.updatedSince T = 0 := by
  refine GoMap.count_eq_zero fun ip e he => ?_
  have := (h.updated he).2.1
  exact decide_eq_false (by omega)

/-- The accounting of one look at the bucket at `now`: a refill that leaves the table alone
and whose tokens are bounded by what was earned and by the burst, less `1 - k`, moves the
charge of every entry up to `now`. -/
theorem AttemptInv.of_take {clock now : ℕ} {k : ℕ} {s s' : PinAttemptState}
    (h : AttemptInv clock 1 s) (hnow : clock ≤ now)
    (htable : s'.pinAttempts = s.pinAttempts) (hlast : s'.pinGlobalLastRefill = now)
    (hvalid : s'.bucket.Valid pinGlobalBurst)
    (hearned : s'.pinGlobalTokens + 1 ≤
      s.pinGlobalTokens + (seconds now - seconds s.pinGlobalLastRefill) + k)
    (hburst : s'.pinGlobalTokens + 1 ≤ 20 + k) : AttemptInv now k s' where
  no_empty := htable ▸ h.no_empty
  capacity := htable ▸ h.capacity
  updated := by
    intro ip e he
    rw [htable] at he
    obtain ⟨h0, h1, h2⟩ := h.updated he
    exact ⟨h0, le_trans h1 hnow, h2⟩
  refilled := by
    rw [hlast]
    exact ⟨lt_of_lt_of_le h.refilled.1 (le_trans h.refilled.2 hnow), le_rfl⟩
  valid := hvalid
  paid := by
    intro T hT
    rw [hlast] at hT ⊢
    have hcount : s'.updatedSince T = s.updatedSince T := by
      rw [PinAttemptState.updatedSince, htable, PinAttemptState.updatedSince]
    rw [hcount]
    rcases le_or_gt T s.pinGlobalLastRefill with hle | hgt
    · have hpaid := h.paid T hle
      push_cast at hpaid
      linarith
    · have hlate : (s.updatedSince T : ℚ) ≤ 1 := by exact_mod_cast h.late T hgt
      have hsec := seconds_le_seconds.mpr hT
      linarith
  late := by
    intro T hT
    rw [hlast] at hT
    have hzero := h.updatedSince_eq_zero (lt_of_le_of_lt hnow hT)
    rw [PinAttemptState.updatedSince] at hzero ⊢
    rw [htable, hzero]
    exact Nat.zero_le k

/-- A look at the bucket keeps the invariant, and an admission buys the right to one more
recorded failure. -/
theorem AttemptInv.consume {clock now : ℕ} {s : PinAttemptState} (h : AttemptInv clock 1 s)
    (hnow : clock ≤ now) :
    AttemptInv now 1 (consumeGlobalPinAttemptLocked now s).2 ∧
      ((consumeGlobalPinAttemptLocked now s).1.1 = true →
        AttemptInv now 0 (consumeGlobalPinAttemptLocked now s).2) := by
  have hlast : s.pinGlobalLastRefill ≤ now := le_trans h.refilled.2 hnow
  have hblast : s.bucket.last ≤ seconds now := seconds_le_seconds.mpr hlast
  obtain ⟨hadm, hbucket, hrefill, htable⟩ :=
    consumeGlobalPinAttemptLocked_eq h.refilled.1.ne' hlast
  have htokens : (consumeGlobalPinAttemptLocked now s).2.pinGlobalTokens =
      (s.bucket.take pinGlobalBurst pinGlobalRefillRate (seconds now)).2.tokens :=
    congrArg Bucket.tokens hbucket
  have hburst0 : (0 : ℚ) ≤ pinGlobalBurst := by norm_num [pinGlobalBurst]
  have hrate0 : (0 : ℚ) ≤ pinGlobalRefillRate := by norm_num [pinGlobalRefillRate]
  have hvalid : (consumeGlobalPinAttemptLocked now s).2.bucket.Valid pinGlobalBurst :=
    hbucket ▸ h.valid.take (seconds now) hburst0 hrate0
  have hcap : (consumeGlobalPinAttemptLocked now s).2.pinGlobalTokens ≤ 20 := hvalid.2
  constructor
  · have hle := Bucket.tokens_take_le pinGlobalBurst pinGlobalRefillRate hblast
    rw [← htokens] at hle
    simp only [PinAttemptState.bucket, pinGlobalRefillRate, mul_one] at hle
    refine h.of_take hnow htable hrefill hvalid ?_ ?_ <;> push_cast <;> linarith
  · intro hok
    rw [hadm] at hok
    have hle := Bucket.tokens_take_admitted hblast hok
    have hle20 := Bucket.tokens_take_admitted_le_burst hburst0 hrate0 h.valid hok
    rw [← htokens] at hle hle20
    simp only [PinAttemptState.bucket, pinGlobalRefillRate, mul_one] at hle
    simp only [pinGlobalBurst] at hle20
    refine h.of_take hnow htable hrefill hvalid ?_ ?_ <;> push_cast <;> linarith

/-! ### The check before a comparison -/

/-- Only an unlocked client is admitted, and the check leaves the pruned table. -/
theorem pinBeforeVerify_spec (now : ℕ) (ip : String) (s : PinAttemptState)
    (hrefill : s.pinGlobalLastRefill ≠ 0) (hlast : s.pinGlobalLastRefill ≤ now) :
    (pinBeforeVerify now ip s).2.pinAttempts = (prunePinAttemptsLocked now s).pinAttempts ∧
      ((pinBeforeVerify now ip s).1.1 = true →
        ¬ ((prunePinAttemptsLocked now s).entry ip).Locked now) := by
  simp only [pinBeforeVerify]
  by_cases hlocked : ((prunePinAttemptsLocked now s).entry ip).Locked now
  · simp only [if_pos hlocked, true_and]
    exact fun h => absurd h Bool.false_ne_true
  · rw [if_neg hlocked]
    obtain ⟨-, -, -, htable⟩ := consumeGlobalPinAttemptLocked_eq
      (s := prunePinAttemptsLocked now s) (by simpa using hrefill) (by simpa using hlast)
    exact ⟨htable, fun _ => hlocked⟩

/-- The check keeps it, and an admission has taken its token. -/
theorem AttemptInv.before {clock now : ℕ} {s : PinAttemptState} (h : AttemptInv clock 1 s)
    (hnow : clock ≤ now) (ip : String) :
    AttemptInv now 1 (pinBeforeVerify now ip s).2 ∧
      ((pinBeforeVerify now ip s).1.1 = true →
        AttemptInv now 0 (pinBeforeVerify now ip s).2) := by
  have hpruned := h.prune hnow
  simp only [pinBeforeVerify]
  by_cases hlocked : ((prunePinAttemptsLocked now s).entry ip).Locked now
  · rw [if_pos hlocked]
    exact ⟨hpruned, fun h => absurd h Bool.false_ne_true⟩
  · rw [if_neg hlocked]
    exact hpruned.consume le_rfl

/-! ### Recording a failure -/

/-- No lock is longer than 32 minutes. -/
theorem lockFor_le (failures : ℕ) : lockFor failures ≤ 32 * minute := by
  have hexp : (if failures - 5 > 5 then 5 else failures - 5) ≤ 5 := by
    split_ifs <;> omega
  exact Nat.mul_le_mul_right minute (Nat.pow_le_pow_right two_pos hexp)

/-- A lock lasts a whole number of seconds. -/
theorem lockFor_div_mul (failures : ℕ) : lockFor failures / second * second = lockFor failures := by
  have hdvd : second ∣ lockFor failures := by
    rw [lockFor, minute, ← mul_assoc]
    exact Dvd.intro_left _ rfl
  exact Nat.div_mul_cancel hdvd

/-- The table a failure is recorded in: pruned, and with room made for a new client. -/
def roomFor (now : ℕ) (order : List String) (ip : String) (s : PinAttemptState) :
    PinAttemptState :=
  if ip ∈ (prunePinAttemptsLocked now s).pinAttempts then prunePinAttemptsLocked now s
  else ensurePinAttemptCapacityLocked order (prunePinAttemptsLocked now s)

/-- A failure is written over its entry in the table with room made. -/
theorem pinOnVerifyFailure_eq (now : ℕ) (order : List String) (ip : String)
    (s : PinAttemptState) :
    pinOnVerifyFailure now order ip s =
      ((((roomFor now order ip s).entry ip).failAnswer),
        { roomFor now order ip s with
          pinAttempts := (roomFor now order ip s).pinAttempts.insert ip
            (((roomFor now order ip s).entry ip).fail now) }) :=
  rfl

/-- Making room does not touch the bucket. -/
@[simp] theorem roomFor_tokens (now : ℕ) (order : List String) (ip : String)
    (s : PinAttemptState) : (roomFor now order ip s).pinGlobalTokens = s.pinGlobalTokens := by
  simp only [roomFor, ensurePinAttemptCapacityLocked]
  split_ifs <;> simp

/-- Nor the time of its refill. -/
@[simp] theorem roomFor_lastRefill (now : ℕ) (order : List String) (ip : String)
    (s : PinAttemptState) :
    (roomFor now order ip s).pinGlobalLastRefill = s.pinGlobalLastRefill := by
  simp only [roomFor, ensurePinAttemptCapacityLocked]
  split_ifs <;> simp

/-- Making room only drops entries. -/
theorem lookup_of_lookup_roomFor {now : ℕ} {order : List String} {ip : String}
    {s : PinAttemptState} {ip' : String} {e : PinAttemptEntry}
    (h : (roomFor now order ip s).pinAttempts.lookup ip' = some e) :
    s.pinAttempts.lookup ip' = some e := by
  simp only [roomFor, ensurePinAttemptCapacityLocked] at h
  split_ifs at h with hmem hlen hold
  · exact lookup_of_lookup_prune h
  · exact lookup_of_lookup_prune h
  · refine @lookup_of_lookup_prune now s ip' e ?_
    by_cases heq : ip' = (order.foldl (olderEntry (prunePinAttemptsLocked now s).pinAttempts)
        ("", 0)).1
    · rw [← heq, Finmap.lookup_erase] at h
      exact absurd h (by simp)
    · rwa [Finmap.lookup_erase_ne heq] at h
  · exact lookup_of_lookup_prune h

/-- Making room keeps the invariant. -/
theorem AttemptInv.room {clock now : ℕ} {k : ℕ} {s : PinAttemptState}
    (h : AttemptInv clock k s) (hnow : clock ≤ now) (order : List String) (ip : String) :
    AttemptInv now k (roomFor now order ip s) :=
  h.of_drop hnow (by simp) (by simp) fun _ _ => lookup_of_lookup_roomFor

/-- There is room for a client that is not in the table. -/
theorem AttemptInv.room_len {clock now : ℕ} {k : ℕ} {s : PinAttemptState}
    (h : AttemptInv clock k s) (hnow : clock ≤ now) {order : List String} {ip : String}
    (hrange : GoMap.IsRange (prunePinAttemptsLocked now s).pinAttempts order)
    (hnew : ip ∉ (roomFor now order ip s).pinAttempts) :
    GoMap.len (roomFor now order ip s).pinAttempts < pinAttemptMaxEntries := by
  have hp := h.prune hnow
  rw [roomFor] at hnew ⊢
  split_ifs at hnew ⊢ with hmem
  · exact absurd hmem hnew
  rcases lt_or_ge (GoMap.len (prunePinAttemptsLocked now s).pinAttempts)
    pinAttemptMaxEntries with hlt | hge
  · rwa [ensurePinAttemptCapacityLocked, if_pos hlt]
  · obtain ⟨victim, e, he, -, heq⟩ :=
      ensurePinAttemptCapacityLocked_full hrange hp.no_empty hge
    rw [heq]
    have hlen := GoMap.len_erase_of_mem (Finmap.mem_of_lookup_eq_some he)
    have hcap := hp.capacity
    dsimp only
    rw [hlen]
    rw [pinAttemptMaxEntries] at hge hcap ⊢
    omega

/-- **The eviction never takes a lock in force.** For the locked entry to be an oldest one of
a full table, 4096 failures would have been admitted since its lock was set, at most 32
minutes ago; the bucket admits fewer than 2000. -/
theorem AttemptInv.room_keeps_lock {clock now : ℕ} {k : ℕ} {s : PinAttemptState}
    (h : AttemptInv clock k s) (hk : k ≤ 1) (hnow : clock ≤ now) {order : List String}
    (ip : String) (hrange : GoMap.IsRange (prunePinAttemptsLocked now s).pinAttempts order)
    {c : String} {e : PinAttemptEntry} (he : s.pinAttempts.lookup c = some e)
    (hlock : now < e.lockedTo) :
    (roomFor now order ip s).pinAttempts.lookup c = some e := by
  have hp := h.prune hnow
  obtain ⟨hpos, hle, hlocked⟩ := h.updated he
  have hpe : (prunePinAttemptsLocked now s).pinAttempts.lookup c = some e := by
    refine lookup_prune_of_not_stale he ?_
    simp only [PinAttemptEntry.Stale, pinAttemptRetention, hour, minute, second] at hlocked ⊢
    omega
  rw [roomFor]
  split_ifs with hmem
  · exact hpe
  rcases lt_or_ge (GoMap.len (prunePinAttemptsLocked now s).pinAttempts)
    pinAttemptMaxEntries with hlt | hge
  · rwa [ensurePinAttemptCapacityLocked, if_pos hlt]
  obtain ⟨victim, ev, hev, hold, heq⟩ :=
    ensurePinAttemptCapacityLocked_full hrange hp.no_empty hge
  rw [heq]
  by_cases hvictim : c = victim
  · -- the count of entries since the lock was set is the whole table
    exfalso
    subst hvictim
    rw [hpe] at hev
    obtain rfl := Option.some.inj hev
    have hcount : (prunePinAttemptsLocked now s).updatedSince e.updatedAt =
        GoMap.len (prunePinAttemptsLocked now s).pinAttempts :=
      GoMap.count_eq_len fun ip' e' he' => decide_eq_true (hold ip' e' he')
    rw [← hcount] at hge
    have hge' : (4096 : ℚ) ≤ (prunePinAttemptsLocked now s).updatedSince e.updatedAt := by
      exact_mod_cast hge
    have hk' : (k : ℚ) ≤ 1 := by exact_mod_cast hk
    rcases le_or_gt e.updatedAt (prunePinAttemptsLocked now s).pinGlobalLastRefill with hT | hT
    · have hpaid := hp.paid e.updatedAt hT
      have htokens : 0 ≤ (prunePinAttemptsLocked now s).pinGlobalTokens := hp.valid.1
      have hlast := hp.refilled.2
      have hspan : (prunePinAttemptsLocked now s).pinGlobalLastRefill - e.updatedAt ≤
          1920 * second := by
        rw [minute] at hlocked
        omega
      have hsec := seconds_le_seconds.mpr hspan
      rw [seconds_sub hT, seconds_mul_second] at hsec
      push_cast at hsec
      linarith
    · have hlate := hp.late e.updatedAt hT
      rw [pinAttemptMaxEntries] at hge
      omega
  · rwa [Finmap.lookup_erase_ne hvictim]

/-- Recording a failure paid for by an admission keeps the invariant. -/
theorem AttemptInv.failure {clock now : ℕ} {s : PinAttemptState} (h : AttemptInv clock 0 s)
    (hnow : clock ≤ now) {order : List String} {ip : String} (hip : ip ≠ "")
    (hrange : GoMap.IsRange (prunePinAttemptsLocked now s).pinAttempts order) :
    AttemptInv now 1 (pinOnVerifyFailure now order ip s).2 := by
  have hr := h.room hnow order ip
  have hpos : 0 < now := lt_of_lt_of_le h.refilled.1 (le_trans h.refilled.2 hnow)
  rw [pinOnVerifyFailure_eq]
  constructor
  · rw [Finmap.mem_insert, not_or]
    exact ⟨hip.symm, hr.no_empty⟩
  · by_cases hmem : ip ∈ (roomFor now order ip s).pinAttempts
    · rw [GoMap.len_insert_of_mem _ hmem]
      exact hr.capacity
    · have hlen := h.room_len hnow hrange hmem
      exact le_trans (GoMap.len_insert_le _ _ _) hlen
  · intro ip' e he
    by_cases heq : ip' = ip
    · subst heq
      rw [Finmap.lookup_insert] at he
      obtain rfl := Option.some.inj he
      refine ⟨hpos, le_rfl, ?_⟩
      -- an entry below five failures keeps its old lock, which is within the old bound
      have hold : ((roomFor now order ip' s).entry ip').lockedTo ≤ now + 32 * minute := by
        rw [PinAttemptState.entry]
        rcases hlook : (roomFor now order ip' s).pinAttempts.lookup ip' with _ | e₀
        · exact Nat.zero_le _
        · obtain ⟨-, h1, h2⟩ := hr.updated hlook
          exact le_trans h2 (Nat.add_le_add_right h1 _)
      have hnew := lockFor_le (((roomFor now order ip' s).entry ip').failures + 1)
      simp only [PinAttemptEntry.fail]
      split_ifs
      · exact Nat.add_le_add_left hnew now
      · exact hold
    · rw [Finmap.lookup_insert_of_ne _ heq] at he
      exact hr.updated he
  · exact hr.refilled
  · exact hr.valid
  · intro T hT
    have hcount : (GoMap.count (fun e => decide (T ≤ e.updatedAt))
        ((roomFor now order ip s).pinAttempts.insert ip
          (((roomFor now order ip s).entry ip).fail now)) : ℚ) ≤
        (roomFor now order ip s).updatedSince T + 1 := by
      exact_mod_cast GoMap.count_insert_le _ _ _ _
    have hpaid := hr.paid T hT
    simp only [PinAttemptState.updatedSince] at hcount hpaid ⊢
    push_cast at hpaid ⊢
    linarith
  · intro T hT
    have hlate := hr.late T hT
    exact le_trans (GoMap.count_insert_le _ _ _ _) (Nat.add_le_add_right hlate 1)

end Contiwatch
