import Contiwatch.Lib.Runs
import Contiwatch.PinAttempts

/-!
# The Rate of PIN Attempts

What the token bucket of `internal/server/pin_guard.go` promises about the requests that reach a
PIN comparison, and what its answers promise about the next one. The calls that change the attempt
fields come in any order; only the clock does not run backwards.

## Main results

* `run_rate` — in an interval of `d` seconds, at most `20 + d` requests are admitted.
* `run_retry_iff` — a client that waits for as long as it is told to is admitted, exactly if no
  fraction of a second was cut off the time that it was told.
* `retry_too_early` — a client that is told to wait for 59 seconds while its lock lasts 59.5.
-/

namespace Contiwatch

open GoTime

/-! ### Calls -/

/-- The calls that change the attempt fields, with their readings of the clock. -/
inductive PinCall
  | before (now : ℕ) (ip : String)
  | success (now : ℕ) (ip : String)
  | failure (now : ℕ) (order : List String) (ip : String)

namespace PinCall

/-- The reading of the clock. -/
def now : PinCall → ℕ
  | before now _ | success now _ | failure now _ _ => now

/-- What the call does. -/
def apply (s : PinAttemptState) : PinCall → PinAttemptState
  | before now ip => (pinBeforeVerify now ip s).2
  | success _ ip => pinOnVerifySuccess ip s
  | failure now order ip => (pinOnVerifyFailure now order ip s).2

/-- The call admits a request to the comparison. -/
def admits (s : PinAttemptState) : PinCall → Bool
  | before now ip => (pinBeforeVerify now ip s).1.1
  | _ => false

end PinCall

/-- One call after another. The state is the latest reading of the clock and the attempt fields; the
label says whether a request was admitted. -/
def pinStep (st : ℕ × PinAttemptState) (l : PinCall × Bool) (st' : ℕ × PinAttemptState) : Prop :=
  st.1 ≤ l.1.now ∧ l.2 = l.1.admits st.2 ∧ st' = (l.1.now, l.1.apply st.2)

/-- The number of requests that were admitted between two instants. -/
def admissions (first last : ℕ) (es : List (PinCall × Bool)) : ℕ :=
  es.countP fun l => l.2 && decide (first ≤ l.1.now) && decide (l.1.now ≤ last)

/-- The attempt fields of a `Server` that was not made by `New`. -/
def PinAttemptState.zero : PinAttemptState where
  pinAttempts := ∅
  pinAttemptsLastPruned := 0
  pinGlobalTokens := 0
  pinGlobalLastRefill := 0

/-! ### A look at the bucket -/

/-- What holds of the bucket at a reading of the clock. -/
structure BucketInv (clock : ℕ) (s : PinAttemptState) : Prop where
  nonneg : 0 ≤ s.pinGlobalTokens
  le_burst : s.pinGlobalTokens ≤ 20
  refilled : s.pinGlobalLastRefill ≤ clock

variable {clock now : ℕ} {s s' : PinAttemptState}

/-- The bucket that is looked at: an unset one is filled, any other one is refilled. -/
def refillGlobal (now : ℕ) (s : PinAttemptState) : ℚ :=
  if s.pinGlobalLastRefill = 0 then 20
  else min 20 (s.pinGlobalTokens + seconds (now - s.pinGlobalLastRefill))

/-- **A look at the bucket** refills it, and takes a token if there is one. -/
theorem consumeGlobalPinAttemptLocked_refill (h : BucketInv clock s) (hclock : clock ≤ now) :
    consumeGlobalPinAttemptLocked now s =
      if refillGlobal now s < 1 then
        ((false, ⌈1 - refillGlobal now s⌉₊),
          { s with pinGlobalTokens := refillGlobal now s, pinGlobalLastRefill := now })
      else
        ((true, 0),
          { s with pinGlobalTokens := refillGlobal now s - 1, pinGlobalLastRefill := now }) := by
  have hwait {t : ℚ} (ht : t < 1) :
      (if ⌈(1 - t) / pinGlobalRefillRate⌉₊ < 1 then 1 else ⌈(1 - t) / pinGlobalRefillRate⌉₊) =
        ⌈1 - t⌉₊ := by
    have hpos : 0 < ⌈1 - t⌉₊ := Nat.ceil_pos.mpr (sub_pos.mpr ht)
    rw [pinGlobalRefillRate, div_one, if_neg (Nat.not_lt.mpr hpos)]
  rcases eq_or_ne s.pinGlobalLastRefill 0 with hunset | hset
  · have hfull : refillGlobal now s = 20 := if_pos hunset
    simp only [consumeGlobalPinAttemptLocked, if_pos hunset, Nat.sub_self, hfull]
    norm_num [seconds, pinGlobalBurst]
  · have hrefill : min pinGlobalBurst (s.pinGlobalTokens +
        seconds (now - s.pinGlobalLastRefill) * pinGlobalRefillRate) = refillGlobal now s := by
      rw [refillGlobal, if_neg hset, pinGlobalRefillRate, mul_one, pinGlobalBurst]
    by_cases helapsed : 0 < seconds (now - s.pinGlobalLastRefill)
    · simp only [consumeGlobalPinAttemptLocked, if_neg hset, if_pos helapsed, hrefill]
      by_cases hnone : refillGlobal now s < 1
      · rw [if_pos hnone, if_pos hnone, hwait hnone]
      · rw [if_neg hnone, if_neg hnone]
    · have hnow : s.pinGlobalLastRefill = now := by
        have hle := h.refilled.trans hclock
        rw [seconds_pos] at helapsed
        omega
      have htokens : refillGlobal now s = s.pinGlobalTokens := by
        rw [refillGlobal, if_neg hset, hnow, Nat.sub_self, seconds, Nat.cast_zero, zero_div,
          add_zero]
        exact min_eq_right h.le_burst
      simp only [consumeGlobalPinAttemptLocked, if_neg hset, if_neg helapsed, htokens]
      by_cases hnone : s.pinGlobalTokens < 1
      · rw [if_pos hnone, if_pos hnone, hwait hnone, ← hnow]
      · rw [if_neg hnone, if_neg hnone, ← hnow]

/-- Pruning leaves the bucket. -/
theorem BucketInv.prune (h : BucketInv clock s) (now : ℕ) :
    BucketInv clock (prunePinAttemptsLocked now s) where
  nonneg := (prunePinAttemptsLocked_tokens now s).symm ▸ h.nonneg
  le_burst := (prunePinAttemptsLocked_tokens now s).symm ▸ h.le_burst
  refilled := (prunePinAttemptsLocked_lastRefill now s).symm ▸ h.refilled

/-- Pruning does not change what the bucket holds. -/
theorem refillGlobal_prune (now at' : ℕ) (s : PinAttemptState) :
    refillGlobal now (prunePinAttemptsLocked at' s) = refillGlobal now s := by
  rw [refillGlobal, refillGlobal, prunePinAttemptsLocked_tokens,
    prunePinAttemptsLocked_lastRefill]

/-- A bucket holds no debt. -/
theorem refillGlobal_nonneg (h : BucketInv clock s) (now : ℕ) : 0 ≤ refillGlobal now s := by
  rw [refillGlobal]
  split_ifs
  · norm_num
  · exact le_min (by norm_num) (add_nonneg h.nonneg (div_nonneg (by positivity) (by positivity)))

/-- It holds at most the burst. -/
theorem refillGlobal_le_burst (now : ℕ) (s : PinAttemptState) : refillGlobal now s ≤ 20 := by
  rw [refillGlobal]
  split_ifs
  · exact le_rfl
  · exact min_le_left _ _

/-- A refill earns one token a second. -/
theorem refillGlobal_le (hset : s.pinGlobalLastRefill ≠ 0) (hnow : s.pinGlobalLastRefill ≤ now) :
    refillGlobal now s ≤
      s.pinGlobalTokens + (seconds now - seconds s.pinGlobalLastRefill) := by
  rw [refillGlobal, if_neg hset, seconds_sub hnow]
  exact min_le_right _ _

/-- **What a call does to the bucket**: nothing, or it looks at it, and takes a token if it admits a
request. -/
theorem apply_bucket (h : BucketInv clock s) {call : PinCall} (hclock : clock ≤ call.now) :
    (call.admits s = false ∧ (call.apply s).pinGlobalTokens = s.pinGlobalTokens ∧
        (call.apply s).pinGlobalLastRefill = s.pinGlobalLastRefill) ∨
      ((call.apply s).pinGlobalLastRefill = call.now ∧
        (call.apply s).pinGlobalTokens + (if call.admits s then 1 else 0) =
          refillGlobal call.now s ∧
        (call.admits s = true → 1 ≤ refillGlobal call.now s)) := by
  cases call with
  | before now ip =>
      simp only [PinCall.apply, PinCall.admits, PinCall.now, pinBeforeVerify] at hclock ⊢
      by_cases hlocked : ((prunePinAttemptsLocked now s).entry ip).Locked now
      · left
        rw [if_pos hlocked]
        exact ⟨rfl, prunePinAttemptsLocked_tokens now s, prunePinAttemptsLocked_lastRefill now s⟩
      · right
        rw [if_neg hlocked, consumeGlobalPinAttemptLocked_refill (h.prune now) hclock,
          refillGlobal_prune]
        by_cases hnone : refillGlobal now s < 1
        · rw [if_pos hnone]
          exact ⟨rfl, by simp, fun hadm => absurd hadm Bool.false_ne_true⟩
        · rw [if_neg hnone]
          exact ⟨rfl, by simp, fun _ => not_lt.mp hnone⟩
  | success now ip => exact .inl ⟨rfl, rfl, rfl⟩
  | failure now order ip =>
      refine .inl ⟨rfl, ?_, ?_⟩
      · exact roomFor_tokens now order ip s
      · exact roomFor_lastRefill now order ip s

/-- A call keeps the token count between 0 and 20. -/
theorem BucketInv.apply (h : BucketInv clock s) {call : PinCall} (hclock : clock ≤ call.now) :
    BucketInv call.now (call.apply s) := by
  rcases apply_bucket h hclock with ⟨-, htokens, hlast⟩ | ⟨hlast, htokens, hadmits⟩
  · exact ⟨htokens.symm ▸ h.nonneg, htokens.symm ▸ h.le_burst, hlast.symm ▸ h.refilled.trans hclock⟩
  · have hnonneg := refillGlobal_nonneg h call.now
    have hburst := refillGlobal_le_burst call.now s
    refine ⟨?_, ?_, hlast.le⟩
    · split_ifs at htokens with hadm
      · have := hadmits hadm
        linarith
      · linarith
    · split_ifs at htokens <;> linarith

/-! ### The rate -/

/-- The start of a controller: its attempt fields are those of `New`, or unset. -/
def PinStart (start : ℕ) (s : PinAttemptState) : Prop :=
  0 < start ∧ (s = PinAttemptState.new start ∨ s = PinAttemptState.zero)

/-- The bucket starts valid. -/
theorem bucketInv_start {start : ℕ} (h : PinStart start s) : BucketInv start s := by
  rcases h.2 with rfl | rfl
  · exact ⟨by norm_num [PinAttemptState.new, pinGlobalBurst],
      by norm_num [PinAttemptState.new, pinGlobalBurst], le_rfl⟩
  · exact ⟨le_rfl, by norm_num [PinAttemptState.zero], Nat.zero_le _⟩

/-- Admissions are counted one call after another. -/
theorem admissions_append (first last : ℕ) (es : List (PinCall × Bool)) (l : PinCall × Bool) :
    admissions first last (es ++ [l]) = admissions first last es +
      if l.2 = true ∧ first ≤ l.1.now ∧ l.1.now ≤ last then 1 else 0 := by
  simp only [admissions, List.countP_append, List.countP_singleton, Bool.and_eq_true,
    decide_eq_true_eq, and_assoc]

/-- The requests that were admitted since `first`, up to `last`, and the tokens left are paid for by
the burst and the time since `first`. -/
structure RateInv (first last : ℕ) (es : List (PinCall × Bool)) (st : ℕ × PinAttemptState) :
    Prop where
  clock : 0 < st.1
  bucket : BucketInv st.1 st.2
  early : st.2.pinGlobalLastRefill = 0 ∨ st.2.pinGlobalLastRefill < first →
    admissions first last es = 0
  paid : first ≤ st.2.pinGlobalLastRefill → st.2.pinGlobalLastRefill ≤ last →
    (admissions first last es : ℚ) + st.2.pinGlobalTokens ≤
      20 + (seconds st.2.pinGlobalLastRefill - seconds first)
  bound : first ≤ last → (admissions first last es : ℚ) ≤ 20 + (seconds last - seconds first)

/-- One call keeps the count within the rate. -/
theorem RateInv.step {first last : ℕ} {es : List (PinCall × Bool)} {st st' : ℕ × PinAttemptState}
    {l : PinCall × Bool} (h : RateInv first last es st) (hstep : pinStep st l st') :
    RateInv first last (es ++ [l]) st' := by
  obtain ⟨call, admitted⟩ := l
  obtain ⟨hclock, hadmitted, rfl⟩ := hstep
  simp only at hclock hadmitted
  subst hadmitted
  have hpos : 0 < call.now := h.clock.trans_le hclock
  have hbucket := h.bucket.apply hclock
  rcases apply_bucket h.bucket hclock with ⟨hnone, htokens, hlast⟩ | ⟨hlast, htokens, -⟩
  · -- the bucket is as it was, and nothing is admitted
    have hcount : admissions first last (es ++ [(call, call.admits st.2)]) =
        admissions first last es := by
      rw [admissions_append, if_neg fun hin => absurd (hnone.symm.trans hin.1) Bool.false_ne_true,
        Nat.add_zero]
    refine ⟨hpos, hbucket, ?_, ?_, ?_⟩
    · rw [hcount, hlast]
      exact h.early
    · rw [hcount, hlast, htokens]
      exact h.paid
    · rw [hcount]
      exact h.bound
  · have hcount := admissions_append first last es (call, call.admits st.2)
    simp only at hcount
    have hpaid : first ≤ call.now → call.now ≤ last →
        (admissions first last (es ++ [(call, call.admits st.2)]) : ℚ) +
          (call.apply st.2).pinGlobalTokens ≤ 20 + (seconds call.now - seconds first) := by
      intro hfirst hlater
      have hsum : (admissions first last (es ++ [(call, call.admits st.2)]) : ℚ) +
          (call.apply st.2).pinGlobalTokens =
            admissions first last es + refillGlobal call.now st.2 := by
        rw [hcount, ← htokens]
        rcases hadm : call.admits st.2 with _ | _
        · simp
        · simp only [hfirst, hlater, and_self, if_true]
          push_cast
          ring
      rw [hsum]
      by_cases hearly : st.2.pinGlobalLastRefill = 0 ∨ st.2.pinGlobalLastRefill < first
      · rw [h.early hearly]
        have hburst := refillGlobal_le_burst call.now st.2
        have hsec := seconds_le_seconds.mpr hfirst
        push_cast
        linarith
      · obtain ⟨hset, hsince⟩ := not_or.mp hearly
        have hnow := h.bucket.refilled.trans hclock
        have hearned := refillGlobal_le hset hnow
        have hold := h.paid (not_lt.mp hsince) (hnow.trans hlater)
        linarith
    refine ⟨hpos, hbucket, ?_, ?_, ?_⟩
    · rw [hlast]
      intro hearly
      have hbefore : call.now < first := hearly.resolve_left hpos.ne'
      rw [hcount, if_neg fun hin => absurd hin.2.1 (not_le.mpr hbefore), Nat.add_zero]
      exact h.early (.inr ((h.bucket.refilled.trans hclock).trans_lt hbefore))
    · rw [hlast]
      exact hpaid
    · intro hle
      by_cases hin : first ≤ call.now ∧ call.now ≤ last
      · have hnow := hpaid hin.1 hin.2
        have htokens := hbucket.nonneg
        have hsec := seconds_le_seconds.mpr hin.2
        linarith
      · rw [hcount, if_neg fun hadm => hin hadm.2, Nat.add_zero]
        exact h.bound hle

/-- **The rate of admissions**, after any calls in any order. The token count is between 0 and 20;
in an interval of `d` seconds at most `20 + d` requests were admitted, of all clients together; and
a request of a client whose lock is in force leaves the bucket as it is. -/
theorem run_rate {start : ℕ} {s₀ : PinAttemptState} (hstart : PinStart start s₀)
    {es : List (PinCall × Bool)} {st : ℕ × PinAttemptState}
    (hrun : Run pinStep (start, s₀) es st) :
    (0 ≤ st.2.pinGlobalTokens ∧ st.2.pinGlobalTokens ≤ 20) ∧
      (∀ first d, (admissions first (first + d) es : ℚ) ≤ 20 + seconds d) ∧
      ∀ now ip, ((prunePinAttemptsLocked now st.2).entry ip).Locked now →
        (pinBeforeVerify now ip st.2).1.1 = false ∧
          (pinBeforeVerify now ip st.2).2.pinGlobalTokens = st.2.pinGlobalTokens ∧
          (pinBeforeVerify now ip st.2).2.pinGlobalLastRefill = st.2.pinGlobalLastRefill := by
  have hinv (first last : ℕ) : RateInv first last es st := by
    refine hrun.invariant (RateInv first last) ?_ fun h hstep => h.step hstep
    have hbucket := bucketInv_start hstart
    refine ⟨hstart.1, hbucket, fun _ => rfl, fun hfirst _ => ?_, fun hle => ?_⟩
    · have hsec := seconds_le_seconds.mpr hfirst
      have hburst := hbucket.le_burst
      simp only [admissions, List.countP_nil, Nat.cast_zero, zero_add] at hsec hburst ⊢
      linarith
    · have hsec := seconds_le_seconds.mpr hle
      simp only [admissions, List.countP_nil, Nat.cast_zero]
      linarith
  refine ⟨⟨(hinv 0 0).bucket.nonneg, (hinv 0 0).bucket.le_burst⟩, fun first d => ?_, ?_⟩
  · have hbound := (hinv first (first + d)).bound (Nat.le_add_right first d)
    rwa [← seconds_sub (Nat.le_add_right first d), Nat.add_sub_cancel_left] at hbound
  · intro now ip hlocked
    rw [pinBeforeVerify]
    simp only [if_pos hlocked]
    exact ⟨trivial, prunePinAttemptsLocked_tokens now st.2,
      prunePinAttemptsLocked_lastRefill now st.2⟩

/-- The calls with their answers, and what they lead to. -/
def answered (st : ℕ × PinAttemptState) : List PinCall → List (PinCall × Bool) × ℕ × PinAttemptState
  | [] => ([], st)
  | call :: calls =>
      let rest := answered (call.now, call.apply st.2) calls
      ((call, call.admits st.2) :: rest.1, rest.2)

/-- Calls in the order of the clock form a run. -/
theorem run_answered {st : ℕ × PinAttemptState} {calls : List PinCall}
    (hclock : (st.1 :: calls.map PinCall.now).Pairwise (· ≤ ·)) :
    Run pinStep st (answered st calls).1 (answered st calls).2 := by
  induction calls generalizing st with
  | nil => exact Run.nil
  | cons call calls ih =>
      rw [List.map_cons, List.pairwise_cons] at hclock
      have hstep : pinStep st (call, call.admits st.2) (call.now, call.apply st.2) :=
        ⟨hclock.1 _ (List.mem_cons_self ..), rfl, rfl⟩
      exact (Run.single hstep).append (ih hclock.2)

/-- A client takes all the tokens at once, another one is refused, and is admitted a second
later. -/
def burstCalls : List PinCall :=
  List.replicate 20 (.before second "203.0.113.10") ++
    [.before second "203.0.113.20", .before (2 * second) "203.0.113.20"]

/-- The burst and one more request are admitted in that second, which is the bound. -/
theorem run_rate_burst : ∃ es st, Run pinStep (second, PinAttemptState.new second) es st ∧
    es.countP (fun l => !l.2) = 1 ∧ st.2.pinGlobalTokens = 0 ∧
    admissions second (second + second) es = 21 ∧
    (admissions second (second + second) es : ℚ) ≤ 20 + seconds second := by
  have hrun : Run pinStep (second, PinAttemptState.new second)
      (answered (second, PinAttemptState.new second) burstCalls).1 _ := run_answered (by decide)
  have hburst : (answered (second, PinAttemptState.new second) burstCalls).1.countP
        (fun l => !l.2) = 1 ∧
      (answered (second, PinAttemptState.new second) burstCalls).2.2.pinGlobalTokens = 0 ∧
      admissions second (second + second)
        (answered (second, PinAttemptState.new second) burstCalls).1 = 21 := by
    decide +kernel
  have hrate := (run_rate ⟨by decide, .inl rfl⟩ hrun).2.1 second second
  exact ⟨_, _, hrun, hburst.1, hburst.2.1, hburst.2.2, hrate⟩

/-! ### The time to wait -/

/-- What holds of the entries at a reading of the clock. -/
def LockInv (clock : ℕ) (s : PinAttemptState) : Prop :=
  ∀ ip e, s.pinAttempts.lookup ip = some e →
    0 < e.updatedAt ∧ e.updatedAt ≤ clock ∧ e.lockedTo ≤ e.updatedAt + 32 * minute

/-- Forgetting entries keeps the locks right. -/
theorem LockInv.of_drop {clock' : ℕ} (h : LockInv clock s) (hclock : clock ≤ clock')
    (hdrop : ∀ ip e, s'.pinAttempts.lookup ip = some e → s.pinAttempts.lookup ip = some e) :
    LockInv clock' s' := by
  intro ip e he
  obtain ⟨hpos, hle, hlock⟩ := h ip e (hdrop ip e he)
  exact ⟨hpos, hle.trans hclock, hlock⟩

/-- The check leaves the pruned table. -/
theorem pinBeforeVerify_table (h : BucketInv clock s) (hclock : clock ≤ now) (ip : String) :
    (pinBeforeVerify now ip s).2.pinAttempts = (prunePinAttemptsLocked now s).pinAttempts := by
  rw [pinBeforeVerify]
  by_cases hlocked : ((prunePinAttemptsLocked now s).entry ip).Locked now
  · simp only [if_pos hlocked]
  · simp only [if_neg hlocked]
    rw [consumeGlobalPinAttemptLocked_refill (h.prune now) hclock]
    split_ifs <;> rfl

/-- A call keeps what holds of the entries. -/
theorem LockInv.apply (h : LockInv clock s) (hbucket : BucketInv clock s) (hpos : 0 < clock)
    {call : PinCall} (hclock : clock ≤ call.now) : LockInv call.now (call.apply s) := by
  cases call with
  | before now ip =>
      refine h.of_drop hclock fun ip' e he => ?_
      have htable := pinBeforeVerify_table hbucket hclock ip
      simp only [PinCall.now, PinCall.apply] at he htable
      rw [htable] at he
      exact lookup_of_lookup_prune he
  | success now ip =>
      refine h.of_drop hclock fun ip' e he => ?_
      rw [PinCall.apply, pinOnVerifySuccess] at he
      rcases eq_or_ne ip' ip with rfl | hne
      · exact absurd he (by simp)
      · rwa [Finmap.lookup_erase_ne hne] at he
  | failure now order ip =>
      have hroom : LockInv now (roomFor now order ip s) :=
        h.of_drop hclock fun _ _ => lookup_of_lookup_roomFor
      intro ip' e he
      rw [PinCall.apply, pinOnVerifyFailure_eq] at he
      rcases eq_or_ne ip' ip with rfl | hne
      · rw [Finmap.lookup_insert] at he
        obtain rfl := Option.some.inj he
        refine ⟨hpos.trans_le hclock, le_rfl, ?_⟩
        have hold : ((roomFor now order ip' s).entry ip').lockedTo ≤ now + 32 * minute := by
          rw [PinAttemptState.entry]
          rcases hlook : (roomFor now order ip' s).pinAttempts.lookup ip' with _ | e₀
          · exact Nat.zero_le _
          · obtain ⟨-, hle, hlock⟩ := hroom ip' e₀ hlook
            exact hlock.trans (Nat.add_le_add_right hle _)
        simp only [PinAttemptEntry.fail]
        split_ifs
        · exact Nat.add_le_add_left (lockFor_le _) now
        · exact hold
      · rw [Finmap.lookup_insert_of_ne _ hne] at he
        exact hroom ip' e he

/-- What holds of the attempt fields after any calls. -/
structure PinInv (st : ℕ × PinAttemptState) : Prop where
  clock : 0 < st.1
  bucket : BucketInv st.1 st.2
  locks : LockInv st.1 st.2

/-- The invariant holds after every run. -/
theorem pinInv_run {start : ℕ} {s₀ : PinAttemptState} (hstart : PinStart start s₀)
    {es : List (PinCall × Bool)} {st : ℕ × PinAttemptState}
    (hrun : Run pinStep (start, s₀) es st) : PinInv st := by
  refine hrun.state_invariant PinInv ⟨hstart.1, bucketInv_start hstart, ?_⟩ ?_
  · intro ip e he
    rcases hstart.2 with rfl | rfl <;> exact absurd he (by simp [PinAttemptState.new,
      PinAttemptState.zero])
  · rintro t l u h ⟨hclock, -, rfl⟩
    exact ⟨h.clock.trans_le hclock, h.bucket.apply hclock, h.locks.apply h.bucket h.clock hclock⟩

/-- A lock in force is not pruned. -/
theorem LockInv.lookup_prune (h : LockInv clock s) {ip : String} {e : PinAttemptEntry}
    (he : s.pinAttempts.lookup ip = some e) (hlock : now < e.lockedTo) :
    (prunePinAttemptsLocked now s).pinAttempts.lookup ip = some e := by
  obtain ⟨hpos, -, hle⟩ := h ip e he
  refine lookup_prune_of_not_stale he ?_
  simp only [PinAttemptEntry.Stale, pinAttemptRetention, hour, minute, second] at hle ⊢
  omega

/-- The client is locked, if an entry says so. -/
theorem LockInv.locked_iff (h : LockInv clock s) (now : ℕ) (ip : String) :
    ((prunePinAttemptsLocked now s).entry ip).Locked now ↔
      ∃ e, s.pinAttempts.lookup ip = some e ∧ now < e.lockedTo := by
  rw [PinAttemptState.entry]
  constructor
  · rintro ⟨hset, hlock⟩
    rcases hlook : (prunePinAttemptsLocked now s).pinAttempts.lookup ip with _ | e
    · rw [hlook] at hset
      exact absurd rfl hset
    · rw [hlook] at hlock
      exact ⟨e, lookup_of_lookup_prune hlook, hlock⟩
  · rintro ⟨e, he, hlock⟩
    rw [h.lookup_prune he hlock]
    exact ⟨(Nat.zero_le now).trans_lt hlock |>.ne', hlock⟩

/-- **Who is admitted**: a client that is not locked, while there is a token. -/
theorem pinBeforeVerify_admits_iff (hbucket : BucketInv clock s) (hlocks : LockInv clock s)
    (hclock : clock ≤ now) (ip : String) :
    (pinBeforeVerify now ip s).1.1 = true ↔
      (∀ e, s.pinAttempts.lookup ip = some e → e.lockedTo ≤ now) ∧ 1 ≤ refillGlobal now s := by
  have hlocked := hlocks.locked_iff now ip
  rw [pinBeforeVerify]
  by_cases hlock : ((prunePinAttemptsLocked now s).entry ip).Locked now
  · simp only [if_pos hlock, Bool.false_eq_true, false_iff, not_and]
    obtain ⟨e, he, hlt⟩ := hlocked.mp hlock
    exact fun hall => absurd (hall e he) (not_le.mpr hlt)
  · have hall : ∀ e, s.pinAttempts.lookup ip = some e → e.lockedTo ≤ now := fun e he =>
      not_lt.mp fun hlt => hlock (hlocked.mpr ⟨e, he, hlt⟩)
    simp only [if_neg hlock, and_iff_right hall]
    rw [consumeGlobalPinAttemptLocked_refill (hbucket.prune now) hclock, refillGlobal_prune]
    split_ifs with hnone
    · exact iff_of_false (by simp) (not_le.mpr hnone)
    · exact iff_of_true rfl (not_lt.mp hnone)

/-- A token is there once the time for it has passed. -/
theorem one_le_refillGlobal {later wait last : ℕ}
    (hlast : s.pinGlobalLastRefill ≤ last) (hlater : last + wait * second ≤ later)
    (hwait : 1 ≤ s.pinGlobalTokens + wait) : 1 ≤ refillGlobal later s := by
  rw [refillGlobal]
  split_ifs
  · norm_num
  · have hspan : wait * second ≤ later - s.pinGlobalLastRefill := by omega
    have hsec := seconds_le_seconds.mpr hspan
    rw [seconds_mul_second] at hsec
    exact le_min (by norm_num) (by linarith)

/-- No fraction of a second is cut off the time that a locked client is told to wait: its lock lasts
a whole number of seconds, or no longer than the one second that it is told at least. -/
def WholeSeconds (now : ℕ) (ip : String) (s : PinAttemptState) : Prop :=
  ∀ e, s.pinAttempts.lookup ip = some e → now < e.lockedTo →
    e.lockedTo - now ≤ second ∨ second ∣ e.lockedTo - now

/-- A lock has ended when the client has waited as long as it was told, in whole seconds and one at
least, exactly if the lock ends within a second or after whole seconds. -/
theorem le_add_wait_iff {lockedTo : ℕ} (hlock : now < lockedTo) :
    lockedTo ≤ now +
        (if (lockedTo - now) / second < 1 then 1 else (lockedTo - now) / second) * second ↔
      lockedTo - now ≤ second ∨ second ∣ lockedTo - now := by
  have hsecond : 0 < second := by decide
  have hdiv := Nat.div_add_mod (lockedTo - now) second
  constructor
  · intro hle
    by_cases hshort : lockedTo - now ≤ second
    · exact .inl hshort
    · right
      have hquot : ¬ (lockedTo - now) / second < 1 := by
        rw [not_lt, Nat.one_le_div_iff hsecond]
        omega
      rw [if_neg hquot, Nat.mul_comm] at hle
      exact Nat.dvd_of_mod_eq_zero (by omega)
  · rintro (hshort | hwhole)
    · split_ifs with hquot
      · omega
      · have := Nat.mul_le_mul_right second (not_lt.mp hquot)
        omega
    · obtain ⟨k, hk⟩ := hwhole
      have hk0 : k ≠ 0 := by
        rintro rfl
        omega
      rw [hk, Nat.mul_div_cancel_left k hsecond, if_neg (by omega), Nat.mul_comm]
      omega

/-- A client that is refused because of its lock. -/
theorem retry_of_locked (hbucket : BucketInv clock s) (hlocks : LockInv clock s)
    (hclock : clock ≤ now) {ip : String} {e : PinAttemptEntry}
    (he : s.pinAttempts.lookup ip = some e) (hlock : now < e.lockedTo) {r : ℕ}
    (hr : (pinBeforeVerify now ip s).1 = (false, r)) :
    1 ≤ r ∧ ((∀ later, now + r * second ≤ later →
        (pinBeforeVerify later ip (pinBeforeVerify now ip s).2).1.1 = true) ↔
      (e.lockedTo - now ≤ second ∨ second ∣ e.lockedTo - now)) := by
  have hentry : (prunePinAttemptsLocked now s).entry ip = e := by
    rw [PinAttemptState.entry, hlocks.lookup_prune he hlock, Option.getD_some]
  have hlocked : ((prunePinAttemptsLocked now s).entry ip).Locked now :=
    (hlocks.locked_iff now ip).mpr ⟨e, he, hlock⟩
  have hafter : (pinBeforeVerify now ip s).2 = prunePinAttemptsLocked now s := by
    rw [pinBeforeVerify]
    simp only [if_pos hlocked]
  have hwait : r = if (e.lockedTo - now) / second < 1 then 1 else (e.lockedTo - now) / second := by
    rw [pinBeforeVerify] at hr
    simp only [if_pos hlocked] at hr
    rw [hentry] at hr
    exact (Prod.mk.inj hr).2.symm
  have hpruned : LockInv now (prunePinAttemptsLocked now s) :=
    hlocks.of_drop hclock fun _ _ => lookup_of_lookup_prune
  have hbucket' : BucketInv now (prunePinAttemptsLocked now s) :=
    ⟨(hbucket.prune now).nonneg, (hbucket.prune now).le_burst,
      (hbucket.prune now).refilled.trans hclock⟩
  have hone : 1 ≤ r := by
    rw [hwait]
    split_ifs <;> omega
  have hspan : now + r * second ≤ now + r * second := le_rfl
  have hadmitted (later : ℕ) (hlater : now + r * second ≤ later) :
      (pinBeforeVerify later ip (prunePinAttemptsLocked now s)).1.1 = true ↔
        e.lockedTo ≤ later := by
    have hafternow : now ≤ later := (Nat.le_add_right now _).trans hlater
    have htoken : 1 ≤ refillGlobal later (prunePinAttemptsLocked now s) := by
      refine one_le_refillGlobal hbucket'.refilled hlater ?_
      have hr1 : (1 : ℚ) ≤ r := by exact_mod_cast hone
      have hnonneg := hbucket'.nonneg
      linarith
    rw [pinBeforeVerify_admits_iff hbucket' hpruned hafternow, and_iff_left htoken]
    constructor
    · exact fun hall => hall e (hlocks.lookup_prune he hlock)
    · intro hle e' he'
      rw [hlocks.lookup_prune he hlock] at he'
      exact Option.some.inj he' ▸ hle
  refine ⟨hone, ?_⟩
  rw [hafter]
  have hall : (∀ later, now + r * second ≤ later →
      (pinBeforeVerify later ip (prunePinAttemptsLocked now s)).1.1 = true) ↔
        e.lockedTo ≤ now + r * second :=
    ⟨fun h => (hadmitted _ le_rfl).mp (h _ le_rfl),
      fun h later hlater => (hadmitted later hlater).mpr (h.trans hlater)⟩
  rw [hall, hwait]
  exact le_add_wait_iff hlock

/-- A client that is refused because there is no token. -/
theorem retry_of_empty (hbucket : BucketInv clock s) (hlocks : LockInv clock s)
    (hclock : clock ≤ now) {ip : String}
    (hfree : ∀ e, s.pinAttempts.lookup ip = some e → e.lockedTo ≤ now) {r : ℕ}
    (hr : (pinBeforeVerify now ip s).1 = (false, r)) :
    1 ≤ r ∧ ∀ later, now + r * second ≤ later →
      (pinBeforeVerify later ip (pinBeforeVerify now ip s).2).1.1 = true := by
  have hlocked : ¬ ((prunePinAttemptsLocked now s).entry ip).Locked now := fun hlocked => by
    obtain ⟨e, he, hlt⟩ := (hlocks.locked_iff now ip).mp hlocked
    exact absurd (hfree e he) (not_le.mpr hlt)
  have hlook : pinBeforeVerify now ip s =
      consumeGlobalPinAttemptLocked now (prunePinAttemptsLocked now s) := by
    rw [pinBeforeVerify]
    simp only [if_neg hlocked]
  rw [hlook, consumeGlobalPinAttemptLocked_refill (hbucket.prune now) hclock,
    refillGlobal_prune] at hr
  rw [hlook, consumeGlobalPinAttemptLocked_refill (hbucket.prune now) hclock,
    refillGlobal_prune]
  by_cases hnone : refillGlobal now s < 1
  · rw [if_pos hnone] at hr ⊢
    obtain rfl : ⌈1 - refillGlobal now s⌉₊ = r := (Prod.mk.inj hr).2
    refine ⟨Nat.ceil_pos.mpr (sub_pos.mpr hnone), fun later hlater => ?_⟩
    have hafternow : now ≤ later := (Nat.le_add_right now _).trans hlater
    have hceil := Nat.le_ceil (1 - refillGlobal now s)
    generalize hempty : ({ prunePinAttemptsLocked now s with
      pinGlobalTokens := refillGlobal now s, pinGlobalLastRefill := now } : PinAttemptState) =
        empty
    have htokens : empty.pinGlobalTokens = refillGlobal now s := by rw [← hempty]
    have hlast : empty.pinGlobalLastRefill = now := by rw [← hempty]
    have hdrop : ∀ ip' e, empty.pinAttempts.lookup ip' = some e →
        s.pinAttempts.lookup ip' = some e := by
      rw [← hempty]
      exact fun _ _ => lookup_of_lookup_prune
    have hbucket' : BucketInv now empty :=
      ⟨htokens ▸ refillGlobal_nonneg hbucket now, htokens ▸ refillGlobal_le_burst now s, hlast.le⟩
    refine (pinBeforeVerify_admits_iff hbucket' (hlocks.of_drop hclock hdrop) hafternow ip).mpr
      ⟨fun e he => (hfree e (hdrop ip e he)).trans hafternow, ?_⟩
    refine one_le_refillGlobal hlast.le hlater ?_
    rw [htokens]
    linarith
  · rw [if_neg hnone] at hr
    exact absurd (Prod.mk.inj hr).1 (by simp)

/-- A client that is locked because of its failure. -/
theorem retry_of_failure (hbucket : BucketInv clock s) (hlocks : LockInv clock s)
    (hpos : 0 < clock) (hclock : clock ≤ now) {order : List String} {ip : String} {r : ℕ}
    (hr : (pinOnVerifyFailure now order ip s).1 = (true, r)) :
    1 ≤ r ∧ ∀ later, now + r * second ≤ later →
      (pinBeforeVerify later ip (pinOnVerifyFailure now order ip s).2).1.1 = true := by
  have hbucket' := @BucketInv.apply _ _ hbucket (.failure now order ip) hclock
  have hlocks' := @LockInv.apply _ _ hlocks hbucket hpos (.failure now order ip) hclock
  simp only [PinCall.now, PinCall.apply] at hbucket' hlocks'
  have hanswer := hr
  rw [pinOnVerifyFailure_eq] at hanswer
  simp only [PinAttemptEntry.failAnswer] at hanswer
  split_ifs at hanswer with hfive
  · obtain rfl := (Prod.mk.inj hanswer).2
    have hlong : minute ≤ lockFor (((roomFor now order ip s).entry ip).failures + 1) :=
      Nat.le_mul_of_pos_left minute (Nat.two_pow_pos _)
    have hone : 1 ≤ lockFor (((roomFor now order ip s).entry ip).failures + 1) / second := by
      rw [Nat.one_le_div_iff (by decide)]
      exact le_trans (by decide) hlong
    refine ⟨hone, fun later hlater => ?_⟩
    have hafternow : now ≤ later := (Nat.le_add_right now _).trans hlater
    refine (pinBeforeVerify_admits_iff hbucket' hlocks' hafternow ip).mpr ⟨fun e he => ?_, ?_⟩
    · rw [pinOnVerifyFailure_eq, Finmap.lookup_insert] at he
      rw [lockFor_div_mul] at hlater
      rw [← Option.some.inj he, PinAttemptEntry.fail, if_pos hfive]
      exact hlater
    · refine one_le_refillGlobal hbucket'.refilled hlater ?_
      have hr1 : (1 : ℚ) ≤
          (lockFor (((roomFor now order ip s).entry ip).failures + 1) / second : ℕ) := by
        exact_mod_cast hone
      have hnonneg := hbucket'.nonneg
      linarith
  · exact absurd (Prod.mk.inj hanswer).1 (by simp)

/-- **The time to wait**, after any calls in any order. A client that is refused before a comparison
is told to wait for at least one second; if no other request comes meanwhile, it is admitted from
then on, exactly if no fraction of a second was cut off. A client that is locked because of a
failure is admitted after the time that it is told. -/
theorem run_retry_iff {start : ℕ} {s₀ : PinAttemptState} (hstart : PinStart start s₀)
    {es : List (PinCall × Bool)} {st : ℕ × PinAttemptState}
    (hrun : Run pinStep (start, s₀) es st) {now : ℕ} (hnow : st.1 ≤ now) (ip : String) (r : ℕ) :
    ((pinBeforeVerify now ip st.2).1 = (false, r) →
      1 ≤ r ∧ ((∀ later, now + r * second ≤ later →
          (pinBeforeVerify later ip (pinBeforeVerify now ip st.2).2).1.1 = true) ↔
        WholeSeconds now ip st.2)) ∧
    ∀ order, (pinOnVerifyFailure now order ip st.2).1 = (true, r) →
      1 ≤ r ∧ ∀ later, now + r * second ≤ later →
        (pinBeforeVerify later ip (pinOnVerifyFailure now order ip st.2).2).1.1 = true := by
  obtain ⟨hpos, hbucket, hlocks⟩ := pinInv_run hstart hrun
  refine ⟨fun hr => ?_, fun order => retry_of_failure hbucket hlocks hpos hnow⟩
  by_cases hlocked : ∃ e, st.2.pinAttempts.lookup ip = some e ∧ now < e.lockedTo
  · obtain ⟨e, he, hlock⟩ := hlocked
    obtain ⟨hone, hiff⟩ := retry_of_locked hbucket hlocks hnow he hlock hr
    refine ⟨hone, hiff.trans ⟨fun hwhole e' he' _ => ?_, fun hwhole => hwhole e he hlock⟩⟩
    rw [he] at he'
    exact Option.some.inj he' ▸ hwhole
  · have hfree : ∀ e, st.2.pinAttempts.lookup ip = some e → e.lockedTo ≤ now := fun e he =>
      not_lt.mp fun hlt => hlocked ⟨e, he, hlt⟩
    obtain ⟨hone, hadmitted⟩ := retry_of_empty hbucket hlocks hnow hfree hr
    exact ⟨hone, fun _ e he hlt => absurd hlt (not_lt.mpr (hfree e he)), fun _ => hadmitted⟩

/-! ### A client that fails five times -/

/-- Calls at one reading of the clock are a run. -/
theorem run_calls {calls : List PinCall} (h : ∀ call ∈ calls, call.now = now) :
    ∃ es, Run pinStep (now, s) es (now, calls.foldl PinCall.apply s) := by
  induction calls generalizing s with
  | nil => exact ⟨[], .nil⟩
  | cons call calls ih =>
      rw [List.forall_mem_cons] at h
      obtain ⟨es, hrun⟩ := @ih (call.apply s) h.2
      have hfirst : Run pinStep (now, s) [(call, call.admits s)] (now, call.apply s) :=
        Run.single ⟨h.1.ge, rfl, by rw [h.1]⟩
      exact ⟨_, hfirst.append hrun⟩

/-- A number of requests with a wrong PIN, one second after the zero time. -/
def wrongPins (n : ℕ) : List PinCall :=
  (List.replicate n [.before second "a", .failure second [] "a"]).flatten

/-- The sample's wrong PINs all come in one second. -/
theorem now_wrongPins (n : ℕ) : ∀ call ∈ wrongPins n, call.now = second := by
  intro call hcall
  obtain ⟨calls, hcalls, hmem⟩ := List.mem_flatten.mp hcall
  rw [List.eq_of_mem_replicate hcalls] at hmem
  rcases List.mem_pair.mp hmem with rfl | rfl <;> rfl

/-- **A client may come back too early.** Half a second after its fifth failure it is told to wait
for 59 seconds, but its lock lasts 59.5. -/
theorem retry_too_early : ∃ es st now r, Run pinStep (second, PinAttemptState.new second) es st ∧
    st.1 ≤ now ∧ (pinBeforeVerify now "a" st.2).1 = (false, r) ∧
      (pinBeforeVerify (now + r * second) "a" (pinBeforeVerify now "a" st.2).2).1.1 = false := by
  obtain ⟨es, hrun⟩ := @run_calls second (PinAttemptState.new second) _ (now_wrongPins 5)
  refine ⟨es, _, second + second / 2, 59, hrun, by decide, ?_, ?_⟩
  · decide +kernel
  · decide +kernel

/-- After its fifth failure a client is told to wait for a minute, and is admitted after it. -/
theorem run_retry_minute : ∃ es st, Run pinStep (second, PinAttemptState.new second) es st ∧
    (pinOnVerifyFailure second [] "a" st.2).1 = (true, 60) ∧
      (pinBeforeVerify (second + 60 * second) "a"
        (pinOnVerifyFailure second [] "a" st.2).2).1.1 = true := by
  obtain ⟨es, hrun⟩ := @run_calls second (PinAttemptState.new second) _ (now_wrongPins 4)
  have hfailure : (pinOnVerifyFailure second [] "a"
      ((wrongPins 4).foldl PinCall.apply (PinAttemptState.new second))).1 = (true, 60) := by
    decide +kernel
  generalize (wrongPins 4).foldl PinCall.apply (PinAttemptState.new second) = s at hrun hfailure
  have hretry := (run_retry_iff ⟨by decide, .inl rfl⟩ hrun le_rfl "a" 60).2 [] hfailure
  exact ⟨es, (second, s), hrun, hfailure, hretry.2 (second + 60 * second) le_rfl⟩

end Contiwatch
