import Contiwatch.PinVerify

/-!
# Concurrent PIN Verification

The requests of one client, handled concurrently. A request of `handlePinVerify` passes
through three critical sections that other requests may come between: the check
(`pinBeforeVerify`), the comparison (`verifyPinCandidate`) and the record of its outcome
(`pinOnVerifySuccess` or `pinOnVerifyFailure`).

The check does not count the request it admits, so several requests may pass it before any
of them records a failure: `race_unsafe` compares six wrong PINs in a row. What the lockout
promises holds when the client's requests do not overlap and its failures are not forgotten
in between: `race_safe_of_undisturbed`.
-/

namespace Contiwatch

open GoTime

/-- How far a request has come. -/
inductive RacePhase where
  | idle
  | admitted
  | compared (matched : Bool)
  deriving DecidableEq, Repr

/-- The attempt fields, the latest clock reading and the phase of every request. Two fields
only record history: `wrong` counts the wrong candidates compared since the start or the
latest success, and `lockedOut` tells whether a lockout was applied since. -/
structure RaceState where
  clock : ℕ
  attempts : PinAttemptState
  phase : ℕ → RacePhase
  wrong : ℕ
  lockedOut : Bool

/-- The state in which a controller starts. -/
def RaceState.new (start : ℕ) : RaceState where
  clock := start
  attempts := PinAttemptState.new start
  phase := fun _ => .idle
  wrong := 0
  lockedOut := false

/-- The steps of the requests, each at a reading of the clock. -/
inductive RaceEvent where
  /-- `pinBeforeVerify`. -/
  | arrive (i now : ℕ)
  /-- The body does not decode. -/
  | undecodable (i now : ℕ)
  /-- `verifyPinCandidate`. -/
  | compare (i now : ℕ) (pin : String)
  /-- `pinOnVerifySuccess` or `pinOnVerifyFailure`. -/
  | record (i now : ℕ) (order : List String)
  deriving DecidableEq, Repr

/-- The reading of the clock at a step. -/
def RaceEvent.now : RaceEvent → ℕ
  | .arrive _ now => now
  | .undecodable _ now => now
  | .compare _ now _ => now
  | .record _ now _ => now

section

variable (sha256Hex : String → String) (g : PinGuard) (ip : String)

/-- What a step makes of the state, or `none` when the request is not at that point. -/
def raceNext (s : RaceState) : RaceEvent → Option RaceState
  | .arrive i now =>
      if s.phase i ≠ .idle then none
      else
        let before := pinBeforeVerify now ip s.attempts
        some { s with
          clock := now
          attempts := before.2
          phase := if before.1.1 then Function.update s.phase i .admitted else s.phase }
  | .undecodable i now =>
      if s.phase i ≠ .admitted then none
      else some { s with clock := now, phase := Function.update s.phase i .idle }
  | .compare i now pin =>
      if s.phase i ≠ .admitted then none
      else
        let matched := verifyPinCandidate sha256Hex g pin
        some { s with
          clock := now
          phase := Function.update s.phase i (.compared matched)
          wrong := if matched then s.wrong else s.wrong + 1 }
  | .record i now order =>
      match s.phase i with
      | .compared true =>
          some { s with
            clock := now
            attempts := pinOnVerifySuccess ip s.attempts
            phase := Function.update s.phase i .idle
            wrong := 0
            lockedOut := false }
      | .compared false =>
          let failure := pinOnVerifyFailure now order ip s.attempts
          some { s with
            clock := now
            attempts := failure.2
            phase := Function.update s.phase i .idle
            lockedOut := s.lockedOut || failure.1.1 }
      | _ => none

/-- The eviction loop visits the table in some order. -/
def RaceEvent.Ordered (s : RaceState) : RaceEvent → Prop
  | .record _ now order =>
      GoMap.IsRange (prunePinAttemptsLocked now s.attempts).pinAttempts order
  | _ => True

/-- One step of one of the client's requests. -/
def raceStep (s : RaceState) (e : RaceEvent) (s' : RaceState) : Prop :=
  s.clock ≤ e.now ∧ e.Ordered s ∧ raceNext sha256Hex g ip s e = some s'

/-- What the lockout promises of a step: no PIN is compared while the client is locked out,
at most five wrong PINs are compared before the first lockout, and a lock in force stays. -/
structure RaceSafe (s : RaceState) (e : RaceEvent) (s' : RaceState) : Prop where
  compared_unlocked : ∀ i now pin, e = .compare i now pin →
    ¬ (s.attempts.entry ip).Locked now
  at_most_five : s'.lockedOut = false → s'.wrong ≤ 5
  lock_stays : (s.attempts.entry ip).Locked e.now → (s'.attempts.entry ip).Locked e.now

/-! ### What one step can do -/

/-- The effects of the steps. -/
inductive RaceEffect (s : RaceState) : RaceEvent → RaceState → Prop
  | refused {i now : ℕ} (h : (pinBeforeVerify now ip s.attempts).1.1 = false) :
      RaceEffect s (.arrive i now)
        { s with clock := now, attempts := (pinBeforeVerify now ip s.attempts).2 }
  | admitted {i now : ℕ} (h : (pinBeforeVerify now ip s.attempts).1.1 = true) :
      RaceEffect s (.arrive i now)
        { s with
          clock := now
          attempts := (pinBeforeVerify now ip s.attempts).2
          phase := Function.update s.phase i .admitted }
  | dropped {i now : ℕ} (h : s.phase i = .admitted) :
      RaceEffect s (.undecodable i now)
        { s with clock := now, phase := Function.update s.phase i .idle }
  | matched {i now : ℕ} {pin : String} (h : s.phase i = .admitted) :
      RaceEffect s (.compare i now pin)
        { s with clock := now, phase := Function.update s.phase i (.compared true) }
  | mismatched {i now : ℕ} {pin : String} (h : s.phase i = .admitted) :
      RaceEffect s (.compare i now pin)
        { s with
          clock := now
          phase := Function.update s.phase i (.compared false)
          wrong := s.wrong + 1 }
  | success {i now : ℕ} {order : List String} (h : s.phase i = .compared true) :
      RaceEffect s (.record i now order)
        { s with
          clock := now
          attempts := pinOnVerifySuccess ip s.attempts
          phase := Function.update s.phase i .idle
          wrong := 0
          lockedOut := false }
  | failure {i now : ℕ} {order : List String} (h : s.phase i = .compared false) :
      RaceEffect s (.record i now order)
        { s with
          clock := now
          attempts := (pinOnVerifyFailure now order ip s.attempts).2
          phase := Function.update s.phase i .idle
          lockedOut := s.lockedOut || (pinOnVerifyFailure now order ip s.attempts).1.1 }

/-- **Every step has one of these effects.** -/
theorem raceEffect_of_raceNext {s s' : RaceState} {e : RaceEvent}
    (h : raceNext sha256Hex g ip s e = some s') : RaceEffect ip s e s' := by
  cases e with
  | arrive i now =>
      simp only [raceNext] at h
      by_cases hphase : s.phase i ≠ .idle
      · rw [if_pos hphase] at h
        exact absurd h (by simp)
      · rw [if_neg hphase] at h
        obtain rfl := Option.some.inj h
        cases hbefore : (pinBeforeVerify now ip s.attempts).1.1 with
        | false =>
            rw [if_neg Bool.false_ne_true]
            exact .refused hbefore
        | true =>
            rw [if_pos rfl]
            exact .admitted hbefore
  | undecodable i now =>
      simp only [raceNext] at h
      by_cases hphase : s.phase i ≠ .admitted
      · rw [if_pos hphase] at h
        exact absurd h (by simp)
      · rw [if_neg hphase] at h
        obtain rfl := Option.some.inj h
        exact .dropped (not_not.mp hphase)
  | compare i now pin =>
      simp only [raceNext] at h
      by_cases hphase : s.phase i ≠ .admitted
      · rw [if_pos hphase] at h
        exact absurd h (by simp)
      · rw [if_neg hphase] at h
        obtain rfl := Option.some.inj h
        cases hmatch : verifyPinCandidate sha256Hex g pin with
        | false =>
            rw [if_neg Bool.false_ne_true]
            exact .mismatched (not_not.mp hphase)
        | true =>
            rw [if_pos rfl]
            exact .matched (not_not.mp hphase)
  | record i now order =>
      simp only [raceNext] at h
      rcases hphase : s.phase i with _ | _ | matched
      · simp only [hphase, reduceCtorEq] at h
      · simp only [hphase, reduceCtorEq] at h
      · cases matched with
        | true =>
            simp only [hphase, Option.some.injEq] at h
            rw [← h]
            exact .success hphase
        | false =>
            simp only [hphase, Option.some.injEq] at h
            rw [← h]
            exact .failure hphase

/-- A step sets the clock to its reading. -/
theorem RaceEffect.clock {s s' : RaceState} {e : RaceEvent} (h : RaceEffect ip s e s') :
    s'.clock = e.now := by
  cases h <;> rfl

/-! ### The race -/

/-- Take the steps `es` in turn. -/
def raceExec (s : RaceState) (es : List RaceEvent) : Option RaceState :=
  es.foldlM (raceNext sha256Hex g ip) s

/-- Steps taken at one instant, none of them a record, form a run. -/
theorem run_of_raceExec {s s' : RaceState} {es : List RaceEvent}
    (hclock : ∀ e ∈ es, e.now = s.clock) (hordered : ∀ e ∈ es, ∀ t, e.Ordered t)
    (h : raceExec sha256Hex g ip s es = some s') :
    Run (raceStep sha256Hex g ip) s es s' := by
  induction es generalizing s with
  | nil =>
      obtain rfl := Option.some.inj h
      exact Run.nil
  | cons e es ih =>
      simp only [raceExec, List.foldlM_cons, bind, Option.bind_eq_some_iff] at h
      obtain ⟨t, hnext, hrest⟩ := h
      have hnow := hclock e (List.mem_cons_self ..)
      have htclock : t.clock = s.clock :=
        (raceEffect_of_raceNext sha256Hex g ip hnext).clock.trans hnow
      have hstep : raceStep sha256Hex g ip s e t :=
        ⟨hnow.ge, hordered e (List.mem_cons_self ..) s, hnext⟩
      refine (Run.single hstep).append (ih ?_ ?_ hrest)
      · intro e' he'
        rw [htclock]
        exact hclock e' (List.mem_cons_of_mem _ he')
      · exact fun e' he' => hordered e' (List.mem_cons_of_mem _ he')

end

/-- Six requests arrive, and five of them are compared with a wrong PIN, before one of them
is recorded. -/
def sixAtOnce : List RaceEvent :=
  (List.range 6).map (fun i => .arrive i second) ++
    (List.range 5).map fun i => .compare i second "0000"

/-- No request of the sample records a failure, so no order of the table matters. -/
theorem sixAtOnce_ordered (e : RaceEvent) (he : e ∈ sixAtOnce) (s : RaceState) :
    e.Ordered s := by
  rcases List.mem_append.mp he with he | he
  · obtain ⟨i, -, rfl⟩ := List.mem_map.mp he
    trivial
  · obtain ⟨i, -, rfl⟩ := List.mem_map.mp he
    trivial

/-- **The lockout can be outrun.** Six requests of one client pass the check before the first
of them records its failure, and all six wrong PINs are compared. -/
theorem race_unsafe :
    ¬ ∀ (sha256Hex : String → String) (g : PinGuard) (ip : String) (start : ℕ), 0 < start →
      ∀ (es : List RaceEvent) (s : RaceState),
        Run (raceStep sha256Hex g ip) (RaceState.new start) es s →
        ∀ e s', raceStep sha256Hex g ip s e s' → RaceSafe ip s e s' := by
  intro h
  let g := PinGuard.new second "salt" "salt:2468" []
  let ip := "203.0.113.10"
  have hexec : ((raceExec id g ip (RaceState.new second) sixAtOnce).bind fun s =>
      (raceNext id g ip s (.compare 5 second "0000")).map fun s' =>
        (s.clock, s'.wrong, s'.lockedOut)) = some (second, 6, false) := by
    decide +kernel
  obtain ⟨s, hs, hmap⟩ := Option.bind_eq_some_iff.mp hexec
  obtain ⟨s', hnext, hresult⟩ := Option.map_eq_some_iff.mp hmap
  obtain ⟨hclock, hwrong, hlockedOut⟩ : s.clock = second ∧ s'.wrong = 6 ∧ s'.lockedOut = false := by
    simpa using hresult
  have hinstant : ∀ e ∈ sixAtOnce, e.now = (RaceState.new second).clock := by decide
  have hrun := run_of_raceExec id g ip hinstant sixAtOnce_ordered hs
  have hsafe := h id g ip second (by decide) sixAtOnce s hrun (.compare 5 second "0000") s'
    ⟨hclock.le, trivial, hnext⟩
  have hfive := hsafe.at_most_five hlockedOut
  omega

/-! ### Requests that do not overlap -/

section

variable (sha256Hex : String → String) (g : PinGuard) (ip : String)

/-- The client's failures, if any are on record, are not yet due for pruning. -/
def Remembered (s : RaceState) (now : ℕ) : Prop :=
  ∀ e, s.attempts.pinAttempts.lookup ip = some e → ¬ e.Stale now

/-- A step that the race does not concern: a request arrives only while no other request of
the client is in flight, and the table is pruned only while the client's failures are
remembered. -/
def RaceEvent.Undisturbed (s : RaceState) : RaceEvent → Prop
  | .arrive _ now => (∀ j, s.phase j = .idle) ∧ Remembered ip s now
  | .record _ now _ => Remembered ip s now
  | _ => True

/-- The client's entry as it stands in the table, whatever else changed. -/
theorem entry_congr {s s' : PinAttemptState}
    (h : s'.pinAttempts.lookup ip = s.pinAttempts.lookup ip) : s'.entry ip = s.entry ip := by
  rw [PinAttemptState.entry, h, PinAttemptState.entry]

/-- Pruning leaves a remembered client alone. -/
theorem Remembered.lookup_prune {s : RaceState} {now : ℕ} (h : Remembered ip s now) :
    (prunePinAttemptsLocked now s.attempts).pinAttempts.lookup ip =
      s.attempts.pinAttempts.lookup ip := by
  rcases hlook : s.attempts.pinAttempts.lookup ip with _ | e
  · rcases hprune : (prunePinAttemptsLocked now s.attempts).pinAttempts.lookup ip with _ | e
    · rfl
    · rw [lookup_of_lookup_prune hprune] at hlook
      exact absurd hlook (by simp)
  · exact lookup_prune_of_not_stale hlook (h e hlook)

/-- Making room for a client is no concern of its own entry. -/
theorem lookup_roomFor_self (now : ℕ) (order : List String) (s : PinAttemptState) :
    (roomFor now order ip s).pinAttempts.lookup ip =
      (prunePinAttemptsLocked now s).pinAttempts.lookup ip := by
  by_cases hmem : ip ∈ (prunePinAttemptsLocked now s).pinAttempts
  · rw [roomFor, if_pos hmem]
  · have hnone := Finmap.lookup_eq_none.mpr hmem
    rw [hnone, roomFor, if_neg hmem]
    simp only [ensurePinAttemptCapacityLocked]
    split_ifs
    · exact hnone
    · rw [Finmap.lookup_eq_none, Finmap.mem_erase]
      exact fun h => hmem h.2
    · exact hnone

/-- The check leaves a remembered client's entry alone. -/
theorem Remembered.entry_before {s : RaceState} {now : ℕ} (h : Remembered ip s now)
    (hrefill : s.attempts.pinGlobalLastRefill ≠ 0)
    (hlast : s.attempts.pinGlobalLastRefill ≤ now) :
    (pinBeforeVerify now ip s.attempts).2.entry ip = s.attempts.entry ip := by
  obtain ⟨htable, -⟩ := pinBeforeVerify_spec now ip s.attempts hrefill hlast
  exact entry_congr ip (by rw [htable, h.lookup_prune])

/-- A recorded failure counts on top of a remembered client's entry. -/
theorem Remembered.entry_failure {s : RaceState} {now : ℕ} (h : Remembered ip s now)
    (order : List String) :
    (pinOnVerifyFailure now order ip s.attempts).2.entry ip =
        (s.attempts.entry ip).fail now ∧
      (pinOnVerifyFailure now order ip s.attempts).1 = (s.attempts.entry ip).failAnswer := by
  have hroom : (roomFor now order ip s.attempts).entry ip = s.attempts.entry ip :=
    entry_congr ip (by rw [lookup_roomFor_self, h.lookup_prune])
  rw [pinOnVerifyFailure_eq, hroom]
  refine ⟨?_, rfl⟩
  rw [PinAttemptState.entry, Finmap.lookup_insert, Option.getD_some]

/-- A recorded failure leaves the bucket alone. -/
theorem pinOnVerifyFailure_lastRefill (now : ℕ) (order : List String) (s : PinAttemptState) :
    (pinOnVerifyFailure now order ip s).2.pinGlobalLastRefill = s.pinGlobalLastRefill := by
  rw [pinOnVerifyFailure_eq]
  exact roomFor_lastRefill now order ip s

/-- The failure a request at this point still has to record. -/
def RacePhase.pending : RacePhase → ℕ
  | .compared false => 1
  | _ => 0

/-- The invariant of undisturbed runs: only the request `i` may be in flight, at the point
`p`; its client is not locked out then; and until the first lockout the wrong PINs compared
are the failures on record and the pending one. -/
structure RaceInv (i : ℕ) (p : RacePhase) (s : RaceState) : Prop where
  refilled : 0 < s.attempts.pinGlobalLastRefill ∧ s.attempts.pinGlobalLastRefill ≤ s.clock
  solo : s.phase = Function.update (fun _ => .idle) i p
  unlocked : p ≠ .idle → (s.attempts.entry ip).lockedTo ≤ s.clock
  counted : s.lockedOut = false → (s.attempts.entry ip).failures ≤ 4 ∧
    s.wrong = (s.attempts.entry ip).failures + p.pending

/-- A client without an entry has the zero entry. -/
theorem entry_of_lookup_none {s : PinAttemptState} (h : s.pinAttempts.lookup ip = none) :
    s.entry ip = ⟨0, 0, 0⟩ := by
  rw [PinAttemptState.entry, h]
  rfl

/-- A new guard satisfies the invariant. -/
theorem raceInv_new {start : ℕ} (hstart : 0 < start) :
    RaceInv ip 0 .idle (RaceState.new start) where
  refilled := ⟨hstart, le_rfl⟩
  solo := (Function.update_eq_self 0 _).symm
  unlocked := fun h => absurd rfl h
  counted := by
    intro _
    rw [entry_of_lookup_none ip (s := (RaceState.new start).attempts) (Finmap.lookup_empty ip)]
    exact ⟨Nat.zero_le 4, rfl⟩

/-- The request at a point other than idle is the one in flight. -/
theorem RaceInv.eq_of_phase {i j : ℕ} {p q : RacePhase} {s : RaceState} (h : RaceInv ip i p s)
    (hj : s.phase j = q) (hq : q ≠ .idle) : j = i ∧ p = q := by
  rw [h.solo] at hj
  by_cases hji : j = i
  · subst hji
    rw [Function.update_self] at hj
    exact ⟨rfl, hj⟩
  · rw [Function.update_of_ne hji] at hj
    exact absurd hj.symm hq

/-- The request in flight moves on. -/
theorem RaceInv.solo_update {i : ℕ} {p : RacePhase} {s : RaceState} (h : RaceInv ip i p s)
    (q : RacePhase) :
    Function.update s.phase i q = Function.update (fun _ => .idle) i q := by
  rw [h.solo, Function.update_idem]

/-- A request that is admitted finds its client unlocked. -/
theorem Remembered.unlocked_of_admitted {s : RaceState} {now : ℕ} (h : Remembered ip s now)
    (hrefill : s.attempts.pinGlobalLastRefill ≠ 0)
    (hlast : s.attempts.pinGlobalLastRefill ≤ now)
    (hadm : (pinBeforeVerify now ip s.attempts).1.1 = true) :
    (s.attempts.entry ip).lockedTo ≤ now := by
  obtain ⟨-, hunlocked⟩ := pinBeforeVerify_spec now ip s.attempts hrefill hlast
  have hnot := hunlocked hadm
  rw [entry_congr ip h.lookup_prune, PinAttemptEntry.Locked] at hnot
  omega

/-- The latest refill is never later than the check that looked at the bucket. -/
theorem lastRefill_before {s : PinAttemptState} {now : ℕ} (hpos : 0 < s.pinGlobalLastRefill)
    (hlast : s.pinGlobalLastRefill ≤ now) :
    0 < (pinBeforeVerify now ip s).2.pinGlobalLastRefill ∧
      (pinBeforeVerify now ip s).2.pinGlobalLastRefill ≤ now := by
  simp only [pinBeforeVerify]
  by_cases hlocked : ((prunePinAttemptsLocked now s).entry ip).Locked now
  · rw [if_pos hlocked, prunePinAttemptsLocked_lastRefill]
    exact ⟨hpos, hlast⟩
  · rw [if_neg hlocked]
    obtain ⟨-, -, hnow, -⟩ := consumeGlobalPinAttemptLocked_eq
      (s := prunePinAttemptsLocked now s) (by simpa using hpos.ne') (by simpa using hlast)
    rw [hnow]
    exact ⟨lt_of_lt_of_le hpos hlast, le_rfl⟩

/-- **An undisturbed step keeps the invariant.** -/
theorem RaceInv.step {i : ℕ} {p : RacePhase} {s s' : RaceState} {e : RaceEvent}
    (h : RaceInv ip i p s) (hclock : s.clock ≤ e.now) (heffect : RaceEffect ip s e s')
    (hund : e.Undisturbed ip s) : ∃ i' p', RaceInv ip i' p' s' := by
  obtain ⟨hpos, hlast⟩ := h.refilled
  have hrefilled := lastRefill_before ip hpos (le_trans hlast hclock)
  cases heffect with
  | @refused j now _ =>
      obtain ⟨hidle, hremembered⟩ := hund
      have hentry := hremembered.entry_before ip hpos.ne' (le_trans hlast hclock)
      have hp : p = .idle := by
        rw [← hidle i, h.solo, Function.update_self]
      refine ⟨i, p, hrefilled, h.solo, fun hne => absurd hp hne, ?_⟩
      dsimp only
      rw [hentry]
      exact h.counted
  | @admitted j now hadm =>
      obtain ⟨hidle, hremembered⟩ := hund
      have hentry := hremembered.entry_before ip hpos.ne' (le_trans hlast hclock)
      have hunlocked := hremembered.unlocked_of_admitted ip hpos.ne' (le_trans hlast hclock) hadm
      have hp : p = .idle := by
        rw [← hidle i, h.solo, Function.update_self]
      subst hp
      refine ⟨j, .admitted, hrefilled, ?_, ?_, ?_⟩
      · dsimp only
        rw [funext hidle]
      · dsimp only
        rw [hentry]
        exact fun _ => hunlocked
      · dsimp only
        rw [hentry]
        exact h.counted
  | @dropped j now hj =>
      obtain ⟨rfl, rfl⟩ := h.eq_of_phase ip hj (by simp)
      exact ⟨j, .idle, ⟨hpos, le_trans hlast hclock⟩, h.solo_update ip _,
        fun hne => absurd rfl hne, h.counted⟩
  | @matched j now pin hj =>
      obtain ⟨rfl, rfl⟩ := h.eq_of_phase ip hj (by simp)
      exact ⟨j, .compared true, ⟨hpos, le_trans hlast hclock⟩, h.solo_update ip _,
        fun _ => le_trans (h.unlocked (by simp)) hclock, h.counted⟩
  | @mismatched j now pin hj =>
      obtain ⟨rfl, rfl⟩ := h.eq_of_phase ip hj (by simp)
      refine ⟨j, .compared false, ⟨hpos, le_trans hlast hclock⟩, h.solo_update ip _,
        fun _ => le_trans (h.unlocked (by simp)) hclock, fun hout => ?_⟩
      obtain ⟨hfew, hwrong⟩ := h.counted hout
      exact ⟨hfew, congrArg (· + 1) hwrong⟩
  | @success j now order hj =>
      obtain ⟨rfl, rfl⟩ := h.eq_of_phase ip hj (by simp)
      refine ⟨j, .idle, ⟨hpos, le_trans hlast hclock⟩, h.solo_update ip _,
        fun hne => absurd rfl hne, fun _ => ?_⟩
      rw [entry_of_lookup_none ip (s := pinOnVerifySuccess ip s.attempts)
        (Finmap.lookup_erase ..)]
      exact ⟨Nat.zero_le 4, rfl⟩
  | @failure j now order hj =>
      obtain ⟨rfl, rfl⟩ := h.eq_of_phase ip hj (by simp)
      obtain ⟨hentry, hanswer⟩ := Remembered.entry_failure ip hund order
      refine ⟨j, .idle, ?_, h.solo_update ip _, fun hne => absurd rfl hne, fun hout => ?_⟩
      · rw [pinOnVerifyFailure_lastRefill]
        exact ⟨hpos, le_trans hlast hclock⟩
      · dsimp only at hout ⊢
        rw [hanswer, PinAttemptEntry.failAnswer, Bool.or_eq_false_iff] at hout
        obtain ⟨hbefore, hnow⟩ := hout
        obtain ⟨hfew, hwrong⟩ := h.counted hbefore
        rw [hentry]
        split_ifs at hnow with hfive
        exact ⟨by simp only [PinAttemptEntry.fail]; omega, hwrong⟩

/-- **An undisturbed step keeps what the lockout promises.** -/
theorem RaceInv.safe {i : ℕ} {p : RacePhase} {s s' : RaceState} {e : RaceEvent}
    (h : RaceInv ip i p s) (hclock : s.clock ≤ e.now) (heffect : RaceEffect ip s e s')
    (hund : e.Undisturbed ip s) : RaceSafe ip s e s' := by
  obtain ⟨hpos, hlast⟩ := h.refilled
  -- a request in flight finds its client unlocked at every later instant
  have hunlocked : p ≠ .idle → ¬ (s.attempts.entry ip).Locked e.now := by
    rintro hp ⟨-, hlt⟩
    have := h.unlocked hp
    omega
  obtain ⟨i', p', h'⟩ := h.step ip hclock heffect hund
  refine ⟨?_, ?_, ?_⟩
  · rintro j now pin rfl
    cases heffect with
    | matched hj =>
        obtain ⟨-, rfl⟩ := h.eq_of_phase ip hj (by simp)
        exact hunlocked (by simp)
    | mismatched hj =>
        obtain ⟨-, rfl⟩ := h.eq_of_phase ip hj (by simp)
        exact hunlocked (by simp)
  · intro hout
    obtain ⟨hfew, hwrong⟩ := h'.counted hout
    have hpending : p'.pending ≤ 1 := by
      rcases p' with _ | _ | _ | _ <;> decide
    omega
  · intro hlocked
    cases heffect with
    | refused _ =>
        dsimp only
        rwa [hund.2.entry_before ip hpos.ne' (le_trans hlast hclock)]
    | admitted _ =>
        dsimp only
        rwa [hund.2.entry_before ip hpos.ne' (le_trans hlast hclock)]
    | dropped _ => exact hlocked
    | matched _ => exact hlocked
    | mismatched _ => exact hlocked
    | success hj =>
        obtain ⟨-, rfl⟩ := h.eq_of_phase ip hj (by simp)
        exact absurd hlocked (hunlocked (by simp))
    | failure hj =>
        obtain ⟨-, rfl⟩ := h.eq_of_phase ip hj (by simp)
        exact absurd hlocked (hunlocked (by simp))

/-- A step of a request that the race does not concern. -/
def undisturbedStep (s : RaceState) (e : RaceEvent) (s' : RaceState) : Prop :=
  raceStep sha256Hex g ip s e s' ∧ e.Undisturbed ip s

/-- **The lockout holds for requests that do not overlap.** In every run of the client's
requests in which each arrives only when none is in flight, and the table is pruned only
while the client's failures are remembered, no PIN is compared while the client is locked
out, at most five wrong PINs are compared between the start or a success and the first
lockout, and no lock in force is lifted. -/
theorem race_safe_of_undisturbed {start : ℕ} (hstart : 0 < start) {es : List RaceEvent}
    {s : RaceState} (hrun : Run (undisturbedStep sha256Hex g ip) (RaceState.new start) es s)
    {e : RaceEvent} {s' : RaceState} (hstep : undisturbedStep sha256Hex g ip s e s') :
    RaceSafe ip s e s' := by
  have hinv : ∃ i p, RaceInv ip i p s := by
    refine hrun.state_invariant (fun t => ∃ i p, RaceInv ip i p t)
      ⟨0, .idle, raceInv_new ip hstart⟩ ?_
    rintro t e u ⟨i, p, h⟩ ⟨⟨hclock, -, hnext⟩, hund⟩
    exact h.step ip hclock (raceEffect_of_raceNext sha256Hex g ip hnext) hund
  obtain ⟨i, p, h⟩ := hinv
  obtain ⟨⟨hclock, -, hnext⟩, hund⟩ := hstep
  exact h.safe ip hclock (raceEffect_of_raceNext sha256Hex g ip hnext) hund

/-- A request whose failure is recorded before another one arrives: its three steps are
undisturbed ones, and no request is in flight afterwards. -/
theorem run_attempt {s : RaceState} {i now : ℕ} {pin : String} {order : List String}
    (hidle : ∀ j, s.phase j = .idle) (hclock : s.clock ≤ now)
    (hrefill : 0 < s.attempts.pinGlobalLastRefill ∧ s.attempts.pinGlobalLastRefill ≤ now)
    (hremembered : Remembered ip s now)
    (horder : GoMap.IsRange
      (prunePinAttemptsLocked now (pinBeforeVerify now ip s.attempts).2).pinAttempts order)
    {t : RaceState} (hexec : raceExec sha256Hex g ip s
      [.arrive i now, .compare i now pin, .record i now order] = some t) :
    Run (undisturbedStep sha256Hex g ip) s
        [.arrive i now, .compare i now pin, .record i now order] t ∧
      ∀ j, t.phase j = .idle := by
  simp only [raceExec, List.foldlM_cons, List.foldlM_nil, bind, pure,
    Option.bind_eq_some_iff] at hexec
  obtain ⟨u, harrive, v, hcompare, w, hrecord, hw⟩ := hexec
  obtain rfl := Option.some.inj hw
  have hu := raceEffect_of_raceNext sha256Hex g ip harrive
  have hv := raceEffect_of_raceNext sha256Hex g ip hcompare
  have hw := raceEffect_of_raceNext sha256Hex g ip hrecord
  -- the table of attempts is the one the check left, until the outcome is recorded
  have huattempts : u.attempts = (pinBeforeVerify now ip s.attempts).2 := by
    cases hu <;> rfl
  have hvattempts : v.attempts = u.attempts := by
    cases hv <;> rfl
  have hvremembered : Remembered ip v now := by
    intro e he
    obtain ⟨htable, -⟩ := pinBeforeVerify_spec now ip s.attempts hrefill.1.ne' hrefill.2
    rw [hvattempts, huattempts, htable, hremembered.lookup_prune] at he
    exact hremembered e he
  have hfirst : undisturbedStep sha256Hex g ip s (.arrive i now) u :=
    ⟨⟨hclock, trivial, harrive⟩, hidle, hremembered⟩
  have hsecond : undisturbedStep sha256Hex g ip u (.compare i now pin) v :=
    ⟨⟨hu.clock.le, trivial, hcompare⟩, trivial⟩
  have hthird : undisturbedStep sha256Hex g ip v (.record i now order) w :=
    ⟨⟨hv.clock.le, by rwa [RaceEvent.Ordered, hvattempts, huattempts], hrecord⟩, hvremembered⟩
  refine ⟨((Run.single hfirst).snoc hsecond).snoc hthird, fun j => ?_⟩
  have hother : ∀ k, k ≠ i → w.phase k = .idle := by
    intro k hk
    have huk : u.phase k = .idle := by
      cases hu with
      | refused _ => exact hidle k
      | admitted _ => exact (Function.update_of_ne hk _ _).trans (hidle k)
    have hvk : v.phase k = .idle := by
      cases hv <;> exact (Function.update_of_ne hk _ _).trans huk
    cases hw <;> exact (Function.update_of_ne hk _ _).trans hvk
  by_cases hj : j = i
  · subst hj
    cases hw <;> exact Function.update_self ..
  · exact hother j hj

end

/-- The guard with PIN 2468. -/
def pin2468 : PinGuard := PinGuard.new second "salt" "salt:2468" []

/-- Request `i` is compared with a wrong PIN and recorded; the table is empty before the
first one. -/
def wrongAttempt (i : ℕ) : List RaceEvent :=
  [.arrive i second, .compare i second "0000",
    .record i second (if i = 0 then [] else ["203.0.113.10"])]

/-- The state after `n` wrong PINs of one client, sent one after another. -/
def afterAttempts : ℕ → RaceState
  | 0 => RaceState.new second
  | n + 1 => (raceExec id pin2468 "203.0.113.10" (afterAttempts n) (wrongAttempt n)).getD
      (afterAttempts n)

/-- The first five of them are compared. -/
theorem run_afterAttempts : ∀ n ≤ 5, (∃ es, Run (undisturbedStep id pin2468 "203.0.113.10")
    (RaceState.new second) es (afterAttempts n)) ∧ ∀ j, (afterAttempts n).phase j = .idle := by
  have hcompared : ∀ n < 5, (raceExec id pin2468 "203.0.113.10" (afterAttempts n)
      (wrongAttempt n)).isSome = true ∧ (afterAttempts n).clock ≤ second ∧
      0 < (afterAttempts n).attempts.pinGlobalLastRefill ∧
      (afterAttempts n).attempts.pinGlobalLastRefill ≤ second := by
    decide +kernel
  have hentry : ∀ n < 5, ∀ e ∈ (afterAttempts n).attempts.pinAttempts.lookup "203.0.113.10",
      ¬ e.Stale second := by
    decide +kernel
  have hkeys : ∀ n < 5, (prunePinAttemptsLocked second (pinBeforeVerify second "203.0.113.10"
      (afterAttempts n).attempts).2).pinAttempts.keys =
        (if n = 0 then [] else ["203.0.113.10"]).toFinset := by
    decide +kernel
  intro n
  induction n with
  | zero => exact fun _ => ⟨⟨[], Run.nil⟩, fun _ => rfl⟩
  | succ n ih =>
      intro hn
      obtain ⟨⟨es, hes⟩, hidle⟩ := ih (by omega)
      obtain ⟨hsome, hclock, hrefill⟩ := hcompared n hn
      have horder := GoMap.isRange_of_keys_eq (hkeys n hn) (by split_ifs <;> decide)
      obtain ⟨t, ht⟩ := Option.isSome_iff_exists.mp hsome
      obtain ⟨hrun, hidle'⟩ := run_attempt id pin2468 "203.0.113.10" hidle hclock hrefill
        (hentry n hn) horder ht
      have hafter : afterAttempts (n + 1) = t := by
        rw [afterAttempts, ht, Option.getD_some]
      rw [hafter]
      exact ⟨⟨_, hes.append hrun⟩, hidle'⟩

/-- The fifth wrong PIN locks its client for a minute: a request that arrives half a minute
later is refused, and the lock stays. -/
theorem race_safe_of_undisturbed_sixth : ∃ s', RaceSafe "203.0.113.10" (afterAttempts 5)
    (.arrive 5 (31 * second)) s' ∧ (afterAttempts 5).wrong = 5 ∧
    (afterAttempts 5).lockedOut = true ∧ s'.phase 5 = .idle ∧
    (s'.attempts.entry "203.0.113.10").Locked (31 * second) := by
  obtain ⟨⟨es, hrun⟩, hidle⟩ := run_afterAttempts 5 le_rfl
  have hremembered : ∀ e ∈ (afterAttempts 5).attempts.pinAttempts.lookup "203.0.113.10",
      ¬ e.Stale (31 * second) := by
    decide +kernel
  have hexec : ((raceNext id pin2468 "203.0.113.10" (afterAttempts 5)
      (.arrive 5 (31 * second))).map fun s' => s'.phase 5) = some .idle := by
    decide +kernel
  have hcounted : (afterAttempts 5).clock ≤ 31 * second ∧ (afterAttempts 5).wrong = 5 ∧
      (afterAttempts 5).lockedOut = true ∧
      ((afterAttempts 5).attempts.entry "203.0.113.10").Locked (31 * second) := by
    decide +kernel
  obtain ⟨hclock, hwrong, hout, hlocked⟩ := hcounted
  obtain ⟨s', hnext, hphase⟩ := Option.map_eq_some_iff.mp hexec
  have hsafe := race_safe_of_undisturbed id pin2468 "203.0.113.10" (by decide) hrun
    (e := .arrive 5 (31 * second)) ⟨⟨hclock, trivial, hnext⟩, hidle, hremembered⟩
  exact ⟨s', hsafe, hwrong, hout, hphase, hsafe.lock_stays hlocked⟩

end Contiwatch
