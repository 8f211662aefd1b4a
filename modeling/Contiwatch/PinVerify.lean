import Contiwatch.ClientIP
import Contiwatch.Lib.Runs
import Contiwatch.PinAttempts
import Contiwatch.PinSessions
import Mathlib.Tactic.NormNum

/-!
# PIN Verification

`handlePinVerify` of `internal/server/pin_guard.go`, handled one request after another. The
request is checked against the client's lock and the global bucket, its PIN is compared, and
the outcome is recorded. SHA-256 with hexadecimal encoding is the parameter `sha256Hex`.

## Main results

* `attemptInv_run` — the invariant of the attempt fields holds after every run.
* `lock_survives_run` — a lock in force survives every run of requests of any clients.
* `lockout_in_force` — a client that was told to stay away is refused until its lock ends,
  without its PIN being compared, and the attempt table never exceeds its bound.
-/

namespace Contiwatch

open GoTime GoStrings Netip

/-- The PIN guard's part of `Server`. -/
structure PinGuard where
  pinGuardEnabled : Bool
  pinSalt : String
  pinHash : String
  trustedProxies : List Prefix
  attempts : PinAttemptState
  sessions : PinSessionState

/-- The guard of a controller as `New` sets it up at `now`. -/
def PinGuard.new (now : ℕ) (pinSalt pinHash : String) (trustedProxies : List Prefix) :
    PinGuard where
  pinGuardEnabled := true
  pinSalt := pinSalt
  pinHash := pinHash
  trustedProxies := trustedProxies
  attempts := PinAttemptState.new now
  sessions := PinSessionState.new

/-- `isValidPinValue`: four to eight decimal digits. -/
def isValidPinValue (value : String) : Bool :=
  4 ≤ value.toList.length && value.toList.length ≤ 8 && value.toList.all Char.isDigit

/-- `subtleStringCompare`: the bytes differ nowhere, found without an early exit. -/
def subtleStringCompare (left right : String) : Bool :=
  let left := left.toUTF8.toList
  let right := right.toUTF8.toList
  left.length = right.length &&
    (List.zipWith (fun a b => a ^^^ b) left right).foldl (fun acc b => acc ||| b) 0 = 0

section

variable (sha256Hex : String → String)

/-- `hashPinValue`. -/
def hashPinValue (value salt : String) : String := sha256Hex (salt ++ ":" ++ value)

/-- `verifyPinCandidate`. -/
def verifyPinCandidate (g : PinGuard) (candidate : String) : Bool :=
  g.pinGuardEnabled && isValidPinValue candidate &&
    subtleStringCompare (hashPinValue sha256Hex candidate g.pinSalt) g.pinHash

/-- A `POST /api/pin/verify` request with what the environment contributes to its handling:
the PIN of its body (`none` if the body does not decode), the clock readings of the check,
of the recorded failure and of the created session, the order in which the eviction loop
visits the table, and the token drawn for a new session (`none` if drawing fails). -/
structure VerifyRequest where
  method : String
  sender : AddressedRequest
  body : Option String
  beforeAt : ℕ
  afterAt : ℕ
  sessionAt : ℕ
  order : List String
  token : Option String

/-- The answers of `handlePinVerify`. -/
inductive VerifyResponse where
  /-- 405. -/
  | methodNotAllowed
  /-- 400, `pin_guard_disabled`. -/
  | guardDisabled
  /-- 429, `LOCKOUT`, with the seconds of `Retry-After`. -/
  | lockout (retryAfterSeconds : ℕ)
  /-- 400 with the decoding error. -/
  | badRequest
  /-- 500 with the error of the token source. -/
  | tokenError
  /-- 200 with the session token. -/
  | unlocked (token : String)
  /-- 401, `Wrong PIN`. -/
  | wrongPin
  deriving DecidableEq, Repr

/-- The answer to a request, and the PIN that was compared for it, if one was. -/
structure VerifyOutcome where
  response : VerifyResponse
  compared : Option String
  deriving DecidableEq, Repr

/-- The address of the client, as the guard sees it. -/
def VerifyRequest.ip (r : VerifyRequest) (g : PinGuard) : String :=
  clientIPFromRequest r.sender g.trustedProxies

/-- The end of `handlePinVerify`, after the body is decoded: compare the PIN and record the
outcome. -/
def comparePin (r : VerifyRequest) (ip pin : String) (g : PinGuard) :
    VerifyOutcome × PinGuard :=
  if verifyPinCandidate sha256Hex g pin then
    let g := { g with attempts := pinOnVerifySuccess ip g.attempts }
    match r.token with
    | none => (⟨.tokenError, some pin⟩, g)
    | some token =>
        (⟨.unlocked token, some pin⟩,
          { g with sessions := createPinSession r.sessionAt token g.sessions })
  else
    let failure := pinOnVerifyFailure r.afterAt r.order ip g.attempts
    (⟨if failure.1.1 then .lockout failure.1.2 else .wrongPin, some pin⟩,
      { g with attempts := failure.2 })

/-- `handlePinVerify`. -/
def handlePinVerify (r : VerifyRequest) (g : PinGuard) : VerifyOutcome × PinGuard :=
  if r.method ≠ "POST" then (⟨.methodNotAllowed, none⟩, g)
  else if !g.pinGuardEnabled then (⟨.guardDisabled, none⟩, g)
  else
    let ip := r.ip g
    let before := pinBeforeVerify r.beforeAt ip g.attempts
    let g := { g with attempts := before.2 }
    if !before.1.1 then (⟨.lockout before.1.2, none⟩, g)
    else
      match r.body with
      | none => (⟨.badRequest, none⟩, g)
      | some payload => comparePin sha256Hex r ip (trimSpaceStr payload) g

/-- One request after another: the clock does not run backwards, and the eviction loop
visits the table in some order. The state is the latest clock reading and the guard. -/
def verifyStep (st : ℕ × PinGuard) (r : VerifyRequest) (st' : ℕ × PinGuard) : Prop :=
  st.1 ≤ r.beforeAt ∧ r.beforeAt ≤ r.afterAt ∧
    GoMap.IsRange (prunePinAttemptsLocked r.afterAt
      (pinBeforeVerify r.beforeAt (r.ip st.2) st.2.attempts).2).pinAttempts r.order ∧
    st' = (r.afterAt, (handlePinVerify sha256Hex r st.2).2)

/-! ### What one request can do -/

/-- The outcomes of a request, with what each leaves of the attempt fields. -/
inductive VerifyEffect (r : VerifyRequest) (g : PinGuard) :
    VerifyOutcome → PinAttemptState → Prop
  | rejected {response : VerifyResponse} (h : r.method ≠ "POST" ∨ g.pinGuardEnabled = false) :
      VerifyEffect r g ⟨response, none⟩ g.attempts
  | refused (h : (pinBeforeVerify r.beforeAt (r.ip g) g.attempts).1.1 = false) :
      VerifyEffect r g ⟨.lockout (pinBeforeVerify r.beforeAt (r.ip g) g.attempts).1.2, none⟩
        (pinBeforeVerify r.beforeAt (r.ip g) g.attempts).2
  | undecoded (h : (pinBeforeVerify r.beforeAt (r.ip g) g.attempts).1.1 = true) :
      VerifyEffect r g ⟨.badRequest, none⟩
        (pinBeforeVerify r.beforeAt (r.ip g) g.attempts).2
  | matched {response : VerifyResponse} {pin : String}
      (h : (pinBeforeVerify r.beforeAt (r.ip g) g.attempts).1.1 = true)
      (hresponse : ∀ retry, response ≠ .lockout retry) :
      VerifyEffect r g ⟨response, some pin⟩ (pinOnVerifySuccess (r.ip g)
        (pinBeforeVerify r.beforeAt (r.ip g) g.attempts).2)
  | failed {pin : String} {failure : (Bool × ℕ) × PinAttemptState}
      (h : (pinBeforeVerify r.beforeAt (r.ip g) g.attempts).1.1 = true)
      (hfailure : failure = pinOnVerifyFailure r.afterAt r.order (r.ip g)
        (pinBeforeVerify r.beforeAt (r.ip g) g.attempts).2) :
      VerifyEffect r g
        ⟨if failure.1.1 then .lockout failure.1.2 else .wrongPin, some pin⟩ failure.2

/-- **Every request has one of these effects.** -/
theorem handlePinVerify_effect (r : VerifyRequest) (g : PinGuard) :
    VerifyEffect r g (handlePinVerify sha256Hex r g).1
      (handlePinVerify sha256Hex r g).2.attempts := by
  simp only [handlePinVerify]
  split_ifs with hmethod henabled hbefore
  · exact .rejected (Or.inl hmethod)
  · exact .rejected (Or.inr (by simpa using henabled))
  · exact .refused (by simpa using hbefore)
  · have hadm : (pinBeforeVerify r.beforeAt (r.ip g) g.attempts).1.1 = true := by
      simpa using hbefore
    rcases hbody : r.body with _ | payload
    · exact .undecoded hadm
    · simp only [comparePin]
      by_cases hmatch : verifyPinCandidate sha256Hex
          { g with attempts := (pinBeforeVerify r.beforeAt (r.ip g) g.attempts).2 }
          (trimSpaceStr payload) = true
      · rw [if_pos hmatch]
        rcases htoken : r.token with _ | token
        · exact .matched hadm (by simp)
        · exact .matched hadm (by simp)
      · rw [if_neg hmatch]
        exact .failed hadm rfl

/-- Requests leave the configuration of the guard alone. -/
theorem handlePinVerify_config (r : VerifyRequest) (g : PinGuard) :
    (handlePinVerify sha256Hex r g).2.trustedProxies = g.trustedProxies ∧
      (handlePinVerify sha256Hex r g).2.pinGuardEnabled = g.pinGuardEnabled := by
  simp only [handlePinVerify]
  split_ifs with hmethod henabled hbefore
  · exact ⟨rfl, rfl⟩
  · exact ⟨rfl, rfl⟩
  · exact ⟨rfl, rfl⟩
  · rcases hbody : r.body with _ | payload
    · exact ⟨rfl, rfl⟩
    · simp only [comparePin]
      by_cases hmatch : verifyPinCandidate sha256Hex
          { g with attempts := (pinBeforeVerify r.beforeAt (r.ip g) g.attempts).2 }
          (trimSpaceStr payload) = true
      · rw [if_pos hmatch]
        rcases htoken : r.token with _ | token
        · exact ⟨rfl, rfl⟩
        · exact ⟨rfl, rfl⟩
      · rw [if_neg hmatch]
        exact ⟨rfl, rfl⟩

/-! ### Runs -/

/-- A request keeps the invariant of the attempt fields. -/
theorem attemptInv_step {st st' : ℕ × PinGuard} {r : VerifyRequest}
    (h : AttemptInv st.1 1 st.2.attempts) (hstep : verifyStep sha256Hex st r st') :
    AttemptInv st'.1 1 st'.2.attempts := by
  obtain ⟨hclock, hafter, hrange, rfl⟩ := hstep
  obtain ⟨hinv, hadmitted⟩ := h.before hclock (r.ip st.2)
  have hwait : ∀ {s : PinAttemptState} {clock : ℕ}, AttemptInv clock 1 s →
      clock ≤ r.afterAt → AttemptInv r.afterAt 1 s :=
    fun hs hle => hs.of_drop hle rfl rfl fun _ _ hlook => hlook
  have heffect := handlePinVerify_effect sha256Hex r st.2
  dsimp only
  generalize (handlePinVerify sha256Hex r st.2).1 = outcome at heffect
  generalize (handlePinVerify sha256Hex r st.2).2.attempts = attempts at heffect ⊢
  cases heffect with
  | rejected _ => exact hwait h (le_trans hclock hafter)
  | refused _ => exact hwait hinv hafter
  | undecoded _ => exact hwait hinv hafter
  | matched _ _ => exact hinv.success hafter _
  | failed hadm hfailure =>
      rw [hfailure]
      exact (hadmitted hadm).failure hafter (clientIPFromRequest_ne_empty _ _) hrange

/-- **The invariant of the attempt fields holds after every run.** -/
theorem attemptInv_run {st st' : ℕ × PinGuard} {rs : List VerifyRequest}
    (h : AttemptInv st.1 1 st.2.attempts) (hrun : Run (verifyStep sha256Hex) st rs st') :
    AttemptInv st'.1 1 st'.2.attempts :=
  hrun.state_invariant (fun st => AttemptInv st.1 1 st.2.attempts) h
    fun hinv hstep => attemptInv_step sha256Hex hinv hstep

/-- The client `ip` has a lock on record that ends at `until_`. -/
def LockedUntil (ip : String) (until_ : ℕ) (s : PinAttemptState) : Prop :=
  ∃ e, s.pinAttempts.lookup ip = some e ∧ e.lockedTo = until_

/-- Pruning does not drop a lock in force. -/
theorem LockedUntil.prune {clock now k : ℕ} {ip : String} {until_ : ℕ} {s : PinAttemptState}
    (hinv : AttemptInv clock k s) (h : LockedUntil ip until_ s) (hlock : now < until_) :
    LockedUntil ip until_ (prunePinAttemptsLocked now s) := by
  obtain ⟨e, he, rfl⟩ := h
  obtain ⟨hpos, -, hle⟩ := hinv.updated he
  refine ⟨e, lookup_prune_of_not_stale he ?_, rfl⟩
  simp only [PinAttemptEntry.Stale, pinAttemptRetention, hour, minute, second] at hle ⊢
  omega

/-- A locked client is refused by the check. -/
theorem LockedUntil.refused {clock now : ℕ} {ip : String} {until_ : ℕ} {s : PinAttemptState}
    (hinv : AttemptInv clock 1 s) (h : LockedUntil ip until_ s) (hlock : now < until_) :
    (pinBeforeVerify now ip s).1.1 = false := by
  obtain ⟨e, he, rfl⟩ := h.prune hinv hlock
  have hlocked : ((prunePinAttemptsLocked now s).entry ip).Locked now := by
    rw [PinAttemptState.entry, he]
    exact ⟨by dsimp only [Option.getD_some]; omega, hlock⟩
  simp only [pinBeforeVerify, if_pos hlocked]

/-- The check keeps a lock in force. -/
theorem LockedUntil.before {clock now : ℕ} {ip : String} {until_ : ℕ}
    {s : PinAttemptState} (hinv : AttemptInv clock 1 s) (hnow : clock ≤ now)
    (h : LockedUntil ip until_ s) (hlock : now < until_) (ip' : String) :
    LockedUntil ip until_ (pinBeforeVerify now ip' s).2 := by
  obtain ⟨e, he, heq⟩ := h.prune hinv hlock
  obtain ⟨htable, -⟩ := pinBeforeVerify_spec now ip' s hinv.refilled.1.ne'
    (le_trans hinv.refilled.2 hnow)
  exact ⟨e, htable ▸ he, heq⟩

/-- **A lock in force survives every request**, of the client itself, which is refused, and
of any other client. -/
theorem LockedUntil.step {st st' : ℕ × PinGuard} {r : VerifyRequest} {ip : String}
    {until_ : ℕ} (hinv : AttemptInv st.1 1 st.2.attempts)
    (hstep : verifyStep sha256Hex st r st') (h : LockedUntil ip until_ st.2.attempts)
    (hlock : st'.1 < until_) : LockedUntil ip until_ st'.2.attempts := by
  obtain ⟨hclock, hafter, hrange, rfl⟩ := hstep
  have hbefore := h.before hinv hclock (lt_of_le_of_lt hafter hlock) (r.ip st.2)
  obtain ⟨hinv', hadmitted⟩ := hinv.before hclock (r.ip st.2)
  -- an admitted request is not one of the locked client
  have hother : (pinBeforeVerify r.beforeAt (r.ip st.2) st.2.attempts).1.1 = true →
      ip ≠ r.ip st.2 := by
    intro hadm hip
    rw [← hip, h.refused hinv (lt_of_le_of_lt hafter hlock)] at hadm
    exact Bool.false_ne_true hadm
  have heffect := handlePinVerify_effect sha256Hex r st.2
  dsimp only at hlock ⊢
  generalize (handlePinVerify sha256Hex r st.2).1 = outcome at heffect
  generalize (handlePinVerify sha256Hex r st.2).2.attempts = attempts at heffect ⊢
  cases heffect with
  | rejected _ => exact h
  | refused _ => exact hbefore
  | undecoded _ => exact hbefore
  | matched hadm _ =>
      obtain ⟨e, he, heq⟩ := hbefore
      exact ⟨e, by rwa [pinOnVerifySuccess, Finmap.lookup_erase_ne (hother hadm)], heq⟩
  | failed hadm hfailure =>
      obtain ⟨e, he, rfl⟩ := hbefore
      have hroom := (hadmitted hadm).room_keeps_lock (Nat.zero_le 1) hafter (r.ip st.2)
        hrange he hlock
      rw [hfailure, pinOnVerifyFailure_eq]
      exact ⟨e, by rwa [Finmap.lookup_insert_of_ne _ (hother hadm)], rfl⟩

/-- Along a run the clock does not run backwards. -/
theorem verifyStep_clock {st st' : ℕ × PinGuard} {r : VerifyRequest}
    (h : verifyStep sha256Hex st r st') : st.1 ≤ st'.1 := by
  obtain ⟨hclock, hafter, -, rfl⟩ := h
  exact le_trans hclock hafter

/-- **A lock in force survives every run.** -/
theorem lock_survives_run {st st' : ℕ × PinGuard} {rs : List VerifyRequest} {ip : String}
    {until_ : ℕ} (hinv : AttemptInv st.1 1 st.2.attempts)
    (hrun : Run (verifyStep sha256Hex) st rs st') (h : LockedUntil ip until_ st.2.attempts)
    (hlock : st'.1 < until_) : LockedUntil ip until_ st'.2.attempts := by
  have hall := hrun.state_invariant
    (fun t => AttemptInv t.1 1 t.2.attempts ∧ (t.1 < until_ → LockedUntil ip until_ t.2.attempts))
    ⟨hinv, fun _ => h⟩
    fun ⟨ht, hlocked⟩ hstep => ⟨attemptInv_step sha256Hex ht hstep, fun hlt =>
      (hlocked (lt_of_le_of_lt (verifyStep_clock sha256Hex hstep) hlt)).step sha256Hex ht
        hstep hlt⟩
  exact hall.2 hlock

/-- The configuration of the guard is the same all along a run. -/
theorem config_run {st st' : ℕ × PinGuard} {rs : List VerifyRequest}
    (hrun : Run (verifyStep sha256Hex) st rs st') :
    st'.2.trustedProxies = st.2.trustedProxies ∧
      st'.2.pinGuardEnabled = st.2.pinGuardEnabled := by
  refine hrun.state_invariant (fun t => t.2.trustedProxies = st.2.trustedProxies ∧
    t.2.pinGuardEnabled = st.2.pinGuardEnabled) ⟨rfl, rfl⟩ ?_
  rintro t r u ⟨h1, h2⟩ ⟨-, -, -, rfl⟩
  obtain ⟨h3, h4⟩ := handlePinVerify_config sha256Hex r t.2
  exact ⟨h3.trans h1, h4.trans h2⟩

/-- A request whose PIN was compared and that is answered with a lockout of `retry` seconds
puts the client's lock on record. -/
theorem lockedUntil_of_lockout {r : VerifyRequest} {g : PinGuard} {retry : ℕ} {pin : String}
    (h : (handlePinVerify sha256Hex r g).1 = ⟨.lockout retry, some pin⟩) :
    LockedUntil (r.ip g) (r.afterAt + retry * second)
      (handlePinVerify sha256Hex r g).2.attempts := by
  have heffect := handlePinVerify_effect sha256Hex r g
  rw [h] at heffect
  generalize (handlePinVerify sha256Hex r g).2.attempts = attempts at heffect ⊢
  generalize hout : (⟨.lockout retry, some pin⟩ : VerifyOutcome) = outcome at heffect
  cases heffect with
  | rejected _ => exact absurd (congrArg VerifyOutcome.compared hout) (by simp)
  | refused _ => exact absurd (congrArg VerifyOutcome.compared hout) (by simp)
  | undecoded _ => exact absurd (congrArg VerifyOutcome.compared hout) (by simp)
  | matched _ hne => exact absurd (congrArg VerifyOutcome.response hout).symm (hne retry)
  | @failed _ failure _ hfailure =>
      have hresponse := congrArg VerifyOutcome.response hout
      dsimp only at hresponse
      rw [pinOnVerifyFailure_eq] at hfailure
      subst hfailure
      simp only [PinAttemptEntry.failAnswer] at hresponse
      by_cases hfive : 5 ≤ ((roomFor r.afterAt r.order (r.ip g)
          (pinBeforeVerify r.beforeAt (r.ip g) g.attempts).2).entry (r.ip g)).failures + 1
      · simp only [if_pos hfive, if_true, VerifyResponse.lockout.injEq] at hresponse
        refine ⟨_, Finmap.lookup_insert _, ?_⟩
        rw [hresponse, lockFor_div_mul]
        exact if_pos hfive
      · simp only [if_neg hfive, Bool.false_eq_true, if_false] at hresponse
        exact absurd hresponse (by simp)

/-- **A lockout stays in force, and the table stays bounded.** In every run of a controller's
requests, of any clients, the attempt table has at most 4096 entries; and once a request has
answered its client with a lockout of `retry` seconds after comparing its PIN, every later
request of that client that arrives before the lock ends is refused without its PIN being
compared, whatever was handled in between. -/
theorem lockout_in_force {start : ℕ} (hstart : 0 < start) (pinSalt pinHash : String)
    (trusted : List Prefix) {rs : List VerifyRequest} {st : ℕ × PinGuard}
    (hrun : Run (verifyStep sha256Hex) (start, PinGuard.new start pinSalt pinHash trusted) rs st) :
    GoMap.len st.2.attempts.pinAttempts ≤ 4096 ∧
      ∀ r retry pin st₁, verifyStep sha256Hex st r st₁ →
        (handlePinVerify sha256Hex r st.2).1 = ⟨.lockout retry, some pin⟩ →
        ∀ rs' st₂, Run (verifyStep sha256Hex) st₁ rs' st₂ →
        ∀ r', r'.method = "POST" → r'.ip st₂.2 = r.ip st.2 → st₂.1 ≤ r'.beforeAt →
          r'.beforeAt < r.afterAt + retry * second →
          ∃ retry', (handlePinVerify sha256Hex r' st₂.2).1 = ⟨.lockout retry', none⟩ := by
  have hinv : AttemptInv st.1 1 st.2.attempts :=
    attemptInv_run sha256Hex (attemptInv_new hstart) hrun
  have henabled : st.2.pinGuardEnabled = true := (config_run sha256Hex hrun).2
  refine ⟨hinv.capacity, ?_⟩
  intro r retry pin st₁ hstep hlockout rs' st₂ hrun' r' hpost hclient hclock harrives
  have hlocked₁ : LockedUntil (r.ip st.2) (r.afterAt + retry * second) st₁.2.attempts := by
    obtain ⟨-, -, -, rfl⟩ := hstep
    exact lockedUntil_of_lockout sha256Hex hlockout
  have hinv₁ := attemptInv_step sha256Hex hinv hstep
  have hinv₂ := attemptInv_run sha256Hex hinv₁ hrun'
  have hlocked₂ := lock_survives_run sha256Hex hinv₁ hrun' hlocked₁
    (lt_of_le_of_lt hclock harrives)
  have hrefused := hlocked₂.refused hinv₂ harrives
  rw [← hclient] at hrefused
  have henabled₂ : st₂.2.pinGuardEnabled = true := by
    rw [(config_run sha256Hex hrun').2, ← henabled]
    obtain ⟨-, -, -, rfl⟩ := hstep
    exact (handlePinVerify_config sha256Hex r st.2).2
  refine ⟨(pinBeforeVerify r'.beforeAt (r'.ip st₂.2) st₂.2.attempts).1.2, ?_⟩
  simp only [handlePinVerify, hpost, henabled₂, hrefused, ne_eq, not_true_eq_false, if_false,
    Bool.not_true, Bool.false_eq_true, Bool.not_false, if_true]

end

/-- A wrong PIN of one client, one second after the start. -/
def wrongPin (order : List String) : VerifyRequest where
  method := "POST"
  sender := ⟨"203.0.113.10:44000", "198.51.100.1"⟩
  body := some "0000"
  beforeAt := 2 * second
  afterAt := 2 * second
  sessionAt := 2 * second
  order := order
  token := none

/-- The guard with PIN 2468 after `n` wrong PINs; the table is empty before the first. -/
def afterWrongPins : ℕ → ℕ × PinGuard
  | 0 => (second, PinGuard.new second "salt" "salt:2468" [])
  | n + 1 => (2 * second, (handlePinVerify id (wrongPin (if n = 0 then [] else ["203.0.113.10"]))
      (afterWrongPins n).2).2)

/-- The fifth wrong PIN locks its client for a minute: the right PIN is refused ten seconds
later. -/
theorem lockout_in_force_sixth_attempt :
    ∃ retry, (handlePinVerify id { wrongPin [] with body := some "2468", beforeAt := 12 * second }
      (afterWrongPins 5).2).1 = ⟨.lockout retry, none⟩ := by
  have hstep₁ : verifyStep id (afterWrongPins 0) (wrongPin []) (afterWrongPins 1) :=
    ⟨by decide, le_rfl, GoMap.isRange_of_keys_eq (by decide +kernel) (by decide), rfl⟩
  have hstep₂ : verifyStep id (afterWrongPins 1) (wrongPin ["203.0.113.10"]) (afterWrongPins 2) :=
    ⟨by decide, le_rfl, GoMap.isRange_of_keys_eq (by decide +kernel) (by decide), rfl⟩
  have hstep₃ : verifyStep id (afterWrongPins 2) (wrongPin ["203.0.113.10"]) (afterWrongPins 3) :=
    ⟨by decide, le_rfl, GoMap.isRange_of_keys_eq (by decide +kernel) (by decide), rfl⟩
  have hstep₄ : verifyStep id (afterWrongPins 3) (wrongPin ["203.0.113.10"]) (afterWrongPins 4) :=
    ⟨by decide, le_rfl, GoMap.isRange_of_keys_eq (by decide +kernel) (by decide), rfl⟩
  have hstep₅ : verifyStep id (afterWrongPins 4) (wrongPin ["203.0.113.10"]) (afterWrongPins 5) :=
    ⟨by decide, le_rfl, GoMap.isRange_of_keys_eq (by decide +kernel) (by decide), rfl⟩
  have hrun := (((Run.single hstep₁).snoc hstep₂).snoc hstep₃).snoc hstep₄
  exact (lockout_in_force id (by decide) "salt" "salt:2468" [] hrun).2 _ 60 "0000" _ hstep₅
    (by decide +kernel) [] _ Run.nil _ rfl (by decide +kernel) (by decide) (by decide)

end Contiwatch
