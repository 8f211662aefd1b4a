import Contiwatch.Lib.GoMap
import Contiwatch.Lib.GoStrings
import Contiwatch.Lib.GoTime

/-!
# PIN Sessions and WebSocket Tickets

The session half of `internal/server/pin_guard.go`: the table of unlocked sessions with
their lazy idle expiry, the single-use WebSocket tickets bound to them, and the done
channels through which open streams learn that their session is gone. Every operation runs
in one critical section under `pinMu`; a reading of the clock is the argument `now`, and a
string drawn by `generateToken` is the argument `token` or `ticket`.

A channel is a number handed out in order by `make`. The state counts the calls of `close`
on each channel, so that a second call, which panics in Go, stays visible.

## Main results

* `lookup_pruneExpired` — pruning is a pointwise filter of the session table, also where the
  code returns early.
* `pinSessionAuthorized_true` / `pinSessionAuthorized_false`,
  `consumePinWebSocketTicketSession_cases` — what the two authorizing operations answer and
  leave behind.
-/

namespace Contiwatch

open GoTime

/-- `pinSessionIdleMaxAge`. -/
def pinSessionIdleMaxAge : ℕ := 24 * hour

/-- `pinWebSocketTicketAge`. -/
def pinWebSocketTicketAge : ℕ := 30 * second

/-- `pinSessionEntry`. The done channel may be nil. -/
structure PinSessionEntry where
  lastSeen : ℕ
  done : Option ℕ
  deriving DecidableEq, Repr

/-- `pinWebSocketTicketEntry`. -/
structure PinWebSocketTicketEntry where
  expiresAt : ℕ
  sessionToken : String
  deriving DecidableEq, Repr

/-- The fields of `Server` that hold sessions and tickets, with the channels made so far and
the number of times each was closed. -/
structure PinSessionState where
  pinSessions : GoMap String PinSessionEntry
  pinWebSocketTickets : GoMap String PinWebSocketTicketEntry
  nextChan : ℕ
  closes : ℕ → ℕ

/-- The session fields as `New` sets them. -/
def PinSessionState.new : PinSessionState where
  pinSessions := ∅
  pinWebSocketTickets := ∅
  nextChan := 0
  closes := fun _ => 0

/-- The expiry test of the pruning loop. -/
def PinSessionEntry.Expired (e : PinSessionEntry) (now : ℕ) : Prop :=
  e.lastSeen = 0 ∨ pinSessionIdleMaxAge < now - e.lastSeen

instance (e : PinSessionEntry) (now : ℕ) : Decidable (e.Expired now) :=
  inferInstanceAs (Decidable (_ ∨ _))

/-- The expiry test of the ticket loop. -/
def PinWebSocketTicketEntry.Expired (e : PinWebSocketTicketEntry) (now : ℕ) : Prop :=
  e.expiresAt = 0 ∨ ¬ now < e.expiresAt

instance (e : PinWebSocketTicketEntry) (now : ℕ) : Decidable (e.Expired now) :=
  inferInstanceAs (Decidable (_ ∨ _))

/-- `pruneExpiredPinSessionsLocked`: close and drop the idle sessions, drop the expired
tickets. Without any session it does nothing, and the tickets stay. -/
def pruneExpiredPinSessionsLocked (now : ℕ) (s : PinSessionState) : PinSessionState :=
  if GoMap.len s.pinSessions = 0 then s
  else
    { s with
      pinSessions := GoMap.filter (fun _ e => !decide (e.Expired now)) s.pinSessions
      closes := fun c => s.closes c +
        GoMap.count (fun e => decide (e.Expired now) && decide (e.done = some c)) s.pinSessions
      pinWebSocketTickets :=
        GoMap.filter (fun _ e => !decide (e.Expired now)) s.pinWebSocketTickets }

/-- `pinSessionAuthorized`: prune, then look the token up and refresh it. -/
def pinSessionAuthorized (pinGuardEnabled : Bool) (now : ℕ) (token : String)
    (s : PinSessionState) : Bool × PinSessionState :=
  if !pinGuardEnabled || token = "" then (false, s)
  else
    let s := pruneExpiredPinSessionsLocked now s
    match s.pinSessions.lookup token with
    | none => (false, s)
    | some entry =>
        (true, { s with
          pinSessions := s.pinSessions.insert token { entry with lastSeen := now } })

/-- `createPinSession` with the token drawn by `generateToken`. -/
def createPinSession (now : ℕ) (token : String) (s : PinSessionState) : PinSessionState :=
  let s := pruneExpiredPinSessionsLocked now s
  { s with
    pinSessions := s.pinSessions.insert token ⟨now, some s.nextChan⟩
    nextChan := s.nextChan + 1 }

/-- `close(c)`. -/
def closeChan (c : ℕ) (s : PinSessionState) : PinSessionState :=
  { s with closes := fun c' => if c' = c then s.closes c' + 1 else s.closes c' }

/-- `revokePinSession`: close the session's channel, drop the session and its tickets. -/
def revokePinSession (token : String) (s : PinSessionState) : PinSessionState :=
  if token = "" then s
  else
    let s := match s.pinSessions.lookup token with
      | some ⟨_, some c⟩ => closeChan c s
      | _ => s
    { s with
      pinSessions := s.pinSessions.erase token
      pinWebSocketTickets :=
        GoMap.filter (fun _ e => !decide (e.sessionToken = token)) s.pinWebSocketTickets }

/-- `createPinWebSocketTicket` with the ticket drawn by `generateToken`; `false` is the
error for a missing session token. -/
def createPinWebSocketTicket (now : ℕ) (sessionToken ticket : String)
    (s : PinSessionState) : Bool × PinSessionState :=
  if sessionToken = "" then (false, s)
  else
    let s := pruneExpiredPinSessionsLocked now s
    (true, { s with
      pinWebSocketTickets := s.pinWebSocketTickets.insert ticket
        ⟨now + pinWebSocketTicketAge, sessionToken⟩ })

/-- `consumePinWebSocketTicketSession`: the session a ticket stands for, or the empty
token. A ticket that was looked at is gone. -/
def consumePinWebSocketTicketSession (now : ℕ) (ticket : String) (s : PinSessionState) :
    String × PinSessionState :=
  if ticket = "" then ("", s)
  else
    let s := pruneExpiredPinSessionsLocked now s
    let s' := { s with pinWebSocketTickets := s.pinWebSocketTickets.erase ticket }
    match s.pinWebSocketTickets.lookup ticket with
    | none => ("", s')
    | some entry =>
        if ¬ now < entry.expiresAt then ("", s')
        else if entry.sessionToken ∈ s'.pinSessions then (entry.sessionToken, s')
        else ("", s')

/-- `pinSessionDone` for the session token bound to a request; nil without one. A session
that is gone answers with a channel already closed. -/
def pinSessionDone (token : String) (s : PinSessionState) : Option ℕ × PinSessionState :=
  if token = "" then (none, s)
  else
    match s.pinSessions.lookup token with
    | none => (some s.nextChan, closeChan s.nextChan { s with nextChan := s.nextChan + 1 })
    | some ⟨lastSeen, none⟩ =>
        (some s.nextChan, { s with
          pinSessions := s.pinSessions.insert token ⟨lastSeen, some s.nextChan⟩
          nextChan := s.nextChan + 1 })
    | some ⟨_, some c⟩ => (some c, s)

/-! ### What the operations do to the tables -/

/-- Pruning keeps exactly the sessions that are not idle for too long. -/
theorem lookup_pruneExpired (now : ℕ) (s : PinSessionState) (t : String) :
    (pruneExpiredPinSessionsLocked now s).pinSessions.lookup t =
      (s.pinSessions.lookup t).filter fun e => !decide (e.Expired now) := by
  rw [pruneExpiredPinSessionsLocked]
  split_ifs with hlen
  · rw [GoMap.len_eq_zero.mp hlen t, Option.filter_none]
  · exact GoMap.lookup_filter _ _ t

/-- Pruning leaves the sessions that have not expired. -/
theorem lookup_pruneExpired_eq_some {now : ℕ} {s : PinSessionState} {t : String}
    {e : PinSessionEntry} :
    (pruneExpiredPinSessionsLocked now s).pinSessions.lookup t = some e ↔
      s.pinSessions.lookup t = some e ∧ ¬ e.Expired now := by
  rw [lookup_pruneExpired, Option.filter_eq_some_iff]
  simp

/-- Pruning only drops tickets. -/
theorem ticket_of_pruneExpired {now : ℕ} {s : PinSessionState} {k : String}
    {e : PinWebSocketTicketEntry}
    (h : (pruneExpiredPinSessionsLocked now s).pinWebSocketTickets.lookup k = some e) :
    s.pinWebSocketTickets.lookup k = some e := by
  rw [pruneExpiredPinSessionsLocked] at h
  split_ifs at h
  · exact h
  · rw [GoMap.lookup_filter, Option.filter_eq_some_iff] at h
    exact h.1

/-- It makes no channel. -/
@[simp] theorem nextChan_pruneExpired (now : ℕ) (s : PinSessionState) :
    (pruneExpiredPinSessionsLocked now s).nextChan = s.nextChan := by
  rw [pruneExpiredPinSessionsLocked]
  split_ifs <;> rfl

/-- Pruning closes the channel of every session it drops. -/
theorem closes_pruneExpired (now : ℕ) (s : PinSessionState) (c : ℕ) :
    (pruneExpiredPinSessionsLocked now s).closes c = s.closes c +
      GoMap.count (fun e => decide (e.Expired now) && decide (e.done = some c))
        s.pinSessions := by
  rw [pruneExpiredPinSessionsLocked]
  split_ifs with hlen
  · rw [GoMap.count_eq_zero, Nat.add_zero]
    intro t e he
    rw [GoMap.len_eq_zero.mp hlen t] at he
    exact absurd he (by simp)
  · rfl

/-- An authorized token has a session that is not idle for too long, which is refreshed. -/
theorem pinSessionAuthorized_true {now : ℕ} {token : String} {s : PinSessionState}
    (h : (pinSessionAuthorized true now token s).1 = true) :
    ∃ e, token ≠ "" ∧ s.pinSessions.lookup token = some e ∧ ¬ e.Expired now ∧
      (pinSessionAuthorized true now token s).2 =
        { pruneExpiredPinSessionsLocked now s with
          pinSessions := (pruneExpiredPinSessionsLocked now s).pinSessions.insert token
            { e with lastSeen := now } } := by
  simp only [pinSessionAuthorized, Bool.not_true, Bool.false_or, decide_eq_true_eq] at h ⊢
  by_cases htoken : token = ""
  · simp only [if_pos htoken, Bool.false_eq_true] at h
  · simp only [if_neg htoken] at h ⊢
    rcases hlook : (pruneExpiredPinSessionsLocked now s).pinSessions.lookup token with _ | e
    · simp only [hlook, Bool.false_eq_true] at h
    · obtain ⟨he, hfresh⟩ := lookup_pruneExpired_eq_some.mp hlook
      exact ⟨e, htoken, he, hfresh, rfl⟩

/-- A refused token is empty or has no session left after pruning. -/
theorem pinSessionAuthorized_false {now : ℕ} {token : String} {s : PinSessionState}
    (h : (pinSessionAuthorized true now token s).1 = false) :
    (token = "" ∧ (pinSessionAuthorized true now token s).2 = s) ∨
      ((pruneExpiredPinSessionsLocked now s).pinSessions.lookup token = none ∧
        (pinSessionAuthorized true now token s).2 = pruneExpiredPinSessionsLocked now s) := by
  simp only [pinSessionAuthorized, Bool.not_true, Bool.false_or, decide_eq_true_eq] at h ⊢
  by_cases htoken : token = ""
  · simp only [if_pos htoken]
    exact Or.inl ⟨htoken, trivial⟩
  · simp only [if_neg htoken] at h ⊢
    rcases hlook : (pruneExpiredPinSessionsLocked now s).pinSessions.lookup token with _ | e
    · exact Or.inr ⟨rfl, rfl⟩
    · simp only [hlook, Bool.true_eq_false] at h

/-- A ticket that was looked at is gone, and it answers with its session only while it has
not expired and the session is in the pruned table. -/
theorem consumePinWebSocketTicketSession_cases (now : ℕ) (ticket : String)
    (s : PinSessionState) :
    (ticket = "" ∧ consumePinWebSocketTicketSession now ticket s = ("", s)) ∨
      ∃ token, consumePinWebSocketTicketSession now ticket s =
          (token, { pruneExpiredPinSessionsLocked now s with
            pinWebSocketTickets :=
              (pruneExpiredPinSessionsLocked now s).pinWebSocketTickets.erase ticket }) ∧
        (token = "" ∨ ∃ e, s.pinWebSocketTickets.lookup ticket = some e ∧
          now < e.expiresAt ∧ e.sessionToken = token ∧
          token ∈ (pruneExpiredPinSessionsLocked now s).pinSessions) := by
  simp only [consumePinWebSocketTicketSession]
  by_cases hticket : ticket = ""
  · rw [if_pos hticket]
    exact Or.inl ⟨hticket, rfl⟩
  · rw [if_neg hticket]
    refine Or.inr ?_
    rcases hlook : (pruneExpiredPinSessionsLocked now s).pinWebSocketTickets.lookup ticket with
      _ | e
    · exact ⟨"", rfl, Or.inl rfl⟩
    · dsimp only
      split_ifs with hvalid hmem
      · exact ⟨e.sessionToken, rfl,
          Or.inr ⟨e, ticket_of_pruneExpired hlook, hvalid, rfl, hmem⟩⟩
      · exact ⟨"", rfl, Or.inl rfl⟩
      · exact ⟨"", rfl, Or.inl rfl⟩

/-- Revoking a session drops it and leaves the others. -/
theorem lookup_revoke {token : String} (htoken : token ≠ "") (s : PinSessionState)
    (t : String) :
    (revokePinSession token s).pinSessions.lookup t =
      if t = token then none else s.pinSessions.lookup t := by
  have hsame : ∀ {s' : PinSessionState}, s'.pinSessions = s.pinSessions →
      (s'.pinSessions.erase token).lookup t =
        if t = token then none else s.pinSessions.lookup t := by
    intro s' hs'
    rw [hs']
    split_ifs with ht
    · rw [ht, Finmap.lookup_erase]
    · rw [Finmap.lookup_erase_ne ht]
  rw [revokePinSession, if_neg htoken]
  rcases hlook : s.pinSessions.lookup token with _ | ⟨seen, _ | c⟩
  · exact hsame rfl
  · exact hsame rfl
  · exact hsame rfl

/-- Revoking a session only drops tickets. -/
theorem ticket_of_revoke {token : String} {s : PinSessionState} {k : String}
    {e : PinWebSocketTicketEntry}
    (h : (revokePinSession token s).pinWebSocketTickets.lookup k = some e) :
    s.pinWebSocketTickets.lookup k = some e := by
  rw [revokePinSession] at h
  split_ifs at h with htoken
  · exact h
  · rcases hlook : s.pinSessions.lookup token with _ | ⟨seen, _ | c⟩ <;>
      rw [hlook] at h <;>
      exact (Option.filter_eq_some_iff.mp ((GoMap.lookup_filter ..).symm.trans h)).1

/-- Handing out a done channel leaves the tickets. -/
theorem tickets_pinSessionDone (token : String) (s : PinSessionState) :
    (pinSessionDone token s).2.pinWebSocketTickets = s.pinWebSocketTickets := by
  rw [pinSessionDone]
  split_ifs with htoken
  · rfl
  · rcases hlook : s.pinSessions.lookup token with _ | ⟨seen, _ | c⟩ <;> rfl

/-! ### Requests -/

/-- `pinWebSocketAPIPath`. -/
def pinWebSocketAPIPath (path : String) : Bool :=
  path = "/api/containers/shell" || path = "/api/containers/logs"

/-- What `pinRequestAuthorized` reads of a request: its path, the session header and the
query values `pin_session` and `ws_ticket`, each empty when missing. -/
structure PinRequest where
  path : String
  pinSessionHeader : String
  pinSessionQuery : String
  wsTicketQuery : String
  deriving DecidableEq, Repr

/-- `pinSessionTokenFromRequest`: the header, or else the query value. -/
def pinSessionTokenFromRequest (r : PinRequest) : String :=
  let header := GoStrings.trimSpaceStr r.pinSessionHeader
  if header ≠ "" then header else GoStrings.trimSpaceStr r.pinSessionQuery

/-- `pinRequestAuthorized`: the session token the request is bound to, if it is
authorized. The two critical sections read the clock at `now` and `now'`. -/
def pinRequestAuthorized (pinGuardEnabled : Bool) (now now' : ℕ) (r : PinRequest)
    (s : PinSessionState) : Option String × PinSessionState :=
  let token := pinSessionTokenFromRequest r
  match pinSessionAuthorized pinGuardEnabled now token s with
  | (true, s) => (some token, s)
  | (false, s) =>
      if !pinWebSocketAPIPath r.path then (none, s)
      else
        let ticket := GoStrings.trimSpaceStr r.wsTicketQuery
        match consumePinWebSocketTicketSession now' ticket s with
        | (token, s) => if token = "" then (none, s) else (some token, s)

end Contiwatch
