import Contiwatch.PinSessionRuns

/-!
# WebSocket Tickets and Authorized Requests

The requests that pass the PIN guard. A request is checked in up to two critical sections,
for its session token and then, on a WebSocket path, for its ticket; a ticket is created in
two, the check of the session and the creation. Other operations may come between them, so
a request is a small state machine over the session operations, and every step of it is one
of them: `run_sessions`.

## Main results

* `ticketInv_run` — a ticket in the table was created as it stands there and is not redeemed.
* `ticket_authorizes` — a ticket authorizes at most one request, for 30 seconds, on the
  WebSocket paths, while its session is valid, and binds the request to that session.
-/

namespace Contiwatch

open GoTime GoStrings

/-! ### Tickets in the table -/

/-- The operation redeems the ticket `k` for a session. -/
def SessionEvent.redeems (k : String) : SessionEvent → Bool
  | .consume _ ticket sessionToken => ticket = k && sessionToken ≠ ""
  | _ => false

/-- How often a history redeems the ticket `k`. -/
def redeemed (k : String) (es : List SessionEvent) : ℕ := es.countP (·.redeems k)

/-- One more event redeems a ticket once more, or not. -/
theorem redeemed_snoc (k : String) (es : List SessionEvent) (e : SessionEvent) :
    redeemed k (es ++ [e]) = redeemed k es + if e.redeems k then 1 else 0 := by
  rw [redeemed, List.countP_append, List.countP_singleton, redeemed]

/-- The tickets of the table against the history. -/
structure TicketInv (es : List SessionEvent) (s : SessionSystem) : Prop where
  created : ∀ k e, s.state.pinWebSocketTickets.lookup k = some e →
    ∃ n, e.expiresAt = n + pinWebSocketTicketAge ∧ .createTicket n e.sessionToken k ∈ es
  unredeemed : ∀ k e, s.state.pinWebSocketTickets.lookup k = some e → redeemed k es = 0
  created_drawn : ∀ n token k, .createTicket n token k ∈ es → k ∈ s.drawn
  created_once : ∀ n token n' token' k, .createTicket n token k ∈ es →
    .createTicket n' token' k ∈ es → n = n' ∧ token = token'
  redeemed_drawn : ∀ k, k ∉ s.drawn → redeemed k es = 0
  redeemed_once : ∀ k, redeemed k es ≤ 1

/-- The system starts within the invariant. -/
theorem ticketInv_new (start : ℕ) : TicketInv [] (SessionSystem.new start) where
  created := fun k e h => absurd h (by simp [SessionSystem.new, PinSessionState.new])
  unredeemed := fun _ _ _ => rfl
  created_drawn := fun _ _ _ h => absurd h (by simp)
  created_once := fun _ _ _ _ _ h => absurd h (by simp)
  redeemed_drawn := fun _ _ => rfl
  redeemed_once := fun _ => Nat.zero_le 1

/-- An operation that creates no ticket and only drops tickets, among them the one it
redeems, keeps the invariant. -/
theorem TicketInv.of_drop {es : List SessionEvent} {s s' : SessionSystem} {e : SessionEvent}
    (h : TicketInv es s) (hcreate : ∀ n token k, e ≠ .createTicket n token k)
    (hredeem : ∀ k, e.redeems k = true → s.state.pinWebSocketTickets.lookup k ≠ none ∧
      s'.state.pinWebSocketTickets.lookup k = none)
    (hdrawn : s.drawn ⊆ s'.drawn)
    (hdrop : ∀ k entry, s'.state.pinWebSocketTickets.lookup k = some entry →
      s.state.pinWebSocketTickets.lookup k = some entry) : TicketInv (es ++ [e]) s' := by
  have hcount : ∀ {k}, e.redeems k ≠ true → redeemed k (es ++ [e]) = redeemed k es := by
    intro k hk
    rw [redeemed_snoc, if_neg hk, Nat.add_zero]
  have hthere : ∀ {k}, e.redeems k = true →
      ∃ entry, s.state.pinWebSocketTickets.lookup k = some entry :=
    fun hk => Option.ne_none_iff_exists'.mp (hredeem _ hk).1
  have hmem : ∀ {n : ℕ} {token k : String}, .createTicket n token k ∈ es ++ [e] →
      .createTicket n token k ∈ es := by
    intro n token k hin
    rcases List.mem_append.mp hin with hin | hin
    · exact hin
    · exact absurd (List.mem_singleton.mp hin).symm (hcreate n token k)
  refine ⟨?_, ?_, ?_, ?_, ?_, ?_⟩
  · intro k entry hentry
    obtain ⟨n, hn, hin⟩ := h.created k entry (hdrop k entry hentry)
    exact ⟨n, hn, List.mem_append_left _ hin⟩
  · intro k entry hentry
    rw [hcount]
    · exact h.unredeemed k entry (hdrop k entry hentry)
    · intro hk
      rw [(hredeem k hk).2] at hentry
      exact absurd hentry (by simp)
  · exact fun n token k hin => hdrawn (h.created_drawn n token k (hmem hin))
  · exact fun n token n' token' k hin hin' => h.created_once n token n' token' k
      (hmem hin) (hmem hin')
  · intro k hk
    rw [hcount]
    · exact h.redeemed_drawn k fun hin => hk (hdrawn hin)
    · intro hredeemed
      obtain ⟨entry, hentry⟩ := hthere hredeemed
      obtain ⟨n, -, hin⟩ := h.created k entry hentry
      exact hk (hdrawn (h.created_drawn n _ k hin))
  · intro k
    by_cases hk : e.redeems k = true
    · -- the ticket was not redeemed before, so this is its first redemption
      obtain ⟨entry, hentry⟩ := hthere hk
      rw [redeemed_snoc, if_pos hk, h.unredeemed k entry hentry]
    · rw [hcount hk]
      exact h.redeemed_once k

/-- Creating a ticket under a fresh name keeps the invariant. -/
theorem TicketInv.create {es : List SessionEvent} {s : SessionSystem} (h : TicketInv es s)
    {now : ℕ} {sessionToken ticket : String} (hfresh : s.Fresh ticket) :
    TicketInv (es ++ [.createTicket now sessionToken ticket])
      ⟨now, ticket :: s.drawn,
        (createPinWebSocketTicket now sessionToken ticket s.state).2⟩ := by
  have hcount : ∀ k, redeemed k (es ++ [.createTicket now sessionToken ticket]) =
      redeemed k es := fun k => by
    rw [redeemed_snoc]
    rfl
  have hentry : ∀ k e,
      (createPinWebSocketTicket now sessionToken ticket s.state).2.pinWebSocketTickets.lookup k =
        some e → s.state.pinWebSocketTickets.lookup k = some e ∨
          (k = ticket ∧ e = ⟨now + pinWebSocketTicketAge, sessionToken⟩) := by
    intro k e he
    rw [createPinWebSocketTicket] at he
    split_ifs at he with htoken
    · exact Or.inl he
    · by_cases hk : k = ticket
      · rw [hk, Finmap.lookup_insert] at he
        exact Or.inr ⟨hk, (Option.some.inj he).symm⟩
      · rw [Finmap.lookup_insert_of_ne _ hk] at he
        exact Or.inl (ticket_of_pruneExpired he)
  have hold : ∀ {n : ℕ} {token k : String},
      .createTicket n token k ∈ es ++ [.createTicket now sessionToken ticket] →
      (.createTicket n token k ∈ es ∧ k ≠ ticket) ∨
        (n = now ∧ token = sessionToken ∧ k = ticket) := by
    intro n token k hin
    rcases List.mem_append.mp hin with hbefore | hlast
    · refine Or.inl ⟨hbefore, ?_⟩
      rintro rfl
      exact hfresh.2 (h.created_drawn n token k hbefore)
    · exact Or.inr (by simpa using hlast)
  refine ⟨?_, ?_, ?_, ?_, ?_, ?_⟩
  · intro k e he
    rcases hentry k e he with hk | ⟨rfl, rfl⟩
    · obtain ⟨n, hn, hin⟩ := h.created k e hk
      exact ⟨n, hn, List.mem_append_left _ hin⟩
    · exact ⟨now, rfl, List.mem_append_right _ (List.mem_singleton_self _)⟩
  · intro k e he
    rw [hcount]
    rcases hentry k e he with hk | ⟨rfl, rfl⟩
    · exact h.unredeemed k e hk
    · exact h.redeemed_drawn k hfresh.2
  · intro n token k hin
    rcases hold hin with ⟨hin, -⟩ | ⟨-, -, rfl⟩
    · exact List.mem_cons_of_mem _ (h.created_drawn n token k hin)
    · exact List.mem_cons_self ..
  · intro n token n' token' k hin hin'
    rcases hold hin with ⟨hin, hk⟩ | ⟨rfl, rfl, rfl⟩
    · rcases hold hin' with ⟨hin', -⟩ | ⟨-, -, rfl⟩
      · exact h.created_once n token n' token' k hin hin'
      · exact absurd rfl hk
    · rcases hold hin' with ⟨-, hk⟩ | ⟨rfl, rfl, -⟩
      · exact absurd rfl hk
      · exact ⟨rfl, rfl⟩
  · intro k hk
    rw [hcount]
    exact h.redeemed_drawn k fun hin => hk (List.mem_cons_of_mem _ hin)
  · intro k
    rw [hcount]
    exact h.redeemed_once k

/-- Looking at a ticket keeps the invariant: the ticket is gone, redeemed or not. -/
theorem TicketInv.consume {es : List SessionEvent} {s : SessionSystem} (h : TicketInv es s)
    {now : ℕ} {ticket sessionToken : String}
    (htoken : (consumePinWebSocketTicketSession now ticket s.state).1 = sessionToken) :
    TicketInv (es ++ [.consume now ticket sessionToken])
      ⟨now, s.drawn, (consumePinWebSocketTicketSession now ticket s.state).2⟩ := by
  rcases consumePinWebSocketTicketSession_cases now ticket s.state with
    ⟨-, heq⟩ | ⟨token, heq, hcases⟩
  · rw [heq] at htoken ⊢
    refine h.of_drop (by simp) (fun k hk => ?_) (List.Subset.refl _) fun _ _ hk => hk
    exact absurd hk (by simp [SessionEvent.redeems, ← htoken])
  rw [heq] at htoken ⊢
  dsimp only at htoken
  subst htoken
  refine h.of_drop (by simp) (fun k hk => ?_) (List.Subset.refl _) fun k entry hk => ?_
  · simp only [SessionEvent.redeems, Bool.and_eq_true, decide_eq_true_eq] at hk
    obtain ⟨rfl, hne⟩ := hk
    obtain ⟨e, he, -⟩ := hcases.resolve_left hne
    exact ⟨by simp [he], Finmap.lookup_erase _ _⟩
  · by_cases hkt : k = ticket
    · rw [hkt] at hk
      exact absurd (hk.symm.trans (Finmap.lookup_erase _ _)) (by simp)
    · exact ticket_of_pruneExpired ((Finmap.lookup_erase_ne hkt).symm.trans hk)

/-- **Every operation keeps the invariant of the tickets.** -/
theorem ticketInv_step {es : List SessionEvent} {s s' : SessionSystem} {e : SessionEvent}
    (h : TicketInv es s) (hstep : SessionStep s e s') : TicketInv (es ++ [e]) s' := by
  cases hstep with
  | create hnow hfresh =>
      exact h.of_drop (by simp) (fun _ hk => absurd hk Bool.false_ne_true)
        (List.subset_cons_self ..) fun _ _ hk => ticket_of_pruneExpired hk
  | @authorize now token ok hnow hok =>
      refine h.of_drop (by simp) (fun _ hk => absurd hk Bool.false_ne_true)
        (List.Subset.refl _) fun k entry hk => ?_
      cases ok with
      | true =>
          obtain ⟨_, -, -, -, hstate⟩ := pinSessionAuthorized_true hok
          rw [hstate] at hk
          exact ticket_of_pruneExpired hk
      | false =>
          rcases pinSessionAuthorized_false hok with ⟨-, hstate⟩ | ⟨-, hstate⟩
          · rwa [hstate] at hk
          · rw [hstate] at hk
            exact ticket_of_pruneExpired hk
  | @revoke token =>
      exact h.of_drop (by simp) (fun _ hk => absurd hk Bool.false_ne_true)
        (List.Subset.refl _) fun _ _ hk => ticket_of_revoke hk
  | createTicket hnow hfresh => exact h.create hfresh
  | consume hnow htoken => exact h.consume htoken
  | @sessionDone token done hdone =>
      refine h.of_drop (by simp) (fun _ hk => absurd hk Bool.false_ne_true)
        (List.Subset.refl _) fun k entry hk => ?_
      rwa [tickets_pinSessionDone] at hk

/-- **The invariant of the tickets holds after every run.** -/
theorem ticketInv_run {start : ℕ} {es : List SessionEvent} {s : SessionSystem}
    (hrun : Run SessionStep (SessionSystem.new start) es s) : TicketInv es s :=
  hrun.invariant TicketInv (ticketInv_new start) fun h hstep => ticketInv_step h hstep

/-! ### Requests -/

/-- How far `pinRequestAuthorized` has come with a request. -/
inductive RequestPhase where
  | new
  /-- The session check failed on a WebSocket path; the ticket was not looked at yet. -/
  | awaitingTicket (r : PinRequest)
  | refused
  /-- Authorized, with the session token in the request's context. -/
  | bound (token : String)
  deriving DecidableEq, Repr

/-- How far `handlePinWebSocketTicket` has come with a request. -/
inductive TicketPhase where
  | new
  | authorized (sessionToken : String)
  | done
  deriving DecidableEq, Repr

/-- The sessions and the requests on their way. -/
structure RequestSystem where
  sessions : SessionSystem
  request : ℕ → RequestPhase
  ticketRequest : ℕ → TicketPhase

/-- A controller at its start. -/
def RequestSystem.new (start : ℕ) : RequestSystem where
  sessions := SessionSystem.new start
  request := fun _ => .new
  ticketRequest := fun _ => .new

/-- The critical sections of the handlers, with their clock readings and answers. -/
inductive RequestEvent where
  /-- `createPinSession` after a matching PIN. -/
  | unlock (now : ℕ) (token : String)
  /-- `handlePinLogout`. -/
  | logout (token : String)
  /-- `handlePinStatus`. -/
  | status (now : ℕ) (token : String) (ok : Bool)
  /-- The session check of `pinRequestAuthorized`. -/
  | check (i now : ℕ) (r : PinRequest) (ok : Bool)
  /-- The ticket check of `pinRequestAuthorized`. -/
  | redeem (i now : ℕ) (ticket sessionToken : String)
  /-- `pinSessionDone` for the request. -/
  | openStream (i : ℕ) (token : String) (done : Option ℕ)
  /-- The session check of `handlePinWebSocketTicket`. -/
  | requestTicket (j now : ℕ) (token : String) (ok : Bool)
  /-- The creation in `handlePinWebSocketTicket`. -/
  | issueTicket (j now : ℕ) (sessionToken ticket : String)
  deriving DecidableEq, Repr

/-- The session operation of a critical section. -/
def RequestEvent.toSession : RequestEvent → SessionEvent
  | .unlock now token => .create now token
  | .logout token => .revoke token
  | .status now token ok => .authorize now token ok
  | .check _ now r ok => .authorize now (pinSessionTokenFromRequest r) ok
  | .redeem _ now ticket sessionToken => .consume now ticket sessionToken
  | .openStream _ token done => .sessionDone token done
  | .requestTicket _ now token ok => .authorize now token ok
  | .issueTicket _ now sessionToken ticket => .createTicket now sessionToken ticket

/-- The session token in the context of a request, empty without one. -/
def RequestPhase.token : RequestPhase → String
  | .bound token => token
  | _ => ""

/-- Where the session check leaves a request. -/
def afterCheck (r : PinRequest) (ok : Bool) : RequestPhase :=
  if ok then .bound (pinSessionTokenFromRequest r)
  else if !pinWebSocketAPIPath r.path then .refused
  else .awaitingTicket r

/-- Where the ticket check leaves a request. -/
def afterRedeem (sessionToken : String) : RequestPhase :=
  if sessionToken = "" then .refused else .bound sessionToken

/-- The requests are where a critical section takes them up. -/
def RequestEvent.Enabled (s : RequestSystem) : RequestEvent → Prop
  | .check i _ _ _ => s.request i = .new
  | .redeem i _ ticket _ => ∃ r, s.request i = .awaitingTicket r ∧
      ticket = trimSpaceStr r.wsTicketQuery
  | .openStream i token _ => token = (s.request i).token
  | .requestTicket j _ _ _ => s.ticketRequest j = .new
  | .issueTicket j _ sessionToken _ => s.ticketRequest j = .authorized sessionToken
  | _ => True

/-- Where a critical section leaves the requests. -/
def RequestEvent.request (s : RequestSystem) : RequestEvent → ℕ → RequestPhase
  | .check i _ r ok => Function.update s.request i (afterCheck r ok)
  | .redeem i _ _ sessionToken => Function.update s.request i (afterRedeem sessionToken)
  | _ => s.request

/-- Where a critical section leaves the ticket requests. -/
def RequestEvent.ticketRequest (s : RequestSystem) : RequestEvent → ℕ → TicketPhase
  | .requestTicket j _ token ok =>
      Function.update s.ticketRequest j (if ok then .authorized token else .done)
  | .issueTicket j _ _ _ => Function.update s.ticketRequest j .done
  | _ => s.ticketRequest

/-- One critical section of one of the requests. -/
structure RequestStep (s : RequestSystem) (e : RequestEvent) (s' : RequestSystem) : Prop where
  enabled : e.Enabled s
  sessions : SessionStep s.sessions e.toSession s'.sessions
  request : s'.request = e.request s
  ticketRequest : s'.ticketRequest = e.ticketRequest s

/-- An enabled critical section whose session operation succeeds is a step. -/
theorem RequestStep.of_session {s : RequestSystem} {e : RequestEvent} {t : SessionSystem}
    (henabled : e.Enabled s) (hstep : SessionStep s.sessions e.toSession t) :
    RequestStep s e ⟨t, e.request s, e.ticketRequest s⟩ :=
  ⟨henabled, hstep, rfl, rfl⟩

/-- **The requests only do session operations**: a run of requests is a run of the session
operations of its critical sections. -/
theorem run_sessions {s s' : RequestSystem} {es : List RequestEvent}
    (hrun : Run RequestStep s es s') :
    Run SessionStep s.sessions (es.map RequestEvent.toSession) s'.sessions := by
  induction hrun with
  | nil => exact Run.nil
  | snoc _ hstep ih =>
      rw [List.map_append, List.map_cons, List.map_nil]
      exact ih.snoc hstep.sessions

/-- Only requests on the WebSocket paths wait for their ticket. -/
theorem awaitingTicket_path {start : ℕ} {es : List RequestEvent} {s : RequestSystem}
    (hrun : Run RequestStep (RequestSystem.new start) es s) {i : ℕ} {r : PinRequest}
    (hi : s.request i = .awaitingTicket r) : pinWebSocketAPIPath r.path = true := by
  revert i r
  refine hrun.state_invariant (fun t => ∀ {i r}, t.request i = .awaitingTicket r →
    pinWebSocketAPIPath r.path = true) (fun {i r} hi => ?_) ?_
  · exact absurd hi (by simp [RequestSystem.new])
  · intro t e u ht hstep i r hi
    rw [hstep.request] at hi
    cases e with
    | check j now r' ok =>
        simp only [RequestEvent.request, Function.update_apply] at hi
        split_ifs at hi with hj
        · rw [afterCheck] at hi
          split_ifs at hi with hok hws
          obtain rfl := RequestPhase.awaitingTicket.inj hi
          simpa using hws
        · exact ht hi
    | redeem j now ticket sessionToken =>
        simp only [RequestEvent.request, Function.update_apply] at hi
        split_ifs at hi with hj
        · rw [afterRedeem] at hi
          split_ifs at hi
        · exact ht hi
    | unlock => exact ht hi
    | logout => exact ht hi
    | status => exact ht hi
    | openStream => exact ht hi
    | requestTicket => exact ht hi
    | issueTicket => exact ht hi

/-- A ticket created in the history was issued by a ticket request. -/
theorem issueTicket_of_createTicket {es : List RequestEvent} {n : ℕ} {token k : String}
    (h : .createTicket n token k ∈ es.map RequestEvent.toSession) :
    ∃ j, .issueTicket j n token k ∈ es := by
  obtain ⟨e, he, heq⟩ := List.mem_map.mp h
  cases e with
  | issueTicket j now sessionToken ticket =>
      obtain ⟨rfl, rfl, rfl⟩ := SessionEvent.createTicket.inj heq
      exact ⟨j, he⟩
  | unlock => exact absurd heq (by simp [RequestEvent.toSession])
  | logout => exact absurd heq (by simp [RequestEvent.toSession])
  | status => exact absurd heq (by simp [RequestEvent.toSession])
  | check => exact absurd heq (by simp [RequestEvent.toSession])
  | redeem => exact absurd heq (by simp [RequestEvent.toSession])
  | openStream => exact absurd heq (by simp [RequestEvent.toSession])
  | requestTicket => exact absurd heq (by simp [RequestEvent.toSession])

/-- What a redeemed ticket was: created less than 30 seconds ago, for the session it answers
with, which is still valid. -/
theorem redeemed_ticket {es : List SessionEvent} {s s' : SessionSystem} {now : ℕ}
    {k token : String} (hsession : SessionInv es s) (hticket : TicketInv es s)
    (hstep : SessionStep s (.consume now k token) s') (htoken : token ≠ "") :
    (∃ n, .createTicket n token k ∈ es ∧ now < n + pinWebSocketTicketAge) ∧
      ∃ u, lastUse token es = some u ∧ now ≤ u + pinSessionIdleMaxAge := by
  cases hstep with
  | consume hnow hanswer =>
      rcases consumePinWebSocketTicketSession_cases now k s.state with
        ⟨-, heq⟩ | ⟨token', heq, hcases⟩
      · rw [heq] at hanswer
        exact absurd hanswer.symm htoken
      · rw [heq] at hanswer
        dsimp only at hanswer
        subst hanswer
        obtain ⟨e, he, hvalid, rfl, hmem⟩ := hcases.resolve_left htoken
        obtain ⟨n, hn, hcreated⟩ := hticket.created k e he
        refine ⟨⟨n, hcreated, hn ▸ hvalid⟩, ?_⟩
        obtain ⟨entry, hentry⟩ := Finmap.mem_iff.mp hmem
        obtain ⟨hlook, hfresh⟩ := lookup_pruneExpired_eq_some.mp hentry
        rw [hsession.expired_iff hlook hnow, not_lt] at hfresh
        exact ⟨entry.lastSeen, hsession.present _ _ hlook, hfresh⟩

/-- **What a ticket is good for.** In every run of the requests, every ticket authorizes at
most one request; and a request that is authorized by the ticket `k` has presented it on one
of the two WebSocket paths, less than 30 seconds after it was issued, for a session that is
neither revoked nor idle for more than 24 hours, and is then bound to the session the ticket
was issued for. -/
theorem ticket_authorizes {start : ℕ} (hstart : 0 < start) {es : List RequestEvent}
    {s : RequestSystem} (hrun : Run RequestStep (RequestSystem.new start) es s) :
    (∀ k, es.countP (fun e => e.toSession.redeems k) ≤ 1) ∧
      ∀ i now k token s', RequestStep s (.redeem i now k token) s' → token ≠ "" →
        (∃ r, s.request i = .awaitingTicket r ∧ trimSpaceStr r.wsTicketQuery = k ∧
          (r.path = "/api/containers/shell" ∨ r.path = "/api/containers/logs")) ∧
        (∃ j n, .issueTicket j n token k ∈ es ∧ now < n + 30 * second ∧
          ∀ j' n' token', .issueTicket j' n' token' k ∈ es → n' = n ∧ token' = token) ∧
        (∃ u, lastUse token (es.map RequestEvent.toSession) = some u ∧ now ≤ u + 24 * hour) ∧
        s'.request i = .bound token := by
  have hsession := sessionInv_run hstart (run_sessions hrun)
  have hticket := ticketInv_run (run_sessions hrun)
  constructor
  · intro k
    have hone := hticket.redeemed_once k
    rwa [redeemed, List.countP_map] at hone
  · intro i now k token s' hstep htoken
    obtain ⟨⟨r, hr, rfl⟩, hconsume, hrequest, -⟩ := hstep
    obtain ⟨⟨n, hcreated, hage⟩, hvalid⟩ := redeemed_ticket hsession hticket hconsume htoken
    obtain ⟨j, hissued⟩ := issueTicket_of_createTicket hcreated
    have hpath := awaitingTicket_path hrun hr
    refine ⟨⟨r, hr, rfl, ?_⟩, ⟨j, n, hissued, hage, ?_⟩, hvalid, ?_⟩
    · simpa [pinWebSocketAPIPath] using hpath
    · intro j' n' token' hissued'
      exact hticket.created_once _ _ _ _ _ (List.mem_map_of_mem hissued') hcreated
    · rw [hrequest, RequestEvent.request, Function.update_self, afterRedeem, if_neg htoken]

/-- A ticket issued for a session and presented at once binds its request to the session. -/
theorem ticket_authorizes_at_once : ∃ es s,
    Run RequestStep (RequestSystem.new second) (es ++ [.redeem 0 second "ticket" "session"]) s ∧
      s.request 0 = .bound "session" := by
  have hunlock := RequestStep.of_session (s := RequestSystem.new second)
    (e := .unlock second "session") trivial (.create (by decide) ⟨by decide, by decide⟩)
  have hrequest := (Run.single hunlock).snoc <| .of_session
    (e := .requestTicket 0 second "session" true) rfl (.authorize (by decide) (by decide))
  have hissue := hrequest.snoc <| .of_session
    (e := .issueTicket 0 second "session" "ticket") rfl
    (.createTicket (by decide) ⟨by decide, by decide⟩)
  have hcheck := hissue.snoc <| .of_session
    (e := .check 0 second ⟨"/api/containers/logs", "", "", "ticket"⟩ false) rfl
    (.authorize (by decide) (by decide))
  obtain ⟨s, hrun, s', hredeem⟩ : ∃ s, Run RequestStep (RequestSystem.new second) _ s ∧
      ∃ s', RequestStep s (.redeem 0 second "ticket" "session") s' :=
    ⟨_, hcheck, _, .of_session ⟨_, rfl, by decide⟩ (.consume (by decide) (by decide))⟩
  obtain ⟨-, -, -, hbound⟩ := (ticket_authorizes (by decide) hrun).2 _ _ _ _ _ hredeem
    (by decide)
  exact ⟨_, s', hrun.snoc hredeem, hbound⟩

end Contiwatch
