import Contiwatch.Lib.Runs
import Contiwatch.PinSessions

/-!
# Runs of Session Operations

The operations on sessions and tickets, in any order and for any number of sessions, under a
clock that does not run backwards and a source of tokens that never repeats itself. The
labels of a run are the operations with their answers, so its history tells who was issued
what and when.

`lastUse` reads a session off the history: when it was last used, or `none` if it was never
issued or is revoked. It knows nothing of the table, of pruning or of other sessions.

## Main results

* `sessionInv_run` — the table refines `lastUse`: it holds the sessions in use, less some
  that are idle for too long.
* `pinSessionAuthorized_iff_lastUse` — a token is authorized exactly when its session was
  used within the last 24 hours, and nothing but its own history matters.
-/

namespace Contiwatch

open GoTime

/-- The session fields with the latest clock reading and the strings drawn so far. -/
structure SessionSystem where
  clock : ℕ
  drawn : List String
  state : PinSessionState

/-- A controller's sessions at its start. -/
def SessionSystem.new (start : ℕ) : SessionSystem where
  clock := start
  drawn := []
  state := PinSessionState.new

/-- The operations with their clock readings and answers. -/
inductive SessionEvent where
  | create (now : ℕ) (token : String)
  | authorize (now : ℕ) (token : String) (ok : Bool)
  | revoke (token : String)
  | createTicket (now : ℕ) (sessionToken ticket : String)
  | consume (now : ℕ) (ticket : String) (sessionToken : String)
  | sessionDone (token : String) (done : Option ℕ)
  deriving DecidableEq, Repr

/-- What `generateToken` may draw: a string that is not empty and never seen before. -/
def SessionSystem.Fresh (s : SessionSystem) (token : String) : Prop :=
  token ≠ "" ∧ token ∉ s.drawn

/-- One operation of a controller, whose guard is enabled. -/
inductive SessionStep (s : SessionSystem) : SessionEvent → SessionSystem → Prop
  | create {now : ℕ} {token : String} (hnow : s.clock ≤ now) (hfresh : s.Fresh token) :
      SessionStep s (.create now token)
        ⟨now, token :: s.drawn, createPinSession now token s.state⟩
  | authorize {now : ℕ} {token : String} {ok : Bool} (hnow : s.clock ≤ now)
      (hok : (pinSessionAuthorized true now token s.state).1 = ok) :
      SessionStep s (.authorize now token ok)
        ⟨now, s.drawn, (pinSessionAuthorized true now token s.state).2⟩
  | revoke {token : String} :
      SessionStep s (.revoke token) ⟨s.clock, s.drawn, revokePinSession token s.state⟩
  | createTicket {now : ℕ} {sessionToken ticket : String} (hnow : s.clock ≤ now)
      (hfresh : s.Fresh ticket) :
      SessionStep s (.createTicket now sessionToken ticket)
        ⟨now, ticket :: s.drawn, (createPinWebSocketTicket now sessionToken ticket s.state).2⟩
  | consume {now : ℕ} {ticket sessionToken : String} (hnow : s.clock ≤ now)
      (htoken : (consumePinWebSocketTicketSession now ticket s.state).1 = sessionToken) :
      SessionStep s (.consume now ticket sessionToken)
        ⟨now, s.drawn, (consumePinWebSocketTicketSession now ticket s.state).2⟩
  | sessionDone {token : String} {done : Option ℕ}
      (hdone : (pinSessionDone token s.state).1 = done) :
      SessionStep s (.sessionDone token done)
        ⟨s.clock, s.drawn, (pinSessionDone token s.state).2⟩

/-! ### The history of a session -/

/-- What one operation makes of the latest use of the session `t`. -/
def useAfter (t : String) (last : Option ℕ) : SessionEvent → Option ℕ
  | .create now token => if token = t then some now else last
  | .authorize now token true => if token = t then last.map (max · now) else last
  | .revoke token => if token = t then none else last
  | _ => last

/-- The latest of the issue and the successful authorizations of the session `t` in a
history; `none` if `t` was not issued, or was revoked since. -/
def lastUse (t : String) (es : List SessionEvent) : Option ℕ :=
  es.foldl (useAfter t) none

@[simp] theorem lastUse_nil (t : String) : lastUse t [] = none := rfl

/-- One more event moves the last use or leaves it. -/
@[simp] theorem lastUse_snoc (t : String) (es : List SessionEvent) (e : SessionEvent) :
    lastUse t (es ++ [e]) = useAfter t (lastUse t es) e := by
  rw [lastUse, List.foldl_append, List.foldl_cons, List.foldl_nil, lastUse]

/-- The operations that issue, refresh or revoke the session `t`. -/
def SessionEvent.concerns (t : String) : SessionEvent → Bool
  | .create _ token => token = t
  | .authorize _ token ok => token = t && ok
  | .revoke token => token = t
  | _ => false

/-- An operation that does not concern a session leaves its latest use. -/
theorem useAfter_of_not_concerns {t : String} {e : SessionEvent} (h : e.concerns t = false)
    (last : Option ℕ) : useAfter t last e = last := by
  rcases e with ⟨now, token⟩ | ⟨now, token, _ | _⟩ | ⟨token⟩ | _ | _ | _ <;>
    simp_all [SessionEvent.concerns, useAfter]

/-- The latest use of a session depends on the operations that concern it only. -/
theorem lastUse_filter_concerns (t : String) (es : List SessionEvent) :
    lastUse t (es.filter (·.concerns t)) = lastUse t es := by
  induction es using List.reverseRecOn with
  | nil => rfl
  | append_singleton es e ih =>
      rw [List.filter_append, lastUse_snoc]
      cases hconcerns : e.concerns t with
      | true =>
          rw [List.filter_singleton, hconcerns, cond_true, lastUse_snoc, ih]
      | false =>
          rw [List.filter_singleton, hconcerns, cond_false, List.append_nil, ih,
            useAfter_of_not_concerns hconcerns]

/-! ### The invariant -/

/-- The table refines the history: its sessions are in use, and a session in use that is
missing from it is idle for too long. -/
structure SessionInv (es : List SessionEvent) (s : SessionSystem) : Prop where
  clock_pos : 0 < s.clock
  drawn : ∀ t u, lastUse t es = some u → t ∈ s.drawn
  drawn_ne : "" ∉ s.drawn
  used : ∀ t u, lastUse t es = some u → 0 < u ∧ u ≤ s.clock
  present : ∀ t e, s.state.pinSessions.lookup t = some e → lastUse t es = some e.lastSeen
  absent : ∀ t u, lastUse t es = some u → s.state.pinSessions.lookup t = none →
    u + pinSessionIdleMaxAge < s.clock

/-- The system starts within the invariant. -/
theorem sessionInv_new {start : ℕ} (hstart : 0 < start) :
    SessionInv [] (SessionSystem.new start) where
  clock_pos := hstart
  drawn := fun t u h => absurd h (by simp)
  drawn_ne := by simp [SessionSystem.new]
  used := fun t u h => absurd h (by simp)
  present := fun t e h => absurd h (by simp [SessionSystem.new, PinSessionState.new])
  absent := fun t u h => absurd h (by simp)

/-- A session of the table is idle for too long when its latest use says so. -/
theorem SessionInv.expired_iff {es : List SessionEvent} {s : SessionSystem}
    (h : SessionInv es s) {t : String} {e : PinSessionEntry}
    (he : s.state.pinSessions.lookup t = some e) {now : ℕ} (hnow : s.clock ≤ now) :
    e.Expired now ↔ e.lastSeen + pinSessionIdleMaxAge < now := by
  obtain ⟨hpos, hle⟩ := h.used t e.lastSeen (h.present t e he)
  rw [PinSessionEntry.Expired]
  omega

/-- The invariant survives the passing of time and pruning. -/
theorem SessionInv.prune {es : List SessionEvent} {s : SessionSystem} (h : SessionInv es s)
    {now : ℕ} (hnow : s.clock ≤ now) :
    SessionInv es ⟨now, s.drawn, pruneExpiredPinSessionsLocked now s.state⟩ where
  clock_pos := lt_of_lt_of_le h.clock_pos hnow
  drawn := h.drawn
  drawn_ne := h.drawn_ne
  used := by
    intro t u hu
    obtain ⟨hpos, hle⟩ := h.used t u hu
    exact ⟨hpos, le_trans hle hnow⟩
  present := fun t e he => h.present t e (lookup_pruneExpired_eq_some.mp he).1
  absent := by
    intro t u hu hnone
    rcases hlook : s.state.pinSessions.lookup t with _ | e
    · exact lt_of_lt_of_le (h.absent t u hu hlook) hnow
    · have hexpired : e.Expired now := by
        by_contra hfresh
        rw [lookup_pruneExpired_eq_some.mpr ⟨hlook, hfresh⟩] at hnone
        exact absurd hnone (by simp)
      rw [h.present t e hlook] at hu
      obtain rfl := Option.some.inj hu
      exact (h.expired_iff hlook hnow).mp hexpired

/-- The invariant speaks of the latest uses in the table only, and survives the passing of
time and the drawing of further strings. -/
theorem SessionInv.of_sameTable {es : List SessionEvent} {s s' : SessionSystem}
    (h : SessionInv es s) (hclock : s.clock ≤ s'.clock) (hdrawn : s.drawn ⊆ s'.drawn)
    (hne : "" ∉ s'.drawn)
    (htable : ∀ t, (s'.state.pinSessions.lookup t).map PinSessionEntry.lastSeen =
      (s.state.pinSessions.lookup t).map PinSessionEntry.lastSeen) : SessionInv es s' where
  clock_pos := lt_of_lt_of_le h.clock_pos hclock
  drawn := fun t u hu => hdrawn (h.drawn t u hu)
  drawn_ne := hne
  used := by
    intro t u hu
    obtain ⟨hpos, hle⟩ := h.used t u hu
    exact ⟨hpos, le_trans hle hclock⟩
  present := by
    intro t e he
    have hmap := htable t
    rw [he, Option.map_some, eq_comm, Option.map_eq_some_iff] at hmap
    obtain ⟨e', he', hseen⟩ := hmap
    rw [← hseen]
    exact h.present t e' he'
  absent := by
    intro t u hu hnone
    have hmap := htable t
    rw [hnone, Option.map_none, eq_comm, Option.map_eq_none_iff] at hmap
    exact lt_of_lt_of_le (h.absent t u hu hmap) hclock

/-- An operation that does not concern any session leaves the invariant. -/
theorem SessionInv.snoc {es : List SessionEvent} {s : SessionSystem} (h : SessionInv es s)
    {e : SessionEvent} (he : ∀ t, useAfter t (lastUse t es) e = lastUse t es) :
    SessionInv (es ++ [e]) s := by
  have hlast : ∀ t, lastUse t (es ++ [e]) = lastUse t es := fun t => by rw [lastUse_snoc, he]
  refine ⟨h.clock_pos, ?_, h.drawn_ne, ?_, ?_, ?_⟩
  · intro t u hu
    exact h.drawn t u (hlast t ▸ hu)
  · intro t u hu
    exact h.used t u (hlast t ▸ hu)
  · intro t e' he'
    rw [hlast]
    exact h.present t e' he'
  · intro t u hu
    exact h.absent t u (hlast t ▸ hu)

/-- Writing the session `token` with the latest use `now` keeps the invariant, whether it is
new or refreshed. -/
theorem SessionInv.write {es : List SessionEvent} {s s' : SessionSystem} (h : SessionInv es s)
    {e : SessionEvent} {token : String} {entry : PinSessionEntry}
    (hclock : s'.clock = s.clock) (hdrawn : s.drawn ⊆ s'.drawn) (hne : "" ∉ s'.drawn)
    (htoken : token ∈ s'.drawn) (hseen : entry.lastSeen = s.clock)
    (htable : s'.state.pinSessions = s.state.pinSessions.insert token entry)
    (huse : ∀ t, useAfter t (lastUse t es) e = if token = t then some s.clock else lastUse t es) :
    SessionInv (es ++ [e]) s' := by
  refine ⟨hclock ▸ h.clock_pos, ?_, hne, ?_, ?_, ?_⟩
  · intro t u hu
    rw [lastUse_snoc, huse] at hu
    split_ifs at hu with ht
    · exact ht ▸ htoken
    · exact hdrawn (h.drawn t u hu)
  · intro t u hu
    rw [hclock]
    rw [lastUse_snoc, huse] at hu
    split_ifs at hu with ht
    · obtain rfl := Option.some.inj hu
      exact ⟨h.clock_pos, le_rfl⟩
    · exact h.used t u hu
  · intro t e' he'
    rw [lastUse_snoc, huse]
    rw [htable] at he'
    split_ifs with ht
    · rw [← ht, Finmap.lookup_insert] at he'
      rw [← Option.some.inj he', hseen]
    · rw [Finmap.lookup_insert_of_ne _ (Ne.symm ht)] at he'
      exact h.present t e' he'
  · intro t u hu hnone
    rw [lastUse_snoc, huse] at hu
    rw [htable] at hnone
    rw [hclock]
    split_ifs at hu with ht
    · rw [← ht, Finmap.lookup_insert] at hnone
      exact absurd hnone (by simp)
    · rw [Finmap.lookup_insert_of_ne _ (Ne.symm ht)] at hnone
      exact h.absent t u hu hnone

/-- Revoking a session keeps the invariant. -/
theorem SessionInv.revoke {es : List SessionEvent} {s : SessionSystem} (h : SessionInv es s)
    (token : String) :
    SessionInv (es ++ [.revoke token]) ⟨s.clock, s.drawn, revokePinSession token s.state⟩ := by
  have huse : ∀ t u, lastUse t (es ++ [.revoke token]) = some u →
      t ≠ token ∧ lastUse t es = some u := by
    intro t u hu
    simp only [lastUse_snoc, useAfter] at hu
    split_ifs at hu with ht
    exact ⟨Ne.symm ht, hu⟩
  by_cases htoken : token = ""
  · have hempty : lastUse "" es = none := by
      rcases hlast : lastUse "" es with _ | u
      · rfl
      · exact absurd (h.drawn "" u hlast) h.drawn_ne
    rw [revokePinSession, if_pos htoken]
    refine h.snoc fun t => ?_
    simp only [useAfter]
    split_ifs with ht
    · rw [← ht, htoken, hempty]
    · rfl
  · refine ⟨h.clock_pos, ?_, h.drawn_ne, ?_, ?_, ?_⟩
    · intro t u hu
      exact h.drawn t u (huse t u hu).2
    · intro t u hu
      exact h.used t u (huse t u hu).2
    · intro t e he
      rw [lookup_revoke htoken] at he
      split_ifs at he with ht
      simp only [lastUse_snoc, useAfter, if_neg (Ne.symm ht)]
      exact h.present t e he
    · intro t u hu hnone
      obtain ⟨ht, hu⟩ := huse t u hu
      rw [lookup_revoke htoken, if_neg ht] at hnone
      exact h.absent t u hu hnone

/-- Handing out a done channel does not touch the latest uses. -/
theorem lastSeen_pinSessionDone (token : String) (s : PinSessionState) (t : String) :
    ((pinSessionDone token s).2.pinSessions.lookup t).map PinSessionEntry.lastSeen =
      (s.pinSessions.lookup t).map PinSessionEntry.lastSeen := by
  rw [pinSessionDone]
  split_ifs with htoken
  · rfl
  · rcases hlook : s.pinSessions.lookup token with _ | ⟨seen, _ | c⟩
    · rfl
    · dsimp only
      by_cases ht : t = token
      · rw [ht, Finmap.lookup_insert, hlook]
        rfl
      · rw [Finmap.lookup_insert_of_ne _ ht]
    · rfl

/-- **Every operation keeps the invariant.** -/
theorem sessionInv_step {es : List SessionEvent} {s s' : SessionSystem} {e : SessionEvent}
    (h : SessionInv es s) (hstep : SessionStep s e s') : SessionInv (es ++ [e]) s' := by
  cases hstep with
  | @create now token hnow hfresh =>
      refine (h.prune hnow).write rfl (List.subset_cons_self ..) ?_ (List.mem_cons_self ..)
        rfl rfl fun t => rfl
      rw [List.mem_cons, not_or]
      exact ⟨hfresh.1.symm, h.drawn_ne⟩
  | @authorize now token ok hnow hok =>
      cases ok with
      | true =>
          obtain ⟨e, -, he, -, hstate⟩ := pinSessionAuthorized_true hok
          rw [hstate]
          have hlast := h.present token e he
          refine (h.prune hnow).write rfl (List.Subset.refl _) h.drawn_ne
            (h.drawn token _ hlast) rfl rfl fun t => ?_
          simp only [useAfter]
          split_ifs with ht
          · obtain ⟨-, hle⟩ := h.used token _ hlast
            rw [← ht, hlast, Option.map_some, max_eq_right (le_trans hle hnow)]
          · rfl
      | false =>
          refine SessionInv.snoc ?_ fun t => rfl
          rcases pinSessionAuthorized_false hok with ⟨-, hstate⟩ | ⟨-, hstate⟩
          · rw [hstate]
            exact h.of_sameTable hnow (List.Subset.refl _) h.drawn_ne fun _ => rfl
          · rw [hstate]
            exact h.prune hnow
  | revoke => exact h.revoke _
  | @createTicket now sessionToken ticket hnow hfresh =>
      have hne : "" ∉ ticket :: s.drawn := by
        rw [List.mem_cons, not_or]
        exact ⟨hfresh.1.symm, h.drawn_ne⟩
      refine SessionInv.snoc ?_ fun t => rfl
      rw [createPinWebSocketTicket]
      split_ifs with htoken
      · exact h.of_sameTable hnow (List.subset_cons_self ..) hne fun _ => rfl
      · exact (h.prune hnow).of_sameTable le_rfl (List.subset_cons_self ..) hne fun _ => rfl
  | @consume now ticket sessionToken hnow htoken =>
      refine SessionInv.snoc ?_ fun t => rfl
      rcases consumePinWebSocketTicketSession_cases now ticket s.state with
        ⟨-, heq⟩ | ⟨token, heq, -⟩
      · rw [heq]
        exact h.of_sameTable hnow (List.Subset.refl _) h.drawn_ne fun _ => rfl
      · rw [heq]
        exact (h.prune hnow).of_sameTable le_rfl (List.Subset.refl _) h.drawn_ne fun _ => rfl
  | @sessionDone token done hdone =>
      refine SessionInv.snoc ?_ fun t => rfl
      exact h.of_sameTable le_rfl (List.Subset.refl _) h.drawn_ne
        fun t => lastSeen_pinSessionDone token s.state t

/-- **The table refines the history after every run.** -/
theorem sessionInv_run {start : ℕ} (hstart : 0 < start) {es : List SessionEvent}
    {s : SessionSystem} (hrun : Run SessionStep (SessionSystem.new start) es s) :
    SessionInv es s :=
  hrun.invariant SessionInv (sessionInv_new hstart) fun h hstep => sessionInv_step h hstep

/-- The answer to an authorization is read off the latest use. -/
theorem SessionInv.authorized_iff {es : List SessionEvent} {s : SessionSystem}
    (h : SessionInv es s) {now : ℕ} (hnow : s.clock ≤ now) (t : String) :
    (pinSessionAuthorized true now t s.state).1 = true ↔
      ∃ u, lastUse t es = some u ∧ now ≤ u + pinSessionIdleMaxAge := by
  constructor
  · intro hok
    obtain ⟨e, -, he, hfresh, -⟩ := pinSessionAuthorized_true hok
    rw [h.expired_iff he hnow, not_lt] at hfresh
    exact ⟨e.lastSeen, h.present t e he, hfresh⟩
  · rintro ⟨u, hu, hidle⟩
    by_contra hrefused
    rw [Bool.not_eq_true] at hrefused
    rcases pinSessionAuthorized_false hrefused with ⟨rfl, -⟩ | ⟨hnone, -⟩
    · exact h.drawn_ne (h.drawn "" u hu)
    · have hlate := (h.prune hnow).absent t u hu hnone
      dsimp only at hlate
      omega

/-- **A session is valid for 24 hours since its latest use, and only its own history
matters.** In every run, a token is authorized at `now` if and only if it was issued, is not
revoked, and `now` is at most 24 hours after the latest of its issue and its successful
authorizations. Any other run in which the same operations concerned the token, whatever
else was done and pruned there, gives the same answer. -/
theorem pinSessionAuthorized_iff_lastUse {start : ℕ} (hstart : 0 < start)
    {es : List SessionEvent} {s : SessionSystem}
    (hrun : Run SessionStep (SessionSystem.new start) es s) {now : ℕ} (hnow : s.clock ≤ now)
    (t : String) :
    ((pinSessionAuthorized true now t s.state).1 = true ↔
        ∃ u, lastUse t es = some u ∧ now ≤ u + 24 * hour) ∧
      ∀ (start' : ℕ) (es' : List SessionEvent) (s' : SessionSystem), 0 < start' →
        Run SessionStep (SessionSystem.new start') es' s' → s'.clock ≤ now →
        es'.filter (·.concerns t) = es.filter (·.concerns t) →
        (pinSessionAuthorized true now t s'.state).1 =
          (pinSessionAuthorized true now t s.state).1 := by
  have hiff := (sessionInv_run hstart hrun).authorized_iff hnow t
  refine ⟨hiff, ?_⟩
  intro start' es' s' hstart' hrun' hnow' hconcerns
  have hiff' := (sessionInv_run hstart' hrun').authorized_iff hnow' t
  rw [← lastUse_filter_concerns, hconcerns, lastUse_filter_concerns, ← hiff] at hiff'
  exact Bool.eq_iff_iff.mpr hiff'

/-- A session issued one second after the start is still valid after a day. -/
theorem pinSessionAuthorized_iff_lastUse_day :
    (pinSessionAuthorized true (24 * hour + 2 * second) "token"
      (createPinSession (2 * second) "token" PinSessionState.new)).1 = true := by
  have hstep : SessionStep (SessionSystem.new second) (.create (2 * second) "token")
      ⟨2 * second, ["token"], createPinSession (2 * second) "token" PinSessionState.new⟩ :=
    .create (by decide) ⟨by decide, by simp [SessionSystem.new]⟩
  exact (pinSessionAuthorized_iff_lastUse (by decide) (Run.single hstep) (by decide)
    "token").1.mpr ⟨2 * second, rfl, by decide⟩

end Contiwatch
