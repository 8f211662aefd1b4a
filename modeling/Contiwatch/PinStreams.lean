import Contiwatch.PinTickets

/-!
# Streams and the End of Their Session

An open stream learns through the done channel of its session that the session is gone. The
channel is made with the session, handed out by `pinSessionDone`, and closed by a logout or
by pruning; an entry is copied out, changed and written back in between.

## Main results

* `channelInv_step` — the channels of the table are open and belong to one session each, and
  a channel that was handed out is in the table or closed.
* `stream_ends_with_session` — a channel handed out for a token is closed exactly when the
  token has no session any more, no channel is closed twice, and a logout ends every stream
  of its session, earlier or later.
-/

namespace Contiwatch

open GoTime GoStrings

/-- The channels against the table and the history. -/
structure ChannelInv (es : List SessionEvent) (s : SessionSystem) : Prop where
  live : ∀ t e c, s.state.pinSessions.lookup t = some e → e.done = some c →
    c < s.state.nextChan ∧ s.state.closes c = 0
  injective : ∀ t t' e e' c, s.state.pinSessions.lookup t = some e →
    s.state.pinSessions.lookup t' = some e' → e.done = some c → e'.done = some c → t = t'
  unmade : ∀ c, s.state.nextChan ≤ c → s.state.closes c = 0
  once : ∀ c, s.state.closes c ≤ 1
  handed : ∀ t c, .sessionDone t (some c) ∈ es → t ∈ s.drawn ∧ c < s.state.nextChan ∧
    ((∃ e, s.state.pinSessions.lookup t = some e ∧ e.done = some c) ∨
      (s.state.pinSessions.lookup t = none ∧ s.state.closes c = 1))

/-- The system starts within the invariant. -/
theorem channelInv_new (start : ℕ) : ChannelInv [] (SessionSystem.new start) where
  live := fun t e c h => absurd h (by simp [SessionSystem.new, PinSessionState.new])
  injective := fun t t' e e' c h => absurd h (by simp [SessionSystem.new, PinSessionState.new])
  unmade := fun _ _ => rfl
  once := fun _ => Nat.zero_le 1
  handed := fun t c h => absurd h (by simp)

/-- An operation that hands out no channel leaves the history's channels. -/
theorem ChannelInv.snoc {es : List SessionEvent} {s : SessionSystem} {e : SessionEvent}
    (h : ChannelInv es s) (he : ∀ t c, e ≠ .sessionDone t (some c)) :
    ChannelInv (es ++ [e]) s where
  live := h.live
  injective := h.injective
  unmade := h.unmade
  once := h.once
  handed := by
    intro t c hin
    rcases List.mem_append.mp hin with hin | hin
    · exact h.handed t c hin
    · exact absurd (List.mem_singleton.mp hin).symm (he t c)

/-- The invariant speaks of the channels in the table only. -/
theorem ChannelInv.of_sameTable {es : List SessionEvent} {s s' : SessionSystem}
    (h : ChannelInv es s) (hdrawn : s.drawn ⊆ s'.drawn)
    (hnext : s'.state.nextChan = s.state.nextChan) (hcloses : s'.state.closes = s.state.closes)
    (htable : ∀ t, (s'.state.pinSessions.lookup t).map PinSessionEntry.done =
      (s.state.pinSessions.lookup t).map PinSessionEntry.done) : ChannelInv es s' := by
  have hold : ∀ {t e c}, s'.state.pinSessions.lookup t = some e → e.done = some c →
      ∃ e', s.state.pinSessions.lookup t = some e' ∧ e'.done = some c := by
    intro t e c he hc
    have hmap := htable t
    rw [he, Option.map_some, eq_comm, Option.map_eq_some_iff, hc] at hmap
    exact hmap
  refine ⟨?_, ?_, ?_, ?_, ?_⟩
  · intro t e c he hc
    obtain ⟨e', he', hc'⟩ := hold he hc
    rw [hnext, hcloses]
    exact h.live t e' c he' hc'
  · intro t t' e e' c he he' hc hc'
    obtain ⟨e₁, he₁, hc₁⟩ := hold he hc
    obtain ⟨e₂, he₂, hc₂⟩ := hold he' hc'
    exact h.injective t t' e₁ e₂ c he₁ he₂ hc₁ hc₂
  · intro c hc
    rw [hcloses]
    exact h.unmade c (hnext ▸ hc)
  · intro c
    rw [hcloses]
    exact h.once c
  · intro t c hin
    obtain ⟨ht, hc, hcases⟩ := h.handed t c hin
    rw [hnext, hcloses]
    refine ⟨hdrawn ht, hc, ?_⟩
    have hmap := htable t
    rcases hcases with ⟨e, he, hdone⟩ | ⟨hnone, hclosed⟩
    · rw [he, Option.map_some, Option.map_eq_some_iff, hdone] at hmap
      exact Or.inl hmap
    · rw [hnone, Option.map_none, Option.map_eq_none_iff] at hmap
      exact Or.inr ⟨hmap, hclosed⟩

/-- An operation that drops the sessions `Gone` and closes their channels, once each and no
others, keeps the invariant. -/
theorem ChannelInv.drop {es : List SessionEvent} {s s' : SessionSystem} (h : ChannelInv es s)
    (Gone : String → PinSessionEntry → Prop) (hdrawn : s'.drawn = s.drawn)
    (hnext : s'.state.nextChan = s.state.nextChan)
    (htable : ∀ {t e}, s'.state.pinSessions.lookup t = some e ↔
      s.state.pinSessions.lookup t = some e ∧ ¬ Gone t e)
    (hgone : ∀ {t e c}, s.state.pinSessions.lookup t = some e → e.done = some c → Gone t e →
      s'.state.closes c = 1)
    (hother : ∀ {c}, (∀ t e, s.state.pinSessions.lookup t = some e → e.done = some c →
      ¬ Gone t e) → s'.state.closes c = s.state.closes c) : ChannelInv es s' := by
  refine ⟨?_, ?_, ?_, ?_, ?_⟩
  · intro t e c he hc
    obtain ⟨he, hstays⟩ := htable.mp he
    rw [hnext, hother]
    · exact h.live t e c he hc
    · intro t' e' he' hc'
      obtain rfl := h.injective t' t e' e c he' he hc' hc
      obtain rfl := Option.some.inj (he'.symm.trans he)
      exact hstays
  · intro t t' e e' c he he' hc hc'
    exact h.injective t t' e e' c (htable.mp he).1 (htable.mp he').1 hc hc'
  · intro c hc
    rw [hnext] at hc
    rw [hother fun t e he hdone => absurd (h.live t e c he hdone).1 (not_lt.mpr hc)]
    exact h.unmade c hc
  · intro c
    by_cases hc : ∃ t e, s.state.pinSessions.lookup t = some e ∧ e.done = some c ∧ Gone t e
    · obtain ⟨t, e, he, hdone, hdropped⟩ := hc
      exact (hgone he hdone hdropped).le
    · rw [hother fun t e he hdone hdropped => hc ⟨t, e, he, hdone, hdropped⟩]
      exact h.once c
  · intro t c hin
    obtain ⟨ht, hc, hcases⟩ := h.handed t c hin
    rw [hdrawn, hnext]
    refine ⟨ht, hc, ?_⟩
    rcases hcases with ⟨e, he, hdone⟩ | ⟨hnone, hclosed⟩
    · by_cases hdropped : Gone t e
      · refine Or.inr ⟨Option.eq_none_iff_forall_ne_some.mpr fun e' he' => ?_,
          hgone he hdone hdropped⟩
        obtain ⟨he', hstays⟩ := htable.mp he'
        obtain rfl := Option.some.inj (he'.symm.trans he)
        exact hstays hdropped
      · exact Or.inl ⟨e, htable.mpr ⟨he, hdropped⟩, hdone⟩
    · refine Or.inr ⟨Option.eq_none_iff_forall_ne_some.mpr fun e' he' => ?_, ?_⟩
      · exact absurd (hnone.symm.trans (htable.mp he').1) (by simp)
      · rw [hother, hclosed]
        intro t' e he hdone
        have hzero := (h.live t' e c he hdone).2
        omega

/-- Pruning closes a channel in the table exactly once, with its session. -/
theorem ChannelInv.prune {es : List SessionEvent} {s : SessionSystem} (h : ChannelInv es s)
    (now : ℕ) : ChannelInv es ⟨now, s.drawn, pruneExpiredPinSessionsLocked now s.state⟩ := by
  refine h.drop (fun _ e => e.Expired now) rfl (nextChan_pruneExpired now s.state)
    lookup_pruneExpired_eq_some ?_ ?_
  · intro t e c he hc hexpired
    dsimp only
    rw [closes_pruneExpired, (h.live t e c he hc).2, Nat.zero_add]
    refine GoMap.count_eq_one he (by simp [hexpired, hc]) fun t' e' he' hp => ?_
    simp only [Bool.and_eq_true, decide_eq_true_eq] at hp
    exact h.injective t' t e' e c he' he hp.2 hc
  · intro c hc
    dsimp only
    rw [closes_pruneExpired, GoMap.count_eq_zero, Nat.add_zero]
    intro t e he
    by_contra hp
    simp only [Bool.not_eq_false, Bool.and_eq_true, decide_eq_true_eq] at hp
    exact hc t e he hp.2 hp.1

/-- A channel made for the session `token`, which has no other channel, keeps the invariant. -/
theorem ChannelInv.make {es : List SessionEvent} {s s' : SessionSystem} (h : ChannelInv es s)
    {token : String} {seen : ℕ} (hdrawn : s.drawn ⊆ s'.drawn)
    (hnext : s'.state.nextChan = s.state.nextChan + 1)
    (hcloses : s'.state.closes = s.state.closes)
    (htable : s'.state.pinSessions =
      s.state.pinSessions.insert token ⟨seen, some s.state.nextChan⟩)
    (hnew : ∀ c, .sessionDone token (some c) ∉ es) : ChannelInv es s' := by
  -- an entry is the new one, with the new channel, or an old one of another session
  have hentry : ∀ {t e}, s'.state.pinSessions.lookup t = some e →
      (t = token ∧ e.done = some s.state.nextChan) ∨
        (t ≠ token ∧ s.state.pinSessions.lookup t = some e) := by
    intro t e he
    rw [htable] at he
    by_cases ht : t = token
    · rw [ht, Finmap.lookup_insert] at he
      exact Or.inl ⟨ht, by rw [← Option.some.inj he]⟩
    · rw [Finmap.lookup_insert_of_ne _ ht] at he
      exact Or.inr ⟨ht, he⟩
  have hold : ∀ {t e c}, s.state.pinSessions.lookup t = some e → e.done = some c →
      c ≠ s.state.nextChan := fun he hc => (h.live _ _ _ he hc).1.ne
  refine ⟨?_, ?_, ?_, ?_, ?_⟩
  · intro t e c he hc
    rw [hnext, hcloses]
    rcases hentry he with ⟨-, hdone⟩ | ⟨-, he⟩
    · obtain rfl := Option.some.inj (hc.symm.trans hdone)
      exact ⟨Nat.lt_succ_self _, h.unmade _ le_rfl⟩
    · obtain ⟨hlt, hzero⟩ := h.live t e c he hc
      exact ⟨Nat.lt_succ_of_lt hlt, hzero⟩
  · intro t t' e e' c he he' hc hc'
    rcases hentry he with ⟨rfl, hdone⟩ | ⟨-, he⟩
    · rcases hentry he' with ⟨rfl, -⟩ | ⟨-, he'⟩
      · rfl
      · exact absurd (Option.some.inj (hc.symm.trans hdone)) (hold he' hc')
    · rcases hentry he' with ⟨rfl, hdone'⟩ | ⟨-, he'⟩
      · exact absurd (Option.some.inj (hc'.symm.trans hdone')) (hold he hc)
      · exact h.injective t t' e e' c he he' hc hc'
  · intro c hc
    rw [hcloses]
    exact h.unmade c (by omega)
  · intro c
    rw [hcloses]
    exact h.once c
  · intro t c hin
    have ht : t ≠ token := by
      rintro rfl
      exact hnew c hin
    obtain ⟨hmem, hc, hcases⟩ := h.handed t c hin
    rw [hnext, hcloses, htable, Finmap.lookup_insert_of_ne _ ht]
    exact ⟨hdrawn hmem, Nat.lt_succ_of_lt hc, hcases⟩

/-- What a logout does to the session fields. -/
theorem revokePinSession_spec {token : String} (htoken : token ≠ "") (s : PinSessionState) :
    (revokePinSession token s).nextChan = s.nextChan ∧
      ∀ c, (revokePinSession token s).closes c = s.closes c +
        if (s.pinSessions.lookup token).bind PinSessionEntry.done = some c then 1 else 0 := by
  rw [revokePinSession, if_neg htoken]
  rcases hlook : s.pinSessions.lookup token with _ | ⟨seen, _ | c'⟩
  · simp
  · simp
  · refine ⟨rfl, fun c => ?_⟩
    simp only [closeChan, Option.bind_some, Option.some.injEq]
    by_cases hc : c = c'
    · rw [if_pos hc, if_pos hc.symm]
    · rw [if_neg hc, if_neg (Ne.symm hc), Nat.add_zero]

/-- A logout closes the channel of its session, which was open, and no other. -/
theorem ChannelInv.revoke {es : List SessionEvent} {s : SessionSystem} (h : ChannelInv es s)
    (token : String) :
    ChannelInv es ⟨s.clock, s.drawn, revokePinSession token s.state⟩ := by
  by_cases htoken : token = ""
  · rwa [revokePinSession, if_pos htoken]
  obtain ⟨hnext, hcloses⟩ := revokePinSession_spec htoken s.state
  refine h.drop (fun t _ => t = token) rfl hnext ?_ ?_ ?_
  · intro t e
    dsimp only
    rw [lookup_revoke htoken]
    by_cases ht : t = token
    · simp [ht]
    · simp [ht]
  · rintro t e c he hdone rfl
    dsimp only
    rw [hcloses, (h.live t e c he hdone).2, he, Option.bind_some, if_pos hdone]
  · intro c hc
    dsimp only
    rw [hcloses, if_neg, Nat.add_zero]
    rw [Option.bind_eq_some_iff]
    rintro ⟨e, he, hdone⟩
    exact hc token e he hdone rfl

/-- A channel that is handed out is the one in the table, or closed if there is none. -/
theorem ChannelInv.hand {es : List SessionEvent} {s : SessionSystem} (h : ChannelInv es s)
    {t : String} {c : ℕ} (ht : t ∈ s.drawn) (hc : c < s.state.nextChan)
    (hcases : (∃ e, s.state.pinSessions.lookup t = some e ∧ e.done = some c) ∨
      (s.state.pinSessions.lookup t = none ∧ s.state.closes c = 1)) :
    ChannelInv (es ++ [.sessionDone t (some c)]) s where
  live := h.live
  injective := h.injective
  unmade := h.unmade
  once := h.once
  handed := by
    intro t' c' hin
    rcases List.mem_append.mp hin with hin | hin
    · exact h.handed t' c' hin
    · obtain ⟨rfl, hc'⟩ := SessionEvent.sessionDone.inj (List.mem_singleton.mp hin)
      obtain rfl := Option.some.inj hc'
      exact ⟨ht, hc, hcases⟩

/-- Asking for the done channel of an issued session keeps the invariant. -/
theorem ChannelInv.sessionDone {es : List SessionEvent} {s : SessionSystem}
    (h : ChannelInv es s) {token : String} (hissued : token = "" ∨ token ∈ s.drawn) :
    ChannelInv (es ++ [.sessionDone token (pinSessionDone token s.state).1])
      ⟨s.clock, s.drawn, (pinSessionDone token s.state).2⟩ := by
  rw [pinSessionDone]
  by_cases htoken : token = ""
  · rw [if_pos htoken]
    exact h.snoc (by simp)
  rw [if_neg htoken]
  have hdrawn := hissued.resolve_left htoken
  rcases hlook : s.state.pinSessions.lookup token with _ | ⟨seen, _ | c⟩
  · -- a session that is gone: a new channel, closed at once
    have hclosed : ChannelInv es ⟨s.clock, s.drawn, closeChan s.state.nextChan
        { s.state with nextChan := s.state.nextChan + 1 }⟩ := by
      have hother : ∀ {c}, c ≠ s.state.nextChan → (closeChan s.state.nextChan
          { s.state with nextChan := s.state.nextChan + 1 }).closes c = s.state.closes c :=
        fun hc => if_neg hc
      refine ⟨?_, h.injective, ?_, ?_, ?_⟩
      · intro t e c he hc
        obtain ⟨hlt, hzero⟩ := h.live t e c he hc
        exact ⟨Nat.lt_succ_of_lt hlt, (hother hlt.ne).trans hzero⟩
      · intro c (hc : s.state.nextChan + 1 ≤ c)
        exact (hother (by omega)).trans (h.unmade c (by omega))
      · intro c
        by_cases hc : c = s.state.nextChan
        · simp only [closeChan, hc, h.unmade _ le_rfl, if_true, Nat.zero_add, le_refl]
        · exact (hother hc).le.trans (h.once c)
      · intro t c hin
        obtain ⟨ht, hlt, hcases⟩ := h.handed t c hin
        dsimp only
        rw [hother hlt.ne]
        exact ⟨ht, Nat.lt_succ_of_lt hlt, hcases⟩
    refine hclosed.hand hdrawn (Nat.lt_succ_self _) (Or.inr ⟨hlook, ?_⟩)
    simp only [closeChan, if_true, h.unmade _ le_rfl]
  · -- a session without a channel: none was handed out for it before
    have hnew : ∀ c, .sessionDone token (some c) ∉ es := by
      intro c hin
      obtain ⟨-, -, ⟨e, he, hdone⟩ | ⟨hnone, -⟩⟩ := h.handed token c hin
      · rw [hlook] at he
        obtain rfl := Option.some.inj he
        exact absurd hdone (by simp)
      · rw [hlook] at hnone
        exact absurd hnone (by simp)
    have hmade : ChannelInv es ⟨s.clock, s.drawn, { s.state with
        pinSessions := s.state.pinSessions.insert token ⟨seen, some s.state.nextChan⟩
        nextChan := s.state.nextChan + 1 }⟩ :=
      h.make (List.Subset.refl _) rfl rfl rfl hnew
    exact hmade.hand hdrawn (Nat.lt_succ_self _) (Or.inl ⟨_, Finmap.lookup_insert _, rfl⟩)
  · exact h.hand hdrawn (h.live token _ c hlook rfl).1 (Or.inl ⟨_, hlook, rfl⟩)

/-- **Every operation keeps the invariant of the channels**, provided that done channels are
asked for issued sessions only. -/
theorem channelInv_step {es : List SessionEvent} {s s' : SessionSystem} {e : SessionEvent}
    (h : ChannelInv es s) (hstep : SessionStep s e s')
    (hissued : ∀ t d, e = .sessionDone t d → t = "" ∨ t ∈ s.drawn) :
    ChannelInv (es ++ [e]) s' := by
  cases hstep with
  | @create now token hnow hfresh =>
      refine ChannelInv.snoc ?_ (by simp)
      refine (h.prune now).make (List.subset_cons_self ..) rfl rfl rfl fun c hin => ?_
      exact hfresh.2 (h.handed token c hin).1
  | @authorize now token ok hnow hok =>
      refine ChannelInv.snoc ?_ (by simp)
      cases ok with
      | true =>
          obtain ⟨e, -, he, hfresh, hstate⟩ := pinSessionAuthorized_true hok
          rw [hstate]
          refine (h.prune now).of_sameTable (List.Subset.refl _) rfl rfl fun t => ?_
          dsimp only
          by_cases ht : t = token
          · rw [ht, Finmap.lookup_insert, lookup_pruneExpired_eq_some.mpr ⟨he, hfresh⟩]
            rfl
          · rw [Finmap.lookup_insert_of_ne _ ht]
      | false =>
          rcases pinSessionAuthorized_false hok with ⟨-, hstate⟩ | ⟨-, hstate⟩
          · rw [hstate]
            exact h.of_sameTable (List.Subset.refl _) rfl rfl fun _ => rfl
          · rw [hstate]
            exact h.prune now
  | revoke => exact (h.revoke _).snoc (by simp)
  | @createTicket now sessionToken ticket hnow hfresh =>
      refine ChannelInv.snoc ?_ (by simp)
      rw [createPinWebSocketTicket]
      split_ifs with htoken
      · exact h.of_sameTable (List.subset_cons_self ..) rfl rfl fun _ => rfl
      · exact (h.prune now).of_sameTable (List.subset_cons_self ..) rfl rfl fun _ => rfl
  | @consume now ticket sessionToken hnow htoken =>
      refine ChannelInv.snoc ?_ (by simp)
      rcases consumePinWebSocketTicketSession_cases now ticket s.state with
        ⟨-, heq⟩ | ⟨token, heq, -⟩
      · rw [heq]
        exact h.of_sameTable (List.Subset.refl _) rfl rfl fun _ => rfl
      · rw [heq]
        exact (h.prune now).of_sameTable (List.Subset.refl _) rfl rfl fun _ => rfl
  | @sessionDone token done hdone =>
      subst hdone
      exact h.sessionDone (hissued token _ rfl)

/-! ### Streams -/

/-- Drawn strings stay drawn. -/
theorem SessionStep.drawn_subset {s s' : SessionSystem} {e : SessionEvent}
    (h : SessionStep s e s') : s.drawn ⊆ s'.drawn := by
  cases h with
  | create => exact List.subset_cons_self ..
  | createTicket => exact List.subset_cons_self ..
  | authorize => exact List.Subset.refl _
  | revoke => exact List.Subset.refl _
  | consume => exact List.Subset.refl _
  | sessionDone => exact List.Subset.refl _

/-- A session without an entry that was issued before gets no entry again. -/
theorem SessionStep.stays_gone {s s' : SessionSystem} {e : SessionEvent}
    (h : SessionStep s e s') {t : String} (hdrawn : t ∈ s.drawn)
    (hgone : s.state.pinSessions.lookup t = none) : s'.state.pinSessions.lookup t = none := by
  have hprune : ∀ now,
      (pruneExpiredPinSessionsLocked now s.state).pinSessions.lookup t = none := fun now => by
    rw [lookup_pruneExpired, hgone, Option.filter_none]
  cases h with
  | @create now token hnow hfresh =>
      have ht : t ≠ token := by
        rintro rfl
        exact hfresh.2 hdrawn
      exact (Finmap.lookup_insert_of_ne _ ht).trans (hprune now)
  | @authorize now token ok hnow hok =>
      cases ok with
      | true =>
          obtain ⟨e, -, he, -, hstate⟩ := pinSessionAuthorized_true hok
          have ht : t ≠ token := by
            rintro rfl
            rw [hgone] at he
            exact absurd he (by simp)
          rw [hstate]
          exact (Finmap.lookup_insert_of_ne _ ht).trans (hprune now)
      | false =>
          rcases pinSessionAuthorized_false hok with ⟨-, hstate⟩ | ⟨-, hstate⟩
          · rw [hstate]
            exact hgone
          · rw [hstate]
            exact hprune now
  | @revoke token =>
      by_cases htoken : token = ""
      · dsimp only
        rwa [revokePinSession, if_pos htoken]
      · dsimp only
        rw [lookup_revoke htoken, hgone, ite_self]
  | @createTicket now sessionToken ticket hnow hfresh =>
      dsimp only
      rw [createPinWebSocketTicket]
      split_ifs with htoken
      · exact hgone
      · exact hprune now
  | @consume now ticket sessionToken hnow htoken =>
      rcases consumePinWebSocketTicketSession_cases now ticket s.state with
        ⟨-, heq⟩ | ⟨token, heq, -⟩
      · rw [heq]
        exact hgone
      · rw [heq]
        exact hprune now
  | @sessionDone token done hdone =>
      have hmap := lastSeen_pinSessionDone token s.state t
      rw [hgone, Option.map_none, Option.map_eq_none_iff] at hmap
      exact hmap

/-- The invariant of the requests and their streams. -/
structure StreamInv (es : List RequestEvent) (s : RequestSystem) : Prop where
  session : SessionInv (es.map RequestEvent.toSession) s.sessions
  channel : ChannelInv (es.map RequestEvent.toSession) s.sessions
  /-- Requests are bound to issued sessions. -/
  issued : ∀ i t, s.request i = .bound t → t ∈ s.sessions.drawn

/-- An authorized request is bound to an issued session. -/
theorem StreamInv.bound_step {es : List RequestEvent} {s s' : RequestSystem}
    {e : RequestEvent} (h : StreamInv es s) (hstep : RequestStep s e s') (i : ℕ) (t : String)
    (hbound : s'.request i = .bound t) : t ∈ s'.sessions.drawn := by
  have hdrawn := hstep.sessions.drawn_subset
  have htable : ∀ {t e}, s.sessions.state.pinSessions.lookup t = some e →
      t ∈ s.sessions.drawn := fun he => h.session.drawn _ _ (h.session.present _ _ he)
  rw [hstep.request] at hbound
  cases e with
  | check j now r ok =>
      simp only [RequestEvent.request, Function.update_apply] at hbound
      split_ifs at hbound with hj
      · rw [afterCheck] at hbound
        split_ifs at hbound with hok
        subst hok
        obtain rfl := RequestPhase.bound.inj hbound
        have hsession := hstep.sessions
        generalize s'.sessions = u at hsession hdrawn ⊢
        cases hsession with
        | authorize hnow hok =>
            obtain ⟨e, -, he, -, -⟩ := pinSessionAuthorized_true hok
            exact htable he
      · exact hdrawn (h.issued i t hbound)
  | redeem j now ticket sessionToken =>
      simp only [RequestEvent.request, Function.update_apply] at hbound
      split_ifs at hbound with hj
      · rw [afterRedeem] at hbound
        split_ifs at hbound with hempty
        obtain rfl := RequestPhase.bound.inj hbound
        have hsession := hstep.sessions
        generalize s'.sessions = u at hsession hdrawn ⊢
        cases hsession with
        | consume hnow htoken =>
            rcases consumePinWebSocketTicketSession_cases now ticket s.sessions.state with
              ⟨-, heq⟩ | ⟨token, heq, hcases⟩
            · rw [heq] at htoken
              exact absurd htoken.symm hempty
            · rw [heq] at htoken
              dsimp only at htoken
              subst htoken
              obtain ⟨-, -, -, -, hmem⟩ := hcases.resolve_left hempty
              obtain ⟨e, he⟩ := Finmap.mem_iff.mp hmem
              exact htable (lookup_pruneExpired_eq_some.mp he).1
      · exact hdrawn (h.issued i t hbound)
  | unlock => exact hdrawn (h.issued i t hbound)
  | logout => exact hdrawn (h.issued i t hbound)
  | status => exact hdrawn (h.issued i t hbound)
  | openStream => exact hdrawn (h.issued i t hbound)
  | requestTicket => exact hdrawn (h.issued i t hbound)
  | issueTicket => exact hdrawn (h.issued i t hbound)

/-- A stream asks for the channel of the session its request is bound to. -/
theorem StreamInv.asks_issued {es : List RequestEvent} {s s' : RequestSystem}
    {e : RequestEvent} (h : StreamInv es s) (hstep : RequestStep s e s') (t : String)
    (d : Option ℕ) (he : e.toSession = .sessionDone t d) : t = "" ∨ t ∈ s.sessions.drawn := by
  cases e with
  | openStream i token done =>
      obtain ⟨rfl, -⟩ := SessionEvent.sessionDone.inj he
      have htoken : token = (s.request i).token := hstep.enabled
      rcases hphase : s.request i with _ | _ | _ | t
      · exact Or.inl (by rw [htoken, hphase]; rfl)
      · exact Or.inl (by rw [htoken, hphase]; rfl)
      · exact Or.inl (by rw [htoken, hphase]; rfl)
      · refine Or.inr ?_
        rw [htoken, hphase]
        exact h.issued i t hphase
  | unlock => exact absurd he (by simp [RequestEvent.toSession])
  | logout => exact absurd he (by simp [RequestEvent.toSession])
  | status => exact absurd he (by simp [RequestEvent.toSession])
  | check => exact absurd he (by simp [RequestEvent.toSession])
  | redeem => exact absurd he (by simp [RequestEvent.toSession])
  | requestTicket => exact absurd he (by simp [RequestEvent.toSession])
  | issueTicket => exact absurd he (by simp [RequestEvent.toSession])

/-- **The invariant of requests and streams holds after every run.** -/
theorem streamInv_run {start : ℕ} (hstart : 0 < start) {es : List RequestEvent}
    {s : RequestSystem} (hrun : Run RequestStep (RequestSystem.new start) es s) :
    StreamInv es s := by
  have hnew : StreamInv [] (RequestSystem.new start) :=
    ⟨sessionInv_new hstart, channelInv_new start, fun i t h =>
      absurd h (by simp [RequestSystem.new])⟩
  refine hrun.invariant StreamInv hnew ?_
  intro es s e s' h hstep
  refine ⟨?_, ?_, h.bound_step hstep⟩
  · rw [List.map_append]
    exact sessionInv_step h.session hstep.sessions
  · rw [List.map_append]
    exact channelInv_step h.channel hstep.sessions (h.asks_issued hstep)

/-- A session that was issued and is gone stays gone along every run. -/
theorem gone_run {s s' : RequestSystem} {es : List RequestEvent}
    (hrun : Run RequestStep s es s') {t : String} (hdrawn : t ∈ s.sessions.drawn)
    (hgone : s.sessions.state.pinSessions.lookup t = none) :
    s'.sessions.state.pinSessions.lookup t = none := by
  have hboth := hrun.state_invariant
    (fun u => t ∈ u.sessions.drawn ∧ u.sessions.state.pinSessions.lookup t = none)
    ⟨hdrawn, hgone⟩ fun ⟨hd, hg⟩ hstep =>
      ⟨hstep.sessions.drawn_subset hd, hstep.sessions.stays_gone hd hg⟩
  exact hboth.2

/-- A session is issued only under a string that is drawn for it. -/
theorem unlocked_drawn {start : ℕ} {es : List RequestEvent} {s : RequestSystem}
    (hrun : Run RequestStep (RequestSystem.new start) es s) {n : ℕ} {t : String}
    (h : .unlock n t ∈ es) : t ∈ s.sessions.drawn := by
  revert n t
  refine hrun.invariant (fun es s => ∀ {n t}, .unlock n t ∈ es → t ∈ s.sessions.drawn)
    (fun {n t} h => absurd h (by simp)) ?_
  intro es s e s' hdrawn hstep n t hin
  rcases List.mem_append.mp hin with hin | hin
  · exact hstep.sessions.drawn_subset (hdrawn hin)
  · obtain rfl := List.mem_singleton.mp hin
    have hsession := hstep.sessions
    generalize s'.sessions = u at hsession ⊢
    cases hsession with
    | create => exact List.mem_cons_self ..

/-- A channel handed out is closed exactly when its token has no session. -/
theorem StreamInv.closed_iff {es : List RequestEvent} {s : RequestSystem}
    (h : StreamInv es s) {i : ℕ} {t : String} {c : ℕ} (hin : .openStream i t (some c) ∈ es) :
    s.sessions.state.closes c = 1 ↔ t ∉ s.sessions.state.pinSessions := by
  obtain ⟨-, -, hcases⟩ := h.channel.handed t c (List.mem_map_of_mem hin)
  rw [← Finmap.lookup_eq_none]
  rcases hcases with ⟨e, he, hdone⟩ | ⟨hnone, hclosed⟩
  · rw [(h.channel.live t e c he hdone).2, he]
    simp
  · simp only [hclosed, hnone]

/-- A stream that asks for the channel of a session that is gone gets a closed one. -/
theorem asks_too_late {s s' : RequestSystem} {es : List RequestEvent} (h : StreamInv es s)
    {i : ℕ} {t : String} {d : Option ℕ} (hstep : RequestStep s (.openStream i t d) s')
    (ht : t ≠ "") (hgone : s.sessions.state.pinSessions.lookup t = none) :
    ∃ c, d = some c ∧ s'.sessions.state.closes c = 1 := by
  have hsession := hstep.sessions
  generalize s'.sessions = u at hsession ⊢
  cases hsession with
  | sessionDone hdone =>
      rw [pinSessionDone, if_neg ht, hgone] at hdone ⊢
      refine ⟨s.sessions.state.nextChan, hdone.symm, ?_⟩
      simp only [closeChan, if_true, h.channel.unmade _ le_rfl]

/-- **A stream ends with its session.** In every run of the requests: a done channel handed
out for a session token is closed if and only if the token is not in the session table; no
channel is closed twice; and after the logout of an issued session every channel that is or
was handed out for it is closed, also for a stream that asks only then. -/
theorem stream_ends_with_session {start : ℕ} (hstart : 0 < start) {es : List RequestEvent}
    {s : RequestSystem} (hrun : Run RequestStep (RequestSystem.new start) es s) :
    (∀ i t c, .openStream i t (some c) ∈ es →
        (s.sessions.state.closes c = 1 ↔ t ∉ s.sessions.state.pinSessions)) ∧
      (∀ c, s.sessions.state.closes c ≤ 1) ∧
      ∀ n t s₁ es' s₂, .unlock n t ∈ es → RequestStep s (.logout t) s₁ →
        Run RequestStep s₁ es' s₂ →
        (∀ i c, .openStream i t (some c) ∈ es ++ .logout t :: es' →
          s₂.sessions.state.closes c = 1) ∧
        ∀ i d s₃, RequestStep s₂ (.openStream i t d) s₃ →
          ∃ c, d = some c ∧ s₃.sessions.state.closes c = 1 := by
  have h := streamInv_run hstart hrun
  refine ⟨fun i t c hin => h.closed_iff hin, h.channel.once, ?_⟩
  intro n t s₁ es' s₂ hunlock hlogout hrun'
  have hdrawn := unlocked_drawn hrun hunlock
  have ht : t ≠ "" := by
    rintro rfl
    exact h.session.drawn_ne hdrawn
  have hgone : s₁.sessions.state.pinSessions.lookup t = none := by
    have hsession := hlogout.sessions
    generalize s₁.sessions = u at hsession ⊢
    cases hsession with
    | revoke => exact (lookup_revoke ht _ t).trans (if_pos rfl)
  have hgone₂ := gone_run hrun' (hlogout.sessions.drawn_subset hdrawn) hgone
  have hall : Run RequestStep (RequestSystem.new start) (es ++ .logout t :: es') s₂ := by
    rw [List.append_cons]
    exact (hrun.snoc hlogout).append hrun'
  have h₂ := streamInv_run hstart hall
  constructor
  · intro i c hin
    exact (h₂.closed_iff hin).mpr (Finmap.lookup_eq_none.mp hgone₂)
  · exact fun i d s₃ hstep => asks_too_late h₂ hstep ht hgone₂


/-- A stream opened for a session is closed by its logout. -/
theorem stream_ends_with_session_logout : ∃ es s,
    Run RequestStep (RequestSystem.new second)
        (es ++ [.openStream 0 "session" (some 0)] ++ [.logout "session"]) s ∧
      s.sessions.state.closes 0 = 1 := by
  have hunlock := RequestStep.of_session (s := RequestSystem.new second)
    (e := .unlock second "session") trivial (.create (by decide) ⟨by decide, by decide⟩)
  have hcheck := (Run.single hunlock).snoc <| .of_session
    (e := .check 0 second ⟨"/api/containers/logs", "session", "", ""⟩ true) rfl
    (.authorize (by decide) (by decide))
  have hopen := hcheck.snoc <| .of_session
    (e := .openStream 0 "session" (some 0)) (Eq.symm (by decide : trimSpaceStr "session" = _))
    (.sessionDone (by decide))
  obtain ⟨s, hrun, s', hlogout⟩ : ∃ s, Run RequestStep (RequestSystem.new second) _ s ∧
      ∃ s', RequestStep s (.logout "session") s' :=
    ⟨_, hopen, _, .of_session trivial .revoke⟩
  obtain ⟨hclosed, -⟩ := (stream_ends_with_session (by decide) hrun).2.2 second "session" s' []
    s' (by simp) hlogout Run.nil
  refine ⟨_, s', hrun.snoc hlogout, hclosed 0 0 ?_⟩
  simp

end Contiwatch
