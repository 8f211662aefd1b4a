import Contiwatch.RemoteJobs

/-!
# Runs of Remote Stack Jobs

The protocol of `RemoteJobs`, over all runs. An execution on the agent uses up a request that is on
its way, and a second request is only sent for an answer that says that the first was not executed.
What the controller is told about the agent's job is true of the job with the ID that it was given.

## Main results

* `run_executions` — the agent executes the action at most once.
* `run_remoteJob` — a job succeeds only if the agent's job did, or the synchronous action was
  answered with success; failed status calls never decide; and the agent executes the action at
  most once.
-/

namespace Contiwatch

namespace RemoteProtocol

/-! ### At most one execution -/

/-- The agent executes the action. -/
def Event.executes : Event → Bool
  | .jobStarts _ | .syncStarts => true
  | _ => false

/-- A message that may still lead to an execution. -/
def mayExecute : Message → Bool
  | .request _ .startJob | .request _ .syncAction => true
  | .answer _ .startJob a => a.isUnsupported
  | _ => false

/-- How many executions may still come. -/
def openExecutions (s : RemoteProtocol) : ℕ :=
  (if s.phase = .preparing then 1 else 0) + s.net.countP mayExecute

/-- A job never goes back to its preparation. -/
theorem next_ne_preparing {phase : RemotePhase} (h : phase ≠ .preparing) (o : Observation) :
    phase.next o ≠ .preparing := by
  cases phase with
  | preparing => exact absurd rfl h
  | starting =>
      cases o <;> simp only [RemotePhase.next, ne_eq, reduceCtorEq, not_false_eq_true]
      split <;> simp
  | syncing =>
      cases o <;> simp only [RemotePhase.next, ne_eq, reduceCtorEq, not_false_eq_true]
      split <;> simp
  | polling id lastErr =>
      cases o <;> simp only [RemotePhase.next, ne_eq, reduceCtorEq, not_false_eq_true]
      rename_i a
      rcases getRemoteStackJob a with err | _ | view
      · simp [pollRound]
      · simp [pollRound]
      · simp only [pollRound]
        split
        · simp
        split <;> simp
  | returned err => cases o <;> simp [RemotePhase.next]

/-- Only an agent without the job API answers without a job. -/
theorem startRemoteStackJob_eq_none {a : Answer} :
    startRemoteStackJob a = .ok none ↔ a.isUnsupported = true := by
  rw [startRemoteStackJob]
  split
  · simp [*]
  split
  · simp [*]
  · rcases hview : a.view with _ | view <;> simp [decodeStackJobView, Except.map, *]

/-- A message taken out of the net is one less. -/
theorem countP_remove (before after : List Message) (m : Message) :
    (before ++ m :: after).countP mayExecute =
      (before ++ after).countP mayExecute + (mayExecute m).toNat := by
  simp only [List.countP_append, List.countP_cons]
  cases mayExecute m
  · simp
  · simp
    omega

/-- A step of the controller uses up what it makes possible. -/
theorem openExecutions_controllerStep {s t : RemoteProtocol} {e : Event}
    (h : ControllerStep s e t) : e.executes = false ∧ openExecutions t ≤ openExecutions s := by
  -- no step leads back to the phase before the first call
  have hnext : ∀ o, s.phase ≠ .preparing → s.phase.next o ≠ .preparing :=
    fun o hphase => next_ne_preparing hphase o
  cases h with
  | prepared hphase =>
      refine ⟨rfl, ?_⟩
      simp only [openExecutions, call, hphase, RemotePhase.next, countP_remove, List.append_nil,
        mayExecute, reduceCtorEq, if_true, if_false, Bool.toNat_true]
      omega
  | notPrepared hphase =>
      refine ⟨rfl, ?_⟩
      simp only [openExecutions, hphase, RemotePhase.next, reduceCtorEq, if_true, if_false]
      omega
  | unsupported hphase hwaiting hnet hstart =>
      have hanswer := startRemoteStackJob_eq_none.mp hstart
      have hphase' : s.phase ≠ .preparing := by simp [hphase]
      refine ⟨rfl, ?_⟩
      simp only [openExecutions, call, hnet, countP_remove, List.append_nil, mayExecute, hanswer,
        hnext _ hphase', hphase', if_false, Bool.toNat_true, le_refl]
  | started hphase hwaiting hnet hstart | notStarted hphase hwaiting hnet hstart
  | synced hphase hwaiting hnet | polled hphase hwaiting hnet =>
      have hphase' : s.phase ≠ .preparing := by simp [hphase]
      refine ⟨rfl, ?_⟩
      simp only [openExecutions, hnet, countP_remove, hnext _ hphase', hphase', if_false]
      omega
  | startFailed hphase hwaiting | syncFailed hphase hwaiting | pollFailed hphase hwaiting
  | ended hphase hwaiting =>
      have hphase' : s.phase ≠ .preparing := by simp [hphase]
      refine ⟨rfl, ?_⟩
      simp only [openExecutions, hnext _ hphase', hphase', if_false, le_refl]
  | tick hphase hwaiting =>
      have hphase' : s.phase ≠ .preparing := by simp [hphase]
      refine ⟨rfl, ?_⟩
      simp only [openExecutions, call, countP_remove, List.append_nil, mayExecute, hphase',
        if_false, Bool.toNat_false]
      omega
  | finish hphase hrunning => exact ⟨rfl, le_rfl⟩

/-- An execution of the agent uses up one that was open. -/
theorem openExecutions_agentStep {s t : RemoteProtocol} {e : Event} (h : AgentStep s e t) :
    e.executes.toNat + openExecutions t ≤ openExecutions s := by
  cases h with
  | jobStarts hnet hfresh =>
      have hcode : ∀ view, (⟨202, view, ""⟩ : Answer).isUnsupported = false := fun view => rfl
      simp only [openExecutions, Event.executes, hnet, countP_remove, List.append_nil, mayExecute,
        hcode, Bool.toNat_true, Bool.toNat_false]
      omega
  | syncStarts hnet =>
      simp only [openExecutions, Event.executes, hnet, countP_remove, mayExecute, Bool.toNat_true]
      omega
  | syncEnds hruns =>
      simp only [openExecutions, Event.executes, countP_remove, List.append_nil, mayExecute,
        Bool.toNat_false]
      omega
  | @refuses n kind a before after hnet hcode =>
      have hkind :
          (mayExecute (.answer n kind a)).toNat ≤ (mayExecute (.request n kind)).toNat := by
        cases kind with
        | startJob => exact Bool.toNat_le _
        | syncAction | status id => exact Nat.zero_le _
      simp only [openExecutions, Event.executes, hnet, countP_remove, List.append_nil,
        Bool.toNat_false]
      omega
  | statusAnswers hnet hjob =>
      simp only [openExecutions, Event.executes, hnet, countP_remove, List.append_nil, mayExecute,
        Bool.toNat_false]
      omega
  | jobEnds hjob hrunning | jobRemoved | otherJob hfresh | restart =>
      simp only [openExecutions, Event.executes, Bool.toNat_false, Nat.zero_add, le_refl]

/-- The network opens no execution. -/
theorem openExecutions_netStep {s t : RemoteProtocol} {e : Event} (h : NetStep s e t) :
    e.executes = false ∧ openExecutions t ≤ openExecutions s := by
  cases h with
  | lose hnet =>
      refine ⟨rfl, ?_⟩
      simp only [openExecutions, hnet, countP_remove]
      omega
  | @garble n kind a a' before after hnet hview hcode =>
      have hkind : mayExecute (.answer n kind a') = false := by
        cases kind with
        | startJob => exact hcode rfl
        | syncAction | status id => rfl
      refine ⟨rfl, ?_⟩
      simp only [openExecutions, hnet, countP_remove, hkind, Bool.toNat_false]
      omega

/-- **At most once**, with what may still come. -/
theorem run_executions {now : ℕ} {id : String} {spec : StackJobSpec} {es : List Event}
    {s : RemoteProtocol} (hrun : Run Step (new now id spec) es s) :
    es.countP Event.executes + openExecutions s ≤ 1 := by
  refine hrun.invariant (fun es s => es.countP Event.executes + openExecutions s ≤ 1)
    (by simp [openExecutions, new]) fun {es s e t} h hstep => ?_
  have hsingle : [e].countP Event.executes = e.executes.toNat := by
    cases he : e.executes <;> simp [he]
  rw [List.countP_append, hsingle]
  cases hstep with
  | controller hcontroller =>
      obtain ⟨he, hopen⟩ := openExecutions_controllerStep hcontroller
      simp only [he, Bool.toNat_false]
      omega
  | agent hagent =>
      have := openExecutions_agentStep hagent
      omega
  | net hnet =>
      obtain ⟨he, hopen⟩ := openExecutions_netStep hnet
      simp only [he, Bool.toNat_false]
      omega

/-! ### What a success means -/

/-- The agent has started a job with the ID, and the controller was told so. -/
def StartedAs (es : List Event) (id : String) : Prop :=
  .jobStarts id ∈ es ∧ ∃ a view, .observe (.started a) ∈ es ∧
    startRemoteStackJob a = .ok (some view) ∧ view.id = id

/-- The agent has answered the start request like one without the job API. -/
def Unsupported (es : List Event) : Prop :=
  ∃ a, .observe (.started a) ∈ es ∧ a.isUnsupported = true

/-- The agent's job has succeeded, or the agent has no job API and has answered the synchronous
action with success. -/
def Succeeded (es : List Event) : Prop :=
  (∃ id, StartedAs es id ∧ .jobEnds id none ∈ es) ∨
    Unsupported es ∧ ∃ a, .observe (.synced a) ∈ es ∧ a.isSuccess = true

/-- Status calls are made for the job that is polled. -/
def Follows (phase : RemotePhase) (id : String) : Prop :=
  (∃ lastErr, phase = .polling id lastErr) ∨ ∃ err, phase = .returned err

/-- What a message says is true. -/
def MessageOk (es : List Event) (phase : RemotePhase) : Message → Prop
  | .request _ (.status id) => Follows phase id
  | .answer _ (.status id) a => Follows phase id ∧ ∀ view, getRemoteStackJob a = .ok (some view) →
      view.status = "succeeded" → .jobEnds id none ∈ es
  | .answer _ .startJob a => ∀ view, startRemoteStackJob a = .ok (some view) →
      .jobStarts view.id ∈ es
  | _ => True

/-- What holds in every run. -/
structure ProtocolInv (es : List Event) (s : RemoteProtocol) : Prop where
  jobs : ∀ id j, s.agentJobs.lookup id = some j → j.status = .succeeded → .jobEnds id none ∈ es
  messages : ∀ m ∈ s.net, MessageOk es s.phase m
  polling : ∀ id lastErr, s.phase = .polling id lastErr → StartedAs es id
  syncing : s.phase = .syncing → Unsupported es
  returned : s.phase = .returned none → Succeeded es
  job : s.job.status = .succeeded → s.phase = .returned none

/-- The protocol starts within its invariant. -/
theorem protocolInv_new (now : ℕ) (id : String) (spec : StackJobSpec) :
    ProtocolInv [] (new now id spec) where
  jobs := fun id j hj => by simp [new] at hj
  messages := fun m hm => by simp [new] at hm
  polling := fun id lastErr hphase => by simp [new] at hphase
  syncing := fun hphase => by simp [new] at hphase
  returned := fun hphase => by simp [new] at hphase
  job := fun hstatus => by simp [new, newStackJob] at hstatus

section

variable {es : List Event} {s t : RemoteProtocol} {e : Event}

/-- What has started stays started. -/
theorem StartedAs.mono {id : String} (h : StartedAs es id) (e : Event) :
    StartedAs (es ++ [e]) id := by
  obtain ⟨hstarts, a, view, ha, hview⟩ := h
  exact ⟨List.mem_append_left _ hstarts, a, view, List.mem_append_left _ ha, hview⟩

/-- What was answered stays answered. -/
theorem Unsupported.mono (h : Unsupported es) (e : Event) : Unsupported (es ++ [e]) := by
  obtain ⟨a, ha, hcode⟩ := h
  exact ⟨a, List.mem_append_left _ ha, hcode⟩

/-- What has succeeded stays so. -/
theorem Succeeded.mono (h : Succeeded es) (e : Event) : Succeeded (es ++ [e]) := by
  rcases h with ⟨id, hid, hends⟩ | ⟨hunsupported, a, ha, hcode⟩
  · exact .inl ⟨id, hid.mono e, List.mem_append_left _ hends⟩
  · exact .inr ⟨hunsupported.mono e, a, List.mem_append_left _ ha, hcode⟩

/-- A round of the loop goes on with the same job, or ends. -/
theorem follows_pollRound (id : String) (result : Except String (Option RemoteView)) :
    Follows (pollRound id result) id := by
  rcases result with err | _ | view
  · exact .inl ⟨some err, rfl⟩
  · exact .inr ⟨_, rfl⟩
  · rw [pollRound]
    split
    · exact .inr ⟨_, rfl⟩
    split
    · exact .inr ⟨_, rfl⟩
    · exact .inl ⟨none, rfl⟩

/-- The loop ends without an error only after the agent has said that the job succeeded. -/
theorem pollRound_eq_returned {id : String} {result : Except String (Option RemoteView)}
    (h : pollRound id result = .returned none) :
    ∃ view, result = .ok (some view) ∧ view.status = "succeeded" := by
  rcases result with err | _ | view
  · cases h
  · cases h
  · rw [pollRound] at h
    split at h
    · exact ⟨view, rfl, ‹_›⟩
    split at h <;> cases h

/-- A job that is polled is polled on, or it has returned. -/
theorem Follows.next {phase : RemotePhase} {id : String} (h : Follows phase id) (o : Observation) :
    Follows (phase.next o) id := by
  rcases h with ⟨lastErr, rfl⟩ | ⟨err, rfl⟩
  · cases o with
    | polled a => exact follows_pollRound id (getRemoteStackJob a)
    | pollFailed err => exact .inl ⟨some err, rfl⟩
    | ended cause => exact .inr ⟨_, rfl⟩
    | prepared | started | startFailed | synced | syncFailed => exact .inl ⟨lastErr, rfl⟩
  · exact .inr ⟨err, by cases o <;> rfl⟩

/-- A true message stays true. -/
theorem MessageOk.mono {phase phase' : RemotePhase} {m : Message} (h : MessageOk es phase m)
    (e : Event) (hphase : ∀ id, Follows phase id → Follows phase' id) :
    MessageOk (es ++ [e]) phase' m := by
  match m, h with
  | .request _ .startJob, _ | .request _ .syncAction, _ | .answer _ .syncAction _, _ => trivial
  | .request _ (.status id), h => exact hphase id h
  | .answer _ (.status id) a, h =>
      exact ⟨hphase id h.1, fun view hget hstatus => List.mem_append_left _ (h.2 view hget hstatus)⟩
  | .answer _ .startJob a, h => exact fun view hstart => List.mem_append_left _ (h view hstart)

/-- A step that changes neither the phase nor the job of the controller. -/
theorem ProtocolInv.keep (h : ProtocolInv es s) (e : Event) (hphase : t.phase = s.phase)
    (hjob : t.job = s.job)
    (hjobs : ∀ id j, t.agentJobs.lookup id = some j → j.status = .succeeded →
      s.agentJobs.lookup id = some j ∨ .jobEnds id none ∈ es ++ [e])
    (hnet : ∀ m ∈ t.net, m ∈ s.net ∨ MessageOk (es ++ [e]) s.phase m) :
    ProtocolInv (es ++ [e]) t where
  jobs id j hj hstatus := by
    rcases hjobs id j hj hstatus with hold | hends
    · exact List.mem_append_left _ (h.jobs id j hold hstatus)
    · exact hends
  messages m hm := by
    rw [hphase]
    rcases hnet m hm with hold | hok
    · exact (h.messages m hold).mono e fun _ => id
    · exact hok
  polling id lastErr hpolling := (h.polling id lastErr (hphase ▸ hpolling)).mono e
  syncing hsyncing := (h.syncing (hphase ▸ hsyncing)).mono e
  returned hreturned := (h.returned (hphase ▸ hreturned)).mono e
  job hstatus := hphase ▸ h.job (hjob ▸ hstatus)

/-- A step by which the controller observes something. -/
theorem ProtocolInv.observe (h : ProtocolInv es s) {o : Observation}
    (hopen : ∀ err, s.phase ≠ .returned err) (hphase : t.phase = s.phase.next o)
    (hjobs : t.agentJobs = s.agentJobs) (hstatus : t.job.status = s.job.status)
    (hnet : ∀ m ∈ t.net, m ∈ s.net ∨ ∃ n kind, m = .request n kind ∧ ∀ id, kind ≠ .status id)
    (hpolling : ∀ id lastErr, s.phase.next o = .polling id lastErr →
      StartedAs (es ++ [.observe o]) id)
    (hsyncing : s.phase.next o = .syncing → Unsupported (es ++ [.observe o]))
    (hreturned : s.phase.next o = .returned none → Succeeded (es ++ [.observe o])) :
    ProtocolInv (es ++ [.observe o]) t where
  jobs id j hj hsucceeded := List.mem_append_left _ (h.jobs id j (hjobs ▸ hj) hsucceeded)
  messages m hm := by
    rw [hphase]
    rcases hnet m hm with hold | ⟨n, kind, rfl, hkind⟩
    · exact (h.messages m hold).mono _ fun id hfollows => hfollows.next o
    · cases kind with
      | startJob | syncAction => trivial
      | status id => exact absurd rfl (hkind id)
  polling id lastErr heq := hpolling id lastErr (hphase ▸ heq)
  syncing heq := hsyncing (hphase ▸ heq)
  returned heq := hreturned (hphase ▸ heq)
  job hsucceeded := absurd (h.job (hstatus ▸ hsucceeded)) (hopen none)

/-- What is left in the net was there. -/
theorem mem_of_mem_remove {before after : List Message} {m m' : Message}
    (h : m ∈ before ++ after) : m ∈ before ++ m' :: after := by
  rw [List.mem_append] at h
  rw [List.mem_append, List.mem_cons]
  exact h.imp_right .inr

/-- **An answer to a status call**: the controller goes on with the job that the agent has started,
or the agent has said how it ended. -/
theorem ProtocolInv.next_polled (h : ProtocolInv es s) {id id' : String} {lastErr : Option String}
    {n : ℕ} {a : Answer} (hphase : s.phase = .polling id lastErr)
    (hmem : .answer n (.status id') a ∈ s.net) :
    (∀ id'' lastErr', s.phase.next (.polled a) = .polling id'' lastErr' →
        StartedAs (es ++ [.observe (.polled a)]) id'') ∧
      s.phase.next (.polled a) ≠ .syncing ∧
      (s.phase.next (.polled a) = .returned none → Succeeded (es ++ [.observe (.polled a)])) := by
  have hstarted := h.polling id lastErr hphase
  obtain ⟨hfollows, hsucceeded⟩ := h.messages (.answer n (.status id') a) hmem
  have hround := follows_pollRound id (getRemoteStackJob a)
  rw [hphase, RemotePhase.next]
  refine ⟨fun id'' lastErr' hpolling => ?_, fun hsyncing => ?_, fun hreturned => ?_⟩
  · rcases hround with ⟨_, heq⟩ | ⟨_, heq⟩
    · obtain ⟨rfl, -⟩ := RemotePhase.polling.inj (heq.symm.trans hpolling)
      exact hstarted.mono _
    · cases heq.symm.trans hpolling
  · rcases hround with ⟨_, heq⟩ | ⟨_, heq⟩
    · cases heq.symm.trans hsyncing
    · cases heq.symm.trans hsyncing
  · obtain ⟨view, hget, hstatus⟩ := pollRound_eq_returned hreturned
    have hid : id' = id := by
      rcases hfollows with ⟨_, heq⟩ | ⟨_, heq⟩
      · exact (RemotePhase.polling.inj (heq.symm.trans hphase)).1
      · cases heq.symm.trans hphase
    subst hid
    exact .inl ⟨id', hstarted.mono _, List.mem_append_left _ (hsucceeded view hget hstatus)⟩

/-- The controller's steps keep the invariant. -/
theorem ProtocolInv.controllerStep (h : ProtocolInv es s) (hstep : ControllerStep s e t) :
    ProtocolInv (es ++ [e]) t := by
  have hlast : ∀ e : Event, e ∈ es ++ [e] := fun e =>
    List.mem_append_right _ (List.mem_singleton_self e)
  cases hstep with
  | prepared hphase =>
      refine h.observe (by simp [hphase]) rfl rfl rfl (fun m hm => ?_) ?_ ?_ ?_
      · exact (List.mem_append.mp hm).imp_right fun hm =>
          ⟨_, _, List.mem_singleton.mp hm, by simp⟩
      all_goals simp [hphase, RemotePhase.next]
  | notPrepared hphase =>
      refine h.observe (by simp [hphase]) rfl rfl rfl (fun m hm => .inl hm) ?_ ?_ ?_
      all_goals simp [hphase, RemotePhase.next]
  | @started n a view before after hphase hwaiting hnet hstart =>
      refine h.observe (by simp [hphase]) rfl rfl rfl
        (fun m hm => .inl (hnet ▸ mem_of_mem_remove hm)) ?_ ?_ ?_
      · intro id lastErr hpolling
        rw [hphase, RemotePhase.next, hstart] at hpolling
        obtain ⟨rfl, -⟩ := RemotePhase.polling.inj hpolling
        have hanswer := h.messages (.answer n .startJob a) (hnet ▸ by simp)
        exact ⟨List.mem_append_left _ (hanswer view hstart), a, view, hlast _, hstart, rfl⟩
      · simp [hphase, RemotePhase.next, hstart]
      · simp [hphase, RemotePhase.next, hstart]
  | @unsupported n a before after hphase hwaiting hnet hstart =>
      refine h.observe (by simp [hphase]) rfl rfl rfl (fun m hm => ?_) ?_ ?_ ?_
      · rcases List.mem_append.mp hm with hm | hm
        · exact .inl (hnet ▸ mem_of_mem_remove hm)
        · exact .inr ⟨_, _, List.mem_singleton.mp hm, by simp⟩
      · simp [hphase, RemotePhase.next, hstart]
      · exact fun _ => ⟨a, hlast _, startRemoteStackJob_eq_none.mp hstart⟩
      · simp [hphase, RemotePhase.next, hstart]
  | notStarted hphase hwaiting hnet hstart =>
      refine h.observe (by simp [hphase]) rfl rfl rfl
        (fun m hm => .inl (hnet ▸ mem_of_mem_remove hm)) ?_ ?_ ?_
      all_goals simp [hphase, RemotePhase.next, hstart]
  | startFailed hphase hwaiting | syncFailed hphase hwaiting =>
      refine h.observe (by simp [hphase]) rfl rfl rfl (fun m hm => .inl hm) ?_ ?_ ?_
      all_goals simp [hphase, RemotePhase.next]
  | @synced n a before after hphase hwaiting hnet =>
      refine h.observe (by simp [hphase]) rfl rfl rfl
        (fun m hm => .inl (hnet ▸ mem_of_mem_remove hm)) ?_ ?_ ?_
      · intro id lastErr hpolling
        rw [hphase, RemotePhase.next] at hpolling
        split at hpolling <;> cases hpolling
      · exact fun _ => (h.syncing hphase).mono _
      · intro hreturned
        rw [hphase, RemotePhase.next] at hreturned
        split at hreturned
        · exact .inr ⟨(h.syncing hphase).mono _, a, hlast _, ‹_›⟩
        · cases hreturned
  | @polled n a id id' lastErr before after hphase hwaiting hnet =>
      have hmem : Message.answer n (.status id') a ∈ s.net := hnet ▸ by simp
      obtain ⟨hpolling, hsyncing, hreturned⟩ := h.next_polled hphase hmem
      exact h.observe (by simp [hphase]) rfl rfl rfl
        (fun m hm => .inl (hnet ▸ mem_of_mem_remove hm)) hpolling
        (fun heq => absurd heq hsyncing) hreturned
  | @pollFailed n err id lastErr hphase hwaiting =>
      refine h.observe (by simp [hphase]) rfl rfl rfl (fun m hm => .inl hm) ?_ ?_ ?_
      · intro id' lastErr' hpolling
        rw [hphase, RemotePhase.next] at hpolling
        obtain ⟨rfl, -⟩ := RemotePhase.polling.inj hpolling
        exact (h.polling id lastErr hphase).mono _
      · simp [hphase, RemotePhase.next]
      · simp [hphase, RemotePhase.next]
  | ended hphase hwaiting =>
      refine h.observe (by simp [hphase]) rfl rfl rfl (fun m hm => .inl hm) ?_ ?_ ?_
      all_goals simp [hphase, RemotePhase.next]
  | @tick id lastErr hphase hwaiting =>
      refine h.keep _ rfl rfl (fun id j hj _ => .inl hj) fun m hm => ?_
      rcases List.mem_append.mp hm with hm | hm
      · exact .inl hm
      · obtain rfl := List.mem_singleton.mp hm
        exact .inr (.inl ⟨lastErr, hphase⟩)
  | @finish now err hphase hrunning =>
      have hkeep := h.keep (t := s) (.finish now) rfl rfl (fun id j hj _ => .inl hj) fun m hm =>
        .inl hm
      refine ⟨hkeep.jobs, hkeep.messages, hkeep.polling, hkeep.syncing, hkeep.returned,
        fun hstatus => ?_⟩
      cases err with
      | none => exact hphase
      | some err => exact absurd hstatus (by simp [StackJob.finish])

/-- A job that has just been started has not succeeded. -/
theorem lookup_of_insert_running {jobs : GoMap String StackJob} {id id' : String} {j₀ j : StackJob}
    (hj₀ : j₀.status = .running) (hj : (jobs.insert id j₀).lookup id' = some j)
    (hstatus : j.status = .succeeded) : jobs.lookup id' = some j := by
  by_cases hid : id' = id
  · subst hid
    rw [Finmap.lookup_insert] at hj
    obtain rfl := Option.some.inj hj
    exact absurd (hj₀.symm.trans hstatus) (by simp)
  · rwa [Finmap.lookup_insert_of_ne _ hid] at hj

/-- A view is only taken from an answer with success. -/
theorem decoded_of_ok {a : Answer} {view : RemoteView} :
    (startRemoteStackJob a = .ok (some view) → a.isSuccess = true ∧ a.view = some view) ∧
      (getRemoteStackJob a = .ok (some view) → a.isSuccess = true ∧ a.view = some view) := by
  have hdecode : (decodeStackJobView a).map some = .ok (some view) → a.view = some view := by
    rcases hview : a.view with _ | view' <;> simp [decodeStackJobView, hview, Except.map]
  constructor
  · intro h
    rw [startRemoteStackJob] at h
    split at h
    · cases h
    split at h
    · cases h
    · exact ⟨by simpa using ‹¬ ¬ a.isSuccess = true›, hdecode h⟩
  · intro h
    rw [getRemoteStackJob] at h
    split at h
    · cases h
    split at h
    · cases h
    · exact ⟨by simpa using ‹¬ ¬ a.isSuccess = true›, hdecode h⟩

/-- An answer without a view that could be decoded says nothing. -/
theorem messageOk_of_not_decoded {phase : RemotePhase} {n : ℕ} {kind : CallKind} {a : Answer}
    (h : a.isSuccess = false ∨ a.view = none)
    (hfollows : ∀ id, kind = .status id → Follows phase id) :
    MessageOk es phase (.answer n kind a) := by
  have hno : ∀ view, ¬ (a.isSuccess = true ∧ a.view = some view) := by
    rintro view ⟨hcode, hview⟩
    rcases h with h | h
    · exact absurd (h.symm.trans hcode) (by simp)
    · exact absurd (h.symm.trans hview) (by simp)
  cases kind with
  | startJob => exact fun view hstart => absurd (decoded_of_ok.1 hstart) (hno view)
  | syncAction => trivial
  | status id => exact ⟨hfollows id rfl, fun view hget => absurd (decoded_of_ok.2 hget) (hno view)⟩

/-- So do the agent's. -/
theorem ProtocolInv.agentStep (h : ProtocolInv es s) (hstep : AgentStep s e t) :
    ProtocolInv (es ++ [e]) t := by
  have hlast : ∀ e : Event, e ∈ es ++ [e] := fun e =>
    List.mem_append_right _ (List.mem_singleton_self e)
  cases hstep with
  | @jobStarts n now id spec before after hnet hfresh =>
      refine h.keep _ rfl rfl (fun id' j hj hstatus => ?_) fun m hm => ?_
      · exact .inl (lookup_of_insert_running rfl hj hstatus)
      · rcases List.mem_append.mp hm with hm | hm
        · exact .inl (hnet ▸ mem_of_mem_remove hm)
        · obtain rfl := List.mem_singleton.mp hm
          refine .inr fun view hstart => ?_
          obtain rfl := Option.some.inj (Except.ok.inj hstart)
          exact hlast _
  | syncStarts hnet =>
      exact h.keep _ rfl rfl (fun id j hj _ => .inl hj) fun m hm =>
        .inl (hnet ▸ mem_of_mem_remove hm)
  | syncEnds hruns =>
      refine h.keep _ rfl rfl (fun id j hj _ => .inl hj) fun m hm => ?_
      rcases List.mem_append.mp hm with hm | hm
      · exact .inl hm
      · obtain rfl := List.mem_singleton.mp hm
        exact .inr trivial
  | @refuses n kind a before after hnet hcode =>
      refine h.keep _ rfl rfl (fun id j hj _ => .inl hj) fun m hm => ?_
      rcases List.mem_append.mp hm with hm | hm
      · exact .inl (hnet ▸ mem_of_mem_remove hm)
      · obtain rfl := List.mem_singleton.mp hm
        refine .inr (messageOk_of_not_decoded (.inl hcode) ?_)
        rintro id rfl
        exact h.messages (.request n (.status id)) (hnet ▸ by simp)
  | @statusAnswers n id j before after hnet hjob =>
      refine h.keep _ rfl rfl (fun id j hj _ => .inl hj) fun m hm => ?_
      rcases List.mem_append.mp hm with hm | hm
      · exact .inl (hnet ▸ mem_of_mem_remove hm)
      · obtain rfl := List.mem_singleton.mp hm
        have hrequest := h.messages (.request n (.status id)) (hnet ▸ by simp)
        refine .inr ⟨hrequest, fun view hget hstatus => ?_⟩
        obtain rfl := Option.some.inj (decoded_of_ok.2 hget).2
        refine List.mem_append_left _ (h.jobs id j hjob ?_)
        rcases hjobStatus : j.status
        · simp [StackJob.remoteView, StackJob.view, hjobStatus, StackJobStatus.text] at hstatus
        · rfl
        · simp [StackJob.remoteView, StackJob.view, hjobStatus, StackJobStatus.text] at hstatus
  | @jobEnds now id err j hjob hrunning =>
      refine h.keep _ rfl rfl (fun id' j' hj hstatus => ?_) fun m hm => .inl hm
      by_cases hid : id' = id
      · subst hid
        rw [Finmap.lookup_insert] at hj
        obtain rfl := Option.some.inj hj
        cases err with
        | none => exact .inr (hlast _)
        | some text => exact absurd hstatus (by simp [StackJob.finish])
      · rw [Finmap.lookup_insert_of_ne _ hid] at hj
        exact .inl hj
  | @jobRemoved id =>
      refine h.keep _ rfl rfl (fun id' j' hj hstatus => ?_) fun m hm => .inl hm
      by_cases hid : id' = id
      · subst hid
        rw [Finmap.lookup_erase] at hj
        cases hj
      · rw [Finmap.lookup_erase_ne hid] at hj
        exact .inl hj
  | otherJob hfresh =>
      refine h.keep _ rfl rfl (fun id' j' hj hstatus => ?_) fun m hm => .inl hm
      exact .inl (lookup_of_insert_running rfl hj hstatus)
  | restart =>
      refine h.keep _ rfl rfl (fun id' j' hj hstatus => ?_) fun m hm => .inl hm
      exact absurd hj (by simp)

/-- So do losses. -/
theorem ProtocolInv.netStep (h : ProtocolInv es s) (hstep : NetStep s e t) :
    ProtocolInv (es ++ [e]) t := by
  cases hstep with
  | lose hnet =>
      exact h.keep _ rfl rfl (fun id j hj _ => .inl hj) fun m hm =>
        .inl (hnet ▸ mem_of_mem_remove hm)
  | @garble n kind a a' before after hnet hview hcode =>
      refine h.keep _ rfl rfl (fun id j hj _ => .inl hj) fun m hm => ?_
      rcases List.mem_append.mp hm with hm | hm
      · exact .inl (hnet ▸ List.mem_append_left _ hm)
      rcases List.mem_cons.mp hm with rfl | hm
      · refine .inr (messageOk_of_not_decoded (.inr hview) ?_)
        rintro id rfl
        exact (h.messages (.answer n (.status id) a) (hnet ▸ by simp)).1
      · exact .inl (hnet ▸ List.mem_append_right _ (List.mem_cons_of_mem _ hm))

end

/-! ### Runs -/

/-- What the controller observes by an event. -/
def Event.observation : Event → Option Observation
  | .observe o => some o
  | _ => none

/-- The phase of the controller is what it makes of its observations. -/
theorem phase_step {s t : RemoteProtocol} {e : Event} (h : Step s e t) :
    t.phase = (e.observation.elim s.phase s.phase.next) := by
  cases h with
  | controller h => cases h <;> rfl
  | agent h => cases h <;> rfl
  | net h => cases h <;> rfl

/-- **Remote jobs over runs.** Whatever the agent and the network do:
the job succeeds only if the agent's job with the ID returned at the start succeeded, or the agent
has no job API and has answered the synchronous action with success;
what the controller makes of its observations is what it makes of them without the failed status
calls;
and the agent executes the action at most once. -/
theorem run_remoteJob {now : ℕ} {id : String} {spec : StackJobSpec} {es : List Event}
    {s : RemoteProtocol} (hrun : Run Step (new now id spec) es s) :
    (s.job.status = .succeeded → Succeeded es) ∧
      s.phase.settle = (((es.filterMap Event.observation).filter fun o => !o.isTransient).foldl
        RemotePhase.next .preparing).settle ∧
      es.countP Event.executes ≤ 1 := by
  have hinv : ProtocolInv es s := by
    refine hrun.invariant ProtocolInv (protocolInv_new now id spec) fun {es s e t} h hstep => ?_
    cases hstep with
    | controller hcontroller => exact h.controllerStep hcontroller
    | agent hagent => exact h.agentStep hagent
    | net hnet => exact h.netStep hnet
  have hphase : s.phase = (es.filterMap Event.observation).foldl RemotePhase.next .preparing := by
    refine hrun.invariant (fun es s => s.phase = (es.filterMap Event.observation).foldl
      RemotePhase.next .preparing) rfl fun {es s e t} h hstep => ?_
    rw [phase_step hstep, h, List.filterMap_append, List.foldl_append]
    cases e <;> rfl
  refine ⟨fun hstatus => hinv.returned (hinv.job hstatus), ?_, ?_⟩
  · rw [hphase, settle_foldl_next]
  · exact le_trans (Nat.le_add_right ..) (run_executions hrun)

/-- A job that succeeds, after a status call that failed. -/
theorem remote_job_succeeds :
    ∃ es s, Run Step (new 1 "5d41" ⟨"remote:nas/web", "web", "up", "remote:nas", 0⟩) es s ∧
      s.job.status = .succeeded ∧ Succeeded es ∧ es.countP Event.executes ≤ 1 := by
  let spec : StackJobSpec := ⟨"remote:nas/web", "web", "up", "remote:nas", 0⟩
  let j := newStackJob 1 "7d79" spec
  let s₀ := new 1 "5d41" spec
  let s₁ := call .startJob { s₀ with phase := .starting }
  let s₂ : RemoteProtocol := { s₁ with
    net := [.answer 0 .startJob ⟨202, some j.remoteView, ""⟩]
    agentJobs := (∅ : GoMap String StackJob).insert "7d79" j
    drawn := ["7d79"] }
  let s₃ : RemoteProtocol := { s₂ with
    job := { s₂.job with extendRemote := true }
    phase := .polling "7d79" none
    waiting := none
    net := [] }
  let s₄ := call (.status "7d79") s₃
  let s₅ : RemoteProtocol := { s₄ with phase := .polling "7d79" (some "EOF"), waiting := none }
  let s₆ : RemoteProtocol := { s₅ with agentJobs := s₅.agentJobs.insert "7d79" (j.finish 2 none) }
  let s₇ := call (.status "7d79") s₆
  let s₈ : RemoteProtocol := { s₇ with
    net := [.request 1 (.status "7d79"),
      .answer 2 (.status "7d79") ⟨200, some (j.finish 2 none).remoteView, ""⟩] }
  let s₉ : RemoteProtocol := { s₈ with
    phase := .returned none, waiting := none, net := [.request 1 (.status "7d79")] }
  let s₁₀ : RemoteProtocol := { s₉ with job := s₉.job.finish 3 none }
  have h₁ : Step s₀ (.observe (.prepared none)) s₁ := .controller (.prepared rfl)
  have h₂ : Step s₁ (.jobStarts "7d79") s₂ :=
    .agent (@AgentStep.jobStarts s₁ 0 1 "7d79" spec [] [] rfl (by decide))
  have h₃ : Step s₂ (.observe (.started ⟨202, some j.remoteView, ""⟩)) s₃ :=
    .controller (@ControllerStep.started s₂ 0 _ _ [] [] rfl rfl rfl rfl)
  have h₄ : Step s₃ .tick s₄ := .controller (.tick rfl rfl)
  have h₅ : Step s₄ (.observe (.pollFailed "EOF")) s₅ := .controller (.pollFailed (n := 1) rfl rfl)
  have h₆ : Step s₅ (.jobEnds "7d79" none) s₆ := .agent (.jobEnds (Finmap.lookup_insert _) rfl)
  have h₇ : Step s₆ .tick s₇ := .controller (.tick rfl rfl)
  have h₈ : Step s₇ (.statusAnswers "7d79") s₈ :=
    .agent (@AgentStep.statusAnswers s₇ 2 _ _ [.request 1 (.status "7d79")] [] rfl
      (Finmap.lookup_insert _))
  have h₉ : Step s₈ (.observe (.polled ⟨200, some (j.finish 2 none).remoteView, ""⟩)) s₉ :=
    .controller
      (@ControllerStep.polled s₈ 2 _ "7d79" "7d79" _ [.request 1 (.status "7d79")] [] rfl rfl rfl)
  have h₁₀ : Step s₉ (.finish 3) s₁₀ := .controller (@ControllerStep.finish s₉ 3 none rfl rfl)
  have hrun := (((((((((Run.single h₁).snoc h₂).snoc h₃).snoc h₄).snoc h₅).snoc h₆).snoc h₇).snoc
    h₈).snoc h₉).snoc h₁₀
  obtain ⟨hsucceeded, -, honce⟩ := run_remoteJob hrun
  exact ⟨_, s₁₀, hrun, rfl, hsucceeded rfl, honce⟩

end RemoteProtocol

end Contiwatch
