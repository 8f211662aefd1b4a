import Contiwatch.StackActions

/-!
# Deadlines of Remote Stack Actions

A remote stack action is a job on the controller, whose goroutine starts a job on the agent. The
controller allows 30 seconds more than the agent, but its time starts earlier: the start request
may take up to a minute. A request to extend the job extends the deadline of the agent first and
that of the controller afterwards, if the agent has answered.

## Main results

* `run_deadlines_iff` — the agent's deadline is never the later one, while both jobs are running,
  exactly in the runs in which the start request takes no longer than the grace and the agent
  extends its job only when the controller is ahead.
* `agent_can_be_later` — a start request that takes 45 seconds, and an extension whose answer is
  lost.
-/

namespace Contiwatch

open GoTime JobSystem

/-- `stackJobStartTimeout`. -/
def stackJobStartTimeout : ℕ := 60 * second

/-- Where the start request stands: not sent; sent at a time; given up by the controller, but still
on its way; handled by the agent; answered; or at its end without an answer. -/
inductive StartRequest
  | unsent
  | sent (since : ℕ)
  | abandoned (since : ℕ)
  | handled (since : ℕ)
  | answered
  | failed
  deriving DecidableEq, Repr

/-- The request may still reach the agent. -/
def StartRequest.isOpen : StartRequest → Bool
  | .unsent | .sent _ | .abandoned _ => true
  | .handled _ | .answered | .failed => false

/-- Where a request to extend the job stands: before the check of `extend` on the controller; on
its way to the agent; behind the check of `extend` on the agent; on its way back; or before the
extension of the controller's deadline. `waiting` says whether the controller still waits for the
answer. -/
inductive RemoteExtension
  | checking
  | forwarded (waiting : Bool)
  | atAgent (waiting : Bool)
  | answering (ok : Bool)
  | extending
  deriving DecidableEq, Repr

/-- A remote stack action: the job of the controller, the job of the agent once it was started, and
the requests on their way. The last two fields count the extensions of the two deadlines. -/
structure RemoteAction where
  clock : ℕ
  request : ParsedStackActionRequest
  controller : JobThread
  agent : Option JobThread
  start : StartRequest
  extensions : List RemoteExtension
  controllerExtended : ℕ
  agentExtended : ℕ

namespace RemoteAction

/-- The job of a controller for an action on the agent `name`. -/
def new (now : ℕ) (id name : String) (body : StackActionRequest) : RemoteAction :=
  let request : ParsedStackActionRequest := { request := body, server := some (.remote, name) }
  { clock := now
    request := request
    controller := ⟨newStackJob now id (jobSpec false request), .running⟩
    agent := none
    start := .unsent
    extensions := []
    controllerExtended := 0
    agentExtended := 0 }

/-- The job that the agent makes of the request of `buildRemoteStackActionRequest`. -/
def agentSpec (request : ParsedStackActionRequest) : StackJobSpec :=
  jobSpec true { request := { request.request with scope := "" }, server := none }

/-- What happens to a remote action. -/
inductive Event
  | advance (now : ℕ)
  | controllerWorks
  | agentWorks
  | agentRestarts
  | send
  | arrive (id : String)
  | answer
  | startFails
  | unsupported
  | extendRequest
  | check (k : ℕ)
  | agentChecks (k : ℕ)
  | agentExtends (k : ℕ)
  | giveUp (k : ℕ)
  | lose (k : ℕ)
  | extendAnswer (k : ℕ)
  | extendDeadline (k : ℕ)
  deriving DecidableEq, Repr

/-- A step of a goroutine or of a timer, other than those that change how a job is extended. -/
def WorkStep (now : ℕ) (th th' : JobThread) : Prop :=
  (∃ e, ThreadStep now th e th') ∧ th'.job.extendRemote = th.job.extendRemote ∧
    th'.job.extendable = th.job.extendable

/-- `Extend` by the extension of a job. -/
def extendJob (now : ℕ) (th : JobThread) : JobThread :=
  { th with job := { th.job with deadline := (th.job.deadline.extend now stackJobExtension).1 } }

/-- The extension of a job is granted. -/
def grants (th : JobThread) : Bool := th.job.deadline.timer.isSome

/-- The steps of the start request. -/
inductive StartStep (s : RemoteAction) : Event → RemoteAction → Prop
  | send (hstart : s.start = .unsent) (hbody : s.controller.body = .running) :
      StartStep s .send { s with start := .sent s.clock }
  | arrive {since : ℕ} {id : String} (hstart : s.start = .sent since)
      (hlimit : s.clock ≤ since + stackJobStartTimeout) :
      StartStep s (.arrive id)
        { s with
          agent := some ⟨newStackJob s.clock id (agentSpec s.request), .running⟩
          start := .handled since }
  | answer {since : ℕ} (hstart : s.start = .handled since)
      (hlimit : s.clock ≤ since + stackJobStartTimeout) (hbody : s.controller.body = .running) :
      StartStep s .answer
        { s with
          controller := { s.controller with job := { s.controller.job with extendRemote := true } }
          start := .answered }
  | arriveLate {since : ℕ} {id : String} (hstart : s.start = .abandoned since)
      (hlimit : s.clock ≤ since + stackJobStartTimeout) :
      StartStep s (.arrive id)
        { s with
          agent := some ⟨newStackJob s.clock id (agentSpec s.request), .running⟩
          start := .failed }
  | abandon {since : ℕ} (hstart : s.start = .sent since) :
      StartStep s .startFails { s with start := .abandoned since }
  | startFails {since : ℕ} (hstart : s.start = .handled since) :
      StartStep s .startFails { s with start := .failed }
  | unsupported {since : ℕ} (hstart : s.start = .sent since)
      (hbody : s.controller.body = .running) :
      StartStep s .unsupported
        { s with
          controller := { s.controller with job := { s.controller.job with extendable := false } }
          start := .failed }

/-- The steps of extension requests. -/
inductive ExtendStep (s : RemoteAction) : Event → RemoteAction → Prop
  | request : ExtendStep s .extendRequest { s with extensions := s.extensions ++ [.checking] }
  | refuse {k : ℕ} {why : ExtendRefusal} (hext : s.extensions[k]? = some .checking)
      (hcheck : s.controller.job.extendCheck = .error why) :
      ExtendStep s (.check k) { s with extensions := s.extensions.eraseIdx k }
  | goOn {k : ℕ} {remote : Bool} (hext : s.extensions[k]? = some .checking)
      (hcheck : s.controller.job.extendCheck = .ok remote) :
      ExtendStep s (.check k)
        { s with
          extensions := s.extensions.set k (if remote then .forwarded true else .extending) }
  | agentRefuses {k : ℕ} {waiting : Bool} (hext : s.extensions[k]? = some (.forwarded waiting))
      (hcheck : ∀ a, s.agent = some a → ∃ why, a.job.extendCheck = .error why) :
      ExtendStep s (.agentChecks k)
        { s with
          extensions :=
            if waiting then s.extensions.set k (.answering false) else s.extensions.eraseIdx k }
  | agentChecks {k : ℕ} {waiting : Bool} {a : JobThread}
      (hext : s.extensions[k]? = some (.forwarded waiting)) (hagent : s.agent = some a)
      (hcheck : a.job.extendCheck = .ok false) :
      ExtendStep s (.agentChecks k) { s with extensions := s.extensions.set k (.atAgent waiting) }
  | agentExtends {k : ℕ} {waiting : Bool} {a : JobThread}
      (hext : s.extensions[k]? = some (.atAgent waiting)) (hagent : s.agent = some a) :
      ExtendStep s (.agentExtends k)
        { s with
          agent := some (extendJob s.clock a)
          extensions :=
            if waiting then s.extensions.set k (.answering (grants a)) else s.extensions.eraseIdx k
          agentExtended := s.agentExtended + (grants a).toNat }
  | giveUpForwarded {k : ℕ} (hext : s.extensions[k]? = some (.forwarded true)) :
      ExtendStep s (.giveUp k) { s with extensions := s.extensions.set k (.forwarded false) }
  | giveUpAtAgent {k : ℕ} (hext : s.extensions[k]? = some (.atAgent true)) :
      ExtendStep s (.giveUp k) { s with extensions := s.extensions.set k (.atAgent false) }
  | lose {k : ℕ} {ext : RemoteExtension} (hext : s.extensions[k]? = some ext)
      (hnet : ext ≠ .checking ∧ ext ≠ .extending) :
      ExtendStep s (.lose k) { s with extensions := s.extensions.eraseIdx k }
  | extendAnswer {k : ℕ} {ok : Bool} (hext : s.extensions[k]? = some (.answering ok)) :
      ExtendStep s (.extendAnswer k)
        { s with
          extensions := if ok then s.extensions.set k .extending else s.extensions.eraseIdx k }
  | extendDeadline {k : ℕ} (hext : s.extensions[k]? = some .extending) :
      ExtendStep s (.extendDeadline k)
        { s with
          controller := extendJob s.clock s.controller
          extensions := s.extensions.eraseIdx k
          controllerExtended := s.controllerExtended + (grants s.controller).toNat }

/-- The steps of a remote action, in any order. -/
inductive Step : RemoteAction → Event → RemoteAction → Prop
  | advance {s : RemoteAction} {now : ℕ} (hnow : s.clock ≤ now) :
      Step s (.advance now) { s with clock := now }
  | controllerWorks {s : RemoteAction} {th : JobThread} (h : WorkStep s.clock s.controller th) :
      Step s .controllerWorks { s with controller := th }
  | agentWorks {s : RemoteAction} {a th : JobThread} (hagent : s.agent = some a)
      (h : WorkStep s.clock a th) : Step s .agentWorks { s with agent := some th }
  | agentRestarts {s : RemoteAction} : Step s .agentRestarts { s with agent := none }
  | start {s t : RemoteAction} {e : Event} (h : StartStep s e t) : Step s e t
  | extend {s t : RemoteAction} {e : Event} (h : ExtendStep s e t) : Step s e t

/-- While both jobs are running, the agent's deadline is not later than the controller's. -/
def AgentFirst (s : RemoteAction) : Prop :=
  ∀ a, s.agent = some a → s.controller.job.status = .running → a.job.status = .running →
    a.job.deadline.deadline ≤ s.controller.job.deadline.deadline

/-- While the controller's job is running: the start request reaches the agent within the grace,
or as much later as the controller's deadline was extended before; and the agent grants an
extension only if, with it, its start and its extensions are still within the grace and the
extensions of the controller. -/
def WithinGrace (s : RemoteAction) : Event → Prop
  | .arrive _ => s.controller.job.status = .running →
      s.clock ≤ s.controller.job.startedAt + remoteStackActionGraceDuration +
        s.controllerExtended * stackJobExtension
  | .agentExtends _ => ∀ a, s.agent = some a → s.controller.job.status = .running →
      a.job.status = .running → grants a = true →
      a.job.startedAt + (s.agentExtended + 1) * stackJobExtension ≤
        s.controller.job.startedAt + remoteStackActionGraceDuration +
          s.controllerExtended * stackJobExtension
  | _ => True

/-! ### What a step changes -/

/-- Work does not move a deadline, nor does it revive a job. -/
theorem workStep_frame {now : ℕ} {th th' : JobThread} (h : WorkStep now th th') :
    th'.job.deadline.deadline = th.job.deadline.deadline ∧
      th'.job.startedAt = th.job.startedAt ∧
      (th'.job.status = .running → th.job.status = .running) := by
  obtain ⟨⟨e, hstep⟩, -⟩ := h
  cases hstep with
  | finish hbody =>
      rename_i err
      cases err with
      | none => exact ⟨rfl, rfl, fun h => StackJobStatus.noConfusion h⟩
      | some text => exact ⟨rfl, rfl, fun h => StackJobStatus.noConfusion h⟩
  | ran hbody | stopped hbody | expire htimer hdue | setRemoteExtender hbody
  | disableExtension hbody => exact ⟨rfl, rfl, id⟩

@[simp] theorem startedAt_extendJob (now : ℕ) (th : JobThread) :
    (extendJob now th).job.startedAt = th.job.startedAt := rfl

/-- It adds its time where it is granted. -/
theorem deadline_extendJob (now : ℕ) (th : JobThread) :
    (extendJob now th).job.deadline.deadline =
      th.job.deadline.deadline + (grants th).toNat * stackJobExtension := by
  rw [extendJob, grants, ExtendableDeadline.extend]
  rcases th.job.deadline.timer with _ | due <;> simp

/-- What the counts say about the deadlines. -/
structure DeadlinesInv (s : RemoteAction) : Prop where
  controller : s.controller.job.deadline.deadline = s.controller.job.startedAt +
    remoteStackActionTimeout s.request.request.action + s.controllerExtended * stackJobExtension
  agent : ∀ a, s.agent = some a → a.job.deadline.deadline = a.job.startedAt +
    stackActionBudget s.request.request.action + s.agentExtended * stackJobExtension
  unstarted : s.start.isOpen = true → s.agent = none ∧ s.agentExtended = 0

/-- An action starts within the invariant. -/
theorem deadlinesInv_new (now : ℕ) (id name : String) (body : StackActionRequest) :
    DeadlinesInv (new now id name body) where
  controller := by
    simp [new, newStackJob, jobSpec, requestTimeout, ExtendableDeadline.new]
  agent := by
    rintro a ⟨⟩
  unstarted := fun _ => ⟨rfl, rfl⟩

/-- The order of the deadlines in terms of starts and extensions. -/
theorem DeadlinesInv.deadline_le_iff {s : RemoteAction} (h : DeadlinesInv s) {a : JobThread}
    (ha : s.agent = some a) :
    a.job.deadline.deadline ≤ s.controller.job.deadline.deadline ↔
      a.job.startedAt + s.agentExtended * stackJobExtension ≤
        s.controller.job.startedAt + remoteStackActionGraceDuration +
          s.controllerExtended * stackJobExtension := by
  rw [h.agent a ha, h.controller, remoteStackActionTimeout]
  omega

/-- The start of the agent's job keeps the invariant. -/
theorem DeadlinesInv.startStep {s t : RemoteAction} {e : Event} (h : DeadlinesInv s)
    (hstep : StartStep s e t) : DeadlinesInv t := by
  cases hstep with
  | send hstart hbody => exact ⟨h.controller, h.agent, fun _ => h.unstarted (by rw [hstart]; rfl)⟩
  | @arrive since id hstart hlimit | @arriveLate since id hstart hlimit =>
      refine ⟨h.controller, fun a ha => ?_, fun hopen => Bool.noConfusion hopen⟩
      obtain ⟨-, hextended⟩ := h.unstarted (by rw [hstart]; rfl)
      obtain rfl := Option.some.inj ha
      simp [newStackJob, agentSpec, jobSpec, requestTimeout, ExtendableDeadline.new, hextended]
  | answer hstart hlimit hbody => exact ⟨h.controller, h.agent, fun hopen => Bool.noConfusion hopen⟩
  | abandon hstart => exact ⟨h.controller, h.agent, fun _ => h.unstarted (by rw [hstart]; rfl)⟩
  | startFails hstart => exact ⟨h.controller, h.agent, fun hopen => Bool.noConfusion hopen⟩
  | unsupported hstart hbody =>
      exact ⟨h.controller, h.agent, fun hopen => Bool.noConfusion hopen⟩

/-- So does an extension. -/
theorem DeadlinesInv.extendStep {s t : RemoteAction} {e : Event} (h : DeadlinesInv s)
    (hstep : ExtendStep s e t) : DeadlinesInv t := by
  cases hstep with
  | @agentExtends k waiting a hext hagent =>
      refine ⟨h.controller, fun a' ha' => ?_, fun hopen => ?_⟩
      · obtain rfl := Option.some.inj ha'
        rw [deadline_extendJob, h.agent a hagent, Nat.add_mul, ← Nat.add_assoc]
        rfl
      · exact absurd ((h.unstarted hopen).1.symm.trans hagent) (by simp)
  | extendDeadline hext =>
      refine ⟨?_, h.agent, h.unstarted⟩
      rw [deadline_extendJob, h.controller, Nat.add_mul, ← Nat.add_assoc]
      rfl
  | request | refuse hext hcheck | goOn hext hcheck | agentRefuses hext hcheck
  | agentChecks hext hagent hcheck | giveUpForwarded hext | giveUpAtAgent hext | lose hext hnet
  | extendAnswer hext => exact ⟨h.controller, h.agent, h.unstarted⟩

/-- So does every step. -/
theorem DeadlinesInv.step {s t : RemoteAction} {e : Event} (h : DeadlinesInv s)
    (hstep : Step s e t) : DeadlinesInv t := by
  cases hstep with
  | advance hnow => exact ⟨h.controller, h.agent, h.unstarted⟩
  | @controllerWorks th hwork =>
      obtain ⟨hdeadline, hstarted, -⟩ := workStep_frame hwork
      exact ⟨by rw [hdeadline, hstarted, h.controller], h.agent, h.unstarted⟩
  | @agentWorks a th hagent hwork =>
      obtain ⟨hdeadline, hstarted, -⟩ := workStep_frame hwork
      refine ⟨h.controller, fun a' ha' => ?_, fun hopen => ?_⟩
      · obtain rfl := Option.some.inj ha'
        rw [hdeadline, hstarted, h.agent a hagent]
      · exact absurd ((h.unstarted hopen).1.symm.trans hagent) (by simp)
  | agentRestarts =>
      refine ⟨h.controller, fun a ha => ?_, fun hopen => ⟨rfl, (h.unstarted hopen).2⟩⟩
      cases ha
  | start hstart => exact h.startStep hstart
  | extend hextend => exact h.extendStep hextend

/-! ### The order of the deadlines -/

/-- The order is kept by a step that moves the controller's deadline back at most, and starts or
extends nothing on the agent. -/
theorem AgentFirst.of_le {s t : RemoteAction} (h : AgentFirst s)
    (hdeadline : s.controller.job.deadline.deadline ≤ t.controller.job.deadline.deadline)
    (hrunning : t.controller.job.status = .running → s.controller.job.status = .running)
    (hagent : ∀ a', t.agent = some a' → a'.job.status = .running →
      ∃ a, s.agent = some a ∧ a.job.status = .running ∧
        a'.job.deadline.deadline = a.job.deadline.deadline) : AgentFirst t := by
  intro a' ha' hcontroller hjob
  obtain ⟨a, ha, hjob', heq⟩ := hagent a' ha' hjob
  exact heq ▸ (h a ha (hrunning hcontroller) hjob').trans hdeadline

/-- What one step does to the order of the deadlines. -/
theorem agentFirst_step_iff {s t : RemoteAction} {e : Event} (hinv : DeadlinesInv s)
    (h : AgentFirst s) (hstep : Step s e t) : AgentFirst t ↔ WithinGrace s e := by
  have hinv' := hinv.step hstep
  have hsame : ∀ a', s.agent = some a' → a'.job.status = .running →
      ∃ a, s.agent = some a ∧ a.job.status = .running ∧
        a'.job.deadline.deadline = a.job.deadline.deadline := fun a ha hrun => ⟨a, ha, hrun, rfl⟩
  cases hstep with
  | advance hnow => exact iff_of_true (h.of_le le_rfl id hsame) trivial
  | @controllerWorks th hwork =>
      obtain ⟨hdeadline, -, hrunning⟩ := workStep_frame hwork
      exact iff_of_true (h.of_le hdeadline.ge hrunning hsame) trivial
  | @agentWorks a th hagent hwork =>
      obtain ⟨hdeadline, -, hrunning⟩ := workStep_frame hwork
      refine iff_of_true (h.of_le le_rfl id fun a' ha' hjob => ?_) trivial
      obtain rfl := Option.some.inj ha'
      exact ⟨a, hagent, hrunning hjob, hdeadline⟩
  | agentRestarts => exact iff_of_true (fun a ha => nomatch ha) trivial
  | start hstart =>
      cases hstart with
      | @arrive since id hstart hlimit | @arriveLate since id hstart hlimit =>
          obtain ⟨-, hextended⟩ := hinv.unstarted (by rw [hstart]; rfl)
          have hle := hinv'.deadline_le_iff rfl
          simp only [hextended, Nat.zero_mul, Nat.add_zero] at hle
          constructor
          · exact fun hfirst hrunning => hle.mp (hfirst _ rfl hrunning rfl)
          · intro hgrace a ha hrunning hjob
            obtain rfl := Option.some.inj ha
            exact hle.mpr (hgrace hrunning)
      | send hstart hbody | answer hstart hlimit hbody | abandon hstart | startFails hstart
      | unsupported hstart hbody => exact iff_of_true (h.of_le le_rfl id hsame) trivial
  | extend hextend =>
      cases hextend with
      | @agentExtends k waiting a hext hagent =>
          have hle := hinv'.deadline_le_iff rfl
          constructor
          · intro hfirst a' ha' hrunning hjob hgrants
            obtain rfl := Option.some.inj (hagent.symm.trans ha')
            have hbefore := hle.mp (hfirst _ rfl hrunning hjob)
            simpa [hgrants] using hbefore
          · intro hgrace a' ha' hrunning hjob
            obtain rfl := Option.some.inj ha'
            cases hgrants : grants a with
            | true =>
                refine hle.mpr ?_
                simpa [hgrants] using hgrace a hagent hrunning hjob hgrants
            | false =>
                have hdeadline := h a hagent hrunning hjob
                rw [deadline_extendJob, hgrants]
                simpa using hdeadline
      | extendDeadline hext =>
          refine iff_of_true (h.of_le ?_ id hsame) trivial
          rw [deadline_extendJob]
          exact Nat.le_add_right ..
      | request | refuse hext hcheck | goOn hext hcheck | agentRefuses hext hcheck
      | agentChecks hext hagent hcheck | giveUpForwarded hext | giveUpAtAgent hext | lose hext hnet
      | extendAnswer hext => exact iff_of_true (h.of_le le_rfl id hsame) trivial

/-- **Deadlines over runs.** The runs of a remote action in which the agent's deadline is never
later than the controller's, while both jobs are running, are exactly the runs within the grace. -/
theorem run_deadlines_iff {now : ℕ} {id name : String} {body : StackActionRequest}
    {es : List Event} {q : RemoteAction} :
    Run (fun s e t => Step s e t ∧ AgentFirst t) (new now id name body) es q ↔
      Run (fun s e t => Step s e t ∧ WithinGrace s e) (new now id name body) es q := by
  refine Run.congr (fun s => DeadlinesInv s ∧ AgentFirst s)
    ⟨deadlinesInv_new now id name body, fun a ha => nomatch ha⟩ ?_ ?_
  · rintro s e t ⟨hinv, -⟩ ⟨hstep, hfirst⟩
    exact ⟨hinv.step hstep, hfirst⟩
  · rintro s e t ⟨hinv, hfirst⟩
    exact and_congr_right fun hstep => agentFirst_step_iff hinv hfirst hstep

/-! ### Runs in which the agent is later -/

/-- A request to restart a stack on an agent. -/
def restartRequest : StackActionRequest where
  scope := "remote:nas"
  name := "web"
  action := "restart"
  composeYml := ""
  env := []
  useEnv := false

/-- The job that the agent starts for the request. -/
def restartOnAgent (now : ℕ) : JobThread :=
  ⟨newStackJob now "7d79"
    (agentSpec { request := restartRequest, server := some (.remote, "nas") }), .running⟩

/-- **The agent can be later.** A start request that takes 45 seconds gives the agent a later
deadline, and so does an extension whose answer is lost. -/
theorem agent_can_be_later :
    (∃ es q, Run Step (new 1 "5d41" "nas" restartRequest) es q ∧
      (∀ e ∈ es, e ≠ .extendRequest) ∧ ¬ AgentFirst q) ∧
    ∃ es q, Run Step (new 1 "5d41" "nas" restartRequest) es q ∧
      (∀ now, .advance now ∉ es) ∧ ¬ AgentFirst q := by
  let s₀ := new 1 "5d41" "nas" restartRequest
  let s₁ : RemoteAction := { s₀ with start := .sent 1 }
  have hsend : Step s₀ .send s₁ := .start (.send rfl rfl)
  constructor
  · let s₂ : RemoteAction := { s₁ with clock := 1 + 45 * second }
    let s₃ : RemoteAction :=
      { s₂ with agent := some (restartOnAgent s₂.clock), start := .handled 1 }
    have hwait : Step s₁ (.advance (1 + 45 * second)) s₂ := .advance (by decide)
    have harrive : Step s₂ (.arrive "7d79") s₃ := .start (.arrive rfl (by decide))
    refine ⟨_, s₃, ((Run.single hsend).snoc hwait).snoc harrive, by decide, fun hfirst => ?_⟩
    exact absurd (hfirst _ rfl rfl rfl) (by decide)
  · let s₂ : RemoteAction := { s₁ with agent := some (restartOnAgent 1), start := .handled 1 }
    let s₃ : RemoteAction := { s₂ with
      controller := { s₂.controller with job := { s₂.controller.job with extendRemote := true } }
      start := .answered }
    let s₄ : RemoteAction := { s₃ with extensions := [.checking] }
    let s₅ : RemoteAction := { s₃ with extensions := [.forwarded true] }
    let s₆ : RemoteAction := { s₃ with extensions := [.atAgent true] }
    let s₇ : RemoteAction := { s₃ with
      agent := some (extendJob 1 (restartOnAgent 1)), extensions := [.answering true]
      agentExtended := 1 }
    let s₈ : RemoteAction := { s₇ with extensions := [] }
    have harrive : Step s₁ (.arrive "7d79") s₂ := .start (.arrive rfl (by decide))
    have hanswer : Step s₂ .answer s₃ := .start (.answer rfl (by decide) rfl)
    have hrequest : Step s₃ .extendRequest s₄ := .extend .request
    have hcheck : Step s₄ (.check 0) s₅ := .extend (@ExtendStep.goOn s₄ 0 true rfl rfl)
    have hagent : Step s₅ (.agentChecks 0) s₆ := .extend (.agentChecks rfl rfl rfl)
    have hextend : Step s₆ (.agentExtends 0) s₇ :=
      .extend (@ExtendStep.agentExtends s₆ 0 true (restartOnAgent 1) rfl rfl)
    have hlose : Step s₇ (.lose 0) s₈ := .extend (.lose rfl (by decide))
    refine ⟨_, s₈, (((((((Run.single hsend).snoc harrive).snoc hanswer).snoc hrequest).snoc
      hcheck).snoc hagent).snoc hextend).snoc hlose, by simp, fun hfirst => ?_⟩
    exact absurd (hfirst _ rfl rfl rfl) (by decide)

end RemoteAction

end Contiwatch
