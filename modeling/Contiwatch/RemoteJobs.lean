import Contiwatch.StackActions

/-!
# Remote Stack Jobs

`runRemoteStackJob` of `internal/server/stack_jobs.go` drives an action on an agent: it starts a job
there and polls it. An agent without the job API answers 404 or 405, and is then asked to run the
action at once. The controller is a function of what it observes; the agent, its restarts and the
network, which loses, delays and garbles messages, go on around it in any order.

An agent answers 404 or 405 to a start request only when it did not start a job.

## Main results

* `settle_foldl_next` — failed status calls do not matter to what the controller makes of its
  observations.
* `RemoteProtocol.Step` — the steps of the controller, the agent and the network.
-/

namespace Contiwatch

/-! ### Answers of the agent -/

/-- The text of a status in JSON. -/
def StackJobStatus.text : StackJobStatus → String
  | .running => "running"
  | .succeeded => "succeeded"
  | .failed => "failed"

/-- The fields of `stackJobView` that the controller reads. -/
structure RemoteView where
  id : String
  status : String
  error : String
  deriving DecidableEq, Repr

/-- What an agent sends of a job. -/
def StackJob.remoteView (j : StackJob) : RemoteView where
  id := (j.view 0).id
  status := (j.view 0).status.text
  error := (j.view 0).error

/-- An HTTP answer: its status code, the view in its body if it can be decoded as one, and
otherwise the error that the body or its decoding gives. -/
structure Answer where
  statusCode : ℕ
  view : Option RemoteView
  error : String
  deriving DecidableEq, Repr

/-- The status code is 2xx. -/
def Answer.isSuccess (a : Answer) : Bool := 200 ≤ a.statusCode && a.statusCode < 300

/-- `remoteStackResponseError`. -/
def remoteStackResponseError (a : Answer) : String :=
  if GoStrings.trimSpaceStr a.error ≠ "" then
    "agent returned status " ++ toString a.statusCode ++ ": " ++ a.error
  else "agent returned status " ++ toString a.statusCode

/-- `decodeStackJobView`. -/
def decodeStackJobView (a : Answer) : Except String RemoteView :=
  match a.view with
  | some view => .ok view
  | none => .error ("decode agent stack job: " ++ a.error)

/-- An agent without the job API. -/
def Answer.isUnsupported (a : Answer) : Bool := a.statusCode = 404 || a.statusCode = 405

/-- `startRemoteStackJob`, after the answer came in; `none` is `errRemoteStackJobsUnsupported`. -/
def startRemoteStackJob (a : Answer) : Except String (Option RemoteView) :=
  if a.isUnsupported then .ok none
  else if ¬ a.isSuccess then .error (remoteStackResponseError a)
  else (decodeStackJobView a).map some

/-- `getRemoteStackJob`, after the answer came in; `none` is `errStackJobNotFound`. -/
def getRemoteStackJob (a : Answer) : Except String (Option RemoteView) :=
  if a.statusCode = 404 then .ok none
  else if ¬ a.isSuccess then .error (remoteStackResponseError a)
  else (decodeStackJobView a).map some

/-! ### The controller -/

/-- The errors of `runRemoteStackJob`: the text of a call or of the agent's job, a job that the
agent does not know any more, or the end of the context with the last failed call. -/
inductive RemoteJobError
  | text (message : String)
  | notTracked
  | ended (cause : String) (lastErr : Option String)
  deriving DecidableEq, Repr

/-- The text of an error. -/
def RemoteJobError.message : RemoteJobError → String
  | .text message => message
  | .notTracked => "remote agent no longer tracks the stack job (agent restarted?)"
  | .ended cause none => cause
  | .ended cause (some lastErr) => cause ++ " (last agent error: " ++ lastErr ++ ")"

/-- Where `runRemoteStackJob` stands. -/
inductive RemotePhase
  | preparing
  | starting
  | syncing
  | polling (id : String) (lastErr : Option String)
  | returned (err : Option RemoteJobError)
  deriving DecidableEq, Repr

/-- What `runRemoteStackJob` observes: whether the request could be built, how its calls end, and
the end of its context between two status calls. -/
inductive Observation
  | prepared (err : Option String)
  | started (a : Answer)
  | startFailed (err : String)
  | synced (a : Answer)
  | syncFailed (err : String)
  | polled (a : Answer)
  | pollFailed (err : String)
  | ended (cause : String)
  deriving DecidableEq, Repr

/-- One round of the loop of `pollRemoteStackJob`, after a status call. -/
def pollRound (id : String) : Except String (Option RemoteView) → RemotePhase
  | .ok none => .returned (some .notTracked)
  | .error err => .polling id (some err)
  | .ok (some view) =>
      if view.status = "succeeded" then .returned none
      else if view.status = "failed" then
        .returned
          (some (.text (if view.error = "" then "remote stack action failed" else view.error)))
      else .polling id none

/-- `runRemoteStackJob`, one observation after the other. -/
def RemotePhase.next : RemotePhase → Observation → RemotePhase
  | .preparing, .prepared none => .starting
  | .preparing, .prepared (some err) => .returned (some (.text err))
  | .starting, .started a =>
      match startRemoteStackJob a with
      | .ok none => .syncing
      | .ok (some view) => .polling view.id none
      | .error err => .returned (some (.text err))
  | .starting, .startFailed err => .returned (some (.text err))
  | .syncing, .synced a =>
      if a.isSuccess then .returned none else .returned (some (.text (remoteStackResponseError a)))
  | .syncing, .syncFailed err => .returned (some (.text err))
  | .polling id _, .polled a => pollRound id (getRemoteStackJob a)
  | .polling id _, .pollFailed err => .polling id (some err)
  | .polling _ lastErr, .ended cause => .returned (some (.ended cause lastErr))
  | phase, _ => phase

/-- A status call that failed for another reason than an unknown job. -/
def Observation.isTransient : Observation → Bool
  | .polled a => !(getRemoteStackJob a).isOk
  | .pollFailed _ => true
  | _ => false

/-- The phase without the memory of failed calls. -/
def RemotePhase.settle : RemotePhase → RemotePhase
  | .polling id _ => .polling id none
  | .returned (some (.ended cause _)) => .returned (some (.ended cause none))
  | phase => phase

/-- A failed status call changes nothing but the memory of failed calls. -/
theorem settle_next_of_transient {o : Observation} (ho : o.isTransient = true)
    (phase : RemotePhase) : (phase.next o).settle = phase.settle := by
  cases o with
  | pollFailed err => cases phase <;> rfl
  | polled a =>
      cases phase with
      | polling id lastErr =>
          rw [Observation.isTransient] at ho
          rw [RemotePhase.next]
          rcases hget : getRemoteStackJob a with err | view
          · rfl
          · rw [hget] at ho
            cases ho
      | preparing | starting | syncing | returned => rfl
  | prepared | started | startFailed | synced | syncFailed | ended => cases ho

/-- The memory of failed calls does not matter to what comes next. -/
theorem settle_next_settle (phase : RemotePhase) (o : Observation) :
    (phase.settle.next o).settle = (phase.next o).settle := by
  cases phase with
  | polling id lastErr => cases o <;> rfl
  | preparing | starting | syncing => rfl
  | returned err =>
      rcases err with _ | (message | _ | ⟨cause, lastErr⟩) <;> cases o <;> rfl

/-- **Failed status calls do not decide.** What the controller makes of its observations is, but
for the memory of failed calls, what it makes of them without the failed status calls. -/
theorem settle_foldl_next (os : List Observation) (phase : RemotePhase) :
    (os.foldl RemotePhase.next phase).settle =
      ((os.filter fun o => !o.isTransient).foldl RemotePhase.next phase).settle := by
  have hsettle : ∀ (os : List Observation) (p q : RemotePhase), p.settle = q.settle →
      (os.foldl RemotePhase.next p).settle = (os.foldl RemotePhase.next q).settle := by
    intro os
    induction os with
    | nil => exact fun p q h => h
    | cons o os ih =>
        intro p q h
        refine ih _ _ ?_
        rw [← settle_next_settle p, h, settle_next_settle q]
  induction os generalizing phase with
  | nil => rfl
  | cons o os ih =>
      rw [List.filter_cons]
      split
      · exact ih (phase.next o)
      · rename_i ho
        rw [← ih phase]
        exact hsettle os _ _ (settle_next_of_transient (by simpa using ho) phase)

/-! ### The agent and the network -/

/-- The calls of the controller. -/
inductive CallKind
  | startJob
  | syncAction
  | status (id : String)
  deriving DecidableEq, Repr

/-- A request or an answer on its way; the number is that of the call it belongs to. -/
inductive Message
  | request (call : ℕ) (kind : CallKind)
  | answer (call : ℕ) (kind : CallKind) (a : Answer)
  deriving DecidableEq, Repr

/-- A controller job that drives an action on an agent. `waiting` is the number of the call that the
controller waits for; `syncRuns` are the synchronous actions that the agent is executing. -/
structure RemoteProtocol where
  job : StackJob
  phase : RemotePhase
  calls : ℕ
  waiting : Option ℕ
  net : List Message
  agentJobs : GoMap String StackJob
  drawn : List String
  syncRuns : List ℕ

namespace RemoteProtocol

/-- A new job. -/
def new (now : ℕ) (id : String) (spec : StackJobSpec) : RemoteProtocol where
  job := newStackJob now id spec
  phase := .preparing
  calls := 0
  waiting := none
  net := []
  agentJobs := ∅
  drawn := []
  syncRuns := []

/-- The controller makes a call. -/
def call (kind : CallKind) (s : RemoteProtocol) : RemoteProtocol :=
  { s with
    calls := s.calls + 1
    waiting := some s.calls
    net := s.net ++ [.request s.calls kind] }

/-- What happens to a remote job. -/
inductive Event
  /-- The controller observes something. -/
  | observe (o : Observation)
  /-- The ticker of the poll loop; the next status call is made. -/
  | tick
  | finish (now : ℕ)
  /-- The agent starts a job for the start request. -/
  | jobStarts (id : String)
  /-- The agent starts the action for the synchronous request. -/
  | syncStarts
  | syncEnds (err : Option String)
  /-- The agent answers a request without doing anything. -/
  | refuses (a : Answer)
  | statusAnswers (id : String)
  | jobEnds (id : String) (err : Option String)
  | jobRemoved (id : String)
  | otherJob (id : String)
  | restart
  | lose (m : Message)
  | garble (m : Message) (a : Answer)
  deriving DecidableEq, Repr

/-- Steps of the controller. -/
inductive ControllerStep (s : RemoteProtocol) : Event → RemoteProtocol → Prop
  | prepared (hphase : s.phase = .preparing) :
      ControllerStep s (.observe (.prepared none))
        (call .startJob { s with phase := s.phase.next (.prepared none) })
  | notPrepared {err : String} (hphase : s.phase = .preparing) :
      ControllerStep s (.observe (.prepared (some err)))
        { s with phase := s.phase.next (.prepared (some err)) }
  | started {n : ℕ} {a : Answer} {view : RemoteView} {before after : List Message}
      (hphase : s.phase = .starting) (hwaiting : s.waiting = some n)
      (hnet : s.net = before ++ .answer n .startJob a :: after)
      (hstart : startRemoteStackJob a = .ok (some view)) :
      ControllerStep s (.observe (.started a))
        { s with
          job := { s.job with extendRemote := true }
          phase := s.phase.next (.started a)
          waiting := none
          net := before ++ after }
  | unsupported {n : ℕ} {a : Answer} {before after : List Message}
      (hphase : s.phase = .starting) (hwaiting : s.waiting = some n)
      (hnet : s.net = before ++ .answer n .startJob a :: after)
      (hstart : startRemoteStackJob a = .ok none) :
      ControllerStep s (.observe (.started a))
        (call .syncAction { s with
          job := { s.job with extendable := false }
          phase := s.phase.next (.started a)
          net := before ++ after })
  | notStarted {n : ℕ} {a : Answer} {err : String} {before after : List Message}
      (hphase : s.phase = .starting) (hwaiting : s.waiting = some n)
      (hnet : s.net = before ++ .answer n .startJob a :: after)
      (hstart : startRemoteStackJob a = .error err) :
      ControllerStep s (.observe (.started a))
        { s with phase := s.phase.next (.started a), waiting := none, net := before ++ after }
  | startFailed {n : ℕ} {err : String} (hphase : s.phase = .starting)
      (hwaiting : s.waiting = some n) :
      ControllerStep s (.observe (.startFailed err))
        { s with phase := s.phase.next (.startFailed err), waiting := none }
  | synced {n : ℕ} {a : Answer} {before after : List Message} (hphase : s.phase = .syncing)
      (hwaiting : s.waiting = some n)
      (hnet : s.net = before ++ .answer n .syncAction a :: after) :
      ControllerStep s (.observe (.synced a))
        { s with phase := s.phase.next (.synced a), waiting := none, net := before ++ after }
  | syncFailed {n : ℕ} {err : String} (hphase : s.phase = .syncing)
      (hwaiting : s.waiting = some n) :
      ControllerStep s (.observe (.syncFailed err))
        { s with phase := s.phase.next (.syncFailed err), waiting := none }
  | tick {id : String} {lastErr : Option String} (hphase : s.phase = .polling id lastErr)
      (hwaiting : s.waiting = none) : ControllerStep s .tick (call (.status id) s)
  | polled {n : ℕ} {a : Answer} {id id' : String} {lastErr : Option String}
      {before after : List Message} (hphase : s.phase = .polling id lastErr)
      (hwaiting : s.waiting = some n)
      (hnet : s.net = before ++ .answer n (.status id') a :: after) :
      ControllerStep s (.observe (.polled a))
        { s with phase := s.phase.next (.polled a), waiting := none, net := before ++ after }
  | pollFailed {n : ℕ} {err id : String} {lastErr : Option String}
      (hphase : s.phase = .polling id lastErr) (hwaiting : s.waiting = some n) :
      ControllerStep s (.observe (.pollFailed err))
        { s with phase := s.phase.next (.pollFailed err), waiting := none }
  | ended {cause id : String} {lastErr : Option String} (hphase : s.phase = .polling id lastErr)
      (hwaiting : s.waiting = none) :
      ControllerStep s (.observe (.ended cause)) { s with phase := s.phase.next (.ended cause) }
  | finish {now : ℕ} {err : Option RemoteJobError} (hphase : s.phase = .returned err)
      (hrunning : s.job.status = .running) :
      ControllerStep s (.finish now)
        { s with job := s.job.finish now (err.map RemoteJobError.message) }

/-- Steps of the agent. -/
inductive AgentStep (s : RemoteProtocol) : Event → RemoteProtocol → Prop
  | jobStarts {n now : ℕ} {id : String} {spec : StackJobSpec} {before after : List Message}
      (hnet : s.net = before ++ .request n .startJob :: after) (hfresh : id ∉ s.drawn) :
      AgentStep s (.jobStarts id)
        { s with
          net := before ++ after ++
            [.answer n .startJob ⟨202, some (newStackJob now id spec).remoteView, ""⟩]
          agentJobs := s.agentJobs.insert id (newStackJob now id spec)
          drawn := id :: s.drawn }
  | syncStarts {n : ℕ} {before after : List Message}
      (hnet : s.net = before ++ .request n .syncAction :: after) :
      AgentStep s .syncStarts { s with net := before ++ after, syncRuns := n :: s.syncRuns }
  | syncEnds {n : ℕ} {err : Option String} {before after : List ℕ}
      (hruns : s.syncRuns = before ++ n :: after) :
      AgentStep s (.syncEnds err)
        { s with
          net := s.net ++ [.answer n .syncAction
            (match err with
              | none => ⟨200, none, ""⟩
              | some text => ⟨400, none, text⟩)]
          syncRuns := before ++ after }
  | refuses {n : ℕ} {kind : CallKind} {a : Answer} {before after : List Message}
      (hnet : s.net = before ++ .request n kind :: after) (hcode : a.isSuccess = false) :
      AgentStep s (.refuses a) { s with net := before ++ after ++ [.answer n kind a] }
  | statusAnswers {n : ℕ} {id : String} {j : StackJob} {before after : List Message}
      (hnet : s.net = before ++ .request n (.status id) :: after)
      (hjob : s.agentJobs.lookup id = some j) :
      AgentStep s (.statusAnswers id)
        { s with net := before ++ after ++ [.answer n (.status id) ⟨200, some j.remoteView, ""⟩] }
  | jobEnds {now : ℕ} {id : String} {err : Option String} {j : StackJob}
      (hjob : s.agentJobs.lookup id = some j) (hrunning : j.status = .running) :
      AgentStep s (.jobEnds id err) { s with agentJobs := s.agentJobs.insert id (j.finish now err) }
  | jobRemoved {id : String} :
      AgentStep s (.jobRemoved id) { s with agentJobs := s.agentJobs.erase id }
  | otherJob {now : ℕ} {id : String} {spec : StackJobSpec} (hfresh : id ∉ s.drawn) :
      AgentStep s (.otherJob id)
        { s with
          agentJobs := s.agentJobs.insert id (newStackJob now id spec), drawn := id :: s.drawn }
  | restart : AgentStep s .restart { s with agentJobs := ∅, syncRuns := [] }

/-- Steps of the network. A garbled answer has no view, and does not say that the agent has no job
API. -/
inductive NetStep (s : RemoteProtocol) : Event → RemoteProtocol → Prop
  | lose {m : Message} {before after : List Message} (hnet : s.net = before ++ m :: after) :
      NetStep s (.lose m) { s with net := before ++ after }
  | garble {n : ℕ} {kind : CallKind} {a a' : Answer} {before after : List Message}
      (hnet : s.net = before ++ .answer n kind a :: after) (hview : a'.view = none)
      (hcode : kind = .startJob → a'.isUnsupported = false) :
      NetStep s (.garble (.answer n kind a) a')
        { s with net := before ++ .answer n kind a' :: after }

/-- The steps of the controller, the agent and the network, in any order. -/
inductive Step : RemoteProtocol → Event → RemoteProtocol → Prop
  | controller {s t : RemoteProtocol} {e : Event} (h : ControllerStep s e t) : Step s e t
  | agent {s t : RemoteProtocol} {e : Event} (h : AgentStep s e t) : Step s e t
  | net {s t : RemoteProtocol} {e : Event} (h : NetStep s e t) : Step s e t

end RemoteProtocol

end Contiwatch
