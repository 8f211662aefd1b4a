import Contiwatch.Lib.GoMap
import Contiwatch.Lib.GoTime
import Contiwatch.Lib.Runs
import Contiwatch.Lib.Slots

/-!
# Stack Jobs

The job manager of `internal/server/stack_jobs.go`, which runs stack actions in the background. A
job is a record behind a pointer; the table of the manager maps IDs to pointers. The table is
changed under the lock of the manager, a job under its own lock, so that the goroutine of a job,
the requests that extend it and the timer of its deadline go on while a start request holds the
lock of the manager and walks over the table. Every section under a lock of a job is one step here.

An ID is 128 random bits; the ones drawn in a run are taken to be different.

## Main results

* `JobSystem.Step` — the steps of the manager, of the jobs and of the requests.
* `finishedJob_step` — no step changes a finished job.
-/

namespace Contiwatch

open GoTime

/-! ### Deadlines -/

/-- `stackJobExtension`. -/
def stackJobExtension : ℕ := 10 * minute

/-- `stackJobRetention`. -/
def stackJobRetention : ℕ := 15 * minute

/-- Why a context has ended: its timer fired (`errStackActionTimedOut`), or it was released. -/
inductive CancelCause
  | timedOut
  | canceled
  deriving DecidableEq, Repr

/-- `extendableDeadline`, with its context. `timer` is when the timer fires, while it is active;
`cause` is the cause of the context, once it has ended. -/
structure ExtendableDeadline where
  deadline : ℕ
  timer : Option ℕ
  cause : Option CancelCause
  deriving DecidableEq, Repr

namespace ExtendableDeadline

/-- `newExtendableDeadline`. -/
def new (now timeout : ℕ) : ExtendableDeadline where
  deadline := now + timeout
  timer := some (now + timeout)
  cause := none

/-- `Extend`: the new deadline, or `false` when the timer is not active any more. -/
def extend (now duration : ℕ) (d : ExtendableDeadline) : ExtendableDeadline × Bool :=
  match d.timer with
  | none => (d, false)
  | some _ =>
      ({ d with
          deadline := d.deadline + duration
          timer := some (max now (d.deadline + duration)) }, true)

/-- The timer fires. -/
def expire (d : ExtendableDeadline) : ExtendableDeadline :=
  { d with timer := none, cause := d.cause.or (some .timedOut) }

/-- `Stop`. -/
def stop (d : ExtendableDeadline) : ExtendableDeadline :=
  { d with timer := none, cause := d.cause.or (some .canceled) }

end ExtendableDeadline

/-! ### Jobs -/

/-- `stackJobStatus`. -/
inductive StackJobStatus
  | running
  | succeeded
  | failed
  deriving DecidableEq, Repr

/-- `stackJob`. `extendRemote` says whether the function of that name is set. -/
structure StackJob where
  id : String
  key : String
  name : String
  action : String
  scope : String
  startedAt : ℕ
  deadline : ExtendableDeadline
  status : StackJobStatus
  err : String
  finishedAt : ℕ
  extendable : Bool
  extendRemote : Bool
  deriving DecidableEq, Repr

/-- `stackJobSpec`. -/
structure StackJobSpec where
  key : String
  name : String
  action : String
  scope : String
  timeout : ℕ
  deriving DecidableEq, Repr

/-- The job that `start` creates. -/
def newStackJob (now : ℕ) (id : String) (spec : StackJobSpec) : StackJob where
  id := id
  key := spec.key
  name := spec.name
  action := spec.action
  scope := spec.scope
  startedAt := now
  deadline := .new now spec.timeout
  status := .running
  err := ""
  finishedAt := 0
  extendable := true
  extendRemote := false

/-- `running`. -/
def StackJob.isRunning (j : StackJob) : Bool := j.status = .running

/-- `finish`, with the text of the error if there is one. -/
def StackJob.finish (now : ℕ) (err : Option String) (j : StackJob) : StackJob :=
  match err with
  | some text => { j with finishedAt := now, status := .failed, err := text }
  | none => { j with finishedAt := now, status := .succeeded }

/-- The check of `pruneLocked`. -/
def StackJob.expired (now : ℕ) (j : StackJob) : Bool :=
  j.status ≠ .running && stackJobRetention < now - j.finishedAt

/-- `stackJobView`; the times are left unformatted. -/
structure StackJobView where
  id : String
  name : String
  action : String
  scope : String
  status : StackJobStatus
  error : String
  startedAt : ℕ
  finishedAt : Option ℕ
  deadline : ℕ
  remainingMs : ℕ
  extendMs : ℕ
  extendable : Bool
  deriving DecidableEq, Repr

/-- `view`. -/
def StackJob.view (now : ℕ) (j : StackJob) : StackJobView where
  id := j.id
  name := j.name
  action := j.action
  scope := j.scope
  status := j.status
  error := j.err
  startedAt := j.startedAt
  finishedAt := if j.isRunning then none else some j.finishedAt
  deadline := j.deadline.deadline
  remainingMs := if j.isRunning then (j.deadline.deadline - now) / 1000000 else 0
  extendMs := stackJobExtension / 1000000
  extendable := j.extendable && j.isRunning

/-- Why `extend` refuses: `errStackJobFinished`, `errStackJobNotExtendable`. -/
inductive ExtendRefusal
  | finished
  | notExtendable
  deriving DecidableEq, Repr

/-- The first part of `extend`, under the lock of the job: whether to go on, and then whether the
agent has to be asked first. -/
def StackJob.extendCheck (j : StackJob) : Except ExtendRefusal Bool :=
  if j.status ≠ .running then .error .finished
  else if ¬ j.extendable then .error .notExtendable
  else .ok j.extendRemote

/-! ### The manager and its threads -/

/-- Where the goroutine of a job stands: in `run`, before `deadline.Stop()`, before `finish`, or
at its end. -/
inductive JobBody
  | running
  | returned (err : Option String)
  | stopped (err : Option String)
  | done
  deriving DecidableEq, Repr

/-- A job and its goroutine. -/
structure JobThread where
  job : StackJob
  body : JobBody
  deriving DecidableEq, Repr

/-- Where the start request stands that holds the lock of the manager: in the loop of
`pruneLocked`, in the loop over existing jobs, or behind it. The lists are the IDs still to be
looked at. -/
inductive StartPhase
  | pruning (spec : StackJobSpec) (now : ℕ) (todo : List String)
  | checking (spec : StackJobSpec) (todo : List String)
  | naming (spec : StackJobSpec)
  deriving DecidableEq, Repr

/-- Where an extension request stands: before the check, in the call of the agent, or before the
extension of the deadline. -/
inductive ExtendPhase
  | checking
  | calling
  | extending
  deriving DecidableEq, Repr

/-- The manager, all jobs ever started, and the requests on their way. A job is known by its place
in `heap`. -/
structure JobSystem where
  clock : ℕ
  heap : List JobThread
  jobs : GoMap String ℕ
  starting : Option StartPhase
  extensions : List (ℕ × ExtendPhase)
  drawn : List String

/-- A new manager. -/
def JobSystem.new (start : ℕ) : JobSystem where
  clock := start
  heap := []
  jobs := ∅
  starting := none
  extensions := []
  drawn := []

namespace JobSystem

/-- `get`. -/
def get (s : JobSystem) (id : String) : Option StackJob :=
  (s.jobs.lookup id).bind fun r => (s.heap[r]?).map JobThread.job

/-- What happens to the manager and its jobs. -/
inductive Event
  | advance (now : ℕ)
  /-- A start request gets the lock. -/
  | lock (spec : StackJobSpec)
  | prune (id : String)
  | rescan
  | check (id : String)
  /-- A start request is refused: a job of its key is running. -/
  | conflict (id : String)
  | allClear
  /-- A start request is refused: `rand.Read` failed. -/
  | idFails
  | created (id : String)
  | ran (r : ℕ) (err : Option String)
  | stopped (r : ℕ)
  | finish (r : ℕ)
  | expire (r : ℕ)
  | setRemoteExtender (r : ℕ)
  | disableExtension (r : ℕ)
  | extendRequest (id : String)
  | extendCheck (k : ℕ)
  | extendAgent (k : ℕ) (ok : Bool)
  | extendDeadline (k : ℕ)
  deriving DecidableEq, Repr

/-- Steps of a start request, which holds the lock of the manager. -/
inductive StartStep (s : JobSystem) : Event → JobSystem → Prop
  | lock {spec : StackJobSpec} {order : List String} (hfree : s.starting = none)
      (hrange : GoMap.IsRange s.jobs order) :
      StartStep s (.lock spec) { s with starting := some (.pruning spec s.clock order) }
  | keep {spec : StackJobSpec} {now : ℕ} {id : String} {todo : List String} {j : StackJob}
      (hphase : s.starting = some (.pruning spec now (id :: todo))) (hjob : s.get id = some j)
      (hexpired : j.expired now = false) :
      StartStep s (.prune id) { s with starting := some (.pruning spec now todo) }
  | delete {spec : StackJobSpec} {now : ℕ} {id : String} {todo : List String} {j : StackJob}
      (hphase : s.starting = some (.pruning spec now (id :: todo))) (hjob : s.get id = some j)
      (hexpired : j.expired now = true) :
      StartStep s (.prune id)
        { s with jobs := s.jobs.erase id, starting := some (.pruning spec now todo) }
  | rescan {spec : StackJobSpec} {now : ℕ} {order : List String}
      (hphase : s.starting = some (.pruning spec now []))
      (hrange : GoMap.IsRange s.jobs order) :
      StartStep s .rescan { s with starting := some (.checking spec order) }
  | check {spec : StackJobSpec} {id : String} {todo : List String} {j : StackJob}
      (hphase : s.starting = some (.checking spec (id :: todo))) (hjob : s.get id = some j)
      (hother : ¬ (j.key = spec.key ∧ j.isRunning = true)) :
      StartStep s (.check id) { s with starting := some (.checking spec todo) }
  | conflict {spec : StackJobSpec} {id : String} {todo : List String} {j : StackJob}
      (hphase : s.starting = some (.checking spec (id :: todo))) (hjob : s.get id = some j)
      (hsame : j.key = spec.key ∧ j.isRunning = true) :
      StartStep s (.conflict id) { s with starting := none }
  | allClear {spec : StackJobSpec} (hphase : s.starting = some (.checking spec [])) :
      StartStep s .allClear { s with starting := some (.naming spec) }
  | idFails {spec : StackJobSpec} (hphase : s.starting = some (.naming spec)) :
      StartStep s .idFails { s with starting := none }
  | created {spec : StackJobSpec} {id : String} (hphase : s.starting = some (.naming spec))
      (hfresh : id ∉ s.drawn) :
      StartStep s (.created id)
        { s with
          heap := s.heap ++ [⟨newStackJob s.clock id spec, .running⟩]
          jobs := s.jobs.insert id s.heap.length
          starting := none
          drawn := id :: s.drawn }

/-- Steps of the goroutine of a job and of the timer of its deadline. -/
inductive ThreadStep (now : ℕ) : JobThread → (ℕ → Event) → JobThread → Prop
  | ran {th : JobThread} {err : Option String} (hbody : th.body = .running) :
      ThreadStep now th (fun r => .ran r err) { th with body := .returned err }
  | stopped {th : JobThread} {err : Option String} (hbody : th.body = .returned err) :
      ThreadStep now th .stopped
        { job := { th.job with deadline := th.job.deadline.stop }, body := .stopped err }
  | finish {th : JobThread} {err : Option String} (hbody : th.body = .stopped err) :
      ThreadStep now th .finish { job := th.job.finish now err, body := .done }
  | expire {th : JobThread} {due : ℕ} (htimer : th.job.deadline.timer = some due)
      (hdue : due ≤ now) :
      ThreadStep now th .expire
        { th with job := { th.job with deadline := th.job.deadline.expire } }
  | setRemoteExtender {th : JobThread} (hbody : th.body = .running) :
      ThreadStep now th .setRemoteExtender { th with job := { th.job with extendRemote := true } }
  | disableExtension {th : JobThread} (hbody : th.body = .running) :
      ThreadStep now th .disableExtension { th with job := { th.job with extendable := false } }

/-- Steps of extension requests: the look-up under the lock of the manager, and the three parts of
`extend`. -/
inductive ExtendStep (s : JobSystem) : Event → JobSystem → Prop
  | request {id : String} {r : ℕ} (hfree : s.starting = none) (hget : s.jobs.lookup id = some r) :
      ExtendStep s (.extendRequest id) { s with extensions := s.extensions ++ [(r, .checking)] }
  | refuse {k r : ℕ} {th : JobThread} {why : ExtendRefusal}
      (hext : s.extensions[k]? = some (r, .checking)) (hthread : s.heap[r]? = some th)
      (hcheck : th.job.extendCheck = .error why) :
      ExtendStep s (.extendCheck k) { s with extensions := s.extensions.eraseIdx k }
  | goOn {k r : ℕ} {th : JobThread} {remote : Bool}
      (hext : s.extensions[k]? = some (r, .checking)) (hthread : s.heap[r]? = some th)
      (hcheck : th.job.extendCheck = .ok remote) :
      ExtendStep s (.extendCheck k)
        { s with
          extensions := s.extensions.set k (r, if remote then .calling else .extending) }
  | agent {k r : ℕ} (hext : s.extensions[k]? = some (r, .calling)) :
      ExtendStep s (.extendAgent k true) { s with extensions := s.extensions.set k (r, .extending) }
  | agentFails {k r : ℕ} (hext : s.extensions[k]? = some (r, .calling)) :
      ExtendStep s (.extendAgent k false) { s with extensions := s.extensions.eraseIdx k }
  | extend {k r : ℕ} {th : JobThread} (hext : s.extensions[k]? = some (r, .extending))
      (hthread : s.heap[r]? = some th) :
      ExtendStep s (.extendDeadline k)
        { s with
          heap := s.heap.set r { th with
            job := { th.job with
              deadline := (th.job.deadline.extend s.clock stackJobExtension).1 } }
          extensions := s.extensions.eraseIdx k }

/-- The steps of the manager, of the jobs and of the requests, in any order. -/
inductive Step : JobSystem → Event → JobSystem → Prop
  | advance {s : JobSystem} {now : ℕ} (hnow : s.clock ≤ now) :
      Step s (.advance now) { s with clock := now }
  | start {s t : JobSystem} {e : Event} (h : StartStep s e t) : Step s e t
  | thread {s : JobSystem} {r : ℕ} {th th' : JobThread} {e : ℕ → Event}
      (hthread : s.heap[r]? = some th) (h : ThreadStep s.clock th e th') :
      Step s (e r) { s with heap := s.heap.set r th' }
  | extend {s t : JobSystem} {e : Event} (h : ExtendStep s e t) : Step s e t

end JobSystem

end Contiwatch
