import Contiwatch.StackJobs

/-!
# Extending a Deadline

The timer of an `extendableDeadline` fires on its own: from then on it can not be stopped, and its
callback ends the context some time later. `Extend` and `Stop` hold the lock of the deadline, so
each of them is one step here, but the firing and the callback may come between any two steps, and
the clock is read twice when the timer is armed again.

A job reports an extension after `Extend` has moved its deadline. The action of a remote job runs
on the agent, under a deadline of its own, which is extended first once the job knows how.

## Main results

* `TimedDeadline.run_says` — the deadline is the sum of what was granted, the timer is not before
  it, and nothing is granted after the timer has fired or was stopped.
* `extension_reported` — an extension that is reported is one of the running action, in the runs
  that do not ask too early or too late.
* `early_extension` — a remote action that is extended before the agent has answered.
-/

namespace Contiwatch

/-! ### The deadline and its timer -/

/-- A timer: active, or fired with its callback still to run, or neither. -/
inductive Timer
  | armed (due : ℕ)
  | fired
  | off
  deriving DecidableEq, Repr

/-- `timer.Stop()`: a timer that has fired goes on to its callback. -/
def Timer.stop : Timer → Timer
  | .armed _ => .off
  | .fired => .fired
  | .off => .off

/-- `timer.Stop()` returns whether the timer was active. -/
def Timer.isArmed : Timer → Bool
  | .armed _ => true
  | .fired | .off => false

/-- `extendableDeadline` with its timer, its context and the clock. -/
structure TimedDeadline where
  clock : ℕ
  deadline : ℕ
  timer : Timer
  cause : Option CancelCause
  deriving DecidableEq, Repr

namespace TimedDeadline

/-- `newExtendableDeadline`, which reads the clock for the deadline and again for the timer. -/
def new (start armed timeout : ℕ) : TimedDeadline where
  clock := armed
  deadline := start + timeout
  timer := .armed (armed + timeout)
  cause := none

/-- The clock, the calls of `Extend` with their results, the timer and its callback, and `Stop`. -/
inductive Event
  | advance (now : ℕ)
  | extend (duration next : ℕ) (ok : Bool)
  | fire
  | callback
  | stop
  deriving DecidableEq, Repr

/-- The steps of a deadline. `Extend` reads the clock for `time.Until` and again in `Reset`. -/
inductive Step (d : TimedDeadline) : Event → TimedDeadline → Prop
  | advance {now : ℕ} (hnow : d.clock ≤ now) : Step d (.advance now) { d with clock := now }
  | extend {due duration read reset : ℕ} (htimer : d.timer = .armed due) (hread : d.clock ≤ read)
      (hreset : read ≤ reset) :
      Step d (.extend duration (d.deadline + duration) true)
        { d with
          clock := reset
          deadline := d.deadline + duration
          timer := .armed (reset + (d.deadline + duration - read)) }
  | refuse {duration : ℕ} (htimer : d.timer.isArmed = false) :
      Step d (.extend duration d.deadline false) d
  | fire {due : ℕ} (htimer : d.timer = .armed due) (hdue : due ≤ d.clock) :
      Step d .fire { d with timer := .fired }
  | callback (htimer : d.timer = .fired) :
      Step d .callback { d with timer := .off, cause := d.cause.or (some .timedOut) }
  | stop : Step d .stop { d with timer := d.timer.stop, cause := d.cause.or (some .canceled) }

/-- The extensions that were granted, in all. -/
def granted (es : List Event) : ℕ :=
  (es.map fun e => match e with
    | .extend duration _ true => duration
    | _ => 0).sum

variable {start armed timeout : ℕ} {d d' : TimedDeadline} {e : Event} {es : List Event}

/-- What is granted adds up. -/
theorem granted_append (es : List Event) (e : Event) :
    granted (es ++ [e]) = granted es + granted [e] := by
  rw [granted, List.map_append, List.sum_append, granted, granted]

/-- What a run leaves: the deadline is the sum of what was granted, the timer is not before it, and
the context has ended for it only after it has passed. -/
structure Says (initial : ℕ) (es : List Event) (d : TimedDeadline) : Prop where
  deadline : d.deadline = initial + granted es
  armed : ∀ due, d.timer = .armed due → d.deadline ≤ due ∧ d.cause = none
  fired : d.timer = .fired → d.deadline ≤ d.clock
  timedOut : d.cause = some .timedOut → d.deadline ≤ d.clock
  stopped : .stop ∈ es → d.timer.isArmed = false
  ended : .fire ∈ es → d.timer.isArmed = false

/-- An armed timer is armed. -/
theorem isArmed_of_armed {timer : Timer} {due : ℕ} (h : timer = .armed due) :
    timer.isArmed = true := by
  rw [h]
  rfl

/-- A stopped one is not. -/
theorem isArmed_stop (timer : Timer) : timer.stop.isArmed = false := by
  cases timer <;> rfl

/-- One step keeps what a run says. -/
theorem Says.step {initial : ℕ} (h : Says initial es d) (hstep : Step d e d') :
    Says initial (es ++ [e]) d' := by
  have hsame : granted [e] = 0 → d.deadline = initial + granted (es ++ [e]) := fun hzero => by
    rw [granted_append, hzero, Nat.add_zero, h.deadline]
  have hbefore : ∀ f, f ≠ e → f ∈ es ++ [e] → f ∈ es := fun f hne hmem =>
    (List.mem_append.mp hmem).resolve_right fun hlast => hne (List.mem_singleton.mp hlast)
  cases hstep with
  | advance hnow =>
      exact ⟨hsame rfl, h.armed, fun hf => (h.fired hf).trans hnow,
        fun ht => (h.timedOut ht).trans hnow, fun hs => h.stopped (hbefore .stop nofun hs),
        fun hf => h.ended (hbefore .fire nofun hf)⟩
  | @extend due duration read reset htimer hread hreset =>
      have harmed := isArmed_of_armed htimer
      have hcause := (h.armed due htimer).2
      refine ⟨?_, ?_, nofun, fun ht => ?_, fun hs => ?_, fun hf => ?_⟩
      · rw [granted_append, ← Nat.add_assoc, ← h.deadline]
        rfl
      · intro due' hdue'
        obtain rfl := Timer.armed.inj hdue'
        -- the clock has gone on since it was read for `time.Until`
        have hlater := Nat.add_le_add_right hreset (d.deadline + duration - read)
        exact ⟨(Nat.sub_le_iff_le_add'.mp le_rfl).trans hlater, hcause⟩
      · exact absurd (hcause.symm.trans ht) nofun
      · exact absurd (harmed.symm.trans (h.stopped (hbefore .stop nofun hs))) nofun
      · exact absurd (harmed.symm.trans (h.ended (hbefore .fire nofun hf))) nofun
  | refuse htimer =>
      exact ⟨hsame rfl, h.armed, h.fired, h.timedOut, fun _ => htimer, fun _ => htimer⟩
  | @fire due htimer hdue =>
      exact ⟨hsame rfl, nofun, fun _ => (h.armed due htimer).1.trans hdue, h.timedOut,
        fun _ => rfl, fun _ => rfl⟩
  | callback htimer =>
      exact ⟨hsame rfl, nofun, nofun, fun _ => h.fired htimer, fun _ => rfl, fun _ => rfl⟩
  | stop =>
      have hoff := isArmed_stop d.timer
      refine ⟨hsame rfl, fun due hdue => ?_, fun hf => ?_, fun ht => ?_, fun _ => hoff,
        fun _ => hoff⟩
      · exact absurd (hoff.symm.trans (isArmed_of_armed hdue)) nofun
      · refine h.fired ?_
        cases htimer : d.timer <;> simp only [htimer, Timer.stop, reduceCtorEq] at hf
        rfl
      · refine h.timedOut ?_
        cases hcause : d.cause <;> simp only [hcause, Option.none_or, Option.some_or] at ht
        · cases ht
        · exact ht

theorem says_new (start armed timeout : ℕ) (h : start ≤ armed) :
    Says (start + timeout) [] (new start armed timeout) where
  deadline := rfl
  armed due hdue := by
    obtain rfl := Timer.armed.inj hdue
    exact ⟨Nat.add_le_add_right h timeout, rfl⟩
  fired := nofun
  timedOut := nofun
  stopped := nofun
  ended := nofun

/-- **What a run of a deadline leaves.** -/
theorem run_says (h : start ≤ armed) (hrun : Run Step (new start armed timeout) es d) :
    Says (start + timeout) es d :=
  hrun.invariant (Says (start + timeout)) (says_new start armed timeout h) fun hd hstep =>
    hd.step hstep

/-- After the timer has fired or was stopped, `Extend` reports so and changes nothing. -/
theorem extend_of_not_armed {duration next : ℕ} {ok : Bool} (h : d.timer.isArmed = false)
    (hstep : Step d (.extend duration next ok) d') : ok = false ∧ next = d.deadline ∧ d' = d := by
  cases hstep with
  | extend htimer hread hreset => exact absurd ((isArmed_of_armed htimer).symm.trans h) nofun
  | refuse htimer => exact ⟨rfl, rfl, rfl⟩

/-- A context that has ended has no timer left that could be stopped. -/
theorem Says.not_armed {initial : ℕ} (h : Says initial es d)
    (hend : d.cause ≠ none ∨ .fire ∈ es ∨ .stop ∈ es) : d.timer.isArmed = false := by
  rcases hend with hcause | hfire | hstop
  · rcases htimer : d.timer with due | _ | _
    · exact absurd (h.armed due htimer).2 hcause
    · rfl
    · rfl
  · exact h.ended hfire
  · exact h.stopped hstop

end TimedDeadline

/-! ### Extension requests -/

/-- A job where its action runs: its deadline, and where its goroutine stands. -/
structure JobSide where
  deadline : TimedDeadline
  body : JobBody
  deriving DecidableEq, Repr

/-- Where a request to extend the job stands: before the check of `extend`, on its way to the
agent, on its way back, or before the extension of the deadline. -/
inductive Extension
  | checking
  | calling
  | answering (ok : Bool)
  | extending
  deriving DecidableEq, Repr

/-- A job with its extension requests. `agent` is the job of the agent, once it was started there.
-/
structure ExtendedAction where
  own : JobSide
  status : StackJobStatus
  extendable : Bool
  extendRemote : Bool
  agent : Option JobSide
  requests : List Extension
  deriving DecidableEq, Repr

namespace ExtendedAction

/-- The job that `start` creates. -/
def new (start armed timeout : ℕ) : ExtendedAction where
  own := { deadline := .new start armed timeout, body := .running }
  status := .running
  extendable := true
  extendRemote := false
  agent := none
  requests := []

/-- What happens to a job: to its deadline and that of the agent's job, to the two goroutines, and
to the requests, which come to an end with a report. -/
inductive Event
  | own (e : TimedDeadline.Event)
  | agent (e : TimedDeadline.Event)
  | ran (err : Option String)
  | stopped
  | finish
  | agentStarts (start armed timeout : ℕ)
  | agentRan (err : Option String)
  | agentStopped
  | setRemoteExtender
  | disableExtension
  | request
  | check
  | agentExtends (ok : Bool)
  | agentRefuses
  | answer
  | lose
  | report (ok : Bool)
  deriving DecidableEq, Repr

/-- The clock goes on, or the timer fires, or its callback runs. -/
def OfTimer (e : TimedDeadline.Event) : Prop :=
  (∃ now, e = .advance now) ∨ e = .fire ∨ e = .callback

/-- The first part of `extend`, under the lock of the job. -/
def passesCheck (s : ExtendedAction) : Bool := s.status = .running && s.extendable

/-- The steps of one request. `remote` says that the action runs on an agent. -/
inductive RequestStep (s : ExtendedAction) : Extension → Event → ExtendedAction →
    List Extension → Prop
  | refuse (hcheck : s.passesCheck = false) : RequestStep s .checking .check s []
  | goOn (hcheck : s.passesCheck = true) :
      RequestStep s .checking .check s [if s.extendRemote then .calling else .extending]
  | agentExtends {a : JobSide} {next : ℕ} {ok : Bool} {d : TimedDeadline}
      (hagent : s.agent = some a)
      (hextend : TimedDeadline.Step a.deadline (.extend stackJobExtension next ok) d) :
      RequestStep s .calling (.agentExtends ok) { s with agent := some { a with deadline := d } }
        [.answering ok]
  | agentRefuses : RequestStep s .calling .agentRefuses s [.answering false]
  | lose {ok : Bool} : RequestStep s (.answering ok) .lose s []
  | giveUp : RequestStep s .calling .lose s []
  | answer {ok : Bool} :
      RequestStep s (.answering ok) .answer s (if ok then [.extending] else [])
  | report {next : ℕ} {ok : Bool} {d : TimedDeadline}
      (hextend : TimedDeadline.Step s.own.deadline (.extend stackJobExtension next ok) d) :
      RequestStep s .extending (.report ok) { s with own := { s.own with deadline := d } } []

/-- The steps of a job and of its requests, in any order. -/
inductive Step (remote : Bool) : ExtendedAction → Event → ExtendedAction → Prop
  | own {s : ExtendedAction} {e : TimedDeadline.Event} {d : TimedDeadline} (he : OfTimer e)
      (h : TimedDeadline.Step s.own.deadline e d) :
      Step remote s (.own e) { s with own := { s.own with deadline := d } }
  | agent {s : ExtendedAction} {a : JobSide} {e : TimedDeadline.Event} {d : TimedDeadline}
      (he : OfTimer e) (hagent : s.agent = some a) (h : TimedDeadline.Step a.deadline e d) :
      Step remote s (.agent e) { s with agent := some { a with deadline := d } }
  | ran {s : ExtendedAction} {err : Option String} (hbody : s.own.body = .running) :
      Step remote s (.ran err) { s with own := { s.own with body := .returned err } }
  | stopped {s : ExtendedAction} {err : Option String} {d : TimedDeadline}
      (hbody : s.own.body = .returned err) (h : TimedDeadline.Step s.own.deadline .stop d) :
      Step remote s .stopped { s with own := { deadline := d, body := .stopped err } }
  | finish {s : ExtendedAction} {err : Option String} (hbody : s.own.body = .stopped err) :
      Step remote s .finish
        { s with
          own := { s.own with body := .done }
          status := if err = none then .succeeded else .failed }
  | agentStarts {s : ExtendedAction} {start armed timeout : ℕ} (hremote : remote = true)
      (hagent : s.agent = none) (harmed : start ≤ armed) :
      Step remote s (.agentStarts start armed timeout)
        { s with agent := some { deadline := .new start armed timeout, body := .running } }
  | agentRan {s : ExtendedAction} {a : JobSide} {err : Option String} (hagent : s.agent = some a)
      (hbody : a.body = .running) :
      Step remote s (.agentRan err) { s with agent := some { a with body := .returned err } }
  | agentStopped {s : ExtendedAction} {a : JobSide} {err : Option String} {d : TimedDeadline}
      (hagent : s.agent = some a) (hbody : a.body = .returned err)
      (h : TimedDeadline.Step a.deadline .stop d) :
      Step remote s .agentStopped
        { s with agent := some { deadline := d, body := .stopped err } }
  | setRemoteExtender {s : ExtendedAction} (hremote : remote = true)
      (hbody : s.own.body = .running) :
      Step remote s .setRemoteExtender { s with extendRemote := true }
  | disableExtension {s : ExtendedAction} (hremote : remote = true)
      (hbody : s.own.body = .running) :
      Step remote s .disableExtension { s with extendable := false }
  | request {s : ExtendedAction} :
      Step remote s .request { s with requests := s.requests ++ [.checking] }
  | ofRequest {s t : ExtendedAction} {before after left : List Extension} {x : Extension}
      {e : Event} (hrequests : s.requests = before ++ x :: after) (h : RequestStep s x e t left) :
      Step remote s e { t with requests := before ++ left ++ after }

/-- The request is not checked before the job knows how to extend an action that runs on an agent,
and no deadline is extended between the return of an action and the stop of its timer. -/
def Timely (remote : Bool) (s : ExtendedAction) : Event → Prop
  | .check => remote = true → s.passesCheck = true → s.extendRemote = true
  | .agentExtends _ => ∀ a ∈ s.agent, a.deadline.timer.isArmed = true → a.body = .running
  | .report _ => s.own.deadline.timer.isArmed = true → s.own.body = .running
  | _ => True

/-- The deadline has moved, its context has not ended, and the timer is not before it. -/
def Moved (d d' : TimedDeadline) : Prop :=
  d'.deadline = d.deadline + stackJobExtension ∧ d'.cause = none ∧
    ∃ due, d'.timer = .armed due ∧ d'.deadline ≤ due

/-- The action was running, and it got the additional time. -/
def GotTime (s : ExtendedAction) (e : Event) (t : ExtendedAction) : Prop :=
  match e with
  | .report true => s.own.body = .running ∧ Moved s.own.deadline t.own.deadline
  | .agentExtends true => ∃ a b, s.agent = some a ∧ t.agent = some b ∧ a.body = .running ∧
      Moved a.deadline b.deadline
  | _ => True

/-- The extensions that were reported as successful. -/
def reports (es : List Event) : ℕ := es.count (.report true)

/-- The extensions that the agent has granted. -/
def grants (es : List Event) : ℕ := es.count (.agentExtends true)

/-- The agent has granted the extension, and the report is still to come. -/
def Extension.pending : Extension → Bool
  | .checking | .calling | .answering false => false
  | .answering true | .extending => true

variable {remote : Bool} {s t : ExtendedAction} {e : Event} {es : List Event}

/-- The deadline of a side has come from its own steps. -/
def Regular (d : TimedDeadline) : Prop := ∃ initial fs, TimedDeadline.Says initial fs d

/-- A regular deadline stays regular. -/
theorem Regular.step {d d' : TimedDeadline} {e : TimedDeadline.Event} (h : Regular d)
    (hstep : TimedDeadline.Step d e d') : Regular d' := by
  obtain ⟨initial, fs, hknown⟩ := h
  exact ⟨initial, fs ++ [e], hknown.step hstep⟩

/-- A new one is. -/
theorem regular_new {start armed timeout : ℕ} (h : start ≤ armed) :
    Regular (.new start armed timeout) :=
  ⟨_, _, TimedDeadline.says_new start armed timeout h⟩

/-- An extension that is granted moves the deadline. -/
theorem moved_of_extend {d d' : TimedDeadline} {next : ℕ} (h : Regular d)
    (hstep : TimedDeadline.Step d (.extend stackJobExtension next true) d') :
    d.timer.isArmed = true ∧ Moved d d' := by
  obtain ⟨initial, fs, hknown⟩ := h.step hstep
  cases hstep with
  | extend htimer hread hreset =>
      obtain ⟨hdue, hcause⟩ := hknown.armed _ rfl
      exact ⟨TimedDeadline.isArmed_of_armed htimer, rfl, hcause, _, rfl, hdue⟩

/-- What holds in every state: the deadlines are regular, and for an action on an agent every
extension that was or will be reported was granted there. -/
structure Inv (remote : Bool) (es : List Event) (s : ExtendedAction) : Prop where
  own : Regular s.own.deadline
  agent : ∀ a ∈ s.agent, Regular a.deadline
  granted : remote = true → reports es + s.requests.countP Extension.pending ≤ grants es

/-- An action starts within the invariant. -/
theorem inv_new {start armed timeout : ℕ} (h : start ≤ armed) :
    Inv remote [] (new start armed timeout) where
  own := regular_new h
  agent := nofun
  granted _ := le_rfl

/-- Reports add up. -/
theorem reports_append : reports (es ++ [e]) = reports es + reports [e] := List.count_append

/-- Grants add up. -/
theorem grants_append : grants (es ++ [e]) = grants es + grants [e] := List.count_append

/-- A step that leaves the requests alone reports nothing. -/
theorem Inv.quiet (h : Inv remote es s) (hreports : reports [e] = 0) (hown : Regular t.own.deadline)
    (hagent : ∀ a ∈ t.agent, Regular a.deadline)
    (hpending : t.requests.countP Extension.pending = s.requests.countP Extension.pending) :
    Inv remote (es ++ [e]) t where
  own := hown
  agent := hagent
  granted hremote := by
    rw [reports_append, grants_append, hreports, Nat.add_zero, hpending]
    exact (h.granted hremote).trans (Nat.le_add_right _ _)

/-- A request is reported only after the agent has granted it. -/
theorem RequestStep.count {x : Extension} {left : List Extension} (h : RequestStep s x e t left)
    (htimely : Timely true s e) :
    reports [e] + left.countP Extension.pending ≤
      [x].countP Extension.pending + grants [e] := by
  cases h with
  | refuse hcheck => exact Nat.le_refl 0
  | goOn hcheck =>
      rw [if_pos (htimely rfl hcheck)]
      exact Nat.le_refl 0
  | @agentExtends a next ok d hagent hextend => cases ok <;> decide
  | agentRefuses => exact Nat.le_refl 0
  | lose => exact Nat.zero_le _
  | giveUp => exact Nat.le_refl 0
  | @answer ok => cases ok <;> decide
  | @report next ok d hextend => cases ok <;> decide

/-- What a step of a request does to the deadlines. -/
theorem RequestStep.deadlines {x : Extension} {left : List Extension}
    (h : RequestStep s x e t left) (hinv : Inv remote es s) (htimely : Timely remote s e) :
    Regular t.own.deadline ∧ (∀ a ∈ t.agent, Regular a.deadline) ∧ GotTime s e t := by
  cases h with
  | @agentExtends a next ok d hagent hextend =>
      have ha : Regular a.deadline := hinv.agent a hagent
      refine ⟨hinv.own, fun b hb => ?_, ?_⟩
      · obtain rfl := Option.some.inj hb
        exact ha.step hextend
      · cases ok with
        | false => trivial
        | true =>
            obtain ⟨harmed, hmoved⟩ := moved_of_extend ha hextend
            exact ⟨a, _, hagent, rfl, htimely a hagent harmed, hmoved⟩
  | @report next ok d hextend =>
      refine ⟨hinv.own.step hextend, hinv.agent, ?_⟩
      cases ok with
      | false => trivial
      | true =>
          obtain ⟨harmed, hmoved⟩ := moved_of_extend hinv.own hextend
          exact ⟨htimely harmed, hmoved⟩
  | refuse | goOn | agentRefuses | lose | giveUp | answer =>
      exact ⟨hinv.own, hinv.agent, trivial⟩

/-- A timely step keeps the invariant, and a reported extension gives its time. -/
theorem Inv.step (h : Inv remote es s) (hstep : Step remote s e t) (htimely : Timely remote s e) :
    Inv remote (es ++ [e]) t ∧ GotTime s e t := by
  have hnew : ∀ {d : TimedDeadline} {body : JobBody} {b : JobSide}, Regular d →
      b ∈ some (⟨d, body⟩ : JobSide) → Regular b.deadline := by
    rintro d body b hd hb
    obtain rfl := Option.some.inj hb
    exact hd
  cases hstep with
  | own he hd => exact ⟨h.quiet rfl (h.own.step hd) h.agent rfl, trivial⟩
  | @agent a e d he hagent hd =>
      exact ⟨h.quiet rfl h.own (fun b hb => hnew ((h.agent a hagent).step hd) hb) rfl, trivial⟩
  | ran hbody => exact ⟨h.quiet rfl h.own h.agent rfl, trivial⟩
  | stopped hbody hd => exact ⟨h.quiet rfl (h.own.step hd) h.agent rfl, trivial⟩
  | finish hbody => exact ⟨h.quiet rfl h.own h.agent rfl, trivial⟩
  | agentStarts hremote hagent harmed =>
      exact ⟨h.quiet rfl h.own (fun b hb => hnew (regular_new harmed) hb) rfl, trivial⟩
  | @agentRan a err hagent hbody =>
      exact ⟨h.quiet rfl h.own (fun b hb => hnew (h.agent a hagent) hb) rfl, trivial⟩
  | @agentStopped a err d hagent hbody hd =>
      exact ⟨h.quiet rfl h.own (fun b hb => hnew ((h.agent a hagent).step hd) hb) rfl, trivial⟩
  | setRemoteExtender hremote hbody => exact ⟨h.quiet rfl h.own h.agent rfl, trivial⟩
  | disableExtension hremote hbody => exact ⟨h.quiet rfl h.own h.agent rfl, trivial⟩
  | request =>
      refine ⟨h.quiet rfl h.own h.agent ?_, trivial⟩
      rw [List.countP_append]
      rfl
  | @ofRequest u before after left x e hrequests hx =>
      obtain ⟨hown, hagent, htime⟩ := hx.deadlines h htimely
      refine ⟨⟨hown, hagent, fun hremote => ?_⟩, ?_⟩
      · subst hremote
        have hcount := hx.count htimely
        have hgranted := h.granted rfl
        rw [hrequests, List.countP_append, ← List.singleton_append, List.countP_append] at hgranted
        rw [reports_append, grants_append, List.countP_append, List.countP_append]
        omega
      · cases e <;> exact htime

/-- **Extensions in a timely run.** Every extension that is reported moved the deadline of an
action that was running; for an action on an agent, the agent had granted it before. -/
theorem extension_reported {start armed timeout : ℕ} (harmed : start ≤ armed)
    (h : Run (fun s e t => Step remote s e t ∧ Timely remote s e) (new start armed timeout) es s) :
    (remote = true → reports es ≤ grants es) ∧
      ∀ e t, Step remote s e t → Timely remote s e → GotTime s e t := by
  have hinv : Inv remote es s := h.invariant (Inv remote) (inv_new harmed)
    fun hs hstep => (hs.step hstep.1 hstep.2).1
  exact ⟨fun hremote => (Nat.le_add_right _ _).trans (hinv.granted hremote),
    fun e t hstep htimely => (hinv.step hstep htimely).2⟩

end ExtendedAction

open TimedDeadline in
/-- **Deadlines and extensions.** The deadline is the start, the timeout and the extensions that
were granted; the context ends for it only when it has passed; after the timer has fired or was
stopped nothing is granted. In a timely run, an extension that is reported is one of the running
action. -/
theorem deadline_and_extensions {start armed timeout : ℕ} (harmed : start ≤ armed) :
    (∀ es d, Run TimedDeadline.Step (.new start armed timeout) es d →
        d.deadline = start + timeout + granted es ∧
          (d.cause = some .timedOut → d.deadline ≤ d.clock) ∧
          (d.cause ≠ none ∨ .fire ∈ es ∨ .stop ∈ es → ∀ duration next ok d',
            TimedDeadline.Step d (.extend duration next ok) d' → ok = false ∧ d' = d)) ∧
      ∀ remote es s,
        Run (fun s e t => ExtendedAction.Step remote s e t ∧ ExtendedAction.Timely remote s e)
          (.new start armed timeout) es s →
        (remote = true → ExtendedAction.reports es ≤ ExtendedAction.grants es) ∧
          ∀ e t, ExtendedAction.Step remote s e t → ExtendedAction.Timely remote s e →
            ExtendedAction.GotTime s e t := by
  refine ⟨fun es d hrun => ?_, fun remote es s hrun =>
    ExtendedAction.extension_reported harmed hrun⟩
  have hknown := run_says harmed hrun
  refine ⟨hknown.deadline, hknown.timedOut, fun hend duration next ok d' hstep => ?_⟩
  obtain ⟨hok, -, hd⟩ := extend_of_not_armed (hknown.not_armed hend) hstep
  exact ⟨hok, hd⟩

/-- A deadline that is extended once and passes; and an action on an agent that is extended once the
job knows how: the agent grants the extension before it is reported. -/
theorem deadline_and_extensions_remote :
    (∃ d, Run TimedDeadline.Step (.new 0 1 600)
        [.extend 300 900 true, .advance 900, .fire, .callback] d ∧
      d.deadline = 900 ∧ d.cause = some .timedOut ∧ d.deadline ≤ d.clock) ∧
    ∃ es s t, Run (ExtendedAction.Step true) (.new 0 1 600) es s ∧
      ExtendedAction.grants es = 1 ∧ ExtendedAction.Step true s (.report true) t ∧
      ExtendedAction.GotTime s (.report true) t := by
  obtain ⟨hdeadline, hjob⟩ := @deadline_and_extensions 0 1 600 (Nat.zero_le 1)
  constructor
  · have hextend : TimedDeadline.Step (.new 0 1 600) (.extend 300 900 true) _ :=
      .extend rfl le_rfl le_rfl
    have hrun : Run TimedDeadline.Step (.new 0 1 600)
        [.extend 300 900 true, .advance 900, .fire, .callback] _ :=
      (((Run.single hextend).snoc (.advance (by decide))).snoc (.fire rfl (by decide))).snoc
        (.callback rfl)
    exact ⟨_, hrun, (hdeadline _ _ hrun).1, rfl, (hdeadline _ _ hrun).2.1 rfl⟩
  · let step := fun s e t => ExtendedAction.Step true s e t ∧ ExtendedAction.Timely true s e
    let granted : TimedDeadline :=
      { clock := 3
        deadline := 602 + stackJobExtension
        timer := .armed (3 + (602 + stackJobExtension - 3))
        cause := none }
    let answered : ExtendedAction :=
      { ExtendedAction.new 0 1 600 with
        extendRemote := true
        agent := some { deadline := granted, body := .running }
        requests := [.extending] }
    have hstart : step (.new 0 1 600) (.agentStarts 2 3 600) _ :=
      ⟨.agentStarts rfl rfl (by decide), trivial⟩
    have hrequest := ((Run.single hstart).snoc ⟨.setRemoteExtender rfl rfl, trivial⟩).snoc
      ⟨.request, trivial⟩
    have hcheck := hrequest.snoc
      ⟨@ExtendedAction.Step.ofRequest true _ _ [] [] _ .checking .check rfl (.goOn rfl),
        fun _ _ => rfl⟩
    have hgrant := hcheck.snoc
      ⟨@ExtendedAction.Step.ofRequest true _ _ [] [] _ .calling (.agentExtends true) rfl
        (.agentExtends rfl (.extend rfl le_rfl le_rfl)), fun _ ha _ => by cases ha; rfl⟩
    have hanswer : Run step (.new 0 1 600) _ answered := hgrant.snoc
      ⟨@ExtendedAction.Step.ofRequest true _ _ [] [] _ (.answering true) .answer rfl .answer,
        trivial⟩
    have hreport := @ExtendedAction.Step.ofRequest true answered _ [] [] [] .extending
      (.report true) rfl (.report (.extend rfl le_rfl le_rfl))
    exact ⟨_, _, _, hanswer.mono And.left, rfl, hreport,
      (hjob true _ _ hanswer).2 _ _ hreport fun _ => rfl⟩

/-- **A remote action that is extended too early.** The agent has not answered the start request
yet; the user is told that the action has more time, and the agent was not asked for it. -/
theorem early_extension : ∃ es s,
    Run (ExtendedAction.Step true) (.new 0 0 (GoTime.minute * 10)) es s ∧
      ¬ ExtendedAction.reports es ≤ ExtendedAction.grants es := by
  have hrequest := Run.single (@ExtendedAction.Step.request true (.new 0 0 (GoTime.minute * 10)))
  have hcheck := hrequest.snoc (@ExtendedAction.Step.ofRequest true _ _ [] [] _ .checking .check rfl
    (.goOn rfl))
  have hreport := hcheck.snoc (@ExtendedAction.Step.ofRequest true _ _ [] [] _ .extending
    (.report true) rfl (.report (.extend rfl le_rfl le_rfl)))
  exact ⟨_, _, hreport, by decide⟩

end Contiwatch
