import Contiwatch.Lib.Cron
import Contiwatch.Lib.GoTime
import Contiwatch.Lib.Runs
import Contiwatch.Lib.Slots
import Contiwatch.Scheduler

/-!
# The Scheduler's Loops

`UpdateScheduler` of `internal/server/server.go` starts a goroutine for an accepted plan and
cancels the context of the one before; `internal/server/scheduler.go` has the loops that these
goroutines run. A loop computes its next run, publishes it under the scheduler's lock, arms a
timer, and waits for the timer or for the end of its context. When both are there, Go's `select`
takes either. A cancelled loop is not waited for: it may be in the middle of a scan while the
next one is at work.

The steps of all loops, of the updates and of the clock interleave in any order. Two things are
recorded that the source does not keep: which loop wrote the status last, and the ticks for which
scans were started.

## Main results

* `LoopsInv`, `run_loops` — only the loop that `schedulerCancel` cancels may have a context that
  is not cancelled.
* `run_of_drive` — the runs in which every loop takes its timer when it is due can be executed.
-/

namespace Contiwatch

open GoTime

/-- The functions of other packages: the parser of the cron library and `Duration.String`. -/
structure SchedulerLib where
  parse : String → Except String Cron.Schedule
  durationString : Int64 → String

/-- `cronParser.Parse` as `buildSchedulerPlan` uses it: only the error counts. -/
def SchedulerLib.parseError (lib : SchedulerLib) (expr : String) : Except String Unit :=
  match lib.parse expr with
  | .error err => .error err
  | .ok _ => .ok ()

/-! ### State -/

/-- Where a loop stands. -/
inductive LoopPhase
  /-- The goroutine has not run yet. -/
  | created
  /-- At the head of the loop. `prev` is the variable `next` of `runCronScheduler`; `ended` is when
  the last scan ended, if there was one. -/
  | planning (prev : ℕ) (ended : Option ℕ)
  /-- Before `setSchedulerNextRun`. -/
  | publishing (next : ℕ)
  /-- Before `time.NewTimer`. -/
  | arming (next : ℕ)
  /-- In the `select`, with a timer that fires at `due`. -/
  | waiting (next due : ℕ)
  /-- In `runScheduledScan`. -/
  | scanning (tick : ℕ)
  | returned
  deriving DecidableEq, Repr

/-- A goroutine of `runSchedulerLoop`, with its context. -/
structure SchedLoop where
  plan : BuiltPlan
  cancelled : Bool
  phase : LoopPhase
  /-- When it looked at the clock for the first time. -/
  startedAt : ℕ
  /-- What it published last. -/
  published : Option ℕ
  deriving DecidableEq, Repr

/-- The fields of `Server` that belong to the scheduler, and all loops ever started. A loop is
known by its place in the list; `schedulerCancel` cancels the context of one of them. -/
structure SchedulerState where
  clock : ℕ
  /-- `schedulerParent`: not set, or set and possibly done. -/
  parent : Option Bool
  cancel : Option ℕ
  enabled : Bool
  key : String
  mode : String
  nextRun : ℕ
  loops : List SchedLoop
  /-- Which loop wrote `schedulerMode` and `schedulerNextRun` last, if no update has since. -/
  writer : Option ℕ
  /-- The ticks of the scans that loops with a cron schedule have started, newest first. -/
  ticks : List ℕ
  deriving DecidableEq, Repr

/-- The scheduler of a new server. -/
def SchedulerState.new (start : ℕ) : SchedulerState where
  clock := start
  parent := none
  cancel := none
  enabled := false
  key := ""
  mode := ""
  nextRun := 0
  loops := []
  writer := none
  ticks := []

/-! ### Updates -/

/-- `cancel()` of a context. -/
def SchedLoop.cancelCtx (l : SchedLoop) : SchedLoop := { l with cancelled := true }

/-- `s.schedulerCancel()`, if it is set. -/
def SchedulerState.cancelLoop (s : SchedulerState) : List SchedLoop :=
  match s.cancel with
  | none => s.loops
  | some i => s.loops.modify i SchedLoop.cancelCtx

/-- `runSchedulerLoop` under a new context of the parent. -/
def newLoop (plan : BuiltPlan) (parentDone : Bool) : SchedLoop where
  plan := plan
  cancelled := parentDone
  phase := .created
  startedAt := 0
  published := none

/-- `schedulerPlanKey`. -/
def schedulerPlanKey (lib : SchedulerLib) (plan : BuiltPlan) : String :=
  if plan.mode = schedulerModeLegacy then plan.mode ++ "|" ++ lib.durationString plan.interval
  else plan.mode ++ "|" ++ plan.expr

/-- What `UpdateSchedulerLocked` does when the scheduler is disabled. -/
def SchedulerState.disable (s : SchedulerState) : SchedulerState :=
  { s with
    cancel := none, enabled := false, key := "", mode := "", nextRun := 0
    loops := s.cancelLoop, writer := none }

/-- What `UpdateSchedulerLocked` does with another plan. -/
def SchedulerState.launch (lib : SchedulerLib) (plan : BuiltPlan) (parentDone : Bool)
    (s : SchedulerState) : SchedulerState :=
  { s with
    cancel := some s.loops.length, enabled := true
    key := schedulerPlanKey lib plan, mode := plan.mode
    loops := s.cancelLoop ++ [newLoop plan parentDone], writer := none }

/-- `UpdateSchedulerLocked`. -/
def updateSchedulerLocked (lib : SchedulerLib) (cfg : StoredConfig) (s : SchedulerState) :
    SchedulerState :=
  match s.parent with
  | none => s
  | some parentDone =>
      if ¬ cfg.schedulerEnabled then s.disable
      else
        match buildSchedulerPlan lib.parseError cfg with
        | .error _ => s
        | .ok plan =>
            if s.cancel.isSome ∧ s.enabled ∧ s.key = schedulerPlanKey lib plan then s
            else s.launch lib plan parentDone

/-- `StartScheduler`, with the configuration that the store holds. -/
def startScheduler (lib : SchedulerLib) (cfg : StoredConfig) (s : SchedulerState) :
    SchedulerState :=
  updateSchedulerLocked lib cfg { s with parent := some false }

/-! ### Steps of a loop -/

/-- What a loop does. -/
inductive LoopEvent
  | begin
  | plan (next : ℕ)
  | publish (next : ℕ)
  | arm
  | fire (tick : ℕ)
  | stop
  | scanned
  deriving DecidableEq, Repr

/-- The interval of `runIntervalScheduler`. -/
def loopInterval (plan : BuiltPlan) : ℕ :=
  if plan.interval ≤ 0 then 5 * minute else plan.interval.toInt.toNat

/-- `LoopStep lib now l e l'`: at the time `now` the loop `l` may do `e`. -/
inductive LoopStep (lib : SchedulerLib) (now : ℕ) : SchedLoop → LoopEvent → SchedLoop → Prop
  | beginInterval {l : SchedLoop} (hphase : l.phase = .created)
      (hmode : l.plan.mode = schedulerModeLegacy) :
      LoopStep lib now l .begin { l with phase := .planning now none, startedAt := now }
  | beginCron {l : SchedLoop} {sched : Cron.Schedule} (hphase : l.phase = .created)
      (hmode : l.plan.mode ≠ schedulerModeLegacy) (hparse : lib.parse l.plan.expr = .ok sched) :
      LoopStep lib now l .begin { l with phase := .planning now none, startedAt := now }
  | beginFails {l : SchedLoop} {err : String} (hphase : l.phase = .created)
      (hmode : l.plan.mode ≠ schedulerModeLegacy) (hparse : lib.parse l.plan.expr = .error err) :
      LoopStep lib now l .begin { l with phase := .returned }
  | planInterval {l : SchedLoop} {prev : ℕ} {ended : Option ℕ}
      (hphase : l.phase = .planning prev ended) (hmode : l.plan.mode = schedulerModeLegacy) :
      LoopStep lib now l (.plan (now + loopInterval l.plan))
        { l with phase := .publishing (now + loopInterval l.plan) }
  | planCron {l : SchedLoop} {prev : ℕ} {ended : Option ℕ} {sched : Cron.Schedule}
      (hphase : l.phase = .planning prev ended) (hmode : l.plan.mode ≠ schedulerModeLegacy)
      (hparse : lib.parse l.plan.expr = .ok sched) :
      LoopStep lib now l (.plan (sched.next prev))
        { l with phase := .publishing (sched.next prev) }
  | publish {l : SchedLoop} {next : ℕ} (hphase : l.phase = .publishing next) :
      LoopStep lib now l (.publish next) { l with phase := .arming next, published := some next }
  | arm {l : SchedLoop} {next : ℕ} (hphase : l.phase = .arming next) :
      LoopStep lib now l .arm { l with phase := .waiting next (max next now) }
  | fire {l : SchedLoop} {next due : ℕ} (hphase : l.phase = .waiting next due)
      (hdue : due ≤ now) : LoopStep lib now l (.fire next) { l with phase := .scanning next }
  | stop {l : SchedLoop} {next due : ℕ} (hphase : l.phase = .waiting next due)
      (hdone : l.cancelled = true) : LoopStep lib now l .stop { l with phase := .returned }
  | scanned {l : SchedLoop} {tick : ℕ} (hphase : l.phase = .scanning tick) :
      LoopStep lib now l .scanned { l with phase := .planning tick (some now) }

/-- What a step of the loop `i` writes outside of the loop. -/
def SchedulerState.record (s : SchedulerState) (i : ℕ) (l : SchedLoop) :
    LoopEvent → SchedulerState
  | .publish next => { s with nextRun := next, mode := l.plan.mode, writer := some i }
  | .fire tick =>
      if l.plan.mode = schedulerModeLegacy then s else { s with ticks := tick :: s.ticks }
  | _ => s

/-- What happens to the scheduler. -/
inductive SchedulerEvent
  | advance (now : ℕ)
  | shutdown
  | start (cfg : StoredConfig)
  | update (cfg : StoredConfig)
  | loop (i : ℕ) (e : LoopEvent)
  deriving DecidableEq, Repr

/-- The steps of the scheduler: time passes, the process is told to end, the scheduler is started
or updated, or a loop takes a step. The scheduler is started once. -/
inductive SchedulerStep (lib : SchedulerLib) :
    SchedulerState → SchedulerEvent → SchedulerState → Prop
  | advance {s : SchedulerState} {now : ℕ} (hnow : s.clock ≤ now) :
      SchedulerStep lib s (.advance now) { s with clock := now }
  | shutdown {s : SchedulerState} (hparent : s.parent = some false) :
      SchedulerStep lib s .shutdown
        { s with parent := some true, loops := s.loops.map SchedLoop.cancelCtx }
  | start {s : SchedulerState} {cfg : StoredConfig} (hparent : s.parent = none) :
      SchedulerStep lib s (.start cfg) (startScheduler lib cfg s)
  | update {s : SchedulerState} {cfg : StoredConfig} :
      SchedulerStep lib s (.update cfg) (updateSchedulerLocked lib cfg s)
  | loop {s : SchedulerState} {i : ℕ} {l l' : SchedLoop} {e : LoopEvent}
      (hloop : s.loops[i]? = some l) (hstep : LoopStep lib s.clock l e l') :
      SchedulerStep lib s (.loop i e)
        { s.record i l e with loops := s.loops.set i l' }

/-! ### What steps change -/

/-- The three things that an update may do. -/
theorem updateSchedulerLocked_cases (lib : SchedulerLib) (cfg : StoredConfig)
    (s : SchedulerState) :
    updateSchedulerLocked lib cfg s = s ∨ updateSchedulerLocked lib cfg s = s.disable ∨
      ∃ plan parentDone, updateSchedulerLocked lib cfg s = s.launch lib plan parentDone := by
  rw [updateSchedulerLocked]
  rcases s.parent with _ | parentDone
  · exact Or.inl rfl
  simp only []
  by_cases hoff : ¬ cfg.schedulerEnabled
  · rw [if_pos hoff]
    exact Or.inr (Or.inl rfl)
  rw [if_neg hoff]
  rcases buildSchedulerPlan lib.parseError cfg with err | plan
  · exact Or.inl rfl
  simp only []
  by_cases hsame : s.cancel.isSome ∧ s.enabled ∧ s.key = schedulerPlanKey lib plan
  · rw [if_pos hsame]
    exact Or.inl rfl
  · rw [if_neg hsame]
    exact Or.inr (Or.inr ⟨plan, parentDone, rfl⟩)

/-- A step keeps the plan and the context of a loop. -/
theorem LoopStep.frame {lib : SchedulerLib} {now : ℕ} {l l' : SchedLoop} {e : LoopEvent}
    (h : LoopStep lib now l e l') : l'.plan = l.plan ∧ l'.cancelled = l.cancelled := by
  cases h <;> exact ⟨rfl, rfl⟩

/-- A loop publishes in one step only. -/
theorem LoopStep.published {lib : SchedulerLib} {now : ℕ} {l l' : SchedLoop} {e : LoopEvent}
    (h : LoopStep lib now l e l') :
    (∃ next, e = .publish next ∧ l'.published = some next) ∨
      ((∀ next, e ≠ .publish next) ∧ l'.published = l.published) := by
  cases h with
  | @publish next hphase => exact Or.inl ⟨next, rfl, rfl⟩
  | _ => exact Or.inr ⟨by simp, rfl⟩

section

variable (s : SchedulerState) (i : ℕ) (l : SchedLoop) (e : LoopEvent)

/-- Recording a loop's step does not move the clock. -/
@[simp] theorem clock_record : (s.record i l e).clock = s.clock := by
  rcases e <;> simp only [SchedulerState.record]
  split <;> rfl

/-- It cancels nothing. -/
@[simp] theorem cancel_record : (s.record i l e).cancel = s.cancel := by
  rcases e <;> simp only [SchedulerState.record]
  split <;> rfl

/-- It leaves the switch alone. -/
@[simp] theorem enabled_record : (s.record i l e).enabled = s.enabled := by
  rcases e <;> simp only [SchedulerState.record]
  split <;> rfl

end

/-- A step that does not publish leaves the status alone. -/
theorem status_record {s : SchedulerState} {i : ℕ} {l : SchedLoop} {e : LoopEvent}
    (h : ∀ next, e ≠ .publish next) :
    (s.record i l e).writer = s.writer ∧ (s.record i l e).mode = s.mode ∧
      (s.record i l e).nextRun = s.nextRun := by
  rcases e with _ | _ | next | _ | _ | _ | _
  case publish => exact absurd rfl (h next)
  case fire =>
    simp only [SchedulerState.record]
    split <;> exact ⟨rfl, rfl, rfl⟩
  all_goals exact ⟨rfl, rfl, rfl⟩

/-- A step that does not fire starts no scan. -/
theorem ticks_record {s : SchedulerState} {i : ℕ} {l : SchedLoop} {e : LoopEvent}
    (h : ∀ tick, e ≠ .fire tick) : (s.record i l e).ticks = s.ticks := by
  rcases e with _ | _ | _ | _ | tick | _ | _
  case fire => exact absurd rfl (h tick)
  all_goals rfl

/-! ### One context -/

/-- Only the loop that `schedulerCancel` cancels may go on. -/
structure LoopsInv (s : SchedulerState) : Prop where
  live : ∀ i l, s.loops[i]? = some l → l.cancelled = false → s.cancel = some i
  enabled : ∀ i, s.cancel = some i → s.enabled = true

/-- The scheduler starts within the invariant. -/
theorem loopsInv_new (start : ℕ) : LoopsInv (SchedulerState.new start) where
  live := fun i l h => absurd h (by simp [SchedulerState.new])
  enabled := fun i h => absurd h (by simp [SchedulerState.new])

/-- After `schedulerCancel` no loop goes on. -/
theorem LoopsInv.cancelLoop {s : SchedulerState} (h : LoopsInv s) {i : ℕ} {l : SchedLoop}
    (hloop : s.cancelLoop[i]? = some l) : l.cancelled = true := by
  by_contra hlive
  rw [Bool.not_eq_true] at hlive
  rw [SchedulerState.cancelLoop] at hloop
  rcases hcancel : s.cancel with _ | k
  · rw [hcancel] at hloop
    exact absurd (hcancel.symm.trans (h.live i l hloop hlive)) (by simp)
  · rw [hcancel] at hloop
    by_cases hk : k = i
    · subst hk
      rw [List.getElem?_modify_eq] at hloop
      obtain ⟨l₀, -, rfl⟩ := Option.map_eq_some_iff.mp hloop
      exact absurd hlive (by simp [SchedLoop.cancelCtx])
    · rw [List.getElem?_modify_ne _ _ hk] at hloop
      exact hk (Option.some.inj (hcancel.symm.trans (h.live i l hloop hlive)))

/-- After a new plan only the new loop goes on. -/
theorem LoopsInv.of_launch {s : SchedulerState} (h : LoopsInv s) {lib : SchedulerLib}
    {plan : BuiltPlan} {parentDone : Bool} {i : ℕ} {l : SchedLoop}
    (hloop : (s.launch lib plan parentDone).loops[i]? = some l) (hlive : l.cancelled = false) :
    i = s.loops.length ∧ l = newLoop plan parentDone := by
  have hlength : s.cancelLoop.length = s.loops.length := by
    rw [SchedulerState.cancelLoop]
    rcases s.cancel with _ | k
    · rfl
    · exact List.length_modify ..
  rcases Slots.of_append hloop with ⟨hi, hnew⟩ | hold
  · exact ⟨hi.trans hlength, hnew⟩
  · rw [h.cancelLoop hold] at hlive
    cases hlive

/-- An update keeps it. -/
theorem LoopsInv.update {s : SchedulerState} (h : LoopsInv s) (lib : SchedulerLib)
    (cfg : StoredConfig) : LoopsInv (updateSchedulerLocked lib cfg s) := by
  rcases updateSchedulerLocked_cases lib cfg s with hsame | hdisable | ⟨plan, parentDone, hlaunch⟩
  · rwa [hsame]
  · rw [hdisable]
    refine ⟨fun i l hloop hlive => ?_, fun i hi => absurd hi (by simp [SchedulerState.disable])⟩
    rw [h.cancelLoop hloop] at hlive
    cases hlive
  · rw [hlaunch]
    refine ⟨fun i l hloop hlive => ?_, fun i hi => rfl⟩
    rw [(h.of_launch hloop hlive).1]
    rfl

/-- **One context.** A step keeps the invariant. -/
theorem LoopsInv.step {lib : SchedulerLib} {s t : SchedulerState} {e : SchedulerEvent}
    (h : LoopsInv s) (hstep : SchedulerStep lib s e t) : LoopsInv t := by
  cases hstep with
  | advance hnow => exact ⟨h.live, h.enabled⟩
  | shutdown hparent =>
      refine ⟨fun i l hloop hlive => ?_, h.enabled⟩
      rw [List.getElem?_map] at hloop
      obtain ⟨l₀, -, rfl⟩ := Option.map_eq_some_iff.mp hloop
      cases hlive
  | @start cfg hparent =>
      have hstarted : LoopsInv { s with parent := some false } := ⟨h.live, h.enabled⟩
      exact hstarted.update lib cfg
  | @update cfg => exact h.update lib cfg
  | @loop i l l' e hloop hact =>
      refine ⟨fun j l₁ hl₁ hlive => ?_, fun j hj => ?_⟩
      · rw [cancel_record]
        rcases Slots.of_set hloop hl₁ with ⟨rfl, rfl⟩ | ⟨-, hother⟩
        · exact h.live j l hloop (hact.frame.2 ▸ hlive)
        · exact h.live j l₁ hother hlive
      · rw [enabled_record]
        rw [cancel_record] at hj
        exact h.enabled j hj

/-- The invariant in every run of the scheduler. -/
theorem run_loops {lib : SchedulerLib} {start : ℕ} {es : List SchedulerEvent}
    {s : SchedulerState} (hrun : Run (SchedulerStep lib) (SchedulerState.new start) es s) :
    LoopsInv s :=
  hrun.state_invariant LoopsInv (loopsInv_new start) LoopsInv.step

/-! ### Execution -/

/-- The step that a loop takes, if it waits for its timer rather than for its context. -/
def nextLoopStep (lib : SchedulerLib) (now : ℕ) (l : SchedLoop) :
    Option (LoopEvent × SchedLoop) :=
  match l.phase with
  | .created =>
      if l.plan.mode = schedulerModeLegacy then
        some (.begin, { l with phase := .planning now none, startedAt := now })
      else
        match lib.parse l.plan.expr with
        | .ok _ => some (.begin, { l with phase := .planning now none, startedAt := now })
        | .error _ => some (.begin, { l with phase := .returned })
  | .planning prev _ =>
      if l.plan.mode = schedulerModeLegacy then
        some (.plan (now + loopInterval l.plan),
          { l with phase := .publishing (now + loopInterval l.plan) })
      else
        match lib.parse l.plan.expr with
        | .ok sched =>
            some (.plan (sched.next prev), { l with phase := .publishing (sched.next prev) })
        | .error _ => none
  | .publishing next =>
      some (.publish next, { l with phase := .arming next, published := some next })
  | .arming next => some (.arm, { l with phase := .waiting next (max next now) })
  | .waiting next due => if due ≤ now then some (.fire next, { l with phase := .scanning next })
      else none
  | .scanning tick => some (.scanned, { l with phase := .planning tick (some now) })
  | .returned => none

/-- What a driver lets happen next. -/
inductive SchedulerCommand
  | clock (now : ℕ)
  | start (cfg : StoredConfig)
  | update (cfg : StoredConfig)
  | loop (i : ℕ)

/-- Carry out a command. -/
def carryOut (lib : SchedulerLib) (s : SchedulerState) :
    SchedulerCommand → Option (SchedulerEvent × SchedulerState)
  | .clock now => if s.clock ≤ now then some (.advance now, { s with clock := now }) else none
  | .start cfg =>
      if s.parent = none then some (.start cfg, startScheduler lib cfg s) else none
  | .update cfg => some (.update cfg, updateSchedulerLocked lib cfg s)
  | .loop i =>
      match s.loops[i]? with
      | none => none
      | some l =>
          match nextLoopStep lib s.clock l with
          | none => none
          | some (e, l') => some (.loop i e, { s.record i l e with loops := s.loops.set i l' })

/-- Carry out one command after another. -/
def drive (lib : SchedulerLib) : List SchedulerCommand → SchedulerState → Option SchedulerState
  | [], s => some s
  | c :: cs, s =>
      match carryOut lib s c with
      | none => none
      | some (_, t) => drive lib cs t

/-- The computed step of a loop is one of its steps. -/
theorem loopStep_of_next {lib : SchedulerLib} {now : ℕ} {l l' : SchedLoop} {e : LoopEvent}
    (h : nextLoopStep lib now l = some (e, l')) : LoopStep lib now l e l' := by
  rw [nextLoopStep] at h
  rcases hphase : l.phase with _ | ⟨prev, ended⟩ | next | next | ⟨next, due⟩ | tick | _ <;>
    rw [hphase] at h
  case created =>
    simp only [] at h
    by_cases hmode : l.plan.mode = schedulerModeLegacy
    · rw [if_pos hmode] at h
      cases h
      exact .beginInterval hphase hmode
    · rw [if_neg hmode] at h
      rcases hparse : lib.parse l.plan.expr with err | sched <;> rw [hparse] at h <;> cases h
      · exact .beginFails hphase hmode hparse
      · exact .beginCron hphase hmode hparse
  case planning =>
    simp only [] at h
    by_cases hmode : l.plan.mode = schedulerModeLegacy
    · rw [if_pos hmode] at h
      cases h
      exact .planInterval hphase hmode
    · rw [if_neg hmode] at h
      rcases hparse : lib.parse l.plan.expr with err | sched <;> rw [hparse] at h <;> cases h
      exact .planCron hphase hmode hparse
  case publishing =>
    cases h
    exact .publish hphase
  case arming =>
    cases h
    exact .arm hphase
  case waiting =>
    simp only [] at h
    by_cases hdue : due ≤ now
    · rw [if_pos hdue] at h
      cases h
      exact .fire hphase hdue
    · rw [if_neg hdue] at h
      cases h
  case scanning =>
    cases h
    exact .scanned hphase
  case returned => cases h

/-- A command that is carried out is a step. -/
theorem step_of_carryOut {lib : SchedulerLib} {s t : SchedulerState} {c : SchedulerCommand}
    {e : SchedulerEvent} (h : carryOut lib s c = some (e, t)) : SchedulerStep lib s e t := by
  rcases c with now | cfg | cfg | i
  · rw [carryOut] at h
    split at h <;> cases h
    exact .advance ‹_›
  · rw [carryOut] at h
    split at h <;> cases h
    exact .start ‹_›
  · cases h
    exact .update
  · rw [carryOut] at h
    rcases hloop : s.loops[i]? with _ | l <;> rw [hloop] at h
    · cases h
    simp only [] at h
    rcases hnext : nextLoopStep lib s.clock l with _ | ⟨e', l'⟩ <;> rw [hnext] at h <;> cases h
    exact .loop hloop (loopStep_of_next hnext)

/-- **Execution.** What a driver comes to, a run comes to. -/
theorem run_of_drive {lib : SchedulerLib} {cs : List SchedulerCommand} {s t : SchedulerState}
    (h : drive lib cs s = some t) : ∃ es, Run (SchedulerStep lib) s es t := by
  induction cs generalizing s with
  | nil =>
      cases h
      exact ⟨[], .nil⟩
  | cons c cs ih =>
      rw [drive] at h
      rcases hstep : carryOut lib s c with _ | ⟨e, u⟩ <;> rw [hstep] at h
      · cases h
      · obtain ⟨es, hrun⟩ := ih h
        exact ⟨[e] ++ es, (Run.single (step_of_carryOut hstep)).append hrun⟩

/-! ### Samples -/

/-- The schedule of an expression that no day matches. -/
def neverSchedule : Cron.Schedule where
  Matches := fun _ => False
  horizon := fun t => t + 5 * 366 * 24 * hour
  next := fun _ => 0
  next_spec := fun _ => Or.inr ⟨rfl, fun _ _ _ h => h⟩

/-- Libraries that know one cron expression, the thirtieth of February, and two durations. -/
def sampleScheduler : SchedulerLib where
  parse expr :=
    if expr = "0 0 30 2 *" then .ok neverSchedule else .error "expected exactly 5 fields"
  durationString d := if d = 300000000000 then "5m0s" else "10m0s"

/-- The defaults with the scheduler enabled, for a scan every so many seconds. -/
def scanEvery (seconds : Int64) : StoredConfig :=
  { defaultConfig with schedulerEnabled := true, scanIntervalSec := seconds }

end Contiwatch
