import Contiwatch.SchedulerLoops

/-!
# Scans and Ticks

When a basic or a cron plan starts its scans. The loop takes its next tick from the previous one,
not from the clock: a scan that outlasts a tick is followed by the scan for that tick at once. A
plan that matches no instant gives the zero time, for which the timer is due at once. And a loop
whose context is cancelled while its timer is due may start a scan all the same.

## Main results

* `TicksInv` — the tick that the loop at work waits for is a match of its plan, later than its
  start and than all ticks that started a scan; or it is the zero time.
* `run_ticks_iff` — scans are started as planned exactly as long as no cancelled loop and no loop
  with the zero time takes its timer, and no scan outlasts a tick.
* `scan_can_start_untimely` — a plan that never matches starts a scan.
-/

namespace Contiwatch

open Cron

/-- The loop follows a basic or a cron plan. -/
def SchedLoop.IsCron (l : SchedLoop) : Prop := l.plan.mode ≠ schedulerModeLegacy

/-- A tick of the schedule lies within the scan that was started for `tick` and ended at `ended`,
or at its end. -/
def Outlasted (sched : Schedule) (tick ended : ℕ) : Prop :=
  ∃ u, tick < u ∧ u ≤ ended ∧ sched.Matches u

section

variable (lib : SchedulerLib)

/-- Scans of basic and cron plans as they should be. A scan is started by a loop whose context is
not cancelled, not before a tick of its plan that lies after the start of the loop, and the tick
has started no scan before. After a scan that outlasted a tick, the loop goes on with the first
tick after the end of the scan. -/
def TimelyScan (s : SchedulerState) : SchedulerEvent → Prop
  | .loop i (.fire tick) => ∀ l, s.loops[i]? = some l → l.IsCron →
      l.cancelled = false ∧ tick ≤ s.clock ∧
        (∃ sched, lib.parse l.plan.expr = .ok sched ∧ sched.Matches tick) ∧
        l.startedAt < tick ∧ tick ∉ s.ticks
  | .loop i (.plan next) => ∀ l sched prev ended, s.loops[i]? = some l → l.IsCron →
      l.cancelled = false → lib.parse l.plan.expr = .ok sched →
      l.phase = .planning prev (some ended) → Outlasted sched prev ended →
      IsLeast {u | ended < u ∧ sched.Matches u} next
  | _ => True

/-- No loop with a cancelled context, and no loop whose next run is the zero time, takes its
timer; and no scan outlasts a tick of its plan. -/
def ScansFit (s : SchedulerState) : SchedulerEvent → Prop
  | .loop i (.fire tick) => ∀ l, s.loops[i]? = some l → l.IsCron →
      l.cancelled = false ∧ tick ≠ 0
  | .loop i (.plan _) => ∀ l sched prev ended, s.loops[i]? = some l → l.IsCron →
      l.cancelled = false → lib.parse l.plan.expr = .ok sched →
      l.phase = .planning prev (some ended) → ¬ Outlasted sched prev ended
  | _ => True

/-! ### The tick a loop waits for -/

/-- A tick for which a loop may start a scan. -/
structure NextTick (sched : Schedule) (startedAt : ℕ) (ticks : List ℕ) (next : ℕ) : Prop where
  isMatch : sched.Matches next
  after_start : startedAt < next
  after_ticks : ∀ tick ∈ ticks, tick < next

/-- What the variables of a loop with the schedule `sched` hold. -/
def PhaseOk (sched : Schedule) (ticks : List ℕ) (l : SchedLoop) : Prop :=
  match l.phase with
  | .created => True
  | .planning prev _ => l.startedAt ≤ prev ∧ ∀ tick ∈ ticks, tick ≤ prev
  | .publishing next => next = 0 ∨ NextTick sched l.startedAt ticks next
  | .arming next => next = 0 ∨ NextTick sched l.startedAt ticks next
  | .waiting next due => (next = 0 ∨ NextTick sched l.startedAt ticks next) ∧ next ≤ due
  | .scanning tick => l.startedAt ≤ tick ∧ ∀ tick' ∈ ticks, tick' ≤ tick
  | .returned => True

/-- The loop at work and the ticks that started scans. -/
structure TicksInv (s : SchedulerState) : Prop where
  past : ∀ tick ∈ s.ticks, tick ≤ s.clock
  live : ∀ (i : ℕ) (l : SchedLoop), s.loops[i]? = some l → l.cancelled = false → l.IsCron →
    l.phase = .created ∨ l.phase = .returned ∨
      ∃ sched, lib.parse l.plan.expr = .ok sched ∧ PhaseOk sched s.ticks l

end

variable {lib : SchedulerLib}

/-- The scheduler starts within the invariant. -/
theorem ticksInv_new (start : ℕ) : TicksInv lib (SchedulerState.new start) where
  past := fun tick h => absurd h List.not_mem_nil
  live := fun i l h => absurd h (by simp [SchedulerState.new])

/-- Where every loop is cancelled or new, nothing is to be said of loops. -/
theorem TicksInv.of_loops {s t : SchedulerState} (h : TicksInv lib s) (hticks : t.ticks = s.ticks)
    (hclock : t.clock = s.clock)
    (hloops : ∀ (i : ℕ) (l : SchedLoop), t.loops[i]? = some l → l.cancelled = false →
      l.phase = .created) : TicksInv lib t where
  past := by rw [hticks, hclock]; exact h.past
  live := fun i l hloop hlive _ => Or.inl (hloops i l hloop hlive)

/-- An update keeps it. -/
theorem TicksInv.update {s : SchedulerState} (h : TicksInv lib s) (hinv : LoopsInv s)
    (cfg : StoredConfig) : TicksInv lib (updateSchedulerLocked lib cfg s) := by
  rcases updateSchedulerLocked_cases lib cfg s with hsame | hdisable | ⟨plan, parentDone, hlaunch⟩
  · rwa [hsame]
  · rw [hdisable]
    refine h.of_loops rfl rfl fun i l hloop hlive => ?_
    rw [hinv.cancelLoop hloop] at hlive
    cases hlive
  · rw [hlaunch]
    refine h.of_loops rfl rfl fun i l hloop hlive => ?_
    rw [(hinv.of_launch hloop hlive).2]
    rfl

/-- The loop at work takes a step that starts no scan. -/
theorem phaseOk_step {now : ℕ} {sched : Schedule} {ticks : List ℕ} {l l' : SchedLoop}
    {e : LoopEvent} (hstep : LoopStep lib now l e l') (hcron : l.IsCron)
    (hparse : lib.parse l.plan.expr = .ok sched) (hpast : ∀ tick ∈ ticks, tick ≤ now)
    (h : PhaseOk sched ticks l) (hfire : ∀ tick, e ≠ .fire tick) : PhaseOk sched ticks l' := by
  cases hstep with
  | beginInterval hphase hmode => exact absurd hmode hcron
  | beginCron hphase hmode hparse' => exact ⟨le_rfl, hpast⟩
  | beginFails hphase hmode hparse' => trivial
  | planInterval hphase hmode => exact absurd hmode hcron
  | @planCron prev ended sched' hphase hmode hparse' =>
      obtain rfl : sched = sched' := Except.ok.inj (hparse.symm.trans hparse')
      rw [PhaseOk, hphase] at h
      by_cases hzero : sched.next prev = 0
      · exact Or.inl hzero
      · obtain ⟨hlater, hmatch⟩ := Schedule.matches_next hzero
        exact Or.inr ⟨hmatch, h.1.trans_lt hlater, fun tick ht => (h.2 tick ht).trans_lt hlater⟩
  | publish hphase =>
      rw [PhaseOk, hphase] at h
      exact h
  | arm hphase =>
      rw [PhaseOk, hphase] at h
      exact ⟨h, le_max_left ..⟩
  | fire hphase hdue => exact absurd rfl (hfire _)
  | stop hphase hdone => trivial
  | scanned hphase =>
      rw [PhaseOk, hphase] at h
      exact h

/-- A loop that has not run yet, or is done, has no variables to speak of. -/
theorem live_phase_step {now : ℕ} {ticks : List ℕ} {l l' : SchedLoop} {e : LoopEvent}
    (hstep : LoopStep lib now l e l') (hcron : l.IsCron) (hpast : ∀ tick ∈ ticks, tick ≤ now)
    (h : l.phase = .created ∨ l.phase = .returned ∨
      ∃ sched, lib.parse l.plan.expr = .ok sched ∧ PhaseOk sched ticks l)
    (hfire : ∀ tick, e ≠ .fire tick) :
    l'.phase = .created ∨ l'.phase = .returned ∨
      ∃ sched, lib.parse l'.plan.expr = .ok sched ∧ PhaseOk sched ticks l' := by
  rw [hstep.frame.1]
  rcases h with hcreated | hreturned | ⟨sched, hparse, hok⟩
  · rcases hparse : lib.parse l.plan.expr with err | sched
    · -- the expression cannot be read, and the loop returns
      cases hstep with
      | beginInterval hphase hmode => exact absurd hmode hcron
      | beginCron hphase hmode hparse' => cases hparse.symm.trans hparse'
      | beginFails => exact Or.inr (Or.inl rfl)
      | _ hphase => cases hcreated.symm.trans hphase
    · refine Or.inr (Or.inr ⟨sched, rfl, phaseOk_step hstep hcron hparse hpast ?_ hfire⟩)
      rw [PhaseOk, hcreated]
      trivial
  · cases hstep with
    | _ hphase => cases hreturned.symm.trans hphase
  · exact Or.inr (Or.inr ⟨sched, hparse, phaseOk_step hstep hcron hparse hpast hok hfire⟩)

/-! ### Steps that start a scan or choose a tick -/

/-- A loop that fires was waiting and is due. -/
theorem LoopStep.of_fire {now tick : ℕ} {l l' : SchedLoop}
    (h : LoopStep lib now l (.fire tick) l') :
    ∃ due, l.phase = .waiting tick due ∧ due ≤ now ∧ l' = { l with phase := .scanning tick } := by
  cases h with
  | fire hphase hdue => exact ⟨_, hphase, hdue, rfl⟩

/-- A cron loop plans the next time after the last. -/
theorem LoopStep.of_plan {now next prev : ℕ} {ended : Option ℕ} {l l' : SchedLoop}
    {sched : Schedule} (h : LoopStep lib now l (.plan next) l') (hcron : l.IsCron)
    (hparse : lib.parse l.plan.expr = .ok sched) (hphase : l.phase = .planning prev ended) :
    next = sched.next prev := by
  cases h with
  | planInterval hphase' hmode => exact absurd hmode hcron
  | planCron hphase' hmode hparse' =>
      cases hphase.symm.trans hphase'
      cases hparse.symm.trans hparse'
      rfl

section

variable {s : SchedulerState} {i : ℕ} {l l' : SchedLoop}

/-- The tick for which the loop at work starts a scan. -/
theorem TicksInv.next_tick (h : TicksInv lib s) {tick due : ℕ} (hloop : s.loops[i]? = some l)
    (hcron : l.IsCron) (hlive : l.cancelled = false) (hphase : l.phase = .waiting tick due)
    (hzero : tick ≠ 0) :
    tick ≤ due ∧ ∃ sched, lib.parse l.plan.expr = .ok sched ∧
      NextTick sched l.startedAt s.ticks tick := by
  rcases h.live i l hloop hlive hcron with hcreated | hreturned | ⟨sched, hparse, hok⟩
  · cases hcreated.symm.trans hphase
  · cases hreturned.symm.trans hphase
  · rw [PhaseOk, hphase] at hok
    exact ⟨hok.2, sched, hparse, hok.1.resolve_left hzero⟩

/-- The start of a scan is timely exactly if the loop is at work and has a tick to wait for. -/
theorem timelyScan_fire_iff (h : TicksInv lib s) {tick : ℕ} (hloop : s.loops[i]? = some l)
    (hstep : LoopStep lib s.clock l (.fire tick) l') :
    TimelyScan lib s (.loop i (.fire tick)) ↔ ScansFit lib s (.loop i (.fire tick)) := by
  obtain ⟨due, hphase, hdue, -⟩ := hstep.of_fire
  refine forall_congr' fun l₀ => forall_congr' fun hl₀ => forall_congr' fun hcron => ?_
  obtain rfl : l = l₀ := Option.some.inj (hloop.symm.trans hl₀)
  refine and_congr_right fun hlive => ⟨?_, fun hzero => ?_⟩
  · rintro ⟨-, -, hstart, -⟩
    exact (Nat.zero_le _ |>.trans_lt hstart).ne'
  · obtain ⟨hle, sched, hparse, hnext⟩ := h.next_tick hloop hcron hlive hphase hzero
    exact ⟨hle.trans hdue, ⟨sched, hparse, hnext.isMatch⟩, hnext.after_start,
      fun hmem => lt_irrefl tick (hnext.after_ticks tick hmem)⟩

/-- The next tick is the first one after the scan exactly if the scan outlasted none: the loop
goes on from the tick before. -/
theorem timelyScan_plan_iff {next : ℕ} (hloop : s.loops[i]? = some l)
    (hstep : LoopStep lib s.clock l (.plan next) l') :
    TimelyScan lib s (.loop i (.plan next)) ↔ ScansFit lib s (.loop i (.plan next)) := by
  constructor
  · rintro htimely l₀ sched prev ended hl₀ hcron hlive hparse hphase hout
    have hleast := htimely l₀ sched prev ended hl₀ hcron hlive hparse hphase hout
    obtain rfl : l = l₀ := Option.some.inj (hloop.symm.trans hl₀)
    rw [hstep.of_plan hcron hparse hphase] at hleast
    obtain ⟨u, hlater, hended, hmatch⟩ := hout
    exact Schedule.not_isLeast_of_match hlater hended hmatch hleast
  · intro hfit l₀ sched prev ended hl₀ hcron hlive hparse hphase hout
    exact absurd hout (hfit l₀ sched prev ended hl₀ hcron hlive hparse hphase)

/-- A timely scan keeps the invariant. -/
theorem TicksInv.fire (h : TicksInv lib s) (hinv : LoopsInv s) {tick : ℕ}
    (hloop : s.loops[i]? = some l) (hstep : LoopStep lib s.clock l (.fire tick) l')
    (htimely : TimelyScan lib s (.loop i (.fire tick))) :
    TicksInv lib { s.record i l (.fire tick) with loops := s.loops.set i l' } := by
  obtain ⟨due, hphase, hdue, rfl⟩ := hstep.of_fire
  by_cases hmode : l.plan.mode = schedulerModeLegacy
  · -- the ticks of an interval are not recorded
    have hrecord : s.record i l (.fire tick) = s := if_pos hmode
    rw [hrecord]
    refine ⟨h.past, fun j l₁ hl₁ hlive hcron => ?_⟩
    rcases Slots.of_set hloop hl₁ with ⟨rfl, rfl⟩ | ⟨-, hother⟩
    · exact absurd hmode hcron
    · exact h.live j l₁ hother hlive hcron
  · have hrecord : s.record i l (.fire tick) = { s with ticks := tick :: s.ticks } := if_neg hmode
    rw [hrecord]
    obtain ⟨hi, hclock, -, hstart, -⟩ := htimely l hloop hmode
    have hzero : tick ≠ 0 := (Nat.zero_le _ |>.trans_lt hstart).ne'
    obtain ⟨-, sched, hparse, hnext⟩ := h.next_tick hloop hmode hi hphase hzero
    refine ⟨?_, fun j l₁ hl₁ hlive hcron => ?_⟩
    · intro tick' hmem
      rcases List.mem_cons.mp hmem with rfl | hold
      · exact hclock
      · exact h.past tick' hold
    · rcases Slots.of_set hloop hl₁ with ⟨rfl, rfl⟩ | ⟨hne, hother⟩
      · refine Or.inr (Or.inr ⟨sched, hparse, hnext.after_start.le, fun tick' hmem => ?_⟩)
        rcases List.mem_cons.mp hmem with rfl | hold
        · exact le_rfl
        · exact (hnext.after_ticks tick' hold).le
      · -- only one loop is at work
        have hj := hinv.live j l₁ hother hlive
        exact absurd (Option.some.inj (hj.symm.trans (hinv.live i l hloop hi))) hne

/-- A step that starts no scan keeps the invariant. -/
theorem TicksInv.of_silent (h : TicksInv lib s) {e : LoopEvent} (hloop : s.loops[i]? = some l)
    (hstep : LoopStep lib s.clock l e l') (hfire : ∀ tick, e ≠ .fire tick) :
    TicksInv lib { s.record i l e with loops := s.loops.set i l' } := by
  have hticks := ticks_record (s := s) (i := i) (l := l) hfire
  refine ⟨?_, fun j l₁ hl₁ hlive hcron => ?_⟩
  · change ∀ tick ∈ (s.record i l e).ticks, tick ≤ (s.record i l e).clock
    rw [hticks, clock_record]
    exact h.past
  · change l₁.phase = .created ∨ l₁.phase = .returned ∨
      ∃ sched, lib.parse l₁.plan.expr = .ok sched ∧ PhaseOk sched (s.record i l e).ticks l₁
    rw [hticks]
    rcases Slots.of_set hloop hl₁ with ⟨rfl, rfl⟩ | ⟨-, hother⟩
    · have hcron' : l.IsCron := by
        rw [SchedLoop.IsCron, ← hstep.frame.1]
        exact hcron
      have hlive' : l.cancelled = false := hstep.frame.2 ▸ hlive
      exact live_phase_step hstep hcron' h.past (h.live j l hloop hlive' hcron') hfire
    · exact h.live j l₁ hother hlive hcron

end

/-! ### Runs -/

/-- One step is timely exactly if it fits. -/
theorem timelyScan_iff {s t : SchedulerState} {e : SchedulerEvent} (h : TicksInv lib s)
    (hstep : SchedulerStep lib s e t) : TimelyScan lib s e ↔ ScansFit lib s e := by
  cases hstep with
  | @loop i l l' e hloop hact =>
      cases e with
      | fire tick => exact timelyScan_fire_iff h hloop hact
      | plan next => exact timelyScan_plan_iff hloop hact
      | _ => exact Iff.rfl
  | _ => exact Iff.rfl

/-- **Ticks.** A timely step keeps the invariant. -/
theorem TicksInv.step {s t : SchedulerState} {e : SchedulerEvent} (h : TicksInv lib s)
    (hinv : LoopsInv s) (hstep : SchedulerStep lib s e t) (htimely : TimelyScan lib s e) :
    TicksInv lib t := by
  cases hstep with
  | advance hnow => exact ⟨fun tick hmem => (h.past tick hmem).trans hnow, h.live⟩
  | shutdown hparent =>
      refine h.of_loops rfl rfl fun i l hloop hlive => ?_
      rw [List.getElem?_map] at hloop
      obtain ⟨l₀, -, rfl⟩ := Option.map_eq_some_iff.mp hloop
      cases hlive
  | @start cfg hparent =>
      have hstarted : TicksInv lib { s with parent := some false } := ⟨h.past, h.live⟩
      exact hstarted.update ⟨hinv.live, hinv.enabled⟩ cfg
  | @update cfg => exact h.update hinv cfg
  | @loop i l l' e hloop hact =>
      by_cases hfire : ∃ tick, e = .fire tick
      · obtain ⟨tick, rfl⟩ := hfire
        exact h.fire hinv hloop hact htimely
      · exact h.of_silent hloop hact fun tick heq => hfire ⟨tick, heq⟩

/-- **Scans over runs.** The runs of the scheduler in which all scans of basic and cron plans are
timely are exactly those in which no cancelled loop and no loop with the zero time takes its
timer, and no scan outlasts a tick of its plan. -/
theorem run_ticks_iff {start : ℕ} {es : List SchedulerEvent} {q : SchedulerState} :
    Run (fun s e t => SchedulerStep lib s e t ∧ TimelyScan lib s e)
        (SchedulerState.new start) es q ↔
      Run (fun s e t => SchedulerStep lib s e t ∧ ScansFit lib s e)
        (SchedulerState.new start) es q := by
  refine Run.congr (fun s => LoopsInv s ∧ TicksInv lib s)
    ⟨loopsInv_new start, ticksInv_new start⟩ ?_ ?_
  · rintro s e t ⟨hinv, hticks⟩ ⟨hstep, htimely⟩
    exact ⟨hinv.step hstep, hticks.step hinv hstep htimely⟩
  · rintro s e t ⟨-, hticks⟩
    exact and_congr_right fun hstep => timelyScan_iff hticks hstep

/-! ### A plan that never matches -/

/-- The defaults with the scheduler enabled, on the thirtieth of February. -/
def scanNever : StoredConfig :=
  { defaultConfig with
    schedulerEnabled := true
    schedulerPlan := { mode := "cron", basic := none, cron := some { expr := "0 0 30 2 *" } } }

/-- The scheduler, a step before the first scan of such a plan. -/
def neverScheduled : SchedulerState :=
  (drive sampleScheduler [.start scanNever, .loop 0, .loop 0, .loop 0, .loop 0]
    (SchedulerState.new 1)).getD (SchedulerState.new 1)

/-- The sample plan leads to the state before its first scan. -/
theorem drive_neverScheduled :
    drive sampleScheduler [.start scanNever, .loop 0, .loop 0, .loop 0, .loop 0]
      (SchedulerState.new 1) = some neverScheduled := by
  decide

/-- **A scan can be untimely.** The plan is accepted, matches no instant, and starts a scan at
once. -/
theorem scan_can_start_untimely :
    planAccepted sampleScheduler.parseError scanNever = true ∧
      ∃ es s e t, Run (SchedulerStep sampleScheduler) (SchedulerState.new 1) es s ∧
        SchedulerStep sampleScheduler s e t ∧ ¬ TimelyScan sampleScheduler s e := by
  obtain ⟨es, hrun⟩ := run_of_drive drive_neverScheduled
  have hloop : neverScheduled.loops[0]? = some
      { plan := { mode := "cron", expr := "0 0 30 2 *", interval := 0 }, cancelled := false
        phase := .waiting 0 1, startedAt := 1, published := some 0 } := by
    decide
  have hdue : 1 ≤ neverScheduled.clock := by decide
  refine ⟨by decide, es, neverScheduled, .loop 0 (.fire 0), _, hrun,
    .loop hloop (.fire rfl hdue), fun htimely => ?_⟩
  have hcron : "cron" ≠ schedulerModeLegacy := by decide
  obtain ⟨-, -, -, hstart, -⟩ := htimely _ hloop hcron
  exact absurd hstart (by decide)

end Contiwatch
