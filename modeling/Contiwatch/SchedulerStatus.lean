import Contiwatch.SchedulerLoops

/-!
# The Status of the Scheduler

`GET /api/scheduler/status` shows `schedulerMode` and `schedulerNextRun`, which every loop
overwrites when it has computed its next run, whether or not its context is still alive. A loop
that was cancelled in the middle of a scan publishes once more before it notices.

## Main results

* `statusCurrent_step_iff` — what a step needs to leave the status to the loop at work.
* `run_status_iff` — over any interleaving, at most one loop has a context that is not cancelled,
  and the status is the one it published, exactly as long as no cancelled loop publishes after
  the loop at work has.
* `status_can_be_stale` — a cancelled loop can overwrite the status.
-/

namespace Contiwatch

/-- At most one loop has a context that is not cancelled. -/
def OneLive (s : SchedulerState) : Prop :=
  ∀ (i j : ℕ) (l l' : SchedLoop), s.loops[i]? = some l → s.loops[j]? = some l' →
    l.cancelled = false → l'.cancelled = false → i = j

/-- While the scheduler is enabled, the status is what the loop at work published last, if it has
published anything. -/
def StatusCurrent (s : SchedulerState) : Prop :=
  ∀ (i : ℕ) (l : SchedLoop) (next : ℕ), s.loops[i]? = some l → l.cancelled = false →
    l.published = some next → s.enabled = true →
      s.writer = some i ∧ s.mode = l.plan.mode ∧ s.nextRun = next

/-- A cancelled loop publishes only while no loop at work has published its first run. -/
def NoLatePublication (s : SchedulerState) : SchedulerEvent → Prop
  | .loop i (.publish _) => ∀ l : SchedLoop, s.loops[i]? = some l → l.cancelled = true →
      ∀ (j : ℕ) (l' : SchedLoop), s.loops[j]? = some l' → l'.cancelled = false →
        l'.published = none
  | _ => True

/-- At most one loop is live. -/
theorem LoopsInv.oneLive {s : SchedulerState} (h : LoopsInv s) : OneLive s := by
  intro i j l l' hi hj hl hl'
  exact Option.some.inj ((h.live i l hi hl).symm.trans (h.live j l' hj hl'))

/-- The status is current at the start. -/
theorem statusCurrent_new (start : ℕ) : StatusCurrent (SchedulerState.new start) :=
  fun i l next h => absurd h (by simp [SchedulerState.new])

/-- Where every loop is cancelled, the status belongs to nobody. -/
theorem statusCurrent_of_cancelled {s : SchedulerState}
    (h : ∀ (i : ℕ) (l : SchedLoop), s.loops[i]? = some l → l.cancelled = true) :
    StatusCurrent s := by
  intro i l next hloop hlive
  rw [h i l hloop] at hlive
  cases hlive

/-- An update starts afresh or changes nothing. -/
theorem StatusCurrent.update {s : SchedulerState} (h : StatusCurrent s) (hinv : LoopsInv s)
    (lib : SchedulerLib) (cfg : StoredConfig) :
    StatusCurrent (updateSchedulerLocked lib cfg s) := by
  rcases updateSchedulerLocked_cases lib cfg s with hsame | hdisable | ⟨plan, parentDone, hlaunch⟩
  · rwa [hsame]
  · rw [hdisable]
    exact statusCurrent_of_cancelled fun i l hloop => hinv.cancelLoop hloop
  · rw [hlaunch]
    intro i l next hloop hlive hpublished
    obtain ⟨-, rfl⟩ := hinv.of_launch hloop hlive
    cases hpublished

section

variable {lib : SchedulerLib} {s : SchedulerState} {i : ℕ} {l l' : SchedLoop} {e : LoopEvent}

/-- A step that publishes nothing leaves the status as it is. -/
theorem StatusCurrent.of_silent (h : StatusCurrent s) (hloop : s.loops[i]? = some l)
    (hstep : LoopStep lib s.clock l e l') (hsilent : ∀ next, e ≠ .publish next)
    (hpublished : l'.published = l.published) :
    StatusCurrent { s.record i l e with loops := s.loops.set i l' } := by
  obtain ⟨hwriter, hmode, hnext⟩ := status_record (s := s) (i := i) (l := l) hsilent
  obtain ⟨hplan, hcancelled⟩ := hstep.frame
  intro j l₁ next hl₁ hlive hpub henabled
  rw [enabled_record] at henabled
  change (s.record i l e).writer = some j ∧ (s.record i l e).mode = l₁.plan.mode ∧
    (s.record i l e).nextRun = next
  rw [hwriter, hmode, hnext]
  rcases Slots.of_set hloop hl₁ with ⟨rfl, rfl⟩ | ⟨-, hother⟩
  · rw [hplan]
    exact h j l next hloop (hcancelled ▸ hlive) (hpublished ▸ hpub) henabled
  · exact h j l₁ next hother hlive hpub henabled

/-- A loop that publishes leaves the status to the loop at work exactly if it is that loop, or if
that loop has not published yet. -/
theorem statusCurrent_publish_iff {next : ℕ} (hinv : LoopsInv s) (hloop : s.loops[i]? = some l)
    (hplan : l'.plan = l.plan) (hcancelled : l'.cancelled = l.cancelled)
    (hpublished : l'.published = some next) :
    StatusCurrent { s.record i l (.publish next) with loops := s.loops.set i l' } ↔
      NoLatePublication s (.loop i (.publish next)) := by
  constructor
  · intro h l₀ hl₀ hdone j lj hj hlive
    obtain rfl : l = l₀ := Option.some.inj (hloop.symm.trans hl₀)
    by_contra hpub
    obtain ⟨n, hn⟩ := Option.ne_none_iff_exists'.mp hpub
    have hne : i ≠ j := by
      rintro rfl
      obtain rfl : l = lj := Option.some.inj (hloop.symm.trans hj)
      rw [hdone] at hlive
      cases hlive
    have hother : (s.loops.set i l')[j]? = some lj := by
      rw [List.getElem?_set_ne hne]
      exact hj
    have hwriter := (h j lj n hother hlive hn (hinv.enabled j (hinv.live j lj hj hlive))).1
    exact hne (Option.some.inj hwriter)
  · intro hcond j l₁ n hl₁ hlive hn henabled
    rcases Slots.of_set hloop hl₁ with ⟨rfl, rfl⟩ | ⟨hne, hother⟩
    · rw [hpublished] at hn
      exact ⟨rfl, by rw [hplan]; rfl, Option.some.inj hn⟩
    · -- another loop is at work, so this one is cancelled
      have hdone : l.cancelled = true := by
        by_contra hl
        rw [Bool.not_eq_true] at hl
        exact hne (hinv.oneLive j i l₁ l hother hloop hlive hl)
      rw [hcond l hloop hdone j l₁ hother hlive] at hn
      cases hn

/-- One step leaves the status to the loop at work exactly if it meets the condition. -/
theorem statusCurrent_step_iff {t : SchedulerState} {e : SchedulerEvent} (hinv : LoopsInv s)
    (h : StatusCurrent s) (hstep : SchedulerStep lib s e t) :
    StatusCurrent t ↔ NoLatePublication s e := by
  cases hstep with
  | advance hnow => exact iff_of_true h trivial
  | shutdown hparent =>
      refine iff_of_true (statusCurrent_of_cancelled fun i l hloop => ?_) trivial
      rw [List.getElem?_map] at hloop
      obtain ⟨l₀, -, rfl⟩ := Option.map_eq_some_iff.mp hloop
      rfl
  | @start cfg hparent =>
      have hinv' : LoopsInv { s with parent := some false } := ⟨hinv.live, hinv.enabled⟩
      have h' : StatusCurrent { s with parent := some false } := h
      exact iff_of_true (h'.update hinv' lib cfg) trivial
  | @update cfg => exact iff_of_true (h.update hinv lib cfg) trivial
  | @loop i l l' e hloop hact =>
      obtain ⟨hplan, hcancelled⟩ := hact.frame
      rcases hact.published with ⟨next, rfl, hpublished⟩ | ⟨hsilent, hpublished⟩
      · exact statusCurrent_publish_iff hinv hloop hplan hcancelled hpublished
      · refine iff_of_true (h.of_silent hloop hact hsilent hpublished) ?_
        cases e with
        | publish next => exact absurd rfl (hsilent next)
        | _ => trivial

end

/-- **The status over runs.** In a run of the scheduler at most one loop has a context that is not
cancelled, and the status is always the one that this loop has published, exactly if no cancelled
loop publishes after the loop at work has published its first run. -/
theorem run_status_iff {lib : SchedulerLib} {start : ℕ} {es : List SchedulerEvent}
    {q : SchedulerState} :
    Run (fun s e t => SchedulerStep lib s e t ∧ OneLive t ∧ StatusCurrent t)
        (SchedulerState.new start) es q ↔
      Run (fun s e t => SchedulerStep lib s e t ∧ NoLatePublication s e)
        (SchedulerState.new start) es q := by
  refine Run.congr (fun s => LoopsInv s ∧ StatusCurrent s)
    ⟨loopsInv_new start, statusCurrent_new start⟩ ?_ ?_
  · rintro s e t ⟨hinv, -⟩ ⟨hstep, -, hstatus⟩
    exact ⟨hinv.step hstep, hstatus⟩
  · rintro s e t ⟨hinv, hstatus⟩
    refine and_congr_right fun hstep => ?_
    rw [← statusCurrent_step_iff hinv hstatus hstep]
    exact and_iff_right (hinv.step hstep).oneLive

/-! ### A status that nobody stands for -/

/-- A plan of five minutes is replaced by one of ten in the middle of a scan; the new loop
publishes its first run, and the old one publishes again after its scan. -/
def replaceDuringScan : List SchedulerCommand :=
  [.start (scanEvery 300), .loop 0, .loop 0, .loop 0, .loop 0, .clock 400000000000, .loop 0,
    .update (scanEvery 600), .loop 1, .loop 1, .loop 1, .loop 0, .loop 0, .loop 0]

/-- The scheduler after `replaceDuringScan`. -/
def replacedDuringScan : SchedulerState :=
  (drive sampleScheduler replaceDuringScan (SchedulerState.new 1)).getD (SchedulerState.new 1)

/-- The sample: a plan is replaced while its loop scans. -/
theorem drive_replaceDuringScan :
    drive sampleScheduler replaceDuringScan (SchedulerState.new 1) = some replacedDuringScan := by
  decide

/-- **The status can be stale.** After the plan was replaced during a scan, the status is that of
the old loop, whose context is cancelled, although the new one has published its first run. -/
theorem status_can_be_stale :
    ∃ es q, Run (SchedulerStep sampleScheduler) (SchedulerState.new 1) es q ∧
      ¬ StatusCurrent q := by
  obtain ⟨es, hrun⟩ := run_of_drive drive_replaceDuringScan
  refine ⟨es, replacedDuringScan, hrun, fun h => ?_⟩
  have hloop : replacedDuringScan.loops[1]? = some
      { plan := { mode := schedulerModeLegacy, expr := "", interval := 600000000000 }
        cancelled := false, phase := .arming 1000000000000, startedAt := 400000000000
        published := some 1000000000000 } := by
    decide
  obtain ⟨hwriter, -⟩ := h 1 _ _ hloop rfl rfl (by decide)
  exact absurd hwriter (by decide)

end Contiwatch
