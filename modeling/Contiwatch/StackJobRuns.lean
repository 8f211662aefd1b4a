import Contiwatch.StackJobs

/-!
# Runs of the Job Manager

What holds of the job manager over any interleaving of start requests, goroutines, extension
requests and timers.

## Main results

* `JobsInv` — the invariant: a job that is running, or finished not long ago, is in the table under
  its ID; running jobs have different keys; and a start request that has looked at a job of its
  key has found it finished.
* `step_cases` — what a step does to jobs.
* `run_stackJobs` — jobs over runs: one running job for each key, one end for each job, no job
  removed within 15 minutes of its end, and no effect of refused requests.
-/

namespace Contiwatch

namespace JobSystem

/-! ### What steps do to jobs -/

/-- The parts of a job that only its end changes are the same. -/
structure SameRecord (th th' : JobThread) : Prop where
  id : th'.job.id = th.job.id
  key : th'.job.key = th.job.key
  status : th'.job.status = th.job.status
  err : th'.job.err = th.job.err
  finishedAt : th'.job.finishedAt = th.job.finishedAt
  done : th'.body = .done ↔ th.body = .done

/-- The goroutine and the timer of a job change its record at its end only. -/
theorem ThreadStep.cases {now : ℕ} {th th' : JobThread} {e : ℕ → Event}
    (h : ThreadStep now th e th') :
    (SameRecord th th' ∧ ∀ r r', e r ≠ .finish r') ∨
      ∃ err, e = .finish ∧ th.body = .stopped err ∧
        th' = { job := th.job.finish now err, body := .done } := by
  cases h with
  | finish hbody => exact Or.inr ⟨_, rfl, hbody, rfl⟩
  | ran hbody => exact Or.inl ⟨⟨rfl, rfl, rfl, rfl, rfl, by simp [hbody]⟩, by simp⟩
  | stopped hbody => exact Or.inl ⟨⟨rfl, rfl, rfl, rfl, rfl, by simp [hbody]⟩, by simp⟩
  | expire htimer hdue => exact Or.inl ⟨⟨rfl, rfl, rfl, rfl, rfl, Iff.rfl⟩, by simp⟩
  | setRemoteExtender hbody => exact Or.inl ⟨⟨rfl, rfl, rfl, rfl, rfl, Iff.rfl⟩, by simp⟩
  | disableExtension hbody => exact Or.inl ⟨⟨rfl, rfl, rfl, rfl, rfl, Iff.rfl⟩, by simp⟩

/-- The end of a job. -/
theorem finish_status (now : ℕ) (err : Option String) (j : StackJob) :
    (j.finish now err).status ≠ .running ∧ (j.finish now err).finishedAt = now ∧
      (j.finish now err).id = j.id ∧ (j.finish now err).key = j.key := by
  rcases err with _ | text
  · exact ⟨by simp [StackJob.finish], rfl, rfl, rfl⟩
  · exact ⟨by simp [StackJob.finish], rfl, rfl, rfl⟩

/-- Steps outside of start requests leave the table and the lock alone. -/
structure Outside (s t : JobSystem) : Prop where
  jobs : t.jobs = s.jobs
  starting : t.starting = s.starting
  drawn : t.drawn = s.drawn
  clock : s.clock ≤ t.clock

/-- What a step does: it changes no job, it changes a job whose record stays, it ends a job, or it
belongs to a start request. -/
theorem step_cases {s t : JobSystem} {e : Event} (h : Step s e t) :
    (Outside s t ∧ t.heap = s.heap ∧ ∀ r, e ≠ .finish r) ∨
      (∃ r th th', Outside s t ∧ s.heap[r]? = some th ∧ SameRecord th th' ∧
        t.heap = s.heap.set r th' ∧ ∀ r', e ≠ .finish r') ∨
      (∃ r th err, Outside s t ∧ s.heap[r]? = some th ∧ th.body = .stopped err ∧
        t.heap = s.heap.set r { job := th.job.finish s.clock err, body := .done } ∧
        e = .finish r) ∨
      StartStep s e t := by
  cases h with
  | advance hnow => exact Or.inl ⟨⟨rfl, rfl, rfl, hnow⟩, rfl, by simp⟩
  | start h => exact Or.inr (Or.inr (Or.inr h))
  | @thread r th th' e hthread h =>
      rcases h.cases with ⟨hsame, hfinish⟩ | ⟨err, rfl, hbody, rfl⟩
      · exact Or.inr (Or.inl ⟨r, th, th', ⟨rfl, rfl, rfl, le_rfl⟩, hthread, hsame, rfl, hfinish r⟩)
      · exact Or.inr (Or.inr (Or.inl ⟨r, th, err, ⟨rfl, rfl, rfl, le_rfl⟩, hthread, hbody, rfl,
          rfl⟩))
  | extend h =>
      cases h with
      | @extend k r th hext hthread =>
          refine Or.inr (Or.inl ⟨r, th, _, ⟨rfl, rfl, rfl, le_rfl⟩, hthread, ?_, rfl, by simp⟩)
          exact ⟨rfl, rfl, rfl, rfl, rfl, Iff.rfl⟩
      | _ => exact Or.inl ⟨⟨rfl, rfl, rfl, le_rfl⟩, rfl, by simp⟩

/-- A start request adds a job or leaves all jobs alone. -/
theorem StartStep.heap {s t : JobSystem} {e : Event} (h : StartStep s e t) :
    t.heap = s.heap ∨ ∃ th, t.heap = s.heap ++ [th] := by
  cases h with
  | created hphase hfresh => exact Or.inr ⟨_, rfl⟩
  | _ => exact Or.inl rfl

/-- A start finishes no job. -/
theorem StartStep.not_finish {s t : JobSystem} {e : Event} (h : StartStep s e t) (r : ℕ) :
    e ≠ .finish r := by
  cases h <;> simp

/-! ### Finished jobs -/

/-- No step changes the record of a finished job. -/
theorem finishedJob_step {s t : JobSystem} {e : Event} (h : Step s e t) {r : ℕ} {th : JobThread}
    (hthread : s.heap[r]? = some th) (hdone : th.body = .done) :
    ∃ th', t.heap[r]? = some th' ∧ SameRecord th th' := by
  have hsame : SameRecord th th := ⟨rfl, rfl, rfl, rfl, rfl, Iff.rfl⟩
  rcases step_cases h with ⟨-, hheap, -⟩ | ⟨k, thk, thk', -, hk, hrecord, hheap, -⟩ |
    ⟨k, thk, err, -, hk, hbody, hheap, -⟩ | hstart
  · exact ⟨th, hheap ▸ hthread, hsame⟩
  · rw [hheap]
    by_cases hr : r = k
    · subst hr
      obtain rfl : th = thk := Option.some.inj (hthread.symm.trans hk)
      exact ⟨thk', Slots.set_self hk thk', hrecord⟩
    · exact ⟨th, (Slots.set_ne hr thk').trans hthread, hsame⟩
  · rw [hheap]
    by_cases hr : r = k
    · subst hr
      obtain rfl : th = thk := Option.some.inj (hthread.symm.trans hk)
      cases hdone.symm.trans hbody
    · exact ⟨th, (Slots.set_ne hr _).trans hthread, hsame⟩
  · rcases hstart.heap with hheap | ⟨new, hheap⟩
    · exact ⟨th, hheap ▸ hthread, hsame⟩
    · exact ⟨th, hheap ▸ Slots.append_of_some hthread, hsame⟩

/-- The record stays the same, step after step. -/
theorem SameRecord.trans {a b c : JobThread} (h : SameRecord a b) (h' : SameRecord b c) :
    SameRecord a c where
  id := h'.id.trans h.id
  key := h'.key.trans h.key
  status := h'.status.trans h.status
  err := h'.err.trans h.err
  finishedAt := h'.finishedAt.trans h.finishedAt
  done := h'.done.trans h.done

/-- No run changes the record of a finished job. -/
theorem finishedJob_run {s t : JobSystem} {es : List Event} (hrun : Run Step s es t) {r : ℕ}
    {th : JobThread} (hthread : s.heap[r]? = some th) (hdone : th.body = .done) :
    ∃ th', t.heap[r]? = some th' ∧ SameRecord th th' := by
  refine hrun.state_invariant (fun u => ∃ th', u.heap[r]? = some th' ∧ SameRecord th th')
    ⟨th, hthread, rfl, rfl, rfl, rfl, rfl, Iff.rfl⟩ ?_
  rintro u e v ⟨thu, hu, hsame⟩ hstep
  obtain ⟨thv, hv, hsame'⟩ := finishedJob_step hstep hu (hsame.done.mpr hdone)
  exact ⟨thv, hv, hsame.trans hsame'⟩

/-! ### The invariant -/

/-- The job may not be removed: it is running, or has finished at most 15 minutes ago. -/
def Kept (clock : ℕ) (j : StackJob) : Prop :=
  j.status = .running ∨ clock ≤ j.finishedAt + stackJobRetention

/-- What a start request knows of the jobs of its key. -/
def StartOk (s : JobSystem) : Option StartPhase → Prop
  | none => True
  | some (.pruning _ now _) => now ≤ s.clock
  | some (.checking spec todo) => ∀ (r : ℕ) (th : JobThread), s.heap[r]? = some th →
      th.job.status = .running → th.job.key = spec.key → th.job.id ∈ todo
  | some (.naming spec) => ∀ (r : ℕ) (th : JobThread), s.heap[r]? = some th →
      th.job.status = .running → th.job.key ≠ spec.key

/-- At most one job of each key is running. -/
def OneRunning (s : JobSystem) : Prop :=
  ∀ (r r' : ℕ) (th th' : JobThread), s.heap[r]? = some th → s.heap[r']? = some th' →
    th.job.status = .running → th'.job.status = .running → th.job.key = th'.job.key → r = r'

/-- The jobs, the table and the start request that holds the lock. -/
structure JobsInv (s : JobSystem) : Prop where
  drawn : ∀ (r : ℕ) (th : JobThread), s.heap[r]? = some th → th.job.id ∈ s.drawn
  table : ∀ (id : String) (r : ℕ), s.jobs.lookup id = some r →
    ∃ th, s.heap[r]? = some th ∧ th.job.id = id
  present : ∀ (r : ℕ) (th : JobThread), s.heap[r]? = some th → Kept s.clock th.job →
    s.jobs.lookup th.job.id = some r
  done : ∀ (r : ℕ) (th : JobThread), s.heap[r]? = some th →
    (th.body = .done ↔ th.job.status ≠ .running)
  oneRunning : OneRunning s
  starting : StartOk s s.starting

/-- The manager starts within the invariant. -/
theorem jobsInv_new (start : ℕ) : JobsInv (new start) where
  drawn := fun r th h => absurd h (by simp [new])
  table := fun id r h => absurd h (by simp [new])
  present := fun r th h => absurd h (by simp [new])
  done := fun r th h => absurd h (by simp [new])
  oneRunning := fun r r' th th' h => absurd h (by simp [new])
  starting := trivial

/-- What the record of a job was before a step outside of start requests: a job may end, and then
it ends now. -/
structure Before (s t : JobSystem) (th th' : JobThread) : Prop where
  id : th'.job.id = th.job.id
  key : th'.job.key = th.job.key
  running : th'.job.status = .running → th.job.status = .running
  kept : Kept t.clock th'.job → Kept s.clock th.job
  done : th'.body = .done ↔ th'.job.status ≠ .running

/-- Steps in which jobs at most end keep the invariant. -/
theorem JobsInv.of_before {s t : JobSystem} (h : JobsInv s) (hout : Outside s t)
    (hback : ∀ (r : ℕ) (th' : JobThread), t.heap[r]? = some th' →
      ∃ th, s.heap[r]? = some th ∧ Before s t th th')
    (hforth : ∀ (r : ℕ) (th : JobThread), s.heap[r]? = some th →
      ∃ th', t.heap[r]? = some th' ∧ th'.job.id = th.job.id) : JobsInv t where
  drawn := by
    intro r th' hth'
    obtain ⟨th, hth, hbefore⟩ := hback r th' hth'
    rw [hout.drawn, hbefore.id]
    exact h.drawn r th hth
  table := by
    intro id r hlookup
    rw [hout.jobs] at hlookup
    obtain ⟨th, hth, rfl⟩ := h.table id r hlookup
    exact hforth r th hth
  present := by
    intro r th' hth' hkept
    obtain ⟨th, hth, hbefore⟩ := hback r th' hth'
    rw [hout.jobs, hbefore.id]
    exact h.present r th hth (hbefore.kept hkept)
  done := by
    intro r th' hth'
    obtain ⟨th, hth, hbefore⟩ := hback r th' hth'
    exact hbefore.done
  oneRunning := by
    intro r₁ r₂ th₁' th₂' hth₁' hth₂' hrun₁ hrun₂ hkey
    obtain ⟨th₁, hth₁, hbefore₁⟩ := hback r₁ th₁' hth₁'
    obtain ⟨th₂, hth₂, hbefore₂⟩ := hback r₂ th₂' hth₂'
    refine h.oneRunning r₁ r₂ th₁ th₂ hth₁ hth₂ (hbefore₁.running hrun₁) (hbefore₂.running hrun₂) ?_
    rw [← hbefore₁.key, hkey, hbefore₂.key]
  starting := by
    have hstart := h.starting
    rw [hout.starting]
    rcases hphase : s.starting with _ | ⟨spec, now, todo⟩ | ⟨spec, todo⟩ | spec <;>
      rw [hphase] at hstart
    · trivial
    · exact hstart.trans hout.clock
    · intro r th' hth' hrun hkey
      obtain ⟨th, hth, hbefore⟩ := hback r th' hth'
      rw [hbefore.id]
      exact hstart r th hth (hbefore.running hrun) (hbefore.key.symm.trans hkey)
    · intro r th' hth' hrun
      obtain ⟨th, hth, hbefore⟩ := hback r th' hth'
      rw [hbefore.key]
      exact hstart r th hth (hbefore.running hrun)

/-- A job whose record stays. -/
theorem SameRecord.before {s t : JobSystem} {th th' : JobThread} (h : SameRecord th th')
    (hout : Outside s t) (hdone : th.body = .done ↔ th.job.status ≠ .running) :
    Before s t th th' where
  id := h.id
  key := h.key
  running := fun hrun => h.status.symm.trans hrun
  kept := by
    rintro (hrun | hclock)
    · exact Or.inl (h.status.symm.trans hrun)
    · rw [h.finishedAt] at hclock
      exact Or.inr (hout.clock.trans hclock)
  done := by rw [h.done, h.status]; exact hdone

/-- The invariant is kept when one job changes and all others stay. -/
theorem JobsInv.set {s t : JobSystem} (h : JobsInv s) (hout : Outside s t) {r : ℕ}
    {th th' : JobThread} (hth : s.heap[r]? = some th) (hheap : t.heap = s.heap.set r th')
    (hbefore : Before s t th th') : JobsInv t := by
  refine h.of_before hout ?_ ?_
  · intro k thk' hk
    rw [hheap] at hk
    rcases Slots.of_set hth hk with ⟨rfl, rfl⟩ | ⟨-, hother⟩
    · exact ⟨th, hth, hbefore⟩
    · have hsame : SameRecord thk' thk' := ⟨rfl, rfl, rfl, rfl, rfl, Iff.rfl⟩
      exact ⟨thk', hother, hsame.before hout (h.done k thk' hother)⟩
  · intro k thk hk
    rw [hheap]
    by_cases hkr : k = r
    · subst hkr
      obtain rfl : th = thk := Option.some.inj (hth.symm.trans hk)
      exact ⟨th', Slots.set_self hth th', hbefore.id⟩
    · exact ⟨thk, (Slots.set_ne hkr th').trans hk, rfl⟩

/-- A step outside of start requests keeps the invariant. -/
theorem JobsInv.end {s t : JobSystem} (h : JobsInv s) (hout : Outside s t) {r : ℕ}
    {th : JobThread} {err : Option String} (hth : s.heap[r]? = some th)
    (hbody : th.body = .stopped err)
    (hheap : t.heap = s.heap.set r { job := th.job.finish s.clock err, body := .done }) :
    JobsInv t := by
  obtain ⟨hstatus, -, hid, hkey⟩ := finish_status s.clock err th.job
  have hrunning : th.job.status = .running := by
    by_contra hnot
    cases hbody.symm.trans ((h.done r th hth).mpr hnot)
  refine h.set hout hth hheap ⟨hid, hkey, fun hrun => absurd hrun hstatus, ?_, ?_⟩
  · exact fun _ => Or.inl hrunning
  · exact iff_of_true rfl hstatus

/-- What `get` finds. -/
theorem JobsInv.of_get {s : JobSystem} {id : String} {j : StackJob} (h : JobsInv s)
    (hget : s.get id = some j) :
    ∃ r th, s.jobs.lookup id = some r ∧ s.heap[r]? = some th ∧ th.job = j ∧ j.id = id := by
  obtain ⟨r, hlookup, hmap⟩ := Option.bind_eq_some_iff.mp hget
  obtain ⟨th, hth, rfl⟩ := Option.map_eq_some_iff.mp hmap
  obtain ⟨th', hth', hid⟩ := h.table id r hlookup
  obtain rfl : th = th' := Option.some.inj (hth.symm.trans hth')
  exact ⟨r, th, hlookup, hth, rfl, hid⟩

/-- A job that may not be removed is not expired. -/
theorem not_expired_of_kept {clock now : ℕ} {j : StackJob} (hkept : Kept clock j)
    (hnow : now ≤ clock) : j.expired now = false := by
  rw [StackJob.expired, Bool.and_eq_false_iff]
  rcases hkept with hrun | hclock
  · exact Or.inl (by simp [hrun])
  · refine Or.inr (decide_eq_false ?_)
    omega

/-- The job under an ID is the one with this ID that is kept. -/
theorem JobsInv.eq_of_id {s : JobSystem} (h : JobsInv s) {id : String} {r r' : ℕ}
    {th th' : JobThread} (hlookup : s.jobs.lookup id = some r) (hth : s.heap[r]? = some th)
    (hth' : s.heap[r']? = some th') (hkept : Kept s.clock th'.job) (hid : th'.job.id = id) :
    th = th' := by
  have hold := h.present r' th' hth' hkept
  rw [hid, hlookup] at hold
  cases hold
  exact Option.some.inj (hth.symm.trans hth')

/-- A job with a new ID, of a key that no running job has, keeps the invariant. -/
theorem JobsInv.created {s : JobSystem} (h : JobsInv s) {spec : StackJobSpec} {id : String}
    (hfresh : id ∉ s.drawn) (hstart : StartOk s (some (.naming spec))) :
    JobsInv { s with
      heap := s.heap ++ [⟨newStackJob s.clock id spec, .running⟩]
      jobs := s.jobs.insert id s.heap.length
      starting := none
      drawn := id :: s.drawn } := by
  have hother : ∀ (r : ℕ) (th : JobThread), s.heap[r]? = some th → th.job.id ≠ id := by
    rintro r th hth rfl
    exact hfresh (h.drawn r th hth)
  refine ⟨?_, ?_, ?_, ?_, ?_, trivial⟩
  · intro r th hth
    rcases Slots.of_append hth with ⟨-, rfl⟩ | hold
    · exact List.mem_cons_self ..
    · exact List.mem_cons_of_mem _ (h.drawn r th hold)
  · intro id' r hlookup
    by_cases hsame : id' = id
    · rw [hsame, Finmap.lookup_insert] at hlookup
      cases hlookup
      exact ⟨_, Slots.append_self .., hsame.symm⟩
    · rw [Finmap.lookup_insert_of_ne _ hsame] at hlookup
      obtain ⟨th, hth, hid⟩ := h.table id' r hlookup
      exact ⟨th, Slots.append_of_some hth, hid⟩
  · intro r th hth hkept
    rcases Slots.of_append hth with ⟨rfl, rfl⟩ | hold
    · exact Finmap.lookup_insert _
    · change (s.jobs.insert id s.heap.length).lookup th.job.id = some r
      rw [Finmap.lookup_insert_of_ne _ (hother r th hold)]
      exact h.present r th hold hkept
  · intro r th hth
    rcases Slots.of_append hth with ⟨-, rfl⟩ | hold
    · exact iff_of_false (by simp) (by simp [newStackJob])
    · exact h.done r th hold
  · intro r₁ r₂ th₁ th₂ hth₁ hth₂ hrun₁ hrun₂ hkey
    rcases Slots.of_append hth₁ with ⟨rfl, rfl⟩ | hold₁ <;>
      rcases Slots.of_append hth₂ with ⟨rfl, rfl⟩ | hold₂
    · rfl
    · exact absurd hkey.symm (hstart r₂ th₂ hold₂ hrun₂)
    · exact absurd hkey (hstart r₁ th₁ hold₁ hrun₁)
    · exact h.oneRunning r₁ r₂ th₁ th₂ hold₁ hold₂ hrun₁ hrun₂ hkey

/-- A start request keeps the invariant. -/
theorem JobsInv.start {s t : JobSystem} {e : Event} (h : JobsInv s) (hstep : StartStep s e t) :
    JobsInv t := by
  have hstart := h.starting
  cases hstep with
  | lock hfree hrange => exact { h with starting := le_rfl }
  | keep hphase hjob hexpired =>
      rw [hphase] at hstart
      exact { h with starting := hstart }
  | @delete spec now id todo j hphase hjob hexpired =>
      rw [hphase] at hstart
      obtain ⟨r, th, hlookup, hth, rfl, hid⟩ := h.of_get hjob
      refine { h with table := ?_, present := ?_, starting := hstart }
      · intro id' r' hlookup'
        by_cases hsame : id' = id
        · rw [hsame, Finmap.lookup_erase] at hlookup'
          cases hlookup'
        · rw [Finmap.lookup_erase_ne hsame] at hlookup'
          exact h.table id' r' hlookup'
      · intro r' th' hth' hkept
        have hold := h.present r' th' hth' hkept
        by_cases hsame : th'.job.id = id
        · -- the job under this ID is expired
          obtain rfl := h.eq_of_id hlookup hth hth' hkept hsame
          cases hexpired.symm.trans (not_expired_of_kept hkept hstart)
        · change (s.jobs.erase id).lookup th'.job.id = some r'
          rw [Finmap.lookup_erase_ne hsame]
          exact hold
  | @rescan spec now order hphase hrange =>
      refine { h with starting := ?_ }
      intro r th hth hrun hkey
      refine (hrange.2 _).mpr ?_
      exact Finmap.mem_of_lookup_eq_some (h.present r th hth (Or.inl hrun))
  | @check spec id todo j hphase hjob hother =>
      rw [hphase] at hstart
      obtain ⟨r, th, hlookup, hth, rfl, hid⟩ := h.of_get hjob
      refine { h with starting := ?_ }
      intro r' th' hth' hrun hkey
      rcases List.mem_cons.mp (hstart r' th' hth' hrun hkey) with hsame | htodo
      · obtain rfl := h.eq_of_id hlookup hth hth' (Or.inl hrun) hsame
        exact absurd ⟨hkey, decide_eq_true hrun⟩ hother
      · exact htodo
  | conflict hphase hjob hsame => exact { h with starting := trivial }
  | allClear hphase =>
      rw [hphase] at hstart
      refine { h with starting := ?_ }
      exact fun r th hth hrun hkey => absurd (hstart r th hth hrun hkey) List.not_mem_nil
  | idFails hphase => exact { h with starting := trivial }
  | @created spec id hphase hfresh =>
      rw [hphase] at hstart
      exact h.created hfresh hstart

/-- **Jobs.** Every step keeps the invariant. -/
theorem JobsInv.step {s t : JobSystem} {e : Event} (h : JobsInv s) (hstep : Step s e t) :
    JobsInv t := by
  rcases step_cases hstep with ⟨hout, hheap, -⟩ | ⟨r, th, th', hout, hth, hsame, hheap, -⟩ |
    ⟨r, th, err, hout, hth, hbody, hheap, -⟩ | hstart
  · refine h.of_before hout ?_ ?_
    · intro r th hth
      rw [hheap] at hth
      have hsame : SameRecord th th := ⟨rfl, rfl, rfl, rfl, rfl, Iff.rfl⟩
      exact ⟨th, hth, hsame.before hout (h.done r th hth)⟩
    · exact fun r th hth => ⟨th, hheap ▸ hth, rfl⟩
  · exact h.set hout hth hheap (hsame.before hout (h.done r th hth))
  · exact h.end hout hth hbody hheap
  · exact h.start hstart

/-! ### The end of a job -/

/-- A job has ended as often as its goroutine has called `finish`: once, or not yet. -/
def EndedOnce (es : List Event) (s : JobSystem) : Prop :=
  ∀ r, es.count (.finish r) = if (s.heap[r]?).any (·.body = .done) then 1 else 0

/-- Another event is not counted. -/
theorem count_snoc_of_ne {es : List Event} {e : Event} {r : ℕ} (h : e ≠ .finish r) :
    (es ++ [e]).count (.finish r) = es.count (.finish r) := by
  rw [List.count_append, List.count_singleton, if_neg (by simpa using h), Nat.add_zero]

/-- One more step, and each job has still ended once at most. -/
theorem EndedOnce.step {es : List Event} {s t : JobSystem} {e : Event} (h : EndedOnce es s)
    (hstep : Step s e t) : EndedOnce (es ++ [e]) t := by
  intro r
  rcases step_cases hstep with ⟨-, hheap, hne⟩ | ⟨k, th, th', -, hth, hsame, hheap, hne⟩ |
    ⟨k, th, err, -, hth, hbody, hheap, rfl⟩ | hstart
  · rw [count_snoc_of_ne (hne r), hheap]
    exact h r
  · rw [count_snoc_of_ne (hne r), hheap, h r]
    by_cases hr : r = k
    · subst hr
      rw [Slots.set_self hth, hth, Option.any_some, Option.any_some]
      simp only [hsame.done]
    · rw [Slots.set_ne hr]
  · rw [hheap]
    by_cases hr : r = k
    · subst hr
      rw [Slots.set_self hth, List.count_append, h r, hth]
      simp [hbody]
    · rw [count_snoc_of_ne (by simpa using Ne.symm hr), Slots.set_ne hr]
      exact h r
  · rw [count_snoc_of_ne (hstart.not_finish r), h r]
    cases hstart with
    | created hphase hfresh =>
        by_cases hr : r < s.heap.length
        · rw [List.getElem?_append_left hr]
        · rw [List.getElem?_append_right (not_lt.mp hr), List.getElem?_singleton,
            List.getElem?_eq_none (not_lt.mp hr)]
          by_cases hzero : r - s.heap.length = 0
          · simp [hzero]
          · simp [hzero]
    | _ => rfl

/-! ### Refused requests -/

/-- The steps of a start request that is refused: all but the one that creates the job. -/
def Event.ofRefusedStart : Event → Bool
  | .lock _ | .prune _ | .rescan | .check _ | .conflict _ | .allClear | .idFails => true
  | _ => false

/-- Nothing is changed, except that jobs that finished more than 15 minutes ago may be removed from
the table. -/
structure OnlyPruned (s t : JobSystem) : Prop where
  clock : t.clock = s.clock
  heap : t.heap = s.heap
  extensions : t.extensions = s.extensions
  drawn : t.drawn = s.drawn
  jobs : ∀ id, t.jobs.lookup id = s.jobs.lookup id ∨
    t.jobs.lookup id = none ∧ ∃ j, s.get id = some j ∧ j.status ≠ .running ∧
      j.finishedAt + stackJobRetention < s.clock

/-- A refused start prunes and does nothing else. -/
theorem onlyPruned_step {s t : JobSystem} {e : Event} (h : JobsInv s) (hstep : Step s e t)
    (hrefused : e.ofRefusedStart = true) : OnlyPruned s t := by
  have hstart : StartStep s e t := by
    cases hstep with
    | start h => exact h
    | advance hnow => cases hrefused
    | thread hthread h => cases h <;> cases hrefused
    | extend h => cases h <;> cases hrefused
  have hphase := h.starting
  cases hstart with
  | created => cases hrefused
  | @delete spec now id todo j hpruning hjob hexpired =>
      rw [hpruning] at hphase
      refine ⟨rfl, rfl, rfl, rfl, fun id' => ?_⟩
      by_cases hsame : id' = id
      · subst hsame
        rw [StackJob.expired, Bool.and_eq_true] at hexpired
        have hlate : stackJobRetention < now - j.finishedAt := of_decide_eq_true hexpired.2
        have hnow : now ≤ s.clock := hphase
        refine Or.inr ⟨Finmap.lookup_erase .., j, hjob, of_decide_eq_true hexpired.1, ?_⟩
        omega
      · exact Or.inl (Finmap.lookup_erase_ne hsame)
  | _ => exact ⟨rfl, rfl, rfl, rfl, fun id => Or.inl rfl⟩

/-! ### Runs -/

/-- **Jobs over runs.** In every run of the job manager:
at most one job of each key is running;
a job has ended once if it is not running, and not at all if it is;
what a finished job says is never changed;
a job that is running, or has finished at most 15 minutes ago, is found under its ID;
and a step of a refused start request changes nothing but removes jobs that finished more than 15
minutes ago. -/
theorem run_stackJobs {start : ℕ} {es : List Event} {s : JobSystem}
    (hrun : Run Step (new start) es s) :
    OneRunning s ∧
      (∀ (r : ℕ) (th : JobThread), s.heap[r]? = some th →
        es.count (.finish r) = if th.job.status = .running then 0 else 1) ∧
      (∀ (r : ℕ) (th : JobThread) (fs : List Event) (t : JobSystem), s.heap[r]? = some th →
        th.job.status ≠ .running → Run Step s fs t →
        ∃ th', t.heap[r]? = some th' ∧ SameRecord th th') ∧
      (∀ (r : ℕ) (th : JobThread), s.heap[r]? = some th → Kept s.clock th.job →
        s.get th.job.id = some th.job) ∧
      (∀ (e : Event) (t : JobSystem), Step s e t → e.ofRefusedStart = true →
        OnlyPruned s t) := by
  have hinv : JobsInv s := hrun.state_invariant JobsInv (jobsInv_new start) JobsInv.step
  have hended : EndedOnce es s :=
    hrun.invariant EndedOnce (fun r => by simp [new]) EndedOnce.step
  refine ⟨hinv.oneRunning, ?_, ?_, ?_, ?_⟩
  · intro r th hth
    have hdone := hinv.done r th hth
    rw [hended r, hth, Option.any_some]
    by_cases hrunning : th.job.status = .running
    · have hbody : th.body ≠ .done := fun hbody => hdone.mp hbody hrunning
      simp [hrunning, hbody]
    · simp [hrunning, hdone.mpr hrunning]
  · intro r th fs t hth hfinished hcontinued
    exact finishedJob_run hcontinued hth ((hinv.done r th hth).mpr hfinished)
  · intro r th hth hkept
    rw [get, hinv.present r th hth hkept, Option.bind_some, hth, Option.map_some]
  · exact fun e t hstep hrefused => onlyPruned_step hinv hstep hrefused

/-! ### A job from start to end -/

/-- The goroutine of a job may come to its end. -/
theorem run_finish {s : JobSystem} {r : ℕ} {th : JobThread} (hth : s.heap[r]? = some th)
    (hbody : th.body = .running) (err : Option String) :
    ∃ th', Run Step s [.ran r err, .stopped r, .finish r] { s with heap := s.heap.set r th' } ∧
      th'.job.id = th.job.id ∧ th'.job.finishedAt = s.clock ∧
      th'.job.status = if err.isNone then .succeeded else .failed := by
  let th₁ : JobThread := { th with body := .returned err }
  let th₂ : JobThread :=
    { job := { th.job with deadline := th.job.deadline.stop }, body := .stopped err }
  let th₃ : JobThread := { job := th₂.job.finish s.clock err, body := .done }
  have hth₁ : (s.heap.set r th₁)[r]? = some th₁ := Slots.set_self hth th₁
  have hth₂ : ((s.heap.set r th₁).set r th₂)[r]? = some th₂ := Slots.set_self hth₁ th₂
  have hran : Step s (.ran r err) { s with heap := s.heap.set r th₁ } := .thread hth (.ran hbody)
  have hstopped : ThreadStep s.clock th₁ .stopped th₂ := .stopped rfl
  have hfinish : ThreadStep s.clock th₂ .finish th₃ := .finish rfl
  have hrun := ((Run.single hran).snoc (.thread hth₁ hstopped)).snoc (.thread hth₂ hfinish)
  refine ⟨th₃, ?_, ?_⟩
  · rw [List.set_set, List.set_set] at hrun
    exact hrun
  rcases err with _ | text
  · exact ⟨rfl, rfl, rfl⟩
  · exact ⟨rfl, rfl, rfl⟩

/-- A manager that has started its first job. -/
def withFirstJob (start : ℕ) (spec : StackJobSpec) (id : String) : JobSystem :=
  { new start with
    heap := [⟨newStackJob start id spec, .running⟩]
    jobs := (∅ : GoMap String ℕ).insert id 0
    drawn := [id] }

/-- A new manager may start a job. -/
theorem run_create (start : ℕ) (spec : StackJobSpec) (id : String) :
    ∃ es, Run Step (new start) es (withFirstJob start spec id) := by
  have hempty : GoMap.IsRange (∅ : GoMap String ℕ) [] :=
    GoMap.isRange_of_keys_eq rfl List.nodup_nil
  have hlock : Step (new start) (.lock spec) _ := .start (.lock rfl hempty)
  have hdrawn : id ∉ (new start).drawn := List.not_mem_nil
  exact ⟨_, (((Run.single hlock).snoc (.start (.rescan rfl hempty))).snoc
    (.start (.allClear rfl))).snoc (.start (.created rfl hdrawn))⟩

/-- A start request is refused while the first job is running. -/
theorem run_refused (start : ℕ) (spec : StackJobSpec) (id : String) :
    Run Step (withFirstJob start spec id) [.lock spec, .prune id, .rescan, .conflict id]
      (withFirstJob start spec id) := by
  have hget : (withFirstJob start spec id).get id = some (newStackJob start id spec) := by
    rw [get, withFirstJob, Finmap.lookup_insert]
    rfl
  have hrange : GoMap.IsRange (withFirstJob start spec id).jobs [id] := by
    refine GoMap.isRange_of_keys_eq ?_ (List.nodup_singleton id)
    rw [withFirstJob, GoMap.keys_insert, Finmap.keys_empty]
    rfl
  have hlock : Step (withFirstJob start spec id) (.lock spec) _ := .start (.lock rfl hrange)
  exact (((Run.single hlock).snoc (.start (.keep rfl hget rfl))).snoc
    (.start (.rescan rfl hrange))).snoc (.start (.conflict rfl hget ⟨rfl, rfl⟩))

/-- A start request that comes when the first job has expired removes it and starts another one. -/
theorem run_replaced {start now : ℕ} {spec : StackJobSpec} {id next : String} {th : JobThread}
    (hnow : start ≤ now) (hexpired : th.job.expired now = true) (hfresh : next ≠ id) :
    Run Step { withFirstJob start spec id with heap := [th] }
      [.advance now, .lock spec, .prune id, .rescan, .allClear, .created next]
      { withFirstJob start spec id with
        clock := now
        heap := [th, ⟨newStackJob now next spec, .running⟩]
        jobs := ((withFirstJob start spec id).jobs.erase id).insert next 1
        drawn := [next, id] } := by
  let s : JobSystem := { withFirstJob start spec id with clock := now, heap := [th] }
  have hkeys : s.jobs.keys = {id} := by
    rw [show s.jobs = (∅ : GoMap String ℕ).insert id 0 from rfl, GoMap.keys_insert,
      Finmap.keys_empty]
    rfl
  have hget : s.get id = some th.job := by
    rw [get, show s.jobs = (∅ : GoMap String ℕ).insert id 0 from rfl, Finmap.lookup_insert]
    rfl
  have hrange : GoMap.IsRange s.jobs [id] :=
    GoMap.isRange_of_keys_eq hkeys (List.nodup_singleton id)
  have hnone : GoMap.IsRange (s.jobs.erase id) [] := by
    refine GoMap.isRange_of_keys_eq ?_ List.nodup_nil
    rw [Finmap.keys_erase, hkeys]
    exact Finset.erase_singleton id
  have hdrawn : next ∉ s.drawn := fun h => hfresh (List.mem_singleton.mp h)
  have hadvance : Step { withFirstJob start spec id with heap := [th] } (.advance now) s :=
    .advance hnow
  exact (((((Run.single hadvance).snoc (.start (.lock rfl hrange))).snoc
    (.start (.delete rfl hget hexpired))).snoc (.start (.rescan rfl hnone))).snoc
    (.start (.allClear rfl))).snoc (.start (.created rfl hdrawn))

/-- A job is started, a second request for its stack is refused while it runs, and it succeeds; more
than 15 minutes later another one is started, and the first is gone. -/
theorem job_refused_succeeded_pruned :
    ∃ es s, Run Step (new 1) es s ∧ .conflict "5d41402abc4b2a76b9719d911017c592" ∈ es ∧
      es.count (.finish 0) = 1 ∧ s.get "5d41402abc4b2a76b9719d911017c592" = none ∧
      ∃ j, s.get "7d793037a0760186574b0282f2f435e7" = some j ∧ j.status = .running := by
  let spec : StackJobSpec := ⟨"local:host/web", "web", "up", "local:host", 10 * GoTime.minute⟩
  let id := "5d41402abc4b2a76b9719d911017c592"
  let next := "7d793037a0760186574b0282f2f435e7"
  obtain ⟨es, hcreated⟩ := run_create 1 spec id
  obtain ⟨th, hfinish, -, hfinished, hstatus⟩ := run_finish (r := 0)
    (s := withFirstJob 1 spec id) rfl rfl none
  have hexpired : th.job.expired (2 + stackJobRetention) = true := by
    rw [StackJob.expired, hstatus, hfinished]
    decide
  have hreplaced : Run Step { withFirstJob 1 spec id with heap := [th] }
      [.advance (2 + stackJobRetention), .lock spec, .prune id, .rescan, .allClear,
        .created next] _ :=
    run_replaced (by decide) hexpired (by decide)
  have hrun := (hcreated.append (run_refused 1 spec id)).append (hfinish.append hreplaced)
  obtain ⟨-, hcount, -, hget, -⟩ := run_stackJobs hrun
  refine ⟨_, _, hrun, by simp [id], ?_, ?_, _, hget 1 _ rfl (Or.inl rfl), rfl⟩
  · rw [hcount 0 th rfl, hstatus]
    rfl
  · rw [get, Finmap.lookup_insert_of_ne _ (by decide), Finmap.lookup_erase]
    rfl

end JobSystem

end Contiwatch
