import Contiwatch.Lib.GoStrings
import Contiwatch.Lib.Runs
import Mathlib.Algebra.Order.BigOperators.Group.List
import Mathlib.Data.List.Sort

/-!
# Looking up Containers

`ContainerResources` of `internal/dockerwatcher/watcher.go` looks up the resources of containers
with up to six workers. They take indices from a channel, append what they find to a shared slice,
and stop when the context has ended. The first failure is kept, and its worker cancels the context
that is derived from that of the caller.

What a worker does while it holds a lock is one step. The caller's context may end at any time, and
the derived context follows it some time later.

## Main results

* `run_length_le`, `exists_step` — every run comes to an end, and it ends with a return.
* `returns_right_iff` — what is returned is right, unless a failure is recorded before the caller's
  context has ended.
* `failure_is_lost` — the error of the look-up is not the one that is returned.
-/

namespace Contiwatch

namespace ResourceLookup

variable {Res Err : Type}

/-! ### The code -/

/-- A worker: waiting for an index, with an index in hand, looking it up, with what came of it, or
gone. -/
inductive Worker (Res Err : Type)
  | idle
  | checking (idx : ℕ)
  | looking (idx : ℕ)
  | failed (idx : ℕ) (err : Err)
  | found (idx : ℕ) (value : Res)
  | done

/-- What the goroutines share: the channel, from which `taken` of the `sent` indices were received,
the results, the first error, and the errors of the derived context and of the caller's. -/
structure Shared (Res Err : Type) where
  sent : ℕ
  taken : ℕ
  closed : Bool
  results : List (ℕ × Res)
  firstErr : Option Err
  ctxErr : Option Err
  callerErr : Option Err

/-- The goroutine of the call: it sends the indices, waits for the workers, and returns. -/
inductive Main (Res Err : Type)
  | sending
  | waiting
  | returned (result : Except Err (List Res))

structure State (Res Err : Type) where
  shared : Shared Res Err
  workers : List (Worker Res Err)
  main : Main Res Err

/-- The steps, with the outcomes of the look-ups and the ends of the two contexts. -/
inductive Event (Res Err : Type)
  | send
  | close
  | finish
  | receive
  | check
  | answer (idx : ℕ) (id : String) (outcome : Except Err Res)
  | record
  | append
  | callerEnds (err : Err)
  | ended (err : Err)

/-- The IDs that are looked up. -/
def trimmed (ids : List String) : List String :=
  (ids.map GoStrings.trimSpaceStr).filter (· ≠ "")

/-- The start of the call. -/
def start (ids : List String) : State Res Err where
  shared :=
    { sent := 0, taken := 0, closed := false, results := [], firstErr := none, ctxErr := none,
      callerErr := none }
  workers := List.replicate (min 6 (trimmed ids).length) .idle
  main := if trimmed ids = [] then .returned (.ok []) else .sending

/-- The values of the results by their indices. -/
def ordered (results : List (ℕ × Res)) : List Res :=
  (results.mergeSort fun a b => a.1 ≤ b.1).map Prod.snd

/-- What is returned after all workers are gone. -/
def Shared.outcome (s : Shared Res Err) : Except Err (List Res) :=
  match s.ctxErr with
  | some err => .error err
  | none =>
      match s.firstErr with
      | some err => .error err
      | none => .ok (ordered s.results)

/-- The section in which a worker records its failure; `canceled` is `context.Canceled`. -/
def Shared.record (canceled err : Err) (s : Shared Res Err) : Shared Res Err :=
  match s.firstErr with
  | some _ => s
  | none => { s with firstErr := some err, ctxErr := s.ctxErr.or (some canceled) }

/-- A step of a worker. -/
inductive WorkerStep (canceled : Err) (list : List String) (s : Shared Res Err) :
    Worker Res Err → Event Res Err → Shared Res Err → Worker Res Err → Prop
  | receive (h : s.taken < s.sent) :
      WorkerStep canceled list s .idle .receive { s with taken := s.taken + 1 } (.checking s.taken)
  | leave (h : s.taken = s.sent) (hclosed : s.closed = true) :
      WorkerStep canceled list s .idle .receive s .done
  | stop {idx : ℕ} (h : s.ctxErr ≠ none) :
      WorkerStep canceled list s (.checking idx) .check s .done
  | look {idx : ℕ} (h : s.ctxErr = none) :
      WorkerStep canceled list s (.checking idx) .check s (.looking idx)
  | found {idx : ℕ} {id : String} {value : Res} (hid : list[idx]? = some id) :
      WorkerStep canceled list s (.looking idx) (.answer idx id (.ok value)) s (.found idx value)
  | failed {idx : ℕ} {id : String} {err : Err} (hid : list[idx]? = some id) :
      WorkerStep canceled list s (.looking idx) (.answer idx id (.error err)) s (.failed idx err)
  | record {idx : ℕ} {err : Err} :
      WorkerStep canceled list s (.failed idx err) .record (s.record canceled err) .done
  | append {idx : ℕ} {value : Res} :
      WorkerStep canceled list s (.found idx value) .append
        { s with results := s.results ++ [(idx, value)] } .idle

/-- A step of the call: of one of the workers, of the goroutine of the call, or of a context. -/
inductive Step (canceled : Err) (list : List String) :
    State Res Err → Event Res Err → State Res Err → Prop
  | worker {s s' : Shared Res Err} {before after : List (Worker Res Err)}
      {w w' : Worker Res Err} {e : Event Res Err} {main : Main Res Err}
      (h : WorkerStep canceled list s w e s' w') :
      Step canceled list ⟨s, before ++ w :: after, main⟩ e ⟨s', before ++ w' :: after, main⟩
  | send {s : Shared Res Err} {ws : List (Worker Res Err)} (h : s.sent < list.length) :
      Step canceled list ⟨s, ws, .sending⟩ .send ⟨{ s with sent := s.sent + 1 }, ws, .sending⟩
  | close {s : Shared Res Err} {ws : List (Worker Res Err)} (h : s.sent = list.length) :
      Step canceled list ⟨s, ws, .sending⟩ .close ⟨{ s with closed := true }, ws, .waiting⟩
  | finish {s : Shared Res Err} {ws : List (Worker Res Err)} (h : ∀ w ∈ ws, w = .done) :
      Step canceled list ⟨s, ws, .waiting⟩ .finish ⟨s, ws, .returned s.outcome⟩
  | callerEnds {s : State Res Err} {err : Err} (h : ∀ r, s.main ≠ .returned r)
      (hcaller : s.shared.callerErr = none) :
      Step canceled list s (.callerEnds err)
        { s with shared := { s.shared with callerErr := some err } }
  | ended {s : State Res Err} {err : Err} (h : ∀ r, s.main ≠ .returned r)
      (hcaller : s.shared.callerErr = some err) (hctx : s.shared.ctxErr = none) :
      Step canceled list s (.ended err) { s with shared := { s.shared with ctxErr := some err } }

/-! ### Every run comes to an end -/

/-- The steps that a worker has left for the index that it has. -/
def Worker.rank : Worker Res Err → ℕ
  | .done => 0
  | .idle => 1
  | .found _ _ => 2
  | .failed _ _ => 2
  | .looking _ => 3
  | .checking _ => 4

/-- The steps that the goroutine of the call has left. -/
def Main.rank (count : ℕ) (s : Shared Res Err) : Main Res Err → ℕ
  | .sending => count - s.sent + 2
  | .waiting => 1
  | .returned _ => 0

/-- A bound for the steps that are left. -/
def State.rank (list : List String) (s : State Res Err) : ℕ :=
  s.main.rank list.length s.shared + 4 * (list.length - s.shared.taken) +
    (s.workers.map Worker.rank).sum + (if s.shared.callerErr = none then 1 else 0) +
      if s.shared.ctxErr = none then 1 else 0

variable {canceled err : Err} {list ids : List String} {s s' : Shared Res Err}
  {w w' : Worker Res Err} {e : Event Res Err} {t u : State Res Err} {es : List (Event Res Err)}

/-- Recording a failure sends no index. -/
@[simp] theorem record_sent : (s.record canceled err).sent = s.sent := by
  rw [Shared.record]
  split <;> rfl

/-- It receives none. -/
@[simp] theorem record_taken : (s.record canceled err).taken = s.taken := by
  rw [Shared.record]
  split <;> rfl

/-- It does not close the channel. -/
@[simp] theorem record_closed : (s.record canceled err).closed = s.closed := by
  rw [Shared.record]
  split <;> rfl

/-- It changes no result. -/
@[simp] theorem record_results : (s.record canceled err).results = s.results := by
  rw [Shared.record]
  split <;> rfl

/-- It does not end the caller's context. -/
@[simp] theorem record_callerErr : (s.record canceled err).callerErr = s.callerErr := by
  rw [Shared.record]
  split <;> rfl

/-- The indices are sent in order, and the channel is closed after the last one. -/
structure Channel (list : List String) (t : State Res Err) : Prop where
  taken_le : t.shared.taken ≤ t.shared.sent
  sent_le : t.shared.sent ≤ list.length
  closed : t.shared.closed = true → t.shared.sent = list.length
  waiting : t.main = .waiting → t.shared.closed = true
  workers : t.workers.length = min 6 list.length

/-- A worker neither sends indices nor closes the channel. -/
theorem WorkerStep.sent_closed (h : WorkerStep canceled list s w e s' w') :
    s'.sent = s.sent ∧ s'.closed = s.closed := by
  cases h <;> simp

/-- A worker receives only what was sent. -/
theorem WorkerStep.taken_le (h : WorkerStep canceled list s w e s' w') (hs : s.taken ≤ s.sent) :
    s'.taken ≤ s.sent := by
  cases h with
  | receive h => exact h
  | record => simpa using hs
  | _ => exact hs

/-- A step keeps the order of the channel. -/
theorem Channel.step (h : Channel list t) (hstep : Step canceled list t e u) : Channel list u := by
  cases hstep with
  | worker hw =>
      obtain ⟨hsent, hclosed⟩ := hw.sent_closed
      refine ⟨hsent ▸ hw.taken_le h.taken_le, hsent ▸ h.sent_le,
        fun hc => hsent.trans (h.closed (hclosed ▸ hc)), fun hm => hclosed.trans (h.waiting hm), ?_⟩
      rw [← h.workers, List.length_append, List.length_append, List.length_cons, List.length_cons]
  | send hlt =>
      exact ⟨Nat.le_succ_of_le h.taken_le, hlt, fun hc => absurd (h.closed hc) hlt.ne, nofun,
        h.workers⟩
  | close heq => exact ⟨h.taken_le, h.sent_le, fun _ => heq, fun _ => rfl, h.workers⟩
  | finish hall => exact ⟨h.taken_le, h.sent_le, h.closed, nofun, h.workers⟩
  | callerEnds hm hcaller => exact ⟨h.taken_le, h.sent_le, h.closed, h.waiting, h.workers⟩
  | ended hm hcaller hctx => exact ⟨h.taken_le, h.sent_le, h.closed, h.waiting, h.workers⟩

/-- The channel is empty at the start. -/
theorem channel_start : Channel (trimmed ids) (start ids : State Res Err) where
  taken_le := le_rfl
  sent_le := Nat.zero_le _
  closed := nofun
  waiting h := by
    rw [start] at h
    split at h <;> cases h
  workers := List.length_replicate

/-- A context that goes on after a failure was recorded went on before. -/
theorem ctxErr_of_record (h : (s.record canceled err).ctxErr = none) : s.ctxErr = none := by
  rw [Shared.record] at h
  split at h
  · exact h
  · exact (Option.or_eq_none_iff.mp h).1

/-- A step of a worker leaves less to do. -/
theorem WorkerStep.rank_lt (h : WorkerStep canceled list s w e s' w')
    (hsent : s.sent ≤ list.length) :
    4 * (list.length - s'.taken) + w'.rank + (if s'.ctxErr = none then 1 else 0) <
      4 * (list.length - s.taken) + w.rank + if s.ctxErr = none then 1 else 0 := by
  cases h with
  | receive h =>
      have htaken := Nat.sub_lt_sub_left (h.trans_le hsent) (Nat.lt_succ_self s.taken)
      simp only [Worker.rank]
      omega
  | record =>
      have hctx : (if (s.record canceled ‹Err›).ctxErr = none then 1 else 0) ≤
          if s.ctxErr = none then 1 else 0 := by
        split_ifs with hnew hold
        · exact le_rfl
        · exact absurd (ctxErr_of_record hnew) hold
        · exact Nat.zero_le _
        · exact le_rfl
      simp only [Worker.rank, record_taken]
      omega
  | _ => simp [Worker.rank]

/-- No worker ends the caller's context. -/
theorem WorkerStep.callerErr_eq (h : WorkerStep canceled list s w e s' w') :
    s'.callerErr = s.callerErr := by
  cases h <;> simp

/-- Every step leaves less to do. -/
theorem Step.rank_lt (h : Step canceled list t e u) (ht : Channel list t) :
    u.rank list < t.rank list := by
  cases h with
  | @worker s s' before after w w' e main hw =>
      have hlt := hw.rank_lt ht.sent_le
      have hmain : main.rank list.length s' = main.rank list.length s := by
        cases main <;> simp only [Main.rank, hw.sent_closed.1]
      simp only [State.rank, List.map_append, List.map_cons, List.sum_append, List.sum_cons,
        hw.callerErr_eq, hmain]
      omega
  | send hlt =>
      have hsub := Nat.sub_lt_sub_left hlt (Nat.lt_succ_self _)
      simp only [State.rank, Main.rank]
      omega
  | close heq =>
      simp only [State.rank, Main.rank]
      omega
  | finish hall =>
      simp only [State.rank, Main.rank]
      omega
  | callerEnds hm hcaller =>
      have hmain : ∀ caller, t.main.rank list.length { t.shared with callerErr := caller } =
          t.main.rank list.length t.shared := fun _ => by cases t.main <;> rfl
      simp [State.rank, hcaller, hmain]
  | ended hm hcaller hctx =>
      have hmain : ∀ ctx, t.main.rank list.length { t.shared with ctxErr := ctx } =
          t.main.rank list.length t.shared := fun _ => by cases t.main <;> rfl
      simp [State.rank, hctx, hmain]

/-- **Every run comes to an end.** It has no more steps than there are to do at the start. -/
theorem run_length_le (h : Run (Step canceled (trimmed ids)) (start ids) es t) :
    es.length ≤ (start ids : State Res Err).rank (trimmed ids) := by
  have hsteps : Channel (trimmed ids) t ∧
      es.length + t.rank (trimmed ids) ≤ (start ids : State Res Err).rank (trimmed ids) := by
    refine h.invariant (fun es t => Channel (trimmed ids) t ∧
      es.length + t.rank (trimmed ids) ≤ (start ids : State Res Err).rank (trimmed ids)) ?_ ?_
    · exact ⟨channel_start, (Nat.zero_add _).le⟩
    · rintro es t e u ⟨hchannel, hle⟩ hstep
      refine ⟨hchannel.step hstep, ?_⟩
      have hlt := hstep.rank_lt hchannel
      rw [List.length_append, List.length_singleton]
      omega
  exact (Nat.le_add_right _ _).trans hsteps.2

/-- The index that a worker has. -/
def Worker.index : Worker Res Err → Option ℕ
  | .checking idx | .looking idx | .failed idx _ | .found idx _ => some idx
  | .idle | .done => none

/-- While the context has not ended, every index that was received is in a result or in the hands
of a worker, and a worker is gone only after all were received. -/
structure Indices (t : State Res Err) : Prop where
  lt_taken : ∀ w ∈ t.workers, ∀ idx, w.index = some idx → idx < t.shared.taken
  noError : t.shared.ctxErr = none → t.shared.firstErr = none
  perm : t.shared.ctxErr = none →
    (t.shared.results.map Prod.fst ++ t.workers.filterMap Worker.index).Perm
      (List.range t.shared.taken)
  gone : t.shared.ctxErr = none → .done ∈ t.workers →
    t.shared.closed = true ∧ t.shared.taken = t.shared.sent

/-- After the first failure the derived context has ended. -/
theorem ctxErr_record_ne (h : s.ctxErr = none → s.firstErr = none) :
    (s.record canceled err).ctxErr ≠ none := by
  rw [Shared.record]
  split
  · rename_i hfirst
    exact fun hctx => absurd (h hctx) (by simp [hfirst])
  · simp

/-- What holds of all workers holds after one of them has changed, if it holds of that one. -/
theorem forall_mem_swap {p : Worker Res Err → Prop} {before after : List (Worker Res Err)}
    (h : ∀ v ∈ before ++ w :: after, p v) (hw : p w') : ∀ v ∈ before ++ w' :: after, p v := by
  intro v hv
  rcases List.mem_append.mp hv with hv | hv
  · exact h v (List.mem_append_left _ hv)
  · rcases List.mem_cons.mp hv with rfl | hv
    · exact hw
    · exact h v (List.mem_append_right _ (List.mem_cons_of_mem _ hv))

/-- The other workers were there before. -/
theorem mem_swap {v : Worker Res Err} {before after : List (Worker Res Err)}
    (h : v ∈ before ++ w' :: after) (hv : v ≠ w') : v ∈ before ++ w :: after := by
  rcases List.mem_append.mp h with h | h
  · exact List.mem_append_left _ h
  · exact List.mem_append_right _ (List.mem_cons_of_mem _ ((List.mem_cons.mp h).resolve_left hv))

/-- A step of a worker loses no index. -/
theorem Indices.worker {before after : List (Worker Res Err)} {main : Main Res Err}
    (h : Indices ⟨s, before ++ w :: after, main⟩) (hw : WorkerStep canceled list s w e s' w') :
    Indices ⟨s', before ++ w' :: after, main⟩ := by
  have hmem : w ∈ before ++ w :: after := List.mem_append_right _ (List.mem_cons_self ..)
  have hindex : ∀ idx, w.index = some idx → idx < s.taken := h.lt_taken w hmem
  cases hw with
  | receive htaken =>
      refine ⟨?_, h.noError, fun hctx => ?_, fun hctx hdone => ?_⟩
      · have hlater : ∀ v ∈ before ++ .idle :: after, ∀ idx, v.index = some idx →
            idx < s.taken + 1 := fun v hv idx hidx =>
          (h.lt_taken v hv idx hidx).trans (Nat.lt_succ_self _)
        refine forall_mem_swap hlater fun idx hidx => ?_
        obtain rfl := Option.some.inj hidx
        exact Nat.lt_succ_self _
      · have hperm := h.perm hctx
        simp only [List.filterMap_append, List.filterMap_cons, Worker.index] at hperm ⊢
        rw [List.range_succ, ← List.append_assoc]
        rw [← List.append_assoc] at hperm
        exact (List.perm_middle.trans (List.perm_append_singleton _ _).symm).trans
          (hperm.append_right _)
      · have hgone := h.gone hctx (mem_swap hdone nofun)
        exact absurd hgone.2 htaken.ne
  | leave htaken hclosed =>
      refine ⟨forall_mem_swap h.lt_taken nofun, h.noError, fun hctx => ?_, fun _ _ => ?_⟩
      · simpa [List.filterMap_cons, Worker.index] using h.perm hctx
      · exact ⟨hclosed, htaken⟩
  | stop hctx =>
      exact ⟨forall_mem_swap h.lt_taken nofun, h.noError, fun hnone => absurd hnone hctx,
        fun hnone => absurd hnone hctx⟩
  | look hctx =>
      refine ⟨forall_mem_swap h.lt_taken hindex, h.noError, fun hctx => ?_, fun hctx hdone => ?_⟩
      · simpa [List.filterMap_cons, Worker.index] using h.perm hctx
      · exact h.gone hctx (mem_swap hdone nofun)
  | found hid =>
      refine ⟨forall_mem_swap h.lt_taken hindex, h.noError, fun hctx => ?_, fun hctx hdone => ?_⟩
      · simpa [List.filterMap_cons, Worker.index] using h.perm hctx
      · exact h.gone hctx (mem_swap hdone nofun)
  | failed hid =>
      refine ⟨forall_mem_swap h.lt_taken hindex, h.noError, fun hctx => ?_, fun hctx hdone => ?_⟩
      · simpa [List.filterMap_cons, Worker.index] using h.perm hctx
      · exact h.gone hctx (mem_swap hdone nofun)
  | @record idx err =>
      have hctx : (s.record canceled err).ctxErr ≠ none := ctxErr_record_ne h.noError
      refine ⟨?_, fun hnone => absurd hnone hctx, fun hnone => absurd hnone hctx,
        fun hnone => absurd hnone hctx⟩
      rw [record_taken]
      exact forall_mem_swap h.lt_taken nofun
  | append =>
      refine ⟨forall_mem_swap h.lt_taken nofun, h.noError, fun hctx => ?_, fun hctx hdone => ?_⟩
      · have hperm := h.perm hctx
        simp only [List.filterMap_append, List.filterMap_cons, Worker.index, List.map_append,
          List.map_cons, List.map_nil, List.append_assoc, List.singleton_append] at hperm ⊢
        refine List.Perm.trans (List.Perm.append_left _ ?_) hperm
        exact List.perm_middle.symm
      · exact h.gone hctx (mem_swap hdone nofun)

/-- Nor does any step of the call. -/
theorem Indices.step (h : Indices t) (ht : Channel list t) (hstep : Step canceled list t e u) :
    Indices u := by
  cases hstep with
  | worker hw => exact h.worker hw
  | send hlt =>
      refine ⟨h.lt_taken, h.noError, h.perm, fun hctx hdone => ?_⟩
      exact absurd (ht.closed (h.gone hctx hdone).1) hlt.ne
  | close heq =>
      exact ⟨h.lt_taken, h.noError, h.perm, fun hctx hdone => ⟨rfl, (h.gone hctx hdone).2⟩⟩
  | finish hall => exact ⟨h.lt_taken, h.noError, h.perm, h.gone⟩
  | callerEnds hm hcaller => exact ⟨h.lt_taken, h.noError, h.perm, h.gone⟩
  | ended hm hcaller hctx => exact ⟨h.lt_taken, nofun, nofun, nofun⟩

/-- At the start there is no index to lose. -/
theorem indices_start : Indices (start ids : State Res Err) where
  lt_taken w hw idx hidx := by
    rw [List.eq_of_mem_replicate hw] at hidx
    cases hidx
  noError _ := rfl
  perm _ := by
    have hnone : (List.replicate (min 6 (trimmed ids).length)
        (Worker.idle : Worker Res Err)).filterMap Worker.index = [] := by
      rw [List.filterMap_eq_nil_iff]
      intro w hw
      rw [List.eq_of_mem_replicate hw]
      rfl
    rw [start, hnone]
    exact List.Perm.refl _
  gone _ hdone := nomatch List.eq_of_mem_replicate hdone

/-- **No index is lost in a run.** -/
theorem Indices.run (h : Run (Step canceled (trimmed ids)) (start ids) es t) :
    Channel (trimmed ids) t ∧ Indices t :=
  h.state_invariant (fun t => Channel (trimmed ids) t ∧ Indices t) ⟨channel_start, indices_start⟩
    fun ht hstep => ⟨ht.1.step hstep, ht.2.step ht.1 hstep⟩

/-- A worker that is not gone has a step, unless it waits for an index that is still to be sent. -/
theorem exists_workerStep (canceled : Err) (hw : w ≠ .done)
    (hidx : ∀ idx, w.index = some idx → idx < list.length)
    (hidle : s.taken < s.sent ∨ s.taken = s.sent ∧ s.closed = true) :
    ∃ (e : Event Res Err) (s' : Shared Res Err) (w' : Worker Res Err),
      (∀ err, e ≠ .callerEnds err) ∧ WorkerStep canceled list s w e s' w' := by
  cases w with
  | idle =>
      rcases hidle with htaken | ⟨htaken, hclosed⟩
      · exact ⟨.receive, _, _, nofun, .receive htaken⟩
      · exact ⟨.receive, _, _, nofun, .leave htaken hclosed⟩
  | checking idx =>
      by_cases hctx : s.ctxErr = none
      · exact ⟨.check, _, _, nofun, .look hctx⟩
      · exact ⟨.check, _, _, nofun, .stop hctx⟩
  | looking idx =>
      exact ⟨.answer idx _ (.error canceled), _, _, nofun,
        .failed (List.getElem?_eq_getElem (hidx idx rfl))⟩
  | failed idx err => exact ⟨.record, _, _, nofun, .record⟩
  | found idx value => exact ⟨.append, _, _, nofun, .append⟩
  | done => exact absurd rfl hw

/-- **Nothing blocks.** Until the call returns, it has a step, whether or not the caller's context
ends. -/
theorem exists_step (h : Run (Step canceled (trimmed ids)) (start ids) es t)
    (hmain : ∀ r, t.main ≠ .returned r) :
    ∃ (e : Event Res Err) (u : State Res Err),
      (∀ err, e ≠ .callerEnds err) ∧ Step canceled (trimmed ids) t e u := by
  obtain ⟨hchannel, hindices⟩ := Indices.run h
  obtain ⟨s, ws, main⟩ := t
  cases main with
  | returned r => exact absurd rfl (hmain r)
  | sending =>
      rcases hchannel.sent_le.lt_or_eq with hlt | heq
      · exact ⟨.send, _, nofun, .send hlt⟩
      · exact ⟨.close, _, nofun, .close heq⟩
  | waiting =>
      by_cases hall : ∀ w ∈ ws, w = .done
      · exact ⟨.finish, _, nofun, .finish hall⟩
      simp only [not_forall] at hall
      obtain ⟨w, hw, hne⟩ := hall
      obtain ⟨before, after, rfl⟩ := List.append_of_mem hw
      have hidx : ∀ idx, w.index = some idx → idx < (trimmed ids).length := fun idx hidx =>
        (hindices.lt_taken w hw idx hidx).trans_le (hchannel.taken_le.trans hchannel.sent_le)
      have hidle := hchannel.taken_le.lt_or_eq.imp_right fun heq =>
        (⟨heq, hchannel.waiting rfl⟩ : s.taken = s.sent ∧ s.closed = true)
      obtain ⟨e, s', w', he, hstep⟩ := exists_workerStep canceled hne hidx hidle
      exact ⟨e, _, he, .worker hstep⟩

/-! ### What is returned -/

/-- The error of the derived context: that of the first of its ends. -/
def ctxEnd (canceled : Err) : List (Event Res Err) → Option Err
  | [] => none
  | .record :: _ => some canceled
  | .ended err :: _ => some err
  | _ :: es => ctxEnd canceled es

/-- The end of the caller's context reaches the derived context before a failure is recorded. -/
def EndsFirst (es : List (Event Res Err)) : Prop :=
  ∃ pre err post, es = pre ++ .ended err :: post ∧ .record ∉ pre

/-- The first end of the contexts in two runs, one after the other. -/
theorem ctxEnd_append (fs : List (Event Res Err)) :
    ctxEnd canceled (es ++ fs) = (ctxEnd canceled es).or (ctxEnd canceled fs) := by
  induction es with
  | nil => rfl
  | cons e es ih => cases e <;> first | rfl | exact ih

/-- A step that neither records a failure nor ends the caller's context does not decide which comes
first. -/
theorem endsFirst_cons (hrecord : e ≠ .record) (hended : ∀ err, e ≠ .ended err) :
    EndsFirst (e :: es) ↔ EndsFirst es := by
  constructor
  · rintro ⟨_ | ⟨first, pre⟩, err, post, heq, hpre⟩
    · exact absurd (List.cons.inj heq).1 (hended err)
    · exact ⟨pre, err, post, (List.cons.inj heq).2, List.not_mem_of_not_mem_cons hpre⟩
  · rintro ⟨pre, err, post, rfl, hpre⟩
    refine ⟨e :: pre, err, post, rfl, fun hmem => ?_⟩
    exact hpre ((List.mem_cons.mp hmem).resolve_left (Ne.symm hrecord))

/-- The derived context has not ended, it was canceled for a failure, or it followed the caller's
context. -/
theorem ctxEnd_cases (canceled : Err) (es : List (Event Res Err)) :
    (ctxEnd canceled es = none ∧ .record ∉ es ∧ ¬ EndsFirst es) ∨
      (ctxEnd canceled es = some canceled ∧ .record ∈ es ∧ ¬ EndsFirst es) ∨
      ∃ err, ctxEnd canceled es = some err ∧ .ended err ∈ es ∧ EndsFirst es := by
  induction es with
  | nil => exact .inl ⟨rfl, List.not_mem_nil, fun ⟨pre, _, _, heq, _⟩ => by cases pre <;> cases heq⟩
  | cons e es ih =>
      have hother : e ≠ .record → (∀ err, e ≠ .ended err) →
          ctxEnd canceled (e :: es) = ctxEnd canceled es := by
        intro hrecord hended
        cases e <;> first | rfl | exact absurd rfl hrecord | exact absurd rfl (hended _)
      by_cases hrecord : e = .record
      · subst hrecord
        refine .inr (.inl ⟨rfl, List.mem_cons_self .., ?_⟩)
        rintro ⟨_ | ⟨first, pre⟩, err, post, heq, hpre⟩
        · cases heq
        · exact hpre ((List.cons.inj heq).1 ▸ List.mem_cons_self ..)
      by_cases hended : ∃ err, e = .ended err
      · obtain ⟨err, rfl⟩ := hended
        exact .inr (.inr ⟨err, rfl, List.mem_cons_self .., [], err, es, rfl, List.not_mem_nil⟩)
      · rw [not_exists] at hended
        rw [hother hrecord hended, endsFirst_cons hrecord hended, List.mem_cons,
          or_iff_right (Ne.symm hrecord)]
        refine ih.imp_right (Or.imp_right ?_)
        rintro ⟨err, hctx, hmem, hfirst⟩
        exact ⟨err, hctx, List.mem_cons_of_mem _ hmem, hfirst⟩

/-- What the steps so far say of the state. -/
structure History (canceled : Err) (list : List String) (es : List (Event Res Err))
    (t : State Res Err) : Prop where
  found : ∀ idx value, (idx, value) ∈ t.shared.results ∨ .found idx value ∈ t.workers →
    ∃ id, list[idx]? = some id ∧ .answer idx id (.ok value) ∈ es
  failed : ∀ idx err, .failed idx err ∈ t.workers → ∃ id, .answer idx id (.error err) ∈ es
  failures : ∀ idx id err, .answer idx id (.error err) ∈ es →
    (∃ idx err, .failed idx err ∈ t.workers) ∨ .record ∈ es
  recorded : .record ∈ es → ∃ idx id err, .answer idx id (.error err) ∈ es
  firstErr : t.shared.firstErr ≠ none → .record ∈ es
  ctx : t.shared.ctxErr = ctxEnd canceled es
  caller : ∀ err, t.shared.callerErr = some err → .callerEnds err ∈ es
  ended : ∀ err, .ended err ∈ es → .callerEnds err ∈ es
  returned : ∀ r, t.main = .returned r → r = t.shared.outcome ∧ ∀ w ∈ t.workers, w = .done

/-- What a step does to what the history says: where results, failures and errors come from. -/
structure StepSays (canceled : Err) (list : List String) (t : State Res Err) (e : Event Res Err)
    (u : State Res Err) : Prop where
  found : ∀ idx value, (idx, value) ∈ u.shared.results ∨ .found idx value ∈ u.workers →
    ((idx, value) ∈ t.shared.results ∨ .found idx value ∈ t.workers) ∨
      ∃ id, list[idx]? = some id ∧ e = .answer idx id (.ok value)
  failed : ∀ idx err, .failed idx err ∈ u.workers →
    .failed idx err ∈ t.workers ∨ ∃ id, e = .answer idx id (.error err)
  failures : ∀ idx err, .failed idx err ∈ t.workers ∨ (∃ id, e = .answer idx id (.error err)) →
    .failed idx err ∈ u.workers ∨ e = .record
  recorded : e = .record → ∃ idx err, .failed idx err ∈ t.workers
  firstErr : u.shared.firstErr ≠ none → t.shared.firstErr ≠ none ∨ e = .record
  ctx : u.shared.ctxErr = t.shared.ctxErr.or (ctxEnd canceled [e]) ∨
    e = .record ∧ u.shared = t.shared ∧ t.shared.firstErr ≠ none
  caller : ∀ err, u.shared.callerErr = some err → t.shared.callerErr = some err ∨
    e = .callerEnds err
  ended : ∀ err, e = .ended err → t.shared.callerErr = some err
  returned : ∀ r, u.main = .returned r → r = u.shared.outcome ∧ ∀ w ∈ u.workers, w = .done

/-- A step that says where its changes come from keeps the history. -/
theorem StepSays.history (h : StepSays canceled list t e u) (ht : History canceled list es t) :
    History canceled list (es ++ [e]) u where
  found idx value hmem := by
    rcases h.found idx value hmem with hmem | ⟨id, hid, rfl⟩
    · obtain ⟨id, hid, hanswer⟩ := ht.found idx value hmem
      exact ⟨id, hid, List.mem_append_left _ hanswer⟩
    · exact ⟨id, hid, List.mem_append_right _ (List.mem_singleton_self _)⟩
  failed idx err hmem := by
    rcases h.failed idx err hmem with hmem | ⟨id, rfl⟩
    · obtain ⟨id, hanswer⟩ := ht.failed idx err hmem
      exact ⟨id, List.mem_append_left _ hanswer⟩
    · exact ⟨id, List.mem_append_right _ (List.mem_singleton_self _)⟩
  failures idx id err hanswer := by
    have hnow : ∀ idx err, .failed idx err ∈ t.workers ∨ (∃ id, e = .answer idx id (.error err)) →
        (∃ idx err, .failed idx err ∈ u.workers) ∨ .record ∈ es ++ [e] := by
      intro idx err hfailed
      rcases h.failures idx err hfailed with hmem | rfl
      · exact .inl ⟨idx, err, hmem⟩
      · exact .inr (List.mem_append_right _ (List.mem_singleton_self _))
    rcases List.mem_append.mp hanswer with hanswer | hanswer
    · rcases ht.failures idx id err hanswer with ⟨idx, err, hmem⟩ | hrecord
      · exact hnow idx err (.inl hmem)
      · exact .inr (List.mem_append_left _ hrecord)
    · exact hnow idx err (.inr ⟨id, (List.mem_singleton.mp hanswer).symm⟩)
  recorded hrecord := by
    have hbefore : ∃ idx id err, .answer idx id (.error err) ∈ es := by
      rcases List.mem_append.mp hrecord with hrecord | hrecord
      · exact ht.recorded hrecord
      · obtain ⟨idx, err, hmem⟩ := h.recorded (List.mem_singleton.mp hrecord).symm
        obtain ⟨id, hanswer⟩ := ht.failed idx err hmem
        exact ⟨idx, id, err, hanswer⟩
    obtain ⟨idx, id, err, hanswer⟩ := hbefore
    exact ⟨idx, id, err, List.mem_append_left _ hanswer⟩
  firstErr hfirst := by
    rcases h.firstErr hfirst with hfirst | rfl
    · exact List.mem_append_left _ (ht.firstErr hfirst)
    · exact List.mem_append_right _ (List.mem_singleton_self _)
  ctx := by
    rw [ctxEnd_append, ← ht.ctx]
    rcases h.ctx with hctx | ⟨rfl, hshared, hfirst⟩
    · exact hctx
    · -- the context has ended before a second failure is recorded
      have hsome : ctxEnd canceled es ≠ none := by
        rcases ctxEnd_cases canceled es with ⟨-, hrecord, -⟩ | ⟨hctx, -⟩ | ⟨err, hctx, -⟩
        · exact absurd (ht.firstErr hfirst) hrecord
        · simp [hctx]
        · simp [hctx]
      rw [hshared, ht.ctx, Option.or_of_isSome (Option.isSome_iff_ne_none.mpr hsome)]
  caller err hcaller := by
    rcases h.caller err hcaller with hcaller | rfl
    · exact List.mem_append_left _ (ht.caller err hcaller)
    · exact List.mem_append_right _ (List.mem_singleton_self _)
  ended err hended := by
    rcases List.mem_append.mp hended with hended | hended
    · exact List.mem_append_left _ (ht.ended err hended)
    · exact List.mem_append_left _
        (ht.caller err (h.ended err (List.mem_singleton.mp hended).symm))
  returned := h.returned

/-- A step of a worker says so. -/
theorem WorkerStep.facts {before after : List (Worker Res Err)} {main : Main Res Err}
    (h : WorkerStep canceled list s w e s' w')
    (hmain : ∀ r, main = .returned r → ∀ v ∈ before ++ w :: after, v = .done) :
    StepSays canceled list ⟨s, before ++ w :: after, main⟩ e ⟨s', before ++ w' :: after, main⟩ := by
  have hreturned : ∀ r, main = .returned r → r = s'.outcome ∧
      ∀ v ∈ before ++ w' :: after, v = .done := by
    intro r hr
    have hdone := hmain r hr w (List.mem_append_right _ (List.mem_cons_self ..))
    subst hdone
    cases h
  have hcaller : ∀ err, s'.callerErr = some err → s.callerErr = some err ∨
      e = .callerEnds err := fun err hcaller => .inl (h.callerErr_eq ▸ hcaller)
  have hback : ∀ v, v ≠ w' → v ∈ before ++ w' :: after → v ∈ before ++ w :: after :=
    fun v hne hmem => mem_swap hmem hne
  have hforth : ∀ v, v ≠ w → v ∈ before ++ w :: after → v ∈ before ++ w' :: after :=
    fun v hne hmem => mem_swap hmem hne
  -- a worker that takes an index or looks at the context
  have hquiet : e = .receive ∨ e = .check → s'.results = s.results → s'.firstErr = s.firstErr →
      s'.ctxErr = s.ctxErr → (∀ idx value, w' ≠ .found idx value) →
      (∀ idx err, w ≠ .failed idx err ∧ w' ≠ .failed idx err) →
      StepSays canceled list ⟨s, before ++ w :: after, main⟩ e
        ⟨s', before ++ w' :: after, main⟩ := by
    intro he hresults hfirst hctx hfound hfailed
    refine ⟨fun _ _ hmem => .inl ?_, fun _ _ hmem => .inl (hback _ (hfailed _ _).2.symm hmem),
      fun _ _ hmem => .inl ?_, ?_, fun h => .inl (hfirst ▸ h), .inl ?_, hcaller, ?_, hreturned⟩
    · exact (hresults ▸ hmem).imp_right (hback _ (hfound _ _).symm)
    · rcases hmem with hmem | ⟨_, rfl⟩
      · exact hforth _ (hfailed _ _).1.symm hmem
      · rcases he with he | he <;> cases he
    · rcases he with rfl | rfl <;> exact nofun
    · rcases he with rfl | rfl <;> simp [hctx, ctxEnd]
    · rcases he with rfl | rfl <;> exact nofun
  cases h with
  | receive htaken => exact hquiet (.inl rfl) rfl rfl rfl nofun fun _ _ => ⟨nofun, nofun⟩
  | leave htaken hclosed => exact hquiet (.inl rfl) rfl rfl rfl nofun fun _ _ => ⟨nofun, nofun⟩
  | stop hctx => exact hquiet (.inr rfl) rfl rfl rfl nofun fun _ _ => ⟨nofun, nofun⟩
  | look hctx => exact hquiet (.inr rfl) rfl rfl rfl nofun fun _ _ => ⟨nofun, nofun⟩
  | @found idx id value hid =>
      refine ⟨fun idx' value' hmem => ?_, fun _ _ hmem => .inl (hback _ nofun hmem),
        fun _ _ hmem => ?_, nofun, .inl, .inl (by simp [ctxEnd]), hcaller, nofun, hreturned⟩
      · rcases hmem with hmem | hmem
        · exact .inl (.inl hmem)
        by_cases heq : Worker.found idx' value' = (.found idx value : Worker Res Err)
        · obtain ⟨rfl, rfl⟩ := Worker.found.inj heq
          exact .inr ⟨id, hid, rfl⟩
        · exact .inl (.inr (hback _ heq hmem))
      · rcases hmem with hmem | ⟨_, hanswer⟩
        · exact .inl (hforth _ nofun hmem)
        · cases hanswer
  | @failed idx id err hid =>
      refine ⟨fun _ _ hmem => .inl (hmem.imp_right (hback _ nofun)), fun idx' err' hmem => ?_,
        fun idx' err' hmem => ?_, nofun, .inl, .inl (by simp [ctxEnd]), hcaller, nofun, hreturned⟩
      · by_cases heq : Worker.failed idx' err' = (.failed idx err : Worker Res Err)
        · obtain ⟨rfl, rfl⟩ := Worker.failed.inj heq
          exact .inr ⟨id, rfl⟩
        · exact .inl (hback _ heq hmem)
      · rcases hmem with hmem | ⟨id', hanswer⟩
        · exact .inl (hforth _ nofun hmem)
        · obtain ⟨rfl, -, heq⟩ := Event.answer.inj hanswer
          rw [Except.error.inj heq]
          exact .inl (List.mem_append_right _ (List.mem_cons_self ..))
  | @record idx err =>
      refine ⟨fun _ _ hmem => .inl ?_, fun _ _ hmem => .inl (hback _ nofun hmem),
        fun _ _ _ => .inr rfl, fun _ => ⟨idx, err, List.mem_append_right _ (List.mem_cons_self ..)⟩,
        fun _ => .inr rfl, ?_, hcaller, nofun, hreturned⟩
      · rw [record_results] at hmem
        exact hmem.imp_right (hback _ nofun)
      · rcases hfirst : s.firstErr with _ | first
        · refine .inl ?_
          rw [Shared.record, hfirst]
          rfl
        · refine .inr ⟨rfl, ?_, nofun⟩
          rw [Shared.record, hfirst]
  | @append idx value =>
      refine ⟨fun idx' value' hmem => .inl ?_, fun _ _ hmem => .inl (hback _ nofun hmem),
        fun _ _ hmem => ?_, nofun, .inl, .inl (by simp [ctxEnd]), hcaller, nofun, hreturned⟩
      · rcases hmem with hmem | hmem
        · rcases List.mem_append.mp hmem with hmem | hmem
          · exact .inl hmem
          · obtain ⟨rfl, rfl⟩ := Prod.mk.inj (List.mem_singleton.mp hmem)
            exact .inr (List.mem_append_right _ (List.mem_cons_self ..))
        · exact .inr (hback _ nofun hmem)
      · rcases hmem with hmem | ⟨_, hanswer⟩
        · exact .inl (hforth _ nofun hmem)
        · cases hanswer

/-- So does every step of the call. -/
theorem Step.facts (h : Step canceled list t e u)
    (ht : ∀ r, t.main = .returned r → ∀ w ∈ t.workers, w = .done) :
    StepSays canceled list t e u := by
  cases h with
  | worker hw => exact hw.facts ht
  | send hlt => constructor <;> simp_all [ctxEnd]
  | close heq => constructor <;> simp_all [ctxEnd]
  | finish hall =>
      refine ⟨fun _ _ => .inl, fun _ _ => .inl, fun _ _ hmem => ?_, nofun, .inl,
        .inl (by simp [ctxEnd]), fun _ => .inl, nofun, fun r hr => ?_⟩
      · exact .inl (hmem.resolve_right nofun)
      · cases hr
        exact ⟨rfl, hall⟩
  | callerEnds hm hcaller => constructor <;> simp_all [ctxEnd]
  | ended hm hcaller hctx => constructor <;> simp_all [ctxEnd]

@[simp] theorem ordered_nil : ordered ([] : List (ℕ × Res)) = [] := by
  rw [ordered, List.mergeSort_nil, List.map_nil]

/-- There is nothing to say at the start. -/
theorem history_start : History canceled (trimmed ids) [] (start ids : State Res Err) where
  found _ _ h := by
    rcases h with h | h
    · cases h
    · cases List.eq_of_mem_replicate h
  failed _ _ h := nomatch List.eq_of_mem_replicate h
  failures _ _ _ h := nomatch h
  recorded h := nomatch h
  firstErr h := absurd rfl h
  ctx := rfl
  caller _ h := nomatch h
  ended _ h := nomatch h
  returned r h := by
    rw [start] at h ⊢
    split at h
    · rename_i hnone
      rw [hnone]
      cases h
      exact ⟨by simp [Shared.outcome], nofun⟩
    · cases h

/-- After every run the history says where the state comes from. -/
theorem History.run (h : Run (Step canceled (trimmed ids)) (start ids) es t) :
    History canceled (trimmed ids) es t :=
  h.invariant (History canceled (trimmed ids)) history_start fun ht hstep =>
    (hstep.facts fun r hr => (ht.returned r hr).2).history ht

/-! ### Right results -/

/-- The results have all indices; then they are ordered by them. -/
theorem ordered_spec {results : List (ℕ × Res)} {count : ℕ}
    (h : (results.map Prod.fst).Perm (List.range count)) :
    (ordered results).length = count ∧
      ∀ idx < count, ∃ value, (ordered results)[idx]? = some value ∧ (idx, value) ∈ results := by
  have hperm := List.mergeSort_perm results fun a b => a.1 ≤ b.1
  have hsorted : ((results.mergeSort fun a b => a.1 ≤ b.1).map Prod.fst).Pairwise (· ≤ ·) := by
    rw [List.pairwise_map]
    refine (List.pairwise_mergeSort ?_ ?_ results).imp fun hle => of_decide_eq_true hle
    · intro a b c hab hbc
      exact decide_eq_true ((of_decide_eq_true hab).trans (of_decide_eq_true hbc))
    · intro a b
      simpa using Nat.le_total a.1 b.1
  have hrange : (results.mergeSort fun a b => a.1 ≤ b.1).map Prod.fst = List.range count := by
    refine List.Perm.eq_of_pairwise (fun a b _ _ hab hba => Nat.le_antisymm hab hba) hsorted ?_
      ((hperm.map _).trans h)
    exact List.pairwise_le_range
  refine ⟨?_, fun idx hidx => ?_⟩
  · rw [ordered, List.length_map, ← List.length_map Prod.fst, hrange, List.length_range]
  · have hget := congrArg (·[idx]?) hrange
    simp only [List.getElem?_map, List.getElem?_range hidx, Option.map_eq_some_iff] at hget
    obtain ⟨⟨i, value⟩, hvalue, rfl⟩ := hget
    refine ⟨value, ?_, hperm.mem_iff.mp (List.mem_of_getElem? hvalue)⟩
    rw [ordered, List.getElem?_map, hvalue]
    rfl

/-- What is returned is right: one resource for each ID, in the order of the IDs, if no look-up
failed; or the error of a look-up that failed, or that of the caller's context, if it has ended. -/
def Right (list : List String) (es : List (Event Res Err)) : Except Err (List Res) → Prop
  | .ok values =>
      values.length = list.length ∧
        (∀ idx id, list[idx]? = some id →
          ∃ value, values[idx]? = some value ∧ .answer idx id (.ok value) ∈ es) ∧
        ∀ idx id err, .answer idx id (.error err) ∉ es
  | .error err => (∃ idx id, .answer idx id (.error err) ∈ es) ∨ .callerEnds err ∈ es

/-- No look-up fails, the caller's context ends before a failure is recorded, or `context.Canceled`
is right by chance: it is the error of a look-up, or that of the caller's context. -/
def NothingLost (canceled : Err) (es : List (Event Res Err)) : Prop :=
  (∀ idx id err, .answer idx id (.error err) ∉ es) ∨ EndsFirst es ∨
    (∃ idx id, .answer idx id (.error canceled) ∈ es) ∨ .callerEnds canceled ∈ es

/-- If the context has not ended, all workers have left after the last index. -/
theorem taken_eq (hchannel : Channel list t) (hindices : Indices t)
    (hctx : t.shared.ctxErr = none) (hall : ∀ w ∈ t.workers, w = .done) :
    t.shared.taken = list.length := by
  rcases hlist : list.length with _ | n
  · exact Nat.le_zero.mp (hlist ▸ hchannel.taken_le.trans hchannel.sent_le)
  · have hlength := hchannel.workers
    rw [hlist] at hlength
    obtain ⟨w, hw⟩ := List.exists_mem_of_length_pos (l := t.workers) (by omega)
    have hdone : .done ∈ t.workers := hall w hw ▸ hw
    obtain ⟨hclosed, htaken⟩ := hindices.gone hctx hdone
    rw [htaken, hchannel.closed hclosed, hlist]

/-- **What is returned** is right exactly if no failure is recorded before the context of the
caller has ended, or the error is right by chance. -/
theorem returns_right_iff (h : Run (Step canceled (trimmed ids)) (start ids) es t)
    {r : Except Err (List Res)} (hr : t.main = .returned r) :
    Right (trimmed ids) es r ↔ NothingLost canceled es := by
  obtain ⟨hchannel, hindices⟩ := Indices.run h
  have hhistory := History.run h
  obtain ⟨rfl, hall⟩ := hhistory.returned r hr
  have hctx := hhistory.ctx
  rcases ctxEnd_cases canceled es with ⟨hend, hrecord, hfirst⟩ | ⟨hend, hrecord, hfirst⟩ |
    ⟨err, hend, hended, hfirst⟩ <;> rw [hend] at hctx
  · have hnofail : ∀ idx id err, .answer idx id (.error err) ∉ es := by
      intro idx id err hanswer
      rcases hhistory.failures idx id err hanswer with ⟨idx, err, hmem⟩ | hmem
      · cases hall _ hmem
      · exact hrecord hmem
    refine iff_of_true ?_ (.inl hnofail)
    have hnone : t.workers.filterMap Worker.index = [] := by
      rw [List.filterMap_eq_nil_iff]
      intro w hw
      rw [hall w hw]
      rfl
    have hperm := hindices.perm hctx
    rw [hnone, List.append_nil, taken_eq hchannel hindices hctx hall] at hperm
    obtain ⟨hlength, hvalues⟩ := ordered_spec hperm
    rw [Shared.outcome, hctx, hindices.noError hctx]
    refine ⟨hlength, fun idx id hid => ?_, hnofail⟩
    obtain ⟨hidx, -⟩ := List.getElem?_eq_some_iff.mp hid
    obtain ⟨value, hvalue, hmem⟩ := hvalues idx hidx
    obtain ⟨id', hid', hanswer⟩ := hhistory.found idx value (.inl hmem)
    obtain rfl := Option.some.inj (hid.symm.trans hid')
    exact ⟨value, hvalue, hanswer⟩
  · have hfail : ¬ ∀ idx id err, .answer idx id (.error err) ∉ es := by
      obtain ⟨idx, id, err, hanswer⟩ := hhistory.recorded hrecord
      exact fun hnofail => hnofail idx id err hanswer
    rw [Shared.outcome, hctx, Right, NothingLost, or_iff_right hfail, or_iff_right hfirst]
  · rw [Shared.outcome, hctx]
    exact iff_of_true (.inr (hhistory.ended err hended)) (.inr (.inl hfirst))

/-- What is returned without an error is right. -/
theorem returns_ok (h : Run (Step canceled (trimmed ids)) (start ids) es t) {values : List Res}
    (hr : t.main = .returned (.ok values)) : Right (trimmed ids) es (.ok values) := by
  have hhistory := History.run h
  obtain ⟨houtcome, hall⟩ := hhistory.returned _ hr
  have hctx : ctxEnd canceled es = none := by
    rw [← hhistory.ctx]
    cases hended : t.shared.ctxErr with
    | none => rfl
    | some err =>
        rw [Shared.outcome, hended] at houtcome
        cases houtcome
  rw [returns_right_iff h hr]
  refine Or.inl fun idx id err hanswer => ?_
  rcases ctxEnd_cases canceled es with ⟨-, hrecord, -⟩ | ⟨hend, -⟩ | ⟨err, hend, -⟩
  · rcases hhistory.failures idx id err hanswer with ⟨idx, err, hfailed⟩ | hmem
    · cases hall _ hfailed
    · exact hrecord hmem
  all_goals
    rw [hctx] at hend
    cases hend

/-- **Looking up containers.** The call comes to an end whatever the order of the steps, and no
step that it makes waits for the caller's context to end. What it returns is right exactly if no
failure is recorded before the context of the caller has ended, or the error is right by chance. -/
theorem containerResources_iff (canceled : Err) (ids : List String) :
    (∀ (es : List (Event Res Err)) (t : State Res Err),
        Run (Step canceled (trimmed ids)) (start ids) es t →
          es.length ≤ (start ids : State Res Err).rank (trimmed ids) ∧
            ((∀ r, t.main ≠ .returned r) → ∃ (e : Event Res Err) (u : State Res Err),
              (∀ err, e ≠ .callerEnds err) ∧ Step canceled (trimmed ids) t e u)) ∧
      ∀ (es : List (Event Res Err)) (t : State Res Err) (r : Except Err (List Res)),
        Run (Step canceled (trimmed ids)) (start ids) es t → t.main = .returned r →
          (Right (trimmed ids) es r ↔ NothingLost canceled es) :=
  ⟨fun _ _ h => ⟨run_length_le h, exists_step h⟩, fun _ _ _ h hr => returns_right_iff h hr⟩

/-- A step of the only worker. -/
theorem Step.one {main : Main Res Err} (h : WorkerStep canceled list s w e s' w') :
    Step canceled list ⟨s, [w], main⟩ e ⟨s', [w'], main⟩ :=
  @Step.worker Res Err canceled list s s' [] [] w w' e main h

/-- The look-up of one container that is not there. -/
def missing : List (Event ℕ String) :=
  [.send, .close, .receive, .check, .answer 0 "a" (.error "No such container: a"), .record, .finish]

/-- **A failure is lost.** The look-up of a container fails, the caller's context has not ended, and
the call returns that the context was canceled. -/
theorem failure_is_lost : ∃ t : State ℕ String,
    Run (Step "context canceled" (trimmed [" a "])) (start [" a "]) missing t ∧
      t.main = .returned (.error "context canceled") ∧
      ¬ Right (trimmed [" a "]) missing (.error "context canceled" : Except String (List ℕ)) := by
  have hids : trimmed [" a "] = ["a"] := by decide
  have hstart : (start [" a "] : State ℕ String) =
      { shared := { sent := 0, taken := 0, closed := false, results := [], firstErr := none,
                    ctxErr := none, callerErr := none }
        workers := [.idle]
        main := .sending } := by
    rw [start, hids]
    rfl
  rw [hids, hstart]
  refine ⟨{ shared := { sent := 1, taken := 1, closed := true, results := [],
                        firstErr := some "No such container: a",
                        ctxErr := some "context canceled", callerErr := none }
            workers := [.done]
            main := .returned (.error "context canceled") }, ?_, rfl, ?_⟩
  · have hsent := Run.single
      (@Step.send ℕ String "context canceled" ["a"] ⟨0, 0, false, [], none, none, none⟩ [.idle]
        Nat.one_pos)
    have hclosed := hsent.snoc (Step.close rfl)
    have hlooking := (hclosed.snoc (Step.one (.receive Nat.one_pos))).snoc (Step.one (.look rfl))
    have hfailed := hlooking.snoc
      (Step.one (@WorkerStep.failed ℕ String _ _ _ 0 "a" "No such container: a" rfl))
    exact (hfailed.snoc (Step.one .record)).snoc (Step.finish fun w hw => List.mem_singleton.mp hw)
  · rintro (⟨idx, id, hmem⟩ | hmem)
    · simp [missing] at hmem
    · simp [missing] at hmem

end ResourceLookup

end Contiwatch
