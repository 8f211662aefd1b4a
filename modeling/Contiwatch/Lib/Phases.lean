import Contiwatch.Lib.Forall2
import Contiwatch.Lib.Prog

/-!
# Phases of Programs

A protocol gives a program a phase that no operation can see: it says which operations a phase
allows, and which phase an operation and its answer lead to. That a program obeys a protocol is
proved by rules of pre- and postconditions, one for each way of building a program. In a pool
every thread is then in a phase of its own, and an invariant may relate the shared state to the
phases of all threads.

## Main results

* `Prog.Obeys.bind` — the rule for a sequence of programs.
* `Pool.run_phases` — the rule for invariants of state and phases under interleaving.
* `Prog.Obeys.ops` — what a phase rules out, the program does not do.
-/

/-- A protocol over operations: what a phase allows, and the next phase. -/
structure Protocol {Op : Type} (Res : Op → Type) (φ : Type) where
  Allowed : φ → Op → Prop
  next : φ → (o : Op) → Res o → φ

namespace Prog

variable {Op : Type} {Res : Op → Type} {α β φ : Type}

/-- `Obeys P Q f p`: from the phase `f` on, whatever the answers, the program `p` makes only
operations that its phase allows, and returns only results `a` in phases `g` with `Q a g`. -/
inductive Obeys (P : Protocol Res φ) (Q : α → φ → Prop) : φ → Prog Res α → Prop
  | done {f : φ} {a : α} (h : Q a f) : Obeys P Q f (.done a)
  | op {f : φ} {o : Op} {next : Res o → Prog Res α} (h : P.Allowed f o)
      (hnext : ∀ r, Obeys P Q (P.next f o r) (next r)) : Obeys P Q f (.op o next)

section

variable {P : Protocol Res φ} {Q : α → φ → Prop} {f : φ}

/-- To obey is to be allowed the first operation and to obey in the phase after it. -/
theorem obeys_op {o : Op} {next : Res o → Prog Res α} :
    Obeys P Q f (.op o next) ↔ P.Allowed f o ∧ ∀ r, Obeys P Q (P.next f o r) (next r) := by
  constructor
  · rintro ⟨⟩
    exact ⟨‹_›, ‹_›⟩
  · rintro ⟨ho, hnext⟩
    exact .op ho hnext

/-- A program that is done has reached its end phase. -/
theorem obeys_done {a : α} : Obeys P Q f (.done a : Prog Res α) ↔ Q a f := by
  constructor
  · rintro ⟨⟩
    assumption
  · exact .done

/-- So has a `pure`. -/
theorem obeys_pure {a : α} (h : Q a f) : Obeys P Q f (pure a : Prog Res α) := .done h

/-- One operation obeys where it is allowed. -/
theorem obeys_call {o : Op} {Q : Res o → φ → Prop} (ho : P.Allowed f o)
    (h : ∀ r, Q r (P.next f o r)) : Obeys P Q f (call o) :=
  .op ho fun r => .done (h r)

/-- **A sequence of programs.** The second goes on in the phase that the first ends in. -/
theorem Obeys.bind {R : β → φ → Prop} {p : Prog Res α} {k : α → Prog Res β}
    (hp : Obeys P Q f p) (hk : ∀ a g, Q a g → Obeys P R g (k a)) : Obeys P R f (p >>= k) := by
  induction hp with
  | done h => exact hk _ _ h
  | op ho _ ih => exact .op ho ih

/-- Both branches obey as far as their condition goes. -/
theorem Obeys.ite {c : Prop} [Decidable c] {p q : Prog Res α} (hp : c → Obeys P Q f p)
    (hq : ¬ c → Obeys P Q f q) : Obeys P Q f (if c then p else q) := by
  by_cases hc : c
  · rw [if_pos hc]
    exact hp hc
  · rw [if_neg hc]
    exact hq hc

/-- A weaker end phase is reached as well. -/
theorem Obeys.mono {R : α → φ → Prop} {p : Prog Res α} (h : Obeys P Q f p)
    (hQR : ∀ a g, Q a g → R a g) : Obeys P R f p := by
  induction h with
  | done h => exact .done (hQR _ _ h)
  | op ho _ ih => exact .op ho ih

/-- A program whose operations stay within the phases `J`. -/
theorem obeys_of_ops {J : φ → Prop} {G : Op → Prop} {p : Prog Res α} (h : Ops G p) (hf : J f)
    (hG : ∀ g o, G o → J g → P.Allowed g o ∧ ∀ r, J (P.next g o r)) :
    Obeys P (fun _ => J) f p := by
  induction h generalizing f with
  | done a => exact .done hf
  | op ho _ ih => exact .op (hG _ _ ho hf).1 fun r => ih r ((hG _ _ ho hf).2 r)

/-- What the phases `J` rule out, a program that stays within them does not do. -/
theorem Obeys.ops {J : φ → Prop} {G : Op → Prop} {p : Prog Res α} (h : Obeys P Q f p)
    (hf : J f) (hJ : ∀ g o, J g → P.Allowed g o → G o ∧ ∀ r, J (P.next g o r)) : Ops G p := by
  induction h with
  | done => exact .done _
  | op ho _ ih => exact .op (hJ _ _ hf ho).1 fun r => ih r ((hJ _ _ hf ho).2 r)

end

/-! ### Operations that are still to come -/

/-- Whatever the answers, the program makes an operation in `A`, and none in `B` before. -/
inductive Owes (A B : Op → Prop) : Prog Res α → Prop
  | now {o : Op} {next : Res o → Prog Res α} (h : A o) : Owes A B (.op o next)
  | later {o : Op} {next : Res o → Prog Res α} (h : ¬ B o) (hnext : ∀ r, Owes A B (next r)) :
      Owes A B (.op o next)

variable {P : Protocol Res φ} {Q : α → φ → Prop} {f : φ} {A B : Op → Prop} {p : Prog Res α}

/-- A program in the phases `J`, which only an operation in `A` leaves and in which the program
cannot end, is to make one. -/
theorem Obeys.owes {J : φ → Prop} (h : Obeys P Q f p) (hf : J f) (hdone : ∀ a g, J g → ¬ Q a g)
    (hJ : ∀ g o, J g → P.Allowed g o → ¬ A o → ¬ B o ∧ ∀ r, J (P.next g o r)) :
    p.Owes A B := by
  classical
  induction h with
  | done h => exact absurd h (hdone _ _ hf)
  | @op g o next ho _ ih =>
      by_cases hA : A o
      · exact .now hA
      · obtain ⟨hB, hstays⟩ := hJ _ _ hf ho hA
        exact .later hB fun r => ih r (hstays r)

/-- A program in the phases `J`, which rule out the operations in `A` and which only an
operation in `B` leaves, is not to make one in `A` first. -/
theorem Obeys.not_owes {J : φ → Prop} [∀ o, Nonempty (Res o)] (h : Obeys P Q f p) (hf : J f)
    (hJ : ∀ g o, J g → P.Allowed g o → ¬ A o ∧ (¬ B o → ∀ r, J (P.next g o r))) :
    ¬ p.Owes A B := by
  intro howes
  induction howes generalizing f with
  | now hA =>
      obtain ⟨ho, -⟩ := obeys_op.mp h
      exact (hJ _ _ hf ho).1 hA
  | @later o next hB _ ih =>
      obtain ⟨ho, hnext⟩ := obeys_op.mp h
      obtain ⟨r⟩ := ‹∀ o, Nonempty (Res o)› o
      exact ih r (hnext r) ((hJ _ _ hf ho).2 hB r)

end Prog

/-! ### Phases in a pool -/

namespace Pool

variable {σ ι Op : Type} {Res : Op → Type} {α φ : Type}

/-- Every thread serves the request and is in the phase that stands beside it. -/
def Aligned (P : Protocol Res φ) (Q : α → φ → Prop) (threads : List (ι × Prog Res α))
    (phases : List (ι × φ)) : Prop :=
  List.Forall₂ (fun th ph => th.1 = ph.1 ∧ Prog.Obeys P Q ph.2 th.2) threads phases

section

variable {P : Protocol Res φ} {Q : α → φ → Prop}

/-- A thread has a phase. -/
theorem Aligned.of_thread {threads : List (ι × Prog Res α)} {phases : List (ι × φ)} {i : ι}
    {p : Prog Res α} (h : Aligned P Q threads phases) (hmem : (i, p) ∈ threads) :
    ∃ f, (i, f) ∈ phases ∧ Prog.Obeys P Q f p := by
  obtain ⟨⟨j, f⟩, hf, hj, hobeys⟩ := h.exists_right hmem
  obtain rfl : i = j := hj
  exact ⟨f, hf, hobeys⟩

/-- A phase belongs to a thread. -/
theorem Aligned.of_phase {threads : List (ι × Prog Res α)} {phases : List (ι × φ)} {i : ι}
    {f : φ} (h : Aligned P Q threads phases) (hmem : (i, f) ∈ phases) :
    ∃ p, (i, p) ∈ threads ∧ Prog.Obeys P Q f p := by
  obtain ⟨⟨j, p⟩, hp, hj, hobeys⟩ := h.exists_left hmem
  obtain rfl : j = i := hj
  exact ⟨p, hp, hobeys⟩

/-- Where a thread stands, its phase stands. -/
theorem Aligned.split {front back : List (ι × Prog Res α)} {i : ι} {p : Prog Res α}
    {phases : List (ι × φ)} (h : Aligned P Q (front ++ (i, p) :: back) phases) :
    ∃ fs f gs, phases = fs ++ (i, f) :: gs ∧ Aligned P Q front fs ∧ Prog.Obeys P Q f p ∧
      Aligned P Q back gs := by
  induction front generalizing phases with
  | nil =>
      cases h with
      | @cons _ ph _ gs hhead htail =>
          obtain ⟨j, f⟩ := ph
          obtain ⟨rfl, hobeys⟩ := hhead
          exact ⟨[], f, gs, rfl, .nil, hobeys, htail⟩
  | cons th front ih =>
      cases h with
      | @cons _ ph _ rest hhead htail =>
          obtain ⟨fs, f, gs, rfl, hfront, hobeys, hback⟩ := ih htail
          exact ⟨ph :: fs, f, gs, rfl, .cons hhead hfront, hobeys, hback⟩

/-- Aligned threads stand beside others. -/
theorem Aligned.append {front back : List (ι × Prog Res α)} {fs gs : List (ι × φ)}
    (h₁ : Aligned P Q front fs) (h₂ : Aligned P Q back gs) :
    Aligned P Q (front ++ back) (fs ++ gs) :=
  List.rel_append h₁ h₂

/-- What holds of every thread holds after one of them has changed, if the others keep it. -/
theorem forall_changed {γ : Type} {P P' : γ → Prop} {fs gs : List γ} {a b : γ}
    (h : ∀ x ∈ fs ++ a :: gs, P x) (hothers : ∀ x ∈ fs ++ a :: gs, P x → P' x) (hown : P' b) :
    ∀ x ∈ fs ++ b :: gs, P' x := by
  intro x hx
  rcases List.mem_append.mp hx with hfront | hrest
  · have hmem : x ∈ fs ++ a :: gs := List.mem_append_left _ hfront
    exact hothers x hmem (h x hmem)
  rcases List.mem_cons.mp hrest with rfl | hback
  · exact hown
  · have hmem : x ∈ fs ++ a :: gs := List.mem_append_right _ (List.mem_cons_of_mem _ hback)
    exact hothers x hmem (h x hmem)

variable {sem : (o : Op) → σ → Res o → σ → Prop} {prog : ι → Prog Res α}
  {start : ι → σ → σ → Prop} {env : σ → σ → Prop} {init : ι → φ}
  {C : Pool σ ι Res α → PoolEvent ι Res → Prop} {I : σ → List (ι × φ) → Prop}

/-- **Invariants of state and phases.** Let every program obey the protocol from the phase that
`init` gives its request, and let `I` be preserved by the start of a thread, by the
surroundings, and by every operation that the phase of its thread allows. Then in every run of
the pool whose steps meet the condition `C`, the threads are in phases that fit their programs,
and `I` holds of the state and the phases. -/
theorem run_phases {s : σ} {es : List (PoolEvent ι Res)} {q : Pool σ ι Res α}
    (hprog : ∀ i, Prog.Obeys P Q (init i) (prog i)) (h0 : I s [])
    (hstart : ∀ {p phases i t}, Aligned P Q p.threads phases → I p.state phases →
      C p (.start i) → start i p.state t → I t (phases ++ [(i, init i)]))
    (henv : ∀ {p phases t}, I p.state phases → C p .env → env p.state t → I t phases)
    (hop : ∀ {p fs gs i f o r t} {next : Res o → Prog Res α},
      Aligned P Q p.threads (fs ++ (i, f) :: gs) → I p.state (fs ++ (i, f) :: gs) →
      (i, .op o next) ∈ p.threads → Prog.Obeys P Q f (.op o next) → C p (.op i o r) →
      sem o p.state r t → I t (fs ++ (i, P.next f o r) :: gs))
    (hrun : Run (fun p e q => Step sem prog start env p e q ∧ C p e) ⟨s, []⟩ es q) :
    ∃ phases, Aligned P Q q.threads phases ∧ I q.state phases := by
  have hbase : Aligned P Q ([] : List (ι × Prog Res α)) [] := .nil
  refine hrun.state_invariant
    (fun q => ∃ phases, Aligned P Q q.threads phases ∧ I q.state phases) ⟨[], hbase, h0⟩ ?_
  rintro p e q ⟨phases, haligned, hI⟩ ⟨hstep, hcond⟩
  cases hstep with
  | @start i t h =>
      refine ⟨phases ++ [(i, init i)], haligned.append ?_, hstart haligned hI hcond h⟩
      exact .cons ⟨rfl, hprog i⟩ .nil
  | @op front back i o next r t hthread hsem =>
      rw [hthread] at haligned
      obtain ⟨fs, f, gs, rfl, hfront, hobeys, hback⟩ := haligned.split
      refine ⟨fs ++ (i, P.next f o r) :: gs, hfront.append (.cons ⟨rfl, ?_⟩ hback), ?_⟩
      · exact (Prog.obeys_op.mp hobeys).2 r
      · refine hop (hthread ▸ haligned) hI ?_ hobeys hcond hsem
        rw [hthread]
        exact List.mem_append_right _ (List.mem_cons_self ..)
  | env h => exact ⟨phases, haligned, henv hI hcond h⟩

end

end Pool
