import Contiwatch.Lib.Runs

/-!
# Programs of Atomic Operations

A program makes one operation after another on a shared state and goes on according to their
answers. The operations are the atomic sections of the code: what one thread does while it
holds a lock. `Res o` is the type of the answers of the operation `o`, and a semantics says
which answers and which next state an operation may have; the answers of the outside world
are left open that way.

A program can run alone, or in a pool with other threads, whose operations come in any order
between its own.

## Main results

* `Prog.exec_bind` — a sequence of programs run alone is the sequence of their runs.
* `Prog.Exec.of_through` — a program whose operations are carried out by others, on a part of a
  larger state, does there what it does by itself.
* `Prog.exec_run_bind`, `Prog.exec_deferring` — the same for programs that can fail and for what
  they do after a failure too.
* `Pool.run_invariant` — the rule for invariants under interleaving: what every operation that
  the programs can make preserves, in the states where it is made, holds in every state of
  every run of the pool.
* `Pool.run_condition_iff` — a condition on steps that is met exactly where they preserve the
  invariant singles out the runs that keep it.
-/

/-- A program over the operations `Op` with answers of the types `Res`. -/
inductive Prog {Op : Type} (Res : Op → Type) (α : Type) : Type
  | done (a : α)
  | op (o : Op) (next : Res o → Prog Res α)

namespace Prog

variable {Op : Type} {Res : Op → Type} {α β σ : Type}

/-- One program after another. -/
def bind : Prog Res α → (α → Prog Res β) → Prog Res β
  | done a, f => f a
  | op o next, f => op o fun r => (next r).bind f

instance : Monad (Prog Res) where
  pure := done
  bind := bind

/-- The program that makes one operation. -/
def call (o : Op) : Prog Res (Res o) := op o done

@[simp] theorem done_bind (a : α) (f : α → Prog Res β) : (done a : Prog Res α) >>= f = f a := rfl

/-! ### A program run alone -/

/-- `Exec sem p s a t`: run alone from the state `s`, the program `p` may return `a` in the
state `t`. -/
inductive Exec (sem : (o : Op) → σ → Res o → σ → Prop) : Prog Res α → σ → α → σ → Prop
  | done {a : α} {s : σ} : Exec sem (.done a) s a s
  | op {o : Op} {next : Res o → Prog Res α} {s t u : σ} {r : Res o} {a : α} :
      sem o s r t → Exec sem (next r) t a u → Exec sem (.op o next) s a u

section

variable {sem : (o : Op) → σ → Res o → σ → Prop} {s t : σ} {a : α} {b : β}

/-- A program that is done answers its value and changes nothing. -/
@[simp] theorem exec_done {a' : α} : Exec sem (done a) s a' t ↔ a' = a ∧ t = s := by
  constructor
  · rintro ⟨⟩
    exact ⟨rfl, rfl⟩
  · rintro ⟨rfl, rfl⟩
    exact .done

/-- A run of an operation is the operation's step and a run of the rest. -/
@[simp] theorem exec_op {o : Op} {next : Res o → Prog Res α} :
    Exec sem (op o next) s a t ↔ ∃ r u, sem o s r u ∧ Exec sem (next r) u a t := by
  constructor
  · rintro ⟨⟩
    exact ⟨_, _, ‹_›, ‹_›⟩
  · rintro ⟨r, u, hsem, hnext⟩
    exact .op hsem hnext

/-- A call's run is one step of the operation. -/
theorem exec_call {o : Op} {r : Res o} : Exec sem (call o) s r t ↔ sem o s r t := by
  rw [call, exec_op]
  constructor
  · rintro ⟨r', u, hsem, hdone⟩
    obtain ⟨rfl, rfl⟩ := exec_done.mp hdone
    exact hsem
  · exact fun hsem => ⟨r, t, hsem, .done⟩

/-- A sequence of programs run alone. -/
theorem exec_bind {p : Prog Res α} {f : α → Prog Res β} :
    Exec sem (p >>= f) s b t ↔ ∃ a u, Exec sem p s a u ∧ Exec sem (f a) u b t := by
  induction p generalizing s with
  | done a =>
      rw [done_bind]
      constructor
      · exact fun h => ⟨a, s, .done, h⟩
      · rintro ⟨a', u, hdone, h⟩
        obtain ⟨rfl, rfl⟩ := exec_done.mp hdone
        exact h
  | op o next ih =>
      change Exec sem (op o fun r => next r >>= f) s b t ↔ _
      rw [exec_op]
      constructor
      · rintro ⟨r, u, hsem, hrest⟩
        obtain ⟨a, v, hnext, hf⟩ := (ih r).mp hrest
        exact ⟨a, v, .op hsem hnext, hf⟩
      · rintro ⟨a, v, hp, hf⟩
        obtain ⟨r, u, hsem, hnext⟩ := exec_op.mp hp
        exact ⟨r, u, hsem, (ih r).mpr ⟨a, v, hnext, hf⟩⟩

/-- `Partial sem p s q t`: run alone from the state `s`, the program `p` may come to the point
where `q` is left to do, in the state `t`. -/
inductive Partial (sem : (o : Op) → σ → Res o → σ → Prop) :
    Prog Res α → σ → Prog Res α → σ → Prop
  | refl {p : Prog Res α} {s : σ} : Partial sem p s p s
  | op {o : Op} {next : Res o → Prog Res α} {s t u : σ} {r : Res o} {q : Prog Res α} :
      sem o s r t → Partial sem (next r) t q u → Partial sem (.op o next) s q u

/-- Started runs compose. -/
theorem Partial.trans {p q r : Prog Res α} {u : σ} (h : Partial sem p s q t)
    (h' : Partial sem q t r u) : Partial sem p s r u := by
  induction h with
  | refl => exact h'
  | op hsem _ ih => exact .op hsem (ih h')

/-- What is left to do may be done. -/
theorem Partial.exec {p q : Prog Res α} {u : σ} (h : Partial sem p s q t)
    (h' : Exec sem q t a u) : Exec sem p s a u := by
  induction h with
  | refl => exact h'
  | op hsem _ ih => exact .op hsem (ih h')

/-- More answers, more started runs. -/
theorem Partial.mono {sem' : (o : Op) → σ → Res o → σ → Prop} {p q : Prog Res α}
    (hsem : ∀ {o s r t}, sem o s r t → sem' o s r t) (h : Partial sem p s q t) :
    Partial sem' p s q t := by
  induction h with
  | refl => exact .refl
  | op h _ ih => exact .op (hsem h) ih

/-- Run alone from the state `s`, the program may come to the state `t`. -/
def Reaches (sem : (o : Op) → σ → Res o → σ → Prop) (p : Prog Res α) (s t : σ) : Prop :=
  ∃ q, Partial sem p s q t

/-- A program has reached the state it starts in. -/
theorem Reaches.refl (p : Prog Res α) (s : σ) : Reaches sem p s s := ⟨p, .refl⟩

/-- More answers, more reachable states. -/
theorem Reaches.mono {sem' : (o : Op) → σ → Res o → σ → Prop} {p : Prog Res α}
    (hsem : ∀ {o s r t}, sem o s r t → sem' o s r t) (h : Reaches sem p s t) :
    Reaches sem' p s t := by
  obtain ⟨q, hpartial⟩ := h
  exact ⟨q, hpartial.mono hsem⟩

/-- A sequence goes as far as its first program. -/
theorem Partial.bind {p q : Prog Res α} (f : α → Prog Res β) (h : Partial sem p s q t) :
    Partial sem (p >>= f) s (q >>= f) t := by
  induction h with
  | refl => exact .refl
  | op hsem _ ih => exact .op hsem ih

/-- Within a sequence, the first program may be under way. -/
theorem Reaches.bind {p : Prog Res α} (f : α → Prog Res β) (h : Reaches sem p s t) :
    Reaches sem (p >>= f) s t := by
  obtain ⟨q, hpartial⟩ := h
  exact ⟨q >>= f, hpartial.bind f⟩

/-- A program that is done has nothing left to do. -/
theorem Exec.toDone {p : Prog Res α} (h : Exec sem p s a t) :
    Partial sem p s (.done a) t := by
  induction h with
  | done => exact .refl
  | op hsem _ ih => exact .op hsem ih

/-- Once the first program of a sequence is done, the second one is left to do. -/
theorem Exec.partial_bind {p : Prog Res α} (f : α → Prog Res β) (h : Exec sem p s a t) :
    Partial sem (p >>= f) s (f a) t := by
  induction h with
  | done => exact .refl
  | op hsem _ ih => exact .op hsem ih

/-- Within a sequence, the first program may be done. -/
theorem Exec.reaches_bind {u : σ} {p : Prog Res α} {f : α → Prog Res β}
    (h : Exec sem p s a t) (hf : Reaches sem (f a) t u) : Reaches sem (p >>= f) s u := by
  obtain ⟨q, hpartial⟩ := hf
  exact ⟨q, (h.partial_bind f).trans hpartial⟩

end

/-! ### Operations carried out by programs -/

section

variable {Op' : Type} {Res' : Op' → Type} {τ : Type}

/-- Every operation is carried out by a program over other operations. -/
def through (carryOut : (o : Op) → Prog Res' (Res o)) : Prog Res α → Prog Res' α
  | done a => done a
  | op o next => carryOut o >>= fun r => (next r).through carryOut

/-- If every operation is carried out on a part of the state, and keeps what `Kept` says of the
rest, so does the program. -/
theorem Exec.of_through {sem : (o : Op) → σ → Res o → σ → Prop}
    {sem' : (o : Op') → τ → Res' o → τ → Prop} {carryOut : (o : Op) → Prog Res' (Res o)}
    (view : τ → σ) (Kept : τ → τ → Prop) (hrefl : ∀ t, Kept t t)
    (htrans : ∀ {t u v}, Kept t u → Kept u v → Kept t v)
    (hcarry : ∀ {o t r u}, Exec sem' (carryOut o) t r u → sem o (view t) r (view u) ∧ Kept t u)
    {p : Prog Res α} {t u : τ} {a : α} (h : Exec sem' (p.through carryOut) t a u) :
    Exec sem p (view t) a (view u) ∧ Kept t u := by
  induction p generalizing t with
  | done b =>
      obtain ⟨rfl, rfl⟩ := exec_done.mp h
      exact ⟨.done, hrefl _⟩
  | op o next ih =>
      obtain ⟨r, v, hfirst, hrest⟩ := exec_bind.mp h
      obtain ⟨hsem, hkept⟩ := hcarry hfirst
      obtain ⟨hexec, hkept'⟩ := ih r hrest
      exact ⟨.op hsem hexec, htrans hkept hkept'⟩

end

/-! ### Programs that can fail -/

/-- A program and what is done after it in any case: what a deferred call does. -/
def deferring {ε : Type} (p : ExceptT ε (Prog Res) α) (cleanup : Prog Res Unit) :
    ExceptT ε (Prog Res) α :=
  .mk (p.run >>= fun r => cleanup >>= fun _ => done r)

section

variable {ε : Type} {sem : (o : Op) → σ → Res o → σ → Prop} {s t : σ}

/-- A sequence fails with its first part, or ends like its second. -/
theorem exec_run_bind {p : ExceptT ε (Prog Res) α} {f : α → ExceptT ε (Prog Res) β}
    {r : Except ε β} :
    Exec sem (p >>= f).run s r t ↔
      (∃ e, r = .error e ∧ Exec sem p.run s (.error e) t) ∨
        ∃ a u, Exec sem p.run s (.ok a) u ∧ Exec sem (f a).run u r t := by
  change Exec sem (p.run >>= ExceptT.bindCont f) s r t ↔ _
  rw [exec_bind]
  constructor
  · rintro ⟨e | a, u, hp, hf⟩
    · obtain ⟨rfl, rfl⟩ := exec_done.mp hf
      exact .inl ⟨e, rfl, hp⟩
    · exact .inr ⟨a, u, hp, hf⟩
  · rintro (⟨e, rfl, hp⟩ | ⟨a, u, hp, hf⟩)
    · exact ⟨.error e, t, hp, .done⟩
    · exact ⟨.ok a, u, hp, hf⟩

/-- A `pure` of the error monad succeeds and changes nothing. -/
@[simp] theorem exec_run_pure {r : Except ε α} {a : α} :
    Exec sem (pure a : ExceptT ε (Prog Res) α).run s r t ↔ r = .ok a ∧ t = s :=
  exec_done

/-- A `throw` fails and changes nothing. -/
@[simp] theorem exec_run_throw {r : Except ε α} {e : ε} :
    Exec sem (throw e : ExceptT ε (Prog Res) α).run s r t ↔ r = .error e ∧ t = s :=
  exec_done

/-- A failure that is caught. -/
theorem exec_run_tryCatch {p : ExceptT ε (Prog Res) α} {f : ε → ExceptT ε (Prog Res) α}
    {r : Except ε α} :
    Exec sem (tryCatch p f).run s r t ↔
      (∃ a, r = .ok a ∧ Exec sem p.run s (.ok a) t) ∨
        ∃ e u, Exec sem p.run s (.error e) u ∧ Exec sem (f e).run u r t := by
  change Exec sem (p.run >>= _) s r t ↔ _
  rw [exec_bind]
  constructor
  · rintro ⟨e | a, u, hp, hf⟩
    · exact .inr ⟨e, u, hp, hf⟩
    · obtain ⟨rfl, rfl⟩ := exec_done.mp hf
      exact .inl ⟨a, rfl, hp⟩
  · rintro (⟨a, rfl, hp⟩ | ⟨e, u, hp, hf⟩)
    · exact ⟨.ok a, t, hp, .done⟩
    · exact ⟨.error e, u, hp, hf⟩

/-- The deferred program runs after the body, whatever the body answers. -/
theorem exec_deferring {p : ExceptT ε (Prog Res) α} {cleanup : Prog Res Unit} {r : Except ε α} :
    Exec sem (deferring p cleanup).run s r t ↔
      ∃ u, Exec sem p.run s r u ∧ Exec sem cleanup u () t := by
  change Exec sem (p.run >>= fun r => cleanup >>= fun _ => done r) s r t ↔ _
  rw [exec_bind]
  constructor
  · rintro ⟨r', u, hp, hrest⟩
    obtain ⟨⟨⟩, v, hcleanup, hdone⟩ := exec_bind.mp hrest
    obtain ⟨rfl, rfl⟩ := exec_done.mp hdone
    exact ⟨u, hp, hcleanup⟩
  · rintro ⟨u, hp, hcleanup⟩
    exact ⟨r, u, hp, exec_bind.mpr ⟨(), t, hcleanup, .done⟩⟩

end

/-! ### A program run by a function -/

/-- The run in which every operation is answered by the function. -/
def eval (answer : (o : Op) → σ → Res o × σ) : Prog Res α → σ → α × σ
  | done a, s => (a, s)
  | op o next, s => eval answer (next (answer o s).1) (answer o s).2

/-- A deterministic evaluation is one of the runs. -/
theorem exec_eval {sem : (o : Op) → σ → Res o → σ → Prop} {answer : (o : Op) → σ → Res o × σ}
    (h : ∀ o s, sem o s (answer o s).1 (answer o s).2) (p : Prog Res α) (s : σ) :
    Exec sem p s (p.eval answer s).1 (p.eval answer s).2 := by
  induction p generalizing s with
  | done a => exact .done
  | op o next ih => exact .op (h o s) (ih _ _)

/-! ### The operations a program can make -/

/-- Every operation that the program can make, whatever the answers, satisfies `G`. -/
inductive Ops (G : Op → Prop) : Prog Res α → Prop
  | done (a : α) : Ops G (.done a)
  | op {o : Op} {next : Res o → Prog Res α} (ho : G o) (hnext : ∀ r, Ops G (next r)) :
      Ops G (.op o next)

variable {G : Op → Prop}

/-- The operations of a program are its first one and those of what follows. -/
theorem ops_op {o : Op} {next : Res o → Prog Res α} :
    Ops G (op o next) ↔ G o ∧ ∀ r, Ops G (next r) := by
  constructor
  · rintro ⟨⟩
    exact ⟨‹_›, ‹_›⟩
  · rintro ⟨ho, hnext⟩
    exact .op ho hnext

/-- A `pure` uses no operation. -/
theorem ops_pure (a : α) : Ops G (pure a : Prog Res α) := .done a

/-- A call uses one. -/
theorem ops_call {o : Op} (h : G o) : Ops G (call o : Prog Res (Res o)) :=
  .op h fun r => .done r

/-- Allowed programs compose. -/
theorem Ops.bind {p : Prog Res α} {f : α → Prog Res β} (hp : Ops G p)
    (hf : ∀ a, Ops G (f a)) : Ops G (p >>= f) := by
  induction hp with
  | done a => exact hf a
  | op ho _ ih => exact .op ho ih

/-- Both branches may use what their condition entitles them to. -/
theorem Ops.ite {c : Prop} [Decidable c] {p q : Prog Res α} (hp : c → Ops G p)
    (hq : ¬ c → Ops G q) : Ops G (if c then p else q) := by
  by_cases hc : c
  · rw [if_pos hc]
    exact hp hc
  · rw [if_neg hc]
    exact hq hc

/-- Allowing more operations allows every program allowed before. -/
theorem Ops.mono {H : Op → Prop} {p : Prog Res α} (hGH : ∀ o, G o → H o) (h : Ops G p) :
    Ops H p := by
  induction h with
  | done a => exact .done a
  | op ho _ ih => exact .op (hGH _ ho) ih

/-- Where every operation is allowed, so is every program. -/
theorem ops_of_forall (hG : ∀ o, G o) (p : Prog Res α) : Ops G p := by
  induction p with
  | done a => exact .done a
  | op o next ih => exact .op (hG o) ih

/-- What every operation that the program can make preserves, a run of the program alone
preserves. -/
theorem Exec.invariant {sem : (o : Op) → σ → Res o → σ → Prop} {I : σ → Prop} {p : Prog Res α}
    {s t : σ} {a : α} (h : Exec sem p s a t) (hp : Ops G p) (hs : I s)
    (hop : ∀ {o s r t}, G o → I s → sem o s r t → I t) : I t := by
  induction h with
  | done => exact hs
  | op hsem _ ih =>
      obtain ⟨ho, hnext⟩ := ops_op.mp hp
      exact ih (hnext _) (hop ho hs hsem)

/-- A program comes to an end if all operations have answers. -/
theorem exists_exec {sem : (o : Op) → σ → Res o → σ → Prop}
    (htotal : ∀ o s, ∃ r t, sem o s r t) (p : Prog Res α) (s : σ) :
    ∃ a t, Exec sem p s a t := by
  induction p generalizing s with
  | done a => exact ⟨a, s, .done⟩
  | op o next ih =>
      obtain ⟨r, t, hsem⟩ := htotal o s
      obtain ⟨a, u, hexec⟩ := ih r t
      exact ⟨a, u, .op hsem hexec⟩

/-! ### The results a program can return -/

/-- Every result that the program can return, whatever the answers, satisfies `P`. -/
inductive Results (P : α → Prop) : Prog Res α → Prop
  | done {a : α} (ha : P a) : Results P (.done a)
  | op {o : Op} {next : Res o → Prog Res α} (hnext : ∀ r, Results P (next r)) :
      Results P (.op o next)

/-- A `pure` answers its value. -/
theorem results_pure {P : α → Prop} {a : α} (ha : P a) : Results P (pure a : Prog Res α) :=
  .done ha

/-- A sequence answers what its last part answers. -/
theorem Results.bind {P : β → Prop} (p : Prog Res α) {f : α → Prog Res β}
    (hf : ∀ a, (f a).Results P) : (p >>= f).Results P := by
  induction p with
  | done a => exact hf a
  | op o next ih => exact .op ih

/-- What is known of the results of the first program may be used for the second. -/
theorem Results.seq {P : α → Prop} {Q : β → Prop} {p : Prog Res α} {f : α → Prog Res β}
    (hp : p.Results P) (hf : ∀ a, P a → (f a).Results Q) : (p >>= f).Results Q := by
  induction hp with
  | done ha => exact hf _ ha
  | op _ ih => exact .op ih

/-- What a program always answers, each of its runs answers. -/
theorem Exec.results {sem : (o : Op) → σ → Res o → σ → Prop} {P : α → Prop} {p : Prog Res α}
    {s t : σ} {a : α} (h : Exec sem p s a t) (hp : p.Results P) : P a := by
  induction h with
  | done =>
      cases hp with
      | done ha => exact ha
  | op _ _ ih =>
      cases hp with
      | op hnext => exact ih (hnext _)

end Prog

/-! ### A pool of threads -/

/-- A shared state and the threads that work on it, each with the request it serves. -/
structure Pool (σ ι : Type) {Op : Type} (Res : Op → Type) (α : Type) where
  state : σ
  threads : List (ι × Prog Res α)

/-- What happens in a pool: a thread starts, a thread makes an operation and gets an answer,
or the surroundings change the state. -/
inductive PoolEvent (ι : Type) {Op : Type} (Res : Op → Type) : Type
  | start (i : ι)
  | op (i : ι) (o : Op) (r : Res o)
  | env

namespace Pool

variable {σ ι Op : Type} {Res : Op → Type} {α : Type}

/-- The steps of a pool: `prog` gives the program of a request, `start` says when it may
start and what that does to the state, `env` what the surroundings may do. -/
inductive Step (sem : (o : Op) → σ → Res o → σ → Prop) (prog : ι → Prog Res α)
    (start : ι → σ → σ → Prop) (env : σ → σ → Prop) :
    Pool σ ι Res α → PoolEvent ι Res → Pool σ ι Res α → Prop
  | start {p : Pool σ ι Res α} {i : ι} {t : σ} (h : start i p.state t) :
      Step sem prog start env p (.start i) ⟨t, p.threads ++ [(i, prog i)]⟩
  | op {p : Pool σ ι Res α} {front back : List (ι × Prog Res α)} {i : ι} {o : Op}
      {next : Res o → Prog Res α} {r : Res o} {t : σ}
      (hthread : p.threads = front ++ (i, .op o next) :: back) (h : sem o p.state r t) :
      Step sem prog start env p (.op i o r) ⟨t, front ++ (i, next r) :: back⟩
  | env {p : Pool σ ι Res α} {t : σ} (h : env p.state t) :
      Step sem prog start env p .env ⟨t, p.threads⟩

section

variable {sem : (o : Op) → σ → Res o → σ → Prop} {prog : ι → Prog Res α}
  {start : ι → σ → σ → Prop} {env : σ → σ → Prop} {G : ι → Op → Prop}

/-- A thread may run while the others wait. -/
theorem run_partial {C : σ → PoolEvent ι Res → Prop} {p q : Prog Res α} {s t : σ}
    {i : ι} (h : Prog.Partial (fun o s r t => sem o s r t ∧ C s (.op i o r)) p s q t)
    (front back : List (ι × Prog Res α)) :
    ∃ es, Run (fun p e q => Step sem prog start env p e q ∧ C p.state e)
      ⟨s, front ++ (i, p) :: back⟩ es ⟨t, front ++ (i, q) :: back⟩ := by
  induction h with
  | refl => exact ⟨[], .nil⟩
  | op hsem _ ih =>
      obtain ⟨es, hrun⟩ := ih
      exact ⟨_, (Run.single ⟨Step.op rfl hsem.1, hsem.2⟩).append hrun⟩

/-- The same without a condition. -/
theorem run_alone {p q : Prog Res α} {s t : σ} {i : ι} (h : Prog.Partial sem p s q t)
    (front back : List (ι × Prog Res α)) :
    ∃ es, Run (Step sem prog start env) ⟨s, front ++ (i, p) :: back⟩ es
      ⟨t, front ++ (i, q) :: back⟩ := by
  induction h with
  | refl => exact ⟨[], .nil⟩
  | op hsem _ ih =>
      obtain ⟨es, hrun⟩ := ih
      exact ⟨_, (Run.single (Step.op rfl hsem)).append hrun⟩

/-- A request that may start may run from there on, under the condition `C`, while the others
wait. -/
theorem run_reaches {C : σ → PoolEvent ι Res → Prop} {p : Pool σ ι Res α} {i : ι} {s t : σ}
    (hstart : start i p.state s) (hC : C p.state (.start i))
    (h : Prog.Reaches (fun o s r t => sem o s r t ∧ C s (.op i o r)) (prog i) s t) :
    ∃ es threads, Run (fun p e q => Step sem prog start env p e q ∧ C p.state e) p es
      ⟨t, threads⟩ := by
  obtain ⟨q, hpartial⟩ := h
  obtain ⟨es, hrun⟩ : ∃ es, Run (fun p e q => Step sem prog start env p e q ∧ C p.state e)
      ⟨s, p.threads ++ [(i, prog i)]⟩ es ⟨t, p.threads ++ [(i, q)]⟩ := run_partial hpartial _ _
  exact ⟨_, _, (Run.single ⟨Step.start hstart, hC⟩).append hrun⟩

/-- Threads stay within the operations their programs can make. -/
theorem Step.ops {p q : Pool σ ι Res α} {e : PoolEvent ι Res}
    (hprog : ∀ i, (prog i).Ops (G i)) (h : Step sem prog start env p e q)
    (hp : ∀ th ∈ p.threads, th.2.Ops (G th.1)) : ∀ th ∈ q.threads, th.2.Ops (G th.1) := by
  cases h with
  | @start i t hstart =>
      intro th hth
      rcases List.mem_append.mp hth with hold | hnew
      · exact hp th hold
      · rw [List.mem_singleton.mp hnew]
        exact hprog i
  | @op front back i o next r t hthread hsem =>
      intro th hth
      rw [hthread] at hp
      rcases List.mem_append.mp hth with hfront | hrest
      · exact hp th (List.mem_append_left _ hfront)
      rcases List.mem_cons.mp hrest with rfl | hback
      · exact (Prog.ops_op.mp (hp _ (List.mem_append_right _ (List.mem_cons_self ..)))).2 r
      · exact hp th (List.mem_append_right _ (List.mem_cons_of_mem _ hback))
  | env henv => exact hp

/-- **Invariants under interleaving.** Let `I` be preserved by the start of a thread, by the
surroundings, and by every operation within `G` that is made under the condition `C`. Then in
every run of the pool whose steps meet the condition, `I` holds in the state reached. -/
theorem run_invariant {I : σ → Prop} {C : σ → PoolEvent ι Res → Prop} {s : σ}
    {es : List (PoolEvent ι Res)} {q : Pool σ ι Res α} (hprog : ∀ i, (prog i).Ops (G i))
    (hstart : ∀ {i s t}, I s → start i s t → I t)
    (henv : ∀ {s t}, I s → env s t → I t)
    (hop : ∀ {i o r s t}, I s → G i o → C s (.op i o r) → sem o s r t → I t)
    (h0 : I s)
    (hrun : Run (fun p e q => Step sem prog start env p e q ∧ C p.state e) ⟨s, []⟩ es q) :
    I q.state := by
  refine (hrun.state_invariant (fun p => I p.state ∧ ∀ th ∈ p.threads, th.2.Ops (G th.1))
    ⟨h0, fun th hth => absurd hth List.not_mem_nil⟩ ?_).1
  rintro p e q ⟨hI, hops⟩ ⟨hstep, hcond⟩
  refine ⟨?_, hstep.ops hprog hops⟩
  cases hstep with
  | start h => exact hstart hI h
  | op hthread hsem =>
      rw [hthread] at hops
      have hthreadOps := hops _ (List.mem_append_right _ (List.mem_cons_self ..))
      exact hop hI (Prog.ops_op.mp hthreadOps).1 hcond hsem
  | env h => exact henv hI h

/-- **The runs that keep an invariant.** Let every step from a state with `I` lead to a state
with `I` exactly if it meets the condition `C`. Then the runs of the pool in which `I` holds all
the time are exactly those whose steps meet the condition. -/
theorem run_condition_iff {I : σ → Prop} {C : σ → PoolEvent ι Res → Prop} {s : σ}
    {es : List (PoolEvent ι Res)} {q : Pool σ ι Res α} (hprog : ∀ i, (prog i).Ops (G i))
    (hstart : ∀ {i s t}, I s → start i s t → (I t ↔ C s (.start i)))
    (henv : ∀ {s t}, I s → env s t → (I t ↔ C s .env))
    (hop : ∀ {i o r s t}, I s → G i o → sem o s r t → (I t ↔ C s (.op i o r)))
    (h0 : I s) :
    Run (fun p e q => Step sem prog start env p e q ∧ I q.state) ⟨s, []⟩ es q ↔
      Run (fun p e q => Step sem prog start env p e q ∧ C p.state e) ⟨s, []⟩ es q := by
  refine Run.congr (fun p => I p.state ∧ ∀ th ∈ p.threads, th.2.Ops (G th.1))
    ⟨h0, fun th hth => absurd hth List.not_mem_nil⟩ ?_ ?_
  · rintro p e q ⟨-, hops⟩ ⟨hstep, hI⟩
    exact ⟨hI, hstep.ops hprog hops⟩
  · rintro p e q ⟨hI, hops⟩
    refine and_congr_right fun hstep => ?_
    cases hstep with
    | start h => exact hstart hI h
    | op hthread hsem =>
        rw [hthread] at hops
        have hthreadOps := hops _ (List.mem_append_right _ (List.mem_cons_self ..))
        exact hop hI (Prog.ops_op.mp hthreadOps).1 hsem
    | env h => exact henv hI h

end

end Pool
