import Mathlib.Data.List.Basic
import Mathlib.Data.List.Induction

/-!
# Runs of a Labelled Transition System

A transition system is a relation `step : σ → ε → σ → Prop`; a `Run` is a finite sequence
of its steps together with the list of their labels, oldest first. Because the labels are
kept, a property of a run may speak about its whole history.

* `Run.invariant` — the induction rule: what holds of the empty history and is preserved
  by every step holds of every run.
* `Run.state_invariant` — the same for a property of the state alone.
* `Run.mono` — a run of a system is a run of every larger one.
* `Run.strengthen` — the same for a system that has its steps where an invariant holds.
* `Run.congr` — systems that agree where an invariant holds have the same runs.
-/

/-- `Run step s es t`: the steps labelled `es`, oldest first, lead from `s` to `t`. -/
inductive Run {σ ε : Type} (step : σ → ε → σ → Prop) (s : σ) : List ε → σ → Prop
  | nil : Run step s [] s
  | snoc {es : List ε} {t u : σ} {e : ε} :
      Run step s es t → step t e u → Run step s (es ++ [e]) u

namespace Run

variable {σ ε : Type} {step : σ → ε → σ → Prop} {s t : σ} {es : List ε}

/-- **The invariant rule**: a relation between history and state that holds initially and
is preserved by every step holds after every run. -/
theorem invariant (I : List ε → σ → Prop) (h0 : I [] s)
    (hstep : ∀ {es t e u}, I es t → step t e u → I (es ++ [e]) u)
    (h : Run step s es t) : I es t := by
  induction h with
  | nil => exact h0
  | snoc _ he ih => exact hstep ih he

/-- The invariant rule for a property of the state. -/
theorem state_invariant (I : σ → Prop) (h0 : I s)
    (hstep : ∀ {t e u}, I t → step t e u → I u) (h : Run step s es t) : I t :=
  h.invariant (fun _ => I) h0 fun ht he => hstep ht he

/-- A run of a system is a run of every system that has its steps. -/
theorem mono {step' : σ → ε → σ → Prop} (hstep : ∀ {t e u}, step t e u → step' t e u)
    (h : Run step s es t) : Run step' s es t := by
  induction h with
  | nil => exact .nil
  | snoc _ he ih => exact ih.snoc (hstep he)

/-- Steps of a system that are steps of another one where an invariant holds. -/
theorem strengthen {step' : σ → ε → σ → Prop} (I : σ → Prop) (h0 : I s)
    (hI : ∀ {t e u}, I t → step t e u → I u) (hstep : ∀ {t e u}, I t → step t e u → step' t e u)
    (h : Run step s es t) : Run step' s es t := by
  have hboth : Run step' s es t ∧ I t := by
    induction h with
    | nil => exact ⟨.nil, h0⟩
    | snoc _ he ih => exact ⟨ih.1.snoc (hstep ih.2 he), hI ih.2 he⟩
  exact hboth.1

/-- Two systems that agree in the states of an invariant of the first have the same runs. -/
theorem congr {step' : σ → ε → σ → Prop} (I : σ → Prop) (h0 : I s)
    (hI : ∀ {t e u}, I t → step t e u → I u)
    (hstep : ∀ {t e u}, I t → (step t e u ↔ step' t e u)) :
    Run step s es t ↔ Run step' s es t := by
  constructor
  · exact strengthen I h0 hI fun ht => (hstep ht).mp
  · exact strengthen I h0 (fun ht he => hI ht ((hstep ht).mpr he)) fun ht => (hstep ht).mpr

/-- Runs compose. -/
theorem append {fs : List ε} {u : σ} (h : Run step s es t) (h' : Run step t fs u) :
    Run step s (es ++ fs) u := by
  induction h' with
  | nil => rwa [List.append_nil]
  | snoc _ he ih =>
      rw [← List.append_assoc]
      exact ih.snoc he

/-- A run passes through a state after every part of its labels. -/
theorem split {fs : List ε} (h : Run step s (es ++ fs) t) :
    ∃ u, Run step s es u ∧ Run step u fs t := by
  induction fs using List.reverseRecOn generalizing t with
  | nil => exact ⟨t, by rwa [List.append_nil] at h, .nil⟩
  | append_singleton fs e ih =>
      rw [← List.append_assoc] at h
      generalize hall : es ++ fs ++ [e] = all at h
      cases h with
      | nil => simp at hall
      | snoc hrun hstep =>
          obtain ⟨hes, he⟩ := List.append_inj' hall rfl
          subst hes
          obtain ⟨u, hfirst, hlast⟩ := ih hrun
          exact ⟨u, hfirst, hlast.snoc (List.singleton_inj.mp he ▸ hstep)⟩

/-- The step that a label in the middle of a run stands for. -/
theorem step_at {fs : List ε} {e : ε} (h : Run step s (es ++ e :: fs) t) :
    ∃ u v, Run step s es u ∧ step u e v := by
  obtain ⟨u, hfirst, hlast⟩ := h.split
  rw [← List.singleton_append] at hlast
  obtain ⟨v, hstep, -⟩ := hlast.split
  generalize hall : [e] = all at hstep
  cases hstep with
  | nil => cases hall
  | @snoc es' u' _ e' hnil hstep =>
      obtain rfl : es' = [] := by
        have hlength := congrArg List.length hall
        simpa using hlength.symm
      obtain rfl : e = e' := by simpa using hall
      generalize hempty : ([] : List ε) = none at hnil
      cases hnil with
      | nil => exact ⟨_, _, hfirst, hstep⟩
      | snoc => simp at hempty

/-- A single step is a run. -/
theorem single {e : ε} (h : step s e t) : Run step s [e] t :=
  Run.nil.snoc h

end Run
