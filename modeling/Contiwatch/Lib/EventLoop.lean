import Contiwatch.Lib.Runs

/-!
# Event Loops

A program with one thread of control, like a page in a browser. It handles one event at a time. A
function that needs the answer to a request is suspended: what is left of it, a continuation, waits
until the answer comes. Answers come in any order, between the events.

* `EventLoop.exec` — runs that are computed, by the places of the continuations that are answered.
* `EventLoop.step_idle`, `EventLoop.step_single` — the steps while nothing waits, or one
  continuation.
-/

/-- What events do and what answers to continuations do: the new state, with the continuations that
wait from then on. `none` is an event that cannot happen, or an answer to another request. -/
structure EventLoop (σ ε κ ρ : Type) where
  handle : σ → ε → Option (σ × List κ)
  resume : σ → κ → ρ → Option (σ × List κ)

namespace EventLoop

variable {σ ε κ ρ : Type}

/-- A state with the continuations that wait. -/
structure Config (σ κ : Type) where
  state : σ
  waiting : List κ

/-- What happens: an event, or an answer. -/
inductive Label (ε κ ρ : Type)
  | event (e : ε)
  | answer (k : κ) (r : ρ)

/-- The steps of an event loop. -/
inductive Step (L : EventLoop σ ε κ ρ) : Config σ κ → Label ε κ ρ → Config σ κ → Prop
  | event {s t : σ} {e : ε} {waiting new : List κ} (h : L.handle s e = some (t, new)) :
      Step L ⟨s, waiting⟩ (.event e) ⟨t, waiting ++ new⟩
  | answer {s t : σ} {k : κ} {r : ρ} {front back new : List κ}
      (h : L.resume s k r = some (t, new)) :
      Step L ⟨s, front ++ k :: back⟩ (.answer k r) ⟨t, front ++ back ++ new⟩

variable {L : EventLoop σ ε κ ρ} {p q : Config σ κ}

/-- While nothing waits, there are only events. -/
theorem step_idle {s : σ} {l : Label ε κ ρ} (h : L.Step ⟨s, []⟩ l q) :
    ∃ e, l = .event e ∧ L.handle s e = some (q.state, q.waiting) := by
  generalize hp : (⟨s, []⟩ : Config σ κ) = p at h
  cases h with
  | event h =>
      obtain ⟨rfl, rfl⟩ := Config.mk.inj hp
      exact ⟨_, rfl, h⟩
  | answer h => exact absurd (Config.mk.inj hp).2.symm (List.append_ne_nil_of_right_ne_nil _ nofun)

/-- While one continuation waits, there are events and the answers to it. -/
theorem step_single {s : σ} {k : κ} {l : Label ε κ ρ} (h : L.Step ⟨s, [k]⟩ l q) :
    (∃ e new, l = .event e ∧ L.handle s e = some (q.state, new) ∧ q.waiting = k :: new) ∨
      ∃ r, l = .answer k r ∧ L.resume s k r = some (q.state, q.waiting) := by
  generalize hp : (⟨s, [k]⟩ : Config σ κ) = p at h
  cases h with
  | event h =>
      obtain ⟨rfl, rfl⟩ := Config.mk.inj hp
      exact .inl ⟨_, _, rfl, h, rfl⟩
  | @answer s t k' r front back new h =>
      obtain ⟨rfl, hwaiting⟩ := Config.mk.inj hp
      rcases front with _ | ⟨k'', front⟩
      · obtain ⟨rfl, rfl⟩ := List.cons.inj hwaiting
        exact .inr ⟨r, rfl, h⟩
      · exact absurd (List.cons.inj hwaiting).2.symm
          (List.append_ne_nil_of_right_ne_nil _ nofun)

/-! ### Computed runs -/

/-- What is done next: an event, or an answer to the continuation at a place. -/
inductive Input (ε ρ : Type)
  | event (e : ε)
  | answer (i : ℕ) (r : ρ)

/-- The step for an input, if the condition `c` allows it. -/
def next (L : EventLoop σ ε κ ρ) (c : σ → Label ε κ ρ → Bool) (p : Config σ κ) :
    Input ε ρ → Option (Config σ κ)
  | .event e =>
      if c p.state (.event e) then
        (L.handle p.state e).map fun (t, new) => ⟨t, p.waiting ++ new⟩
      else none
  | .answer i r =>
      p.waiting[i]?.bind fun k =>
        if c p.state (.answer k r) then
          (L.resume p.state k r).map fun (t, new) =>
            ⟨t, p.waiting.take i ++ p.waiting.drop (i + 1) ++ new⟩
        else none

/-- The run for some inputs. -/
def exec (L : EventLoop σ ε κ ρ) (c : σ → Label ε κ ρ → Bool) (p : Config σ κ)
    (inputs : List (Input ε ρ)) : Option (Config σ κ) :=
  inputs.foldlM (next L c) p

variable {c : σ → Label ε κ ρ → Bool}

/-- The computed step is a step, and its label is allowed. -/
theorem step_of_next {input : Input ε ρ} (h : next L c p input = some q) :
    ∃ l, L.Step p l q ∧ c p.state l = true := by
  obtain ⟨s, waiting⟩ := p
  cases input with
  | event e =>
      rw [next] at h
      split at h
      · rename_i hc
        obtain ⟨⟨t, new⟩, hhandle, rfl⟩ := Option.map_eq_some_iff.mp h
        exact ⟨_, .event hhandle, hc⟩
      · cases h
  | answer i r =>
      rw [next] at h
      obtain ⟨k, hk, hrest⟩ := Option.bind_eq_some_iff.mp h
      split at hrest
      · rename_i hc
        obtain ⟨⟨t, new⟩, hresume, rfl⟩ := Option.map_eq_some_iff.mp hrest
        obtain ⟨hi, rfl⟩ := List.getElem?_eq_some_iff.mp hk
        have hsplit : waiting = waiting.take i ++ waiting[i] :: waiting.drop (i + 1) := by
          rw [List.getElem_cons_drop, List.take_append_drop]
        refine ⟨.answer waiting[i] r, ?_, hc⟩
        conv => arg 2; rw [hsplit]
        exact .answer hresume
      · cases hrest

/-- What is computed is a run. -/
theorem run_of_exec {inputs : List (Input ε ρ)} (h : exec L c p inputs = some q) :
    ∃ es, Run (fun p l q => L.Step p l q ∧ c p.state l = true) p es q := by
  induction inputs generalizing p with
  | nil => exact ⟨[], Option.some.inj h ▸ .nil⟩
  | cons input inputs ih =>
      rw [exec, List.foldlM_cons] at h
      obtain ⟨t, hnext, hrest⟩ := Option.bind_eq_some_iff.mp h
      obtain ⟨l, hstep⟩ := step_of_next hnext
      obtain ⟨es, hrun⟩ := ih hrest
      exact ⟨[l] ++ es, (Run.single hstep).append hrun⟩

end EventLoop
