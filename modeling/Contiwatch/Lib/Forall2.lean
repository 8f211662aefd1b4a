import Mathlib.Data.List.Forall2

/-!
# Lists Side by Side

Where two lists are related element by element, every element of one has a partner in the
other; where they are so related in two ways, it has a partner in both ways.
-/

namespace List.Forall₂

variable {α β : Type} {R S : α → β → Prop} {xs : List α} {ys : List β} {x : α} {y : β}

/-- Two relations between the same lists meet at each element. -/
theorem exists_both (hR : Forall₂ R xs ys) (hS : Forall₂ S xs ys) (hx : x ∈ xs) :
    ∃ y ∈ ys, R x y ∧ S x y := by
  induction hR with
  | nil => exact absurd hx List.not_mem_nil
  | cons hhead _ ih =>
      cases hS with
      | cons hhead' htail' =>
          rcases List.mem_cons.mp hx with rfl | hx
          · exact ⟨_, List.mem_cons_self .., hhead, hhead'⟩
          · obtain ⟨y, hy, h⟩ := ih htail' hx
            exact ⟨y, List.mem_cons_of_mem _ hy, h⟩

/-- An element of the first list has a partner in the second. -/
theorem exists_right (hR : Forall₂ R xs ys) (hx : x ∈ xs) : ∃ y ∈ ys, R x y := by
  obtain ⟨y, hy, h, -⟩ := hR.exists_both hR hx
  exact ⟨y, hy, h⟩

/-- An element of the second list has a partner in the first. -/
theorem exists_left (hR : Forall₂ R xs ys) (hy : y ∈ ys) : ∃ x ∈ xs, R x y :=
  hR.flip.exists_right hy

end List.Forall₂
