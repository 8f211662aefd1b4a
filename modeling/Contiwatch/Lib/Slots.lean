import Mathlib.Algebra.GroupWithZero.Nat
import Mathlib.Data.List.Basic

/-!
# Lists of Slots

A list may stand for objects that are created one after another and are never moved: a pointer is
a position, an object is read with `l[i]?`, overwritten with `l.set i`, and created with
`l ++ [a]`. These lemmas say where an object that is read after a change comes from.
-/

namespace Slots

variable {α : Type} {l : List α} {i j : ℕ} {a b : α}

/-- An object after one of them was overwritten. -/
theorem of_set (hi : l[i]? = some a) {a' : α} (h : (l.set i a')[j]? = some b) :
    (j = i ∧ b = a') ∨ (j ≠ i ∧ l[j]? = some b) := by
  by_cases hj : j = i
  · subst hj
    rw [List.getElem?_set_self', hi] at h
    exact Or.inl ⟨rfl, (Option.some.inj h).symm⟩
  · rw [List.getElem?_set_ne (Ne.symm hj)] at h
    exact Or.inr ⟨hj, h⟩

/-- The object that was written. -/
theorem set_self (hi : l[i]? = some a) (a' : α) : (l.set i a')[i]? = some a' := by
  rw [List.getElem?_set_self', hi]
  rfl

/-- Another object. -/
theorem set_ne (hj : j ≠ i) (a' : α) : (l.set i a')[j]? = l[j]? :=
  List.getElem?_set_ne (Ne.symm hj)

/-- An object after one was created. -/
theorem of_append (h : (l ++ [a])[j]? = some b) :
    (j = l.length ∧ b = a) ∨ l[j]? = some b := by
  by_cases hj : j < l.length
  · rw [List.getElem?_append_left hj] at h
    exact Or.inr h
  · rw [List.getElem?_append_right (Nat.le_of_not_lt hj), List.getElem?_singleton] at h
    by_cases hzero : j - l.length = 0
    · rw [if_pos hzero] at h
      exact Or.inl ⟨by omega, (Option.some.inj h).symm⟩
    · rw [if_neg hzero] at h
      cases h

/-- The object that was created. -/
theorem append_self (l : List α) (a : α) : (l ++ [a])[l.length]? = some a := by
  rw [List.getElem?_append_right (Nat.le_refl _), Nat.sub_self]
  rfl

/-- Objects stay where they are. -/
theorem append_of_some (h : l[j]? = some b) : (l ++ [a])[j]? = some b := by
  rw [List.getElem?_append_left (List.getElem?_eq_some_iff.mp h).1]
  exact h

/-- There is no object where none was created. -/
theorem ne_length (h : l[j]? = some b) : j ≠ l.length :=
  Nat.ne_of_lt (List.getElem?_eq_some_iff.mp h).1

/-- A sum over the objects after one of them was overwritten. -/
theorem sum_map_set (f : α → ℕ) (hi : l[i]? = some a) (a' : α) :
    ((l.set i a').map f).sum + f a = (l.map f).sum + f a' := by
  induction l generalizing i with
  | nil => cases hi
  | cons b l ih =>
      cases i with
      | zero =>
          obtain rfl := Option.some.inj hi
          simp only [List.set_cons_zero, List.map_cons, List.sum_cons]
          omega
      | succ i =>
          have hrest := ih hi
          simp only [List.set_cons_succ, List.map_cons, List.sum_cons]
          omega

/-- What is picked out of the objects after one of them was overwritten that is not picked. -/
theorem filterMap_set_none {β : Type} (f : α → Option β) (hi : l[i]? = some a) (ha : f a = none)
    {a' : α} (ha' : f a' = none) : (l.set i a').filterMap f = l.filterMap f := by
  induction l generalizing i with
  | nil => cases hi
  | cons b l ih =>
      cases i with
      | zero =>
          obtain rfl : b = a := Option.some.inj hi
          rw [List.set_cons_zero, List.filterMap_cons_none ha', List.filterMap_cons_none ha]
      | succ i =>
          rw [List.set_cons_succ, List.filterMap_cons, List.filterMap_cons, ih hi]

/-- After the only object that is picked out was overwritten. -/
theorem filterMap_set_one {β : Type} (f : α → Option β) (hi : l[i]? = some a) {b c : β}
    (ha : f a = some b) (hone : l.filterMap f = [c]) (a' : α) :
    b = c ∧ (l.set i a').filterMap f = (f a').toList := by
  induction l generalizing i with
  | nil => cases hi
  | cons d l ih =>
      cases i with
      | zero =>
          obtain rfl : d = a := Option.some.inj hi
          rw [List.filterMap_cons_some ha] at hone
          obtain ⟨rfl, hnil⟩ := List.cons.inj hone
          refine ⟨rfl, ?_⟩
          rw [List.set_cons_zero, List.filterMap_cons, hnil]
          cases f a' <;> rfl
      | succ i =>
          have hmem : b ∈ l.filterMap f :=
            List.mem_filterMap.mpr ⟨a, List.mem_of_getElem? hi, ha⟩
          cases hd : f d with
          | none =>
              rw [List.filterMap_cons_none hd] at hone
              rw [List.set_cons_succ, List.filterMap_cons_none hd]
              exact ih hi hone
          | some e =>
              rw [List.filterMap_cons_some hd] at hone
              rw [(List.cons.inj hone).2] at hmem
              cases hmem

end Slots
