import Mathlib.Data.Set.Basic
import Mathlib.Order.Compare

/-!
# The First of a Sorted Slice

`sort.Slice` is not stable, and its result is specified for a strict weak order only. A program that
sorts a slice and takes its first element gets some element that no other one comes before, or any
element if the order is no strict weak order.

## Main results

* `firstOfSorted_iff` — for an order given by ranks, the first element is one of greatest rank.
* `exists_firstOfSorted` — there is one, if there are elements.
* `TotalPreorderOn.strictWeakOn` — a comparison that is a total preorder gives an order to sort by.
-/

namespace SortSlice

variable {α β : Type}

/-- A strict weak order on the elements of a list. -/
structure StrictWeakOn (less : α → α → Prop) (l : List α) : Prop where
  irrefl : ∀ x ∈ l, ¬ less x x
  trans : ∀ x ∈ l, ∀ y ∈ l, ∀ z ∈ l, less x y → less y z → less x z
  negTrans : ∀ x ∈ l, ∀ y ∈ l, ∀ z ∈ l, less x z → less x y ∨ less y z

/-- The elements that may come first after `sort.Slice(l, less)`. -/
def FirstOfSorted (less : α → α → Prop) (l : List α) (x : α) : Prop :=
  x ∈ l ∧ (StrictWeakOn less l → ∀ y ∈ l, ¬ less y x)

variable [LinearOrder β] {less : α → α → Prop} {l : List α} {rank : α → β}

/-- An order given by ranks is a strict weak order; here greater ranks come first. -/
theorem strictWeakOn_of_rank (h : ∀ x ∈ l, ∀ y ∈ l, less x y ↔ rank y < rank x) :
    StrictWeakOn less l where
  irrefl x hx := by
    rw [h x hx x hx]
    exact lt_irrefl _
  trans x hx y hy z hz := by
    rw [h x hx y hy, h y hy z hz, h x hx z hz]
    exact fun hyx hzy => hzy.trans hyx
  negTrans x hx y hy z hz := by
    rw [h x hx y hy, h y hy z hz, h x hx z hz]
    intro hzx
    exact (lt_or_ge (rank y) (rank x)).imp_right hzx.trans_le

/-- **The first element** of a slice that is sorted by ranks is one of greatest rank. -/
theorem firstOfSorted_iff (h : ∀ x ∈ l, ∀ y ∈ l, less x y ↔ rank y < rank x) {x : α} :
    FirstOfSorted less l x ↔ x ∈ l ∧ ∀ y ∈ l, rank y ≤ rank x := by
  refine and_congr_right fun hx => ?_
  rw [forall_prop_of_true (strictWeakOn_of_rank h)]
  refine forall₂_congr fun y hy => ?_
  rw [h y hy x hx, not_lt]

/-- A strict weak order is one on the rest of the list. -/
theorem StrictWeakOn.of_cons {x : α} (h : StrictWeakOn less (x :: l)) : StrictWeakOn less l where
  irrefl y hy := h.irrefl y (List.mem_cons_of_mem _ hy)
  trans y hy z hz w hw :=
    h.trans y (List.mem_cons_of_mem _ hy) z (List.mem_cons_of_mem _ hz) w
      (List.mem_cons_of_mem _ hw)
  negTrans y hy z hz w hw :=
    h.negTrans y (List.mem_cons_of_mem _ hy) z (List.mem_cons_of_mem _ hz) w
      (List.mem_cons_of_mem _ hw)

/-- A strict weak order has a first element. -/
theorem StrictWeakOn.exists_first (h : StrictWeakOn less l) (hne : l ≠ []) :
    ∃ x ∈ l, ∀ y ∈ l, ¬ less y x := by
  induction l with
  | nil => exact absurd rfl hne
  | cons x l ih =>
      have hx : x ∈ x :: l := List.mem_cons_self ..
      rcases eq_or_ne l [] with rfl | hl
      · refine ⟨x, hx, fun y hy => ?_⟩
        rw [List.mem_singleton.mp hy]
        exact h.irrefl x hx
      · obtain ⟨y, hy, hfirst⟩ := ih h.of_cons hl
        have hy' : y ∈ x :: l := List.mem_cons_of_mem _ hy
        by_cases hxy : less x y
        · refine ⟨x, hx, List.forall_mem_cons.mpr ⟨h.irrefl x hx, fun z hz hzx => ?_⟩⟩
          exact hfirst z hz (h.trans z (List.mem_cons_of_mem _ hz) x hx y hy' hzx hxy)
        · exact ⟨y, hy', List.forall_mem_cons.mpr ⟨hxy, hfirst⟩⟩

/-- A list with an element has a first one when sorted. -/
theorem exists_firstOfSorted (hne : l ≠ []) : ∃ x, FirstOfSorted less l x := by
  by_cases h : StrictWeakOn less l
  · obtain ⟨x, hx, hfirst⟩ := h.exists_first hne
    exact ⟨x, hx, fun _ => hfirst⟩
  · obtain ⟨x, hx⟩ := List.exists_mem_of_ne_nil l hne
    exact ⟨x, hx, fun h' => absurd h' h⟩

/-! ### Comparisons -/

/-- A comparison that is a total preorder on a set. -/
structure TotalPreorderOn (cmp : α → α → Ordering) (s : Set α) : Prop where
  swap : ∀ x ∈ s, ∀ y ∈ s, cmp x y = (cmp y x).swap
  trans : ∀ x ∈ s, ∀ y ∈ s, ∀ z ∈ s, (cmp x y).isLE → (cmp y z).isLE → (cmp x z).isLE

namespace TotalPreorderOn

variable {κ : Type} {cmp : κ → κ → Ordering} {s : Set κ} {x y : κ}

/-- What is not at most is greater. -/
theorem not_isLE_iff (h : TotalPreorderOn cmp s) (hx : x ∈ s) (hy : y ∈ s) :
    ¬ (cmp x y).isLE ↔ cmp y x = .lt := by
  rw [h.swap x hx y hy]
  cases cmp y x <;> simp

/-- What is less is at most. -/
theorem isLE_of_lt (h : cmp x y = .lt) : (cmp x y).isLE := by
  rw [h]
  rfl

/-- Elements with keys in the set can be sorted by them, the greatest first. -/
theorem strictWeakOn (h : TotalPreorderOn cmp s) {key : α → κ} (hl : ∀ a ∈ l, key a ∈ s) :
    StrictWeakOn (fun a b => cmp (key b) (key a) = .lt) l where
  irrefl a ha := by
    have hself := h.swap _ (hl a ha) _ (hl a ha)
    intro hlt
    rw [hlt] at hself
    exact absurd hself (by decide)
  trans a ha b hb c hc hba hcb := by
    rw [← h.not_isLE_iff (hl a ha) (hl c hc)]
    intro hac
    have hab := h.trans _ (hl a ha) _ (hl c hc) _ (hl b hb) hac (isLE_of_lt hcb)
    exact (h.not_isLE_iff (hl a ha) (hl b hb)).mpr hba hab
  negTrans a ha b hb c hc hca := by
    by_contra hnot
    rw [not_or] at hnot
    have hle : ∀ {x y}, x ∈ l → y ∈ l → cmp (key y) (key x) ≠ .lt →
        (cmp (key x) (key y)).isLE := fun hx hy hlt =>
      not_not.mp fun hle => hlt ((h.not_isLE_iff (hl _ hx) (hl _ hy)).mp hle)
    have hac := h.trans _ (hl a ha) _ (hl b hb) _ (hl c hc) (hle ha hb hnot.1) (hle hb hc hnot.2)
    exact (h.not_isLE_iff (hl a ha) (hl c hc)).mpr hca hac

end TotalPreorderOn

end SortSlice
