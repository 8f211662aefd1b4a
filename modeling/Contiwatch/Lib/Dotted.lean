import Mathlib

/-!
# Dotted Numbers

Numbers such as `1.3.4` are compared part by part, and missing parts count as zero. This is the
lexicographic order on the sequences of their parts.

## Main results

* `compareParts_eq_lt` — the comparison is that of the sequences.
-/

namespace Dotted

/-- Compare zero with a number. -/
def compareZero : List ℤ → Ordering
  | [] => .eq
  | b :: bs => (compare 0 b).then (compareZero bs)

/-- Compare part by part. -/
def compareParts : List ℤ → List ℤ → Ordering
  | [], bs => compareZero bs
  | a :: as, [] => (compare a 0).then (compareParts as [])
  | a :: as, b :: bs => (compare a b).then (compareParts as bs)

/-- The sequence of the parts, with zeros behind them. -/
def value (parts : List ℤ) : Lex (ℕ → ℤ) := toLex fun i => parts.getD i 0

variable {a b : ℤ} {as bs : List ℤ}

/-- The first parts decide, unless they are the same. -/
theorem value_cons_lt_cons :
    value (a :: as) < value (b :: bs) ↔ a < b ∨ a = b ∧ value as < value bs := by
  constructor
  · rintro ⟨i, heq, hlt⟩
    cases i with
    | zero => exact .inl hlt
    | succ i =>
        exact .inr ⟨heq 0 (Nat.succ_pos i), i, fun j hj => heq (j + 1) (Nat.succ_lt_succ hj), hlt⟩
  · rintro (hlt | ⟨rfl, i, heq, hlt⟩)
    · exact ⟨0, fun j hj => absurd hj (Nat.not_lt_zero j), hlt⟩
    · refine ⟨i + 1, fun j hj => ?_, hlt⟩
      cases j with
      | zero => rfl
      | succ j => exact heq j (Nat.lt_of_succ_lt_succ hj)

/-- A number without parts is zero. -/
theorem value_nil : value [] = value [0] := by
  refine congrArg toLex (funext fun i => ?_)
  cases i <;> rfl

/-- So it is with comparisons in sequence. -/
theorem compare_then_eq_lt {a b : ℤ} {o : Ordering} :
    (compare a b).then o = .lt ↔ a < b ∨ a = b ∧ o = .lt := by
  rcases lt_trichotomy a b with h | h | h
  · simp [compare_lt_iff_lt.mpr h, h]
  · simp [h]
  · simp [compare_gt_iff_gt.mpr h, h.not_gt, h.ne']

/-- A missing part counts as zero. -/
theorem compareZero_eq_lt : compareZero bs = .lt ↔ value [] < value bs := by
  induction bs with
  | nil => exact iff_of_false (by decide) (lt_irrefl _)
  | cons b bs ih => rw [compareZero, compare_then_eq_lt, ih, ← value_cons_lt_cons, ← value_nil]

/-- `compareParts` is the order of the values. -/
theorem compareParts_eq_lt : compareParts as bs = .lt ↔ value as < value bs := by
  fun_induction compareParts as bs with
  | case1 bs => exact compareZero_eq_lt
  | case2 a as ih => rw [compare_then_eq_lt, ih, ← value_cons_lt_cons, ← value_nil]
  | case3 a as b bs ih => rw [compare_then_eq_lt, ih, value_cons_lt_cons]

/-! ### The other way round -/

/-- Swapping goes through a sequence of comparisons. -/
theorem swap_compare_then {a b : ℤ} {o : Ordering} :
    ((compare a b).then o).swap = (compare b a).then o.swap := by
  rw [Ordering.swap_then, ← Std.OrientedCmp.eq_swap]

/-- Against nothing, zeros are compared the other way. -/
theorem compareParts_nil_right : compareParts as [] = (compareZero as).swap := by
  induction as with
  | nil => rfl
  | cons a as ih => rw [compareParts, compareZero, swap_compare_then, ih]

/-- Comparing the other way swaps the answer. -/
theorem compareParts_swap : compareParts as bs = (compareParts bs as).swap := by
  fun_induction compareParts as bs with
  | case1 bs => rw [compareParts_nil_right, Ordering.swap_swap]
  | case2 a as ih => rw [← compareParts, compareParts_nil_right]; rfl
  | case3 a as b bs ih => rw [compareParts, swap_compare_then, ih]

/-- At most, by the values. -/
theorem compareParts_isLE : (compareParts as bs).isLE ↔ value as ≤ value bs := by
  have hlt : compareParts bs as = .lt ↔ ¬ value as ≤ value bs :=
    compareParts_eq_lt.trans not_le.symm
  rw [compareParts_swap, ← not_iff_not, ← hlt]
  cases compareParts bs as with
  | lt => exact iff_of_true Bool.false_ne_true rfl
  | eq => exact iff_of_false (not_not_intro rfl) (fun h => by cases h)
  | gt => exact iff_of_false (not_not_intro rfl) (fun h => by cases h)

end Dotted
