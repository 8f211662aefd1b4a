import Mathlib.Data.List.Basic
import Mathlib.Order.Bounds.Basic

/-!
# Cron Schedules

A schedule of a cron library is a set of instants with a function that looks for the next one.
The search stops at a horizon (five years ahead); when it finds nothing, the answer is the zero
time. Instants are numbers, the zero time is `0`.

## Main results

* `Schedule.isLeast_next` — an answer that is not zero is the first match after the given instant.
* `Schedule.not_isLeast_of_match` — an answer for an instant in the past is not the first match
  from now on, if there was a match in the meantime.
* `Schedule.mem_fires_iff` — searches that go on from one answer to the next list all matches up to
  the last answer.
-/

namespace Cron

/-- A schedule: the instants that match, how far the search looks ahead, and its answer. -/
structure Schedule where
  Matches : ℕ → Prop
  horizon : ℕ → ℕ
  next : ℕ → ℕ
  next_spec : ∀ t, IsLeast {u | t < u ∧ u ≤ horizon t ∧ Matches u} (next t) ∨
    (next t = 0 ∧ ∀ u, t < u → u ≤ horizon t → ¬ Matches u)

namespace Schedule

variable {sched : Schedule} {t u e : ℕ}

/-- An answer that is not zero is a match after the given instant. -/
theorem matches_next (h : sched.next t ≠ 0) : t < sched.next t ∧ sched.Matches (sched.next t) := by
  rcases sched.next_spec t with ⟨hmem, -⟩ | ⟨hzero, -⟩
  · exact ⟨hmem.1, hmem.2.2⟩
  · exact absurd hzero h

/-- An answer that is not zero is the first match after the given instant, near or far. -/
theorem isLeast_next (h : sched.next t ≠ 0) :
    IsLeast {u | t < u ∧ sched.Matches u} (sched.next t) := by
  refine ⟨matches_next h, ?_⟩
  rintro u ⟨htu, hmatch⟩
  rcases sched.next_spec t with ⟨hmem, hleast⟩ | ⟨hzero, -⟩
  · by_cases hu : u ≤ sched.horizon t
    · exact hleast ⟨htu, hu, hmatch⟩
    · exact hmem.2.1.trans (not_le.mp hu).le
  · exact absurd hzero h

/-- The zero time for an answer says that nothing matches within the horizon. -/
theorem not_matches_of_next (h : sched.next t = 0) (hlater : t < u) (hnear : u ≤ sched.horizon t) :
    ¬ sched.Matches u := by
  rcases sched.next_spec t with ⟨hmem, -⟩ | ⟨-, hnone⟩
  · exact absurd (h ▸ hmem.1) (Nat.not_lt_zero t)
  · exact hnone u hlater hnear

/-- After a match in the meantime, the answer for the old instant is not the first match from
now on. -/
theorem not_isLeast_of_match (htu : t < u) (hue : u ≤ e) (hmatch : sched.Matches u) :
    ¬ IsLeast {v | e < v ∧ sched.Matches v} (sched.next t) := by
  rintro ⟨⟨hlate, -⟩, -⟩
  have hne : sched.next t ≠ 0 := (Nat.zero_le e |>.trans_lt hlate).ne'
  exact absurd (hlate.trans_le ((isLeast_next hne).2 ⟨htu, hmatch⟩)) (not_lt.mpr hue)

/-! ### Searching on -/

/-- The answers of `n` searches, each from the answer before. -/
def fires (sched : Schedule) : ℕ → ℕ → List ℕ
  | _, 0 => []
  | t, n + 1 => sched.next t :: sched.fires (sched.next t) n

/-- As many times as asked for. -/
@[simp] theorem length_fires (t n : ℕ) : (sched.fires t n).length = n := by
  induction n generalizing t with
  | zero => rfl
  | succ n ih => rw [fires, List.length_cons, ih]

/-- A further search is from the last answer. -/
theorem fires_succ (t n : ℕ) :
    sched.fires t (n + 1) = sched.fires t n ++ [sched.next ((sched.fires t n).getLastD t)] := by
  induction n generalizing t with
  | zero => rfl
  | succ n ih => rw [fires, ih, fires, List.cons_append, List.getLastD_cons]

/-- Fewer searches have the same answers. -/
theorem take_fires (t : ℕ) {m n : ℕ} (h : m ≤ n) : (sched.fires t n).take m = sched.fires t m := by
  induction m generalizing t n with
  | zero => rfl
  | succ m ih =>
      obtain ⟨n, rfl⟩ := Nat.exists_eq_succ_of_ne_zero (Nat.ne_zero_of_lt h)
      rw [fires, fires, List.take_succ_cons, ih _ (Nat.le_of_succ_le_succ h)]

/-- The answers of two sequences of searches agree as far as both go. -/
theorem take_fires_comm (t m n : ℕ) :
    (sched.fires t m).take n = (sched.fires t n).take m := by
  rcases Nat.le_total m n with hle | hle
  · rw [take_fires t hle, List.take_of_length_le (by simpa using hle)]
  · rw [take_fires t hle, List.take_of_length_le (by simpa using hle)]

/-- Each answer is that of a search from the answer before. -/
theorem getElem?_fires (t : ℕ) {k n : ℕ} (h : k < n) :
    (sched.fires t n)[k]? = some (sched.next ((sched.fires t k).getLastD t)) := by
  have hlast := List.getElem?_concat_length (l := sched.fires t k)
    (a := sched.next ((sched.fires t k).getLastD t))
  rwa [← fires_succ, length_fires, ← take_fires t h,
    List.getElem?_take_of_lt (Nat.lt_succ_self k)] at hlast

/-- The last answer is not before the given instant. -/
theorem le_getLastD_fires {n : ℕ} (h : 0 ∉ sched.fires t n) : t ≤ (sched.fires t n).getLastD t := by
  induction n generalizing t with
  | zero => exact le_rfl
  | succ n ih =>
      rw [fires, List.mem_cons, not_or] at h
      rw [fires, List.getLastD_cons]
      exact (matches_next (Ne.symm h.1)).1.le.trans (ih h.2)

/-- **The answers are the matches.** As long as every search finds something, the answers are the
matches after the given instant up to the last answer. -/
theorem mem_fires_iff {n : ℕ} (h : 0 ∉ sched.fires t n) :
    u ∈ sched.fires t n ↔ t < u ∧ u ≤ (sched.fires t n).getLastD t ∧ sched.Matches u := by
  induction n generalizing t with
  | zero => exact iff_of_false List.not_mem_nil fun hu => (hu.1.trans_le hu.2.1).false
  | succ n ih =>
      rw [fires, List.mem_cons, not_or] at h
      have hne := Ne.symm h.1
      obtain ⟨hlater, hmatch⟩ := matches_next hne
      rw [fires, List.mem_cons, List.getLastD_cons, ih h.2]
      constructor
      · rintro (rfl | ⟨hu, hlast, hmatch'⟩)
        · exact ⟨hlater, le_getLastD_fires h.2, hmatch⟩
        · exact ⟨hlater.trans hu, hlast, hmatch'⟩
      · rintro ⟨hu, hlast, hmatch'⟩
        rcases ((isLeast_next hne).2 ⟨hu, hmatch'⟩).eq_or_lt with heq | hlt
        · exact Or.inl heq.symm
        · exact Or.inr ⟨hlt, hlast, hmatch'⟩

/-- And they come in order. -/
theorem fires_pairwise {n : ℕ} (h : 0 ∉ sched.fires t n) : (sched.fires t n).Pairwise (· < ·) := by
  induction n generalizing t with
  | zero => exact List.Pairwise.nil
  | succ n ih =>
      rw [fires, List.mem_cons, not_or] at h
      rw [fires, List.pairwise_cons]
      exact ⟨fun u hu => ((mem_fires_iff h.2).mp hu).1, ih h.2⟩

end Schedule

end Cron
