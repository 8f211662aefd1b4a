import Mathlib.Algebra.Order.Field.Basic
import Mathlib.Data.Rat.Cast.Order
import Mathlib.Tactic.Linarith
import Mathlib.Tactic.NormNum

/-!
# Go Time

A Go `time.Time` is modelled by the number of nanoseconds since the zero value of the type
(January 1, year 1, UTC), so that `IsZero` is `t = 0`, `t.After(u)` is `u < t` and
`t.Before(u)` is `t < u`. A `time.Duration` is a number of nanoseconds. `t.Sub(u)` is the truncated
difference `t - u`: programs compare it with positive bounds only, and a negative
difference, like `0`, is below each of them. A reading of the clock is a positive instant.
-/

namespace GoTime

/-- `time.Second`. -/
def second : ℕ := 1000000000

/-- `time.Minute`. -/
def minute : ℕ := 60 * second

/-- `time.Hour`. -/
def hour : ℕ := 60 * minute

/-- `d.Seconds()`, as an exact rational. -/
def seconds (d : ℕ) : ℚ := d / second

/-- A positive time has positive seconds. -/
theorem seconds_pos {d : ℕ} : 0 < seconds d ↔ 0 < d := by
  have : (0 : ℚ) < (second : ℕ) := by norm_num [second]
  rw [seconds, div_pos_iff_of_pos_right this, Nat.cast_pos]

/-- The order of times is that of their seconds. -/
theorem seconds_le_seconds {d e : ℕ} : seconds d ≤ seconds e ↔ d ≤ e := by
  have : (0 : ℚ) < (second : ℕ) := by norm_num [second]
  rw [seconds, seconds, div_le_div_iff_of_pos_right this, Nat.cast_le]

/-- The seconds between two instants. -/
theorem seconds_sub {t u : ℕ} (h : u ≤ t) : seconds (t - u) = seconds t - seconds u := by
  rw [seconds, seconds, seconds, Nat.cast_sub h, sub_div]

/-- A whole number of seconds. -/
theorem seconds_mul_second (n : ℕ) : seconds (n * second) = n := by
  have : ((second : ℕ) : ℚ) ≠ 0 := by norm_num [second]
  rw [seconds, Nat.cast_mul, mul_div_assoc, div_self this, mul_one]

end GoTime
