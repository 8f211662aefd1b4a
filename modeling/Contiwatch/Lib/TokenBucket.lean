import Mathlib.Algebra.Order.Field.Basic
import Mathlib.Tactic.Linarith
import Mathlib.Tactic.Ring

/-!
# Token Buckets

A token bucket holds at most `burst` tokens and is refilled continuously at `rate` tokens
per unit of time; a request is admitted by taking one token. The bucket is refilled lazily,
when a request looks at it. Token counts and instants are elements of an arbitrary linearly
ordered field.

## Main results

* `Bucket.Valid.take` — the token count stays between `0` and `burst`.
* `Bucket.tokens_take_admitted` — the accounting step of every rate argument: an admission
  at `now` turns `tokens` into at most `tokens + (now - last) * rate - 1`.
-/

/-- A token bucket: the tokens left at the instant `last` of the latest refill. -/
structure Bucket (F : Type) where
  tokens : F
  last : F

namespace Bucket

variable {F : Type} [Field F] [LinearOrder F]

/-- Add the tokens earned since the latest refill, capped at `burst`. -/
def refill (burst rate now : F) (b : Bucket F) : Bucket F :=
  if 0 < now - b.last then ⟨min burst (b.tokens + (now - b.last) * rate), now⟩ else b

/-- Refill, then take a token if a whole one is there. -/
def take (burst rate now : F) (b : Bucket F) : Bool × Bucket F :=
  let b' := b.refill burst rate now
  if b'.tokens < 1 then (false, b') else (true, ⟨b'.tokens - 1, b'.last⟩)

/-- The token count is between `0` and `burst`. -/
def Valid (burst : F) (b : Bucket F) : Prop := 0 ≤ b.tokens ∧ b.tokens ≤ burst

variable [IsStrictOrderedRing F] {burst rate now : F} {b : Bucket F}

/-- A refill leaves the bucket valid. -/
theorem Valid.refill (now : F) (hburst : 0 ≤ burst) (hrate : 0 ≤ rate) (h : b.Valid burst) :
    (b.refill burst rate now).Valid burst := by
  rw [Bucket.refill]
  split
  · next hpos =>
      refine ⟨le_min hburst (add_nonneg h.1 (mul_nonneg hpos.le hrate)), min_le_left _ _⟩
  · exact h

/-- **The token count stays between `0` and `burst`.** -/
theorem Valid.take (now : F) (hburst : 0 ≤ burst) (hrate : 0 ≤ rate) (h : b.Valid burst) :
    (b.take burst rate now).2.Valid burst := by
  obtain ⟨h0, h1⟩ := h.refill now hburst hrate
  rw [Bucket.take]
  split
  · exact ⟨h0, h1⟩
  · next hge =>
      rw [not_lt] at hge
      exact ⟨sub_nonneg.mpr hge, le_trans (sub_le_self _ zero_le_one) h1⟩

/-- A refill earns at most `rate` per unit of time. -/
theorem tokens_refill_le (burst rate : F) (hlast : b.last ≤ now) :
    (b.refill burst rate now).tokens ≤ b.tokens + (now - b.last) * rate := by
  rw [refill]
  split
  · exact min_le_right _ _
  · next hneg =>
      have : now = b.last := le_antisymm (sub_nonpos.mp (not_lt.mp hneg)) hlast
      simp [this]

/-- A look at the bucket, admitted or not, leaves at most what was there plus what was
earned. -/
theorem tokens_take_le (burst rate : F) (hlast : b.last ≤ now) :
    (b.take burst rate now).2.tokens ≤ b.tokens + (now - b.last) * rate := by
  have h := tokens_refill_le burst rate hlast
  rw [take]
  split
  · exact h
  · exact le_trans (sub_le_self _ zero_le_one) h

omit [IsStrictOrderedRing F] in
/-- An admission takes one token from the refilled bucket. -/
theorem tokens_take_add_one (hadm : (b.take burst rate now).1 = true) :
    (b.take burst rate now).2.tokens + 1 = (b.refill burst rate now).tokens := by
  rw [take] at hadm ⊢
  split at hadm
  · exact absurd hadm Bool.false_ne_true
  · next hge => rw [if_neg hge, sub_add_cancel]

/-- An admission pays one token. -/
theorem tokens_take_admitted (hlast : b.last ≤ now)
    (hadm : (b.take burst rate now).1 = true) :
    (b.take burst rate now).2.tokens + 1 ≤ b.tokens + (now - b.last) * rate := by
  rw [tokens_take_add_one hadm]
  exact tokens_refill_le burst rate hlast

/-- An admission leaves at most `burst - 1` tokens. -/
theorem tokens_take_admitted_le_burst (hburst : 0 ≤ burst) (hrate : 0 ≤ rate)
    (h : b.Valid burst) (hadm : (b.take burst rate now).1 = true) :
    (b.take burst rate now).2.tokens + 1 ≤ burst := by
  rw [tokens_take_add_one hadm]
  exact (h.refill now hburst hrate).2

end Bucket
