import Mathlib.Data.List.Basic
import Mathlib.Order.WellFounded

/-!
# Readers

A reader hands out the values that it has left, at most as many at a time as the buffer of a call
holds, and at last an error that ends it; the end of a file is such an error too. A call may return
fewer values than there is room for, none at all, or the last ones together with the error.

## Main results

* `Serves.reads` — what is read is a prefix of what the reader serves, and all of it once an error
  is returned.
* `Serves.ends` — a reader that does not return nothing for ever is read to its end.
-/

/-- A reader with states `σ`: what a call with a buffer of a length returns, and the state that it
leaves. -/
abbrev Reader (σ β ε : Type) := σ → ℕ → (List β × Option ε) × σ

namespace Reader

variable {σ β ε : Type}

/-- Calls with buffers of these lengths, up to the first error: the values, the error, and the
state that is left. -/
def reads (r : Reader σ β ε) : σ → List ℕ → (List β × Option ε) × σ
  | s, [] => (([], none), s)
  | s, len :: lens =>
      match r s len with
      | ((data, some err), s) => ((data, some err), s)
      | ((data, none), s) =>
          let rest := reads r s lens
          ((data ++ rest.1.1, rest.1.2), rest.2)

/-- A state `s` with `Left s left` has the values `left` to hand out, and then `final`. -/
structure Serves (r : Reader σ β ε) (final : ε) (Left : σ → List β → Prop) : Prop where
  fits : ∀ {s left}, Left s left → ∀ len, (r s len).1.1.length ≤ len
  data : ∀ {s left}, Left s left → ∀ len, (r s len).1.2 = none →
    ∃ rest, left = (r s len).1.1 ++ rest ∧ Left (r s len).2 rest
  last : ∀ {s left}, Left s left → ∀ len err, (r s len).1.2 = some err →
    left = (r s len).1.1 ∧ err = final

/-- A call with room for something returns nothing. -/
def Stalls (r : Reader σ β ε) (s' s : σ) : Prop := ∃ len, 0 < len ∧ r s len = (([], none), s')

variable {r : Reader σ β ε} {final : ε} {Left : σ → List β → Prop} {s : σ} {left : List β}

/-- A call returns the first values that are left. -/
theorem Serves.data_prefix (h : Serves r final Left) (hs : Left s left) (len : ℕ) :
    (r s len).1.1 <+: left := by
  rcases herr : (r s len).1.2 with _ | err
  · obtain ⟨rest, hrest, -⟩ := h.data hs len herr
    exact ⟨rest, hrest.symm⟩
  · exact ((h.last hs len err herr).1 ▸ List.prefix_rfl)

/-- **What is read** is a prefix of what the reader serves, and all of it once an error is
returned, which is the one that it serves. -/
theorem Serves.reads (h : Serves r final Left) (hs : Left s left) (lens : List ℕ) :
    (r.reads s lens).1.1 <+: left ∧
      ∀ err, (r.reads s lens).1.2 = some err → (r.reads s lens).1.1 = left ∧ err = final := by
  induction lens generalizing s left with
  | nil => exact ⟨List.nil_prefix, nofun⟩
  | cons len lens ih =>
      rw [Reader.reads]
      split
      · rename_i data err s' hread
        obtain ⟨rfl, rfl⟩ := h.last hs len err (by rw [hread])
        rw [hread]
        refine ⟨List.prefix_rfl, ?_⟩
        rintro err' heq
        exact ⟨rfl, (Option.some.inj heq).symm⟩
      · rename_i data s' hread
        obtain ⟨rest, rfl, hrest⟩ := h.data hs len (by rw [hread])
        rw [hread] at hrest ⊢
        obtain ⟨hpre, hend⟩ := ih hrest
        refine ⟨(List.prefix_append_right_inj data).mpr hpre, fun err herr => ?_⟩
        obtain ⟨hall, rfl⟩ := hend err herr
        exact ⟨congrArg (data ++ ·) hall, rfl⟩

/-- **A reader is read to its end** if no state of it can return nothing for ever. -/
theorem Serves.ends (h : Serves r final Left)
    (hstalls : ∀ s left, Left s left → Acc (Stalls r) s) (hs : Left s left) (len : ℕ → ℕ)
    (hlen : ∀ i, 0 < len i) : ∃ n, (r.reads s ((List.range n).map len)).1.2 = some final := by
  induction hn : left.length using Nat.strong_induction_on generalizing s left len with
  | h n ih =>
  induction hstalls s left hs generalizing left len with
  | intro s _ ihstalls =>
  rcases hread : r s (len 0) with ⟨⟨data, _ | err⟩, s'⟩
  · obtain ⟨rest, rfl, hrest⟩ := h.data hs (len 0) (by rw [hread])
    rw [hread] at hrest hn
    -- a call that returns something leaves less, and one that returns nothing is a stall
    have hnext : ∃ n, (r.reads s' ((List.range n).map (len ∘ Nat.succ))).1.2 = some final := by
      rcases data with _ | ⟨a, data⟩
      · exact ihstalls s' ⟨len 0, hlen 0, hread⟩ hrest (len ∘ Nat.succ) (fun i => hlen _) hn
      · refine ih rest.length ?_ hrest (len ∘ Nat.succ) (fun i => hlen _) rfl
        rw [← hn, List.cons_append, List.length_cons, List.length_append]
        omega
    obtain ⟨m, hm⟩ := hnext
    refine ⟨m + 1, ?_⟩
    rw [List.range_succ_eq_map, List.map_cons, List.map_map, Reader.reads, hread]
    exact hm
  · obtain ⟨-, rfl⟩ := h.last hs (len 0) err (by rw [hread])
    refine ⟨1, ?_⟩
    rw [List.range_one, List.map_singleton, Reader.reads, hread]

/-! ### A reader of a list -/

/-- The reader of a list fills every buffer; the error comes in a call of its own. -/
def ofList (final : ε) : Reader (List β) β ε
  | [], _ => (([], some final), [])
  | left, len => ((left.take len, none), left.drop len)

theorem ofList_cons (final : ε) (a : β) (left : List β) (len : ℕ) :
    ofList final (a :: left) len = (((a :: left).take len, none), (a :: left).drop len) := rfl

/-- It serves itself, then the final error. -/
theorem serves_ofList (final : ε) :
    Serves (ofList final : Reader (List β) β ε) final fun state left => state = left where
  fits := by
    rintro (_ | ⟨a, left⟩) _ rfl len
    · exact Nat.zero_le len
    · rw [ofList_cons]
      exact List.length_take_le len _
  data := by
    rintro (_ | ⟨a, left⟩) _ rfl len hnone
    · cases hnone
    · exact ⟨(a :: left).drop len, (List.take_append_drop len _).symm, rfl⟩
  last := by
    rintro (_ | ⟨a, left⟩) _ rfl len err hsome
    · exact ⟨rfl, (Option.some.inj hsome).symm⟩
    · cases hsome

/-- It never serves nothing for ever. -/
theorem not_stalls_ofList (final : ε) (state state' : List β) :
    ¬ Stalls (ofList final) state' state := by
  rintro ⟨len, hlen, hread⟩
  rcases state with _ | ⟨a, left⟩
  · cases hread
  · rw [ofList_cons, ← Nat.succ_pred_eq_of_pos hlen] at hread
    cases hread

end Reader
