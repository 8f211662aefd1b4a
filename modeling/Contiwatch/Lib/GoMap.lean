import Mathlib.Data.Finmap

/-!
# Go Maps

A Go `map[K]V` is a finite map with extensional equality, so it is modelled by Mathlib's
`Finmap`: `m[k]` is `Finmap.lookup`, `m[k] = v` is `Finmap.insert`, `delete(m, k)` is
`Finmap.erase` and `len(m)` is `GoMap.len`. This module adds what Go programs do with a
map and `Finmap` lacks:

* `GoMap.filter` — the loop `for k, v := range m { if !p { delete(m, k) } }`, whose
  result does not depend on the iteration order;
* `GoMap.mapValues` — a copy with every value changed;
* `GoMap.IsRange` — the orders in which a `range` loop may visit the keys. Go leaves the
  order open, so a loop whose result depends on it takes the order as an argument and
  statements quantify over all of them;
* `GoMap.count` — how many entries satisfy a predicate, for counting arguments.
-/

/-- A Go `map[K]V`. -/
abbrev GoMap (K V : Type) := Finmap fun _ : K => V

namespace GoMap

variable {K V : Type} [DecidableEq K]

/-- `len(m)`. -/
def len (m : GoMap K V) : ℕ := m.keys.card

/-- Delete every entry that fails `p`. -/
def filter (p : K → V → Bool) (m : GoMap K V) : GoMap K V :=
  m.liftOn (fun l => AList.toFinmap
      ⟨l.entries.filter fun e => p e.1 e.2, l.nodupKeys.sublist List.filter_sublist⟩)
    fun _ _ h => AList.toFinmap_eq.mpr (h.filter _)

/-- A filtered map finds what the predicate keeps. -/
@[simp] theorem lookup_filter (p : K → V → Bool) (m : GoMap K V) (k : K) :
    (filter p m).lookup k = (m.lookup k).filter (p k) := by
  induction m using Finmap.induction_on with
  | H l =>
      have hl := l.nodupKeys
      change List.dlookup k (l.entries.filter fun e => p e.1 e.2) =
        (List.dlookup k l.entries).filter (p k)
      ext v
      rw [Option.filter_eq_some_iff, ← Option.mem_def, ← Option.mem_def,
        List.mem_dlookup_iff (hl.sublist List.filter_sublist), List.mem_dlookup_iff hl,
        List.mem_filter]

/-- Apply `f` to every value. -/
def mapValues {W : Type} (f : V → W) (m : GoMap K V) : GoMap K W :=
  m.liftOn (fun l => AList.toFinmap
      ⟨l.entries.map (.map id fun _ => f), l.nodupKeys.map₂ (fun _ => f) l.entries⟩)
    fun _ _ h => AList.toFinmap_eq.mpr (h.map _)

/-- A mapped map finds the images. -/
@[simp] theorem lookup_mapValues {W : Type} (f : V → W) (m : GoMap K V) (k : K) :
    (mapValues f m).lookup k = (m.lookup k).map f := by
  induction m using Finmap.induction_on with
  | H l => exact List.dlookup_map₂ k

/-- The keys of `m` in some order: a sequence in which a `range` loop may visit them. -/
def IsRange (m : GoMap K V) (order : List K) : Prop :=
  order.Nodup ∧ ∀ k, k ∈ order ↔ k ∈ m

/-- The keys in any order without repetition are a range over the map. -/
theorem isRange_of_keys_eq {m : GoMap K V} {order : List K} (hkeys : m.keys = order.toFinset)
    (hnodup : order.Nodup) : IsRange m order := by
  refine ⟨hnodup, fun k => ?_⟩
  rw [← Finmap.mem_keys, hkeys, List.mem_toFinset]

/-- The number of entries of `m` whose value satisfies `p`. -/
def count (p : V → Bool) (m : GoMap K V) : ℕ :=
  (m.keys.filter fun k => (m.lookup k).any p).card

omit [DecidableEq K] in

@[simp] theorem len_empty : len (∅ : GoMap K V) = 0 := by
  simp [len]

/-- A map without entries finds nothing. -/
theorem len_eq_zero {m : GoMap K V} : len m = 0 ↔ ∀ k, m.lookup k = none := by
  simp only [len, Finset.card_eq_zero, Finset.eq_empty_iff_forall_notMem, Finmap.mem_keys,
    Finmap.lookup_eq_none]

/-- An insertion adds its key. -/
theorem keys_insert (m : GoMap K V) (k : K) (v : V) :
    (Finmap.insert k v m).keys = Insert.insert k m.keys := by
  ext k'
  simp [Finmap.mem_keys]

/-- Overwriting a key keeps the length. -/
theorem len_insert_of_mem {m : GoMap K V} {k : K} (v : V) (h : k ∈ m) :
    len (Finmap.insert k v m) = len m := by
  rw [len, keys_insert, Finset.insert_eq_of_mem (Finmap.mem_keys.mpr h), len]

/-- It adds one entry at most. -/
theorem len_insert_le (m : GoMap K V) (k : K) (v : V) :
    len (Finmap.insert k v m) ≤ len m + 1 := by
  rw [len, keys_insert]
  exact Finset.card_insert_le k m.keys

/-- Deleting a present key takes one entry away. -/
theorem len_erase_of_mem {m : GoMap K V} {k : K} (h : k ∈ m) :
    len (m.erase k) = len m - 1 := by
  rw [len, Finmap.keys_erase]
  exact Finset.card_erase_of_mem (Finmap.mem_keys.mpr h)

omit [DecidableEq K] in

@[simp] theorem count_empty [DecidableEq K] (p : V → Bool) :
    count p (∅ : GoMap K V) = 0 := by
  simp [count]

/-- Every entry is counted when every value satisfies the predicate. -/
theorem count_eq_len {p : V → Bool} {m : GoMap K V}
    (h : ∀ k v, m.lookup k = some v → p v = true) : count p m = len m := by
  rw [count, len, Finset.filter_true_of_mem]
  intro k hk
  obtain ⟨v, hv⟩ := Finmap.mem_iff.mp (Finmap.mem_keys.mp hk)
  rw [hv, Option.any_some]
  exact h k v hv

/-- Nothing is counted when no value satisfies the predicate. -/
theorem count_eq_zero {p : V → Bool} {m : GoMap K V}
    (h : ∀ k v, m.lookup k = some v → p v = false) : count p m = 0 := by
  rw [count, Finset.card_eq_zero, Finset.filter_eq_empty_iff]
  intro k hk
  obtain ⟨v, hv⟩ := Finmap.mem_iff.mp (Finmap.mem_keys.mp hk)
  rw [hv, Option.any_some, h k v hv]
  exact Bool.false_ne_true

/-- A predicate that singles out one key counts one. -/
theorem count_eq_one {p : V → Bool} {m : GoMap K V} {k : K} {v : V} (hk : m.lookup k = some v)
    (hp : p v = true) (hunique : ∀ k' v', m.lookup k' = some v' → p v' = true → k' = k) :
    count p m = 1 := by
  rw [count, Finset.card_eq_one]
  refine ⟨k, Finset.ext fun k' => ?_⟩
  rw [Finset.mem_filter, Finset.mem_singleton, Finmap.mem_keys]
  constructor
  · rintro ⟨-, hany⟩
    rcases hlook : m.lookup k' with _ | v'
    · rw [hlook] at hany
      exact absurd hany (by simp)
    · rw [hlook, Option.any_some] at hany
      exact hunique k' v' hlook hany
  · rintro rfl
    rw [hk, Option.any_some]
    exact ⟨Finmap.mem_of_lookup_eq_some hk, hp⟩

/-- A map that only lost or kept entries counts no more than before. -/
theorem count_le_of_lookup {p : V → Bool} {m m' : GoMap K V}
    (h : ∀ k v, m'.lookup k = some v → m.lookup k = some v) : count p m' ≤ count p m := by
  refine Finset.card_le_card fun k hk => ?_
  rw [Finset.mem_filter, Finmap.mem_keys] at hk ⊢
  obtain ⟨v, hv⟩ := Finmap.mem_iff.mp hk.1
  have hm := h k v hv
  rw [hv] at hk
  rw [hm]
  exact ⟨Finmap.mem_of_lookup_eq_some hm, hk.2⟩

/-- Writing one key adds at most one to the count. -/
theorem count_insert_le (p : V → Bool) (m : GoMap K V) (k : K) (v : V) :
    count p (Finmap.insert k v m) ≤ count p m + 1 := by
  refine le_trans (Finset.card_le_card (t := Insert.insert k
    (m.keys.filter fun k => (m.lookup k).any p)) fun k' hk' => ?_)
    (Finset.card_insert_le _ _)
  rw [Finset.mem_filter, Finmap.mem_keys, Finmap.mem_insert] at hk'
  rw [Finset.mem_insert, Finset.mem_filter, Finmap.mem_keys]
  by_cases heq : k' = k
  · exact Or.inl heq
  · rw [Finmap.lookup_insert_of_ne m heq] at hk'
    exact Or.inr ⟨hk'.1.resolve_left heq, hk'.2⟩

end GoMap
