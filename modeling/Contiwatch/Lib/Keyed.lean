import Mathlib.Data.List.Nodup

/-!
# Lists with a Unique Key

A finite map may be a list of records in which a key, a function `f` of the record, does not
repeat. `Keyed.find f l k` is the record with the key `k`; with unique keys it is determined
by membership, so that changes of the list are followed through membership alone. The same
list may have several such keys. `upsert` and `remove` store and take out records by their key.
-/

namespace Keyed

variable {α κ : Type} [DecidableEq κ] {f : α → κ} {l : List α} {k : κ} {a : α}

/-- The record of `l` whose key is `k`. -/
def find (f : α → κ) (l : List α) (k : κ) : Option α := l.find? fun a => f a = k

/-- Nothing is found where no element has the key. -/
theorem find_eq_none : find f l k = none ↔ ∀ a ∈ l, f a ≠ k := by
  rw [find, List.find?_eq_none]
  simp

/-- With unique keys, a record is found exactly when it is there. -/
theorem find_eq_some (hnodup : (l.map f).Nodup) : find f l k = some a ↔ a ∈ l ∧ f a = k := by
  constructor
  · intro h
    exact ⟨List.mem_of_find?_eq_some h, by simpa using List.find?_some h⟩
  · rintro ⟨hmem, rfl⟩
    rcases hfind : find f l (f a) with _ | b
    · exact absurd rfl (find_eq_none.mp hfind a hmem)
    · have hb : f b = f a := by simpa using List.find?_some hfind
      rw [List.inj_on_of_nodup_map hnodup (List.mem_of_find?_eq_some hfind) hmem hb]

/-- Two lists with unique keys agree on a key when they have the same records for it. -/
theorem find_congr {l' : List α} (hnodup : (l.map f).Nodup) (hnodup' : (l'.map f).Nodup)
    (h : ∀ a, f a = k → (a ∈ l' ↔ a ∈ l)) : find f l' k = find f l k := by
  refine Option.ext fun a => ?_
  rw [find_eq_some hnodup, find_eq_some hnodup']
  constructor
  · rintro ⟨hmem, rfl⟩
    exact ⟨(h a rfl).mp hmem, rfl⟩
  · rintro ⟨hmem, rfl⟩
    exact ⟨(h a rfl).mpr hmem, rfl⟩

/-- A key that is not in use may be added. -/
theorem nodup_cons (hnodup : (l.map f).Nodup) (hfree : find f l (f a) = none) :
    ((a :: l).map f).Nodup := by
  rw [List.map_cons, List.nodup_cons]
  refine ⟨fun hmem => ?_, hnodup⟩
  obtain ⟨b, hb, heq⟩ := List.mem_map.mp hmem
  exact find_eq_none.mp hfree b hb heq

/-- Put a record in the place of the first one with its key, or else at the end. -/
def upsert (f : α → κ) : List α → α → List α
  | [], a => [a]
  | b :: rest, a => if f b = f a then a :: rest else b :: upsert f rest a

/-- Take out the records with the key `k`. -/
def remove (f : α → κ) (l : List α) (k : κ) : List α := l.filter fun a => ¬ f a = k

/-- The keys after `upsert`. -/
theorem map_upsert (l : List α) (a : α) :
    (upsert f l a).map f = if f a ∈ l.map f then l.map f else l.map f ++ [f a] := by
  induction l with
  | nil => rfl
  | cons b rest ih =>
      by_cases heq : f b = f a
      · simp [upsert, heq]
      · have hne : f a ≠ f b := fun h => heq h.symm
        rw [upsert, if_neg heq, List.map_cons, ih]
        by_cases hmem : f a ∈ rest.map f
        · rw [if_pos hmem, if_pos (by simp [hmem]), List.map_cons]
        · have hnot : f a ∉ f b :: rest.map f := List.not_mem_cons_of_ne_of_not_mem hne hmem
          rw [if_neg hmem, List.map_cons, if_neg hnot, List.cons_append]

/-- An upsert adds the key of its element. -/
theorem mem_map_upsert {l : List α} {a : α} :
    k ∈ (upsert f l a).map f ↔ k ∈ l.map f ∨ k = f a := by
  rw [map_upsert]
  by_cases hmem : f a ∈ l.map f
  · rw [if_pos hmem]
    constructor
    · exact Or.inl
    · rintro (h | rfl)
      · exact h
      · exact hmem
  · rw [if_neg hmem, List.mem_append, List.mem_singleton]

/-- It adds no other element. -/
theorem mem_of_mem_upsert {l : List α} {a b : α} (h : b ∈ upsert f l a) : b = a ∨ b ∈ l := by
  induction l with
  | nil => exact .inl (List.mem_singleton.mp h)
  | cons c rest ih =>
      rw [upsert] at h
      split at h
      · exact (List.mem_cons.mp h).imp_right (List.mem_cons_of_mem c)
      · rcases List.mem_cons.mp h with rfl | hrest
        · exact .inr (List.mem_cons_self ..)
        · exact (ih hrest).imp_right (List.mem_cons_of_mem c)

/-- `upsert` keeps the keys unique. -/
theorem nodup_upsert {l : List α} (hnodup : (l.map f).Nodup) (a : α) :
    ((upsert f l a).map f).Nodup := by
  rw [map_upsert]
  by_cases hmem : f a ∈ l.map f
  · rwa [if_pos hmem]
  · rw [if_neg hmem]
    rw [← List.concat_eq_append]
    exact hnodup.concat hmem

/-- After `upsert` the record is found under its key, and the others as before. -/
theorem find_upsert (l : List α) (a : α) (k : κ) :
    find f (upsert f l a) k = if f a = k then some a else find f l k := by
  induction l with
  | nil =>
      by_cases hk : f a = k
      · simp [upsert, find, hk]
      · simp [upsert, find, hk]
  | cons b rest ih =>
      by_cases heq : f b = f a
      · by_cases hk : f a = k
        · simp [upsert, find, heq, hk]
        · simp [upsert, find, heq, hk]
      · rw [upsert, if_neg heq]
        by_cases hb : f b = k
        · have hk : f a ≠ k := fun h => heq (hb.trans h.symm)
          simp [find, hb, hk]
        · simpa [find, hb] using ih

/-- `remove` keeps the other keys unique. -/
theorem nodup_remove {l : List α} (hnodup : (l.map f).Nodup) (k : κ) :
    ((remove f l k).map f).Nodup :=
  hnodup.sublist (List.filter_sublist.map f)

/-- With unique keys, `remove` takes out one record. -/
theorem remove_eq_erase [DecidableEq α] (hnodup : (l.map f).Nodup) (ha : a ∈ l) :
    remove f l (f a) = l.erase a := by
  rw [hnodup.of_map.erase_eq_filter a, remove]
  refine List.filter_congr fun b hb => ?_
  by_cases heq : b = a
  · simp [heq]
  · have hkey : f b ≠ f a := fun h => heq (List.inj_on_of_nodup_map hnodup hb ha h)
    simp [heq, hkey]

/-- A removal adds no key. -/
theorem mem_map_of_mem_remove {l : List α} {k k' : κ} (h : k ∈ (remove f l k').map f) :
    k ∈ l.map f :=
  (List.filter_sublist.map f).subset h

/-- After `remove` nothing is found under the key, and the others as before. -/
theorem find_remove (l : List α) (k' k : κ) :
    find f (remove f l k') k = if k = k' then none else find f l k := by
  induction l with
  | nil => simp [remove, find]
  | cons b rest ih =>
      simp only [remove, find] at ih ⊢
      by_cases hb : f b = k'
      · rw [List.filter_cons_of_neg (by simpa using hb), ih]
        by_cases hk : k = k'
        · simp [hk]
        · have hne : f b ≠ k := fun h => hk (h.symm.trans hb)
          simp [hk, hne]
      · rw [List.filter_cons_of_pos (by simpa using hb)]
        by_cases hbk : f b = k
        · have hne : k ≠ k' := fun h => hb (hbk.trans h)
          simp [hbk, hne]
        · simpa [hbk] using ih

omit [DecidableEq κ] in
/-- A change of records that keeps the key keeps all keys. -/
theorem map_map_key {g : α → α} (hg : ∀ a, f (g a) = f a) (l : List α) :
    (l.map g).map f = l.map f := by
  rw [List.map_map]
  exact List.map_congr_left fun a _ => hg a

end Keyed
