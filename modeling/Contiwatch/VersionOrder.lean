import Contiwatch.Releases
import Mathlib.Data.Char
import Mathlib.Data.List.Lex

/-!
# The Order of Versions

`compareVersions` puts empty versions before development versions, and those before all others.
Two versions of the same kind are compared by their numbers if both have one, and else as texts.
The two orders do not agree, and a text between two numbers closes a cycle.

## Main results

* `compareVersions_eq_then` — the comparison goes by kinds and then by bodies.
* `totalPreorderOn_iff` — the comparison is a total preorder on a set of versions exactly if no
  text stands between two numbers of the set that are the other way round.
* `text_between_numbers` — three versions that go round.
* `select_greatest` — of releases whose versions have numbers, a greatest one is selected.
-/

namespace Contiwatch

open GoStrings

/-! ### Kinds and bodies -/

/-- The kinds of versions, from the least to the greatest. -/
inductive VersionKind
  | empty
  | dev
  | main
  deriving DecidableEq

/-- The place of a kind. -/
def VersionKind.rank : VersionKind → ℕ
  | .empty => 0
  | .dev => 1
  | .main => 2

/-- The kind of a version. -/
def versionKind (v : List Char) : VersionKind :=
  if normalizeVersion v = [] then .empty
  else if isDevVersion (normalizeVersion v) then .dev
  else .main

/-- The part of a version that is compared with versions of its kind. -/
def versionBody (v : List Char) : List Char :=
  if versionKind v = .dev then devSuffix (normalizeVersion v) else normalizeVersion v

/-- The comparison of two bodies. -/
def compareBody (u v : List Char) : Ordering :=
  match parseSemverParts u, parseSemverParts v with
  | some leftParts, some rightParts => compareSemver leftParts rightParts
  | _, _ => compareText u v

variable {a b c u v w : List Char} {p q : List ℤ}

/-- Two numbers are compared as numbers. -/
theorem compareBody_of_parts (hu : parseSemverParts u = some p) (hv : parseSemverParts v = some q) :
    compareBody u v = compareSemver p q := by
  rw [compareBody, hu, hv]

/-- Where one is no number, both are compared as texts. -/
theorem compareBody_of_text (h : parseSemverParts u = none ∨ parseSemverParts v = none) :
    compareBody u v = compareText u v := by
  rw [compareBody]
  rcases h with h | h
  · rw [h]
  · rw [h]
    cases parseSemverParts u <;> rfl

/-- A character of a decimal number with a sign. -/
def isIntChar (c : Char) : Bool := c = '-' || c = '+' || c.isDigit

/-- A fact of the characters of a number is checked on ASCII. -/
theorem intChar_forall {p : Char → Prop}
    (h : ∀ n < 128, isIntChar (Char.ofNat n) = true → p (Char.ofNat n)) {c : Char}
    (hc : isIntChar c = true) : p c := by
  have hlt : c.toNat < 128 := by
    simp only [isIntChar, Bool.or_eq_true, decide_eq_true_eq] at hc
    rcases hc with (rfl | rfl) | hc
    · decide
    · decide
    · exact toNat_lt_of_isDigit hc
  exact ascii_forall (p := fun c => isIntChar c = true → p c) h hlt hc

/-- `strconv.Atoi` takes a sign and digits only. -/
theorem isIntChar_of_atoi {n : ℤ} (h : atoi v = some n) : ∀ c ∈ v, isIntChar c = true := by
  have hdigit : ∀ c : Char, c.isDigit = true → isIntChar c = true := fun c hc => by
    rw [isIntChar, hc, Bool.or_true]
  unfold atoi at h
  split at h
  rename_i negative digits hread
  rw [ite_eq_iff] at h
  obtain ⟨-, h⟩ | ⟨hdigits, -⟩ := h
  · exact absurd h (by simp)
  rw [not_or, not_not, List.all_eq_true] at hdigits
  split at hread
  all_goals
    obtain ⟨-, rfl⟩ := Prod.mk.inj hread
  · exact List.forall_mem_cons.mpr ⟨by decide, fun c hc => hdigit c (hdigits.2 c hc)⟩
  · exact List.forall_mem_cons.mpr ⟨by decide, fun c hc => hdigit c (hdigits.2 c hc)⟩
  · exact fun c hc => hdigit c (hdigits.2 c hc)

/-- Without the separator there is one part. -/
theorem split_of_not_mem {sep : Char} {cs : List Char} (h : ∀ c ∈ cs, c ≠ sep) :
    split sep cs = [cs] := by
  induction cs with
  | nil => rfl
  | cons c cs ih =>
      rw [List.forall_mem_cons] at h
      have hc : (c == sep) = false := beq_eq_false_iff_ne.mpr h.1
      rw [split] at ih ⊢
      simp [List.splitOn_cons_eq_if_modifyHead, hc, ih h.2]

/-- A text that is an integer is a number of one part. -/
theorem parseSemverParts_of_parseInt {n : ℤ} (h : parseInt v = some n) :
    parseSemverParts v = some [n] := by
  rw [parseInt] at h
  split at h
  · exact absurd h (by simp)
  rename_i hne
  have hchars := isIntChar_of_atoi h
  have hsplit : split '.' v = [v] := split_of_not_mem fun c hc =>
    intChar_forall (p := fun c => c ≠ '.') (by decide) (hchars c hc)
  have htrim : trimSpace v = v := trimSpace_of_not_space fun c hc =>
    intChar_forall (p := fun c => isSpace c = false) (by decide) (hchars c hc)
  rw [parseSemverParts, if_neg hne, hsplit, List.mapM_cons, htrim]
  simp only [if_neg hne, h]
  rfl

/-- Integers after `dev` are compared as numbers anyway. -/
theorem compareDevVersions_eq :
    compareDevVersions a b = compareBody (devSuffix a) (devSuffix b) := by
  rw [compareDevVersions]
  split
  · rename_i hleft hright
    rw [compareBody_of_parts hleft hright]
  · rename_i hparts
    have htext : parseSemverParts (devSuffix a) = none ∨ parseSemverParts (devSuffix b) = none := by
      by_contra! h
      obtain ⟨leftParts, hleft⟩ := Option.ne_none_iff_exists'.mp h.1
      obtain ⟨rightParts, hright⟩ := Option.ne_none_iff_exists'.mp h.2
      exact hparts _ _ hleft hright
    rw [compareBody_of_text htext]
    split
    · rename_i hleft hright
      exact (hparts _ _ (parseSemverParts_of_parseInt hleft)
        (parseSemverParts_of_parseInt hright)).elim
    · rfl

/-- The kind and the body of a version. -/
theorem version_cases (v : List Char) :
    (normalizeVersion v = [] ∧ versionKind v = .empty ∧ versionBody v = []) ∨
      (normalizeVersion v ≠ [] ∧ isDevVersion (normalizeVersion v) = true ∧
        versionKind v = .dev ∧ versionBody v = devSuffix (normalizeVersion v)) ∨
      (normalizeVersion v ≠ [] ∧ isDevVersion (normalizeVersion v) = false ∧
        versionKind v = .main ∧ versionBody v = normalizeVersion v) := by
  rw [versionBody, versionKind]
  by_cases hv : normalizeVersion v = []
  · simp [hv]
  · cases hdev : isDevVersion (normalizeVersion v)
    · simp [hv]
    · simp [hv]

/-- **Comparing versions**: by their kinds, and then by their bodies. -/
theorem compareVersions_eq_then :
    compareVersions a b =
      (compare (versionKind a).rank (versionKind b).rank).then
        (compareBody (versionBody a) (versionBody b)) := by
  rw [compareVersions]
  rcases version_cases a with ⟨ha, hkind, hbody⟩ | ⟨ha, hdev, hkind, hbody⟩ |
      ⟨ha, hdev, hkind, hbody⟩
    <;> rcases version_cases b with ⟨hb, hkind', hbody'⟩ | ⟨hb, hdev', hkind', hbody'⟩ |
      ⟨hb, hdev', hkind', hbody'⟩
    <;> rw [hkind, hkind', hbody, hbody']
  · simp only [ha, hb, and_self, if_true]
    decide
  · simp only [ha, hb, and_false, if_true, if_false]
    rfl
  · simp only [ha, hb, and_false, if_true, if_false]
    rfl
  · simp only [ha, hb, false_and, if_true, if_false]
    rfl
  · simp only [ha, hb, false_and, if_false, hdev, hdev', compareDevVersions_eq]
    rw [Nat.compare_eq_eq.mpr rfl, Ordering.eq_then]
  · simp only [ha, hb, false_and, if_false, hdev, hdev']
    rfl
  · simp only [ha, hb, false_and, if_true, if_false]
    rfl
  · simp only [ha, hb, false_and, if_false, hdev, hdev']
    rfl
  · simp only [ha, hb, false_and, if_false, hdev, hdev']
    rw [Nat.compare_eq_eq.mpr rfl, Ordering.eq_then]
    rfl

/-! ### A total preorder -/

/-- The order of texts is that of their characters. -/
theorem compareText_isLE : (compareText u v).isLE ↔ u ≤ v := by
  rw [compareText]
  rcases lt_trichotomy u v with h | rfl | h
  · rw [if_neg h.ne, if_pos h]
    exact iff_of_true rfl h.le
  · rw [if_pos rfl]
    exact iff_of_true rfl le_rfl
  · rw [if_neg h.ne', if_neg h.not_gt]
    exact iff_of_false (by decide) h.not_ge

/-- Comparing texts the other way swaps the answer. -/
theorem compareText_swap : compareText u v = (compareText v u).swap := by
  rw [compareText, compareText]
  rcases lt_trichotomy u v with h | rfl | h
  · rw [if_neg h.ne, if_neg h.ne', if_pos h, if_neg h.not_gt]
    rfl
  · rw [if_pos rfl]
    rfl
  · rw [if_neg h.ne, if_neg h.ne', if_pos h, if_neg h.not_gt]
    rfl

/-- So does comparing two versions without prefix. -/
theorem compareBody_swap : compareBody u v = (compareBody v u).swap := by
  by_cases h : parseSemverParts u = none ∨ parseSemverParts v = none
  · rw [compareBody_of_text h, compareBody_of_text h.symm, compareText_swap]
  · rw [not_or, ← ne_eq, ← ne_eq, Option.ne_none_iff_exists', Option.ne_none_iff_exists'] at h
    obtain ⟨⟨p, hp⟩, q, hq⟩ := h
    rw [compareBody_of_parts hp hq, compareBody_of_parts hq hp]
    exact Dotted.compareParts_swap

/-- So does `compareVersions`. -/
theorem compareVersions_swap : compareVersions a b = (compareVersions b a).swap := by
  rw [compareVersions_eq_then, compareVersions_eq_then, Ordering.swap_then,
    ← Std.OrientedCmp.eq_swap, ← compareBody_swap]

/-- A version is at most another one if its kind comes first, or its body does. -/
theorem compareVersions_isLE :
    (compareVersions a b).isLE ↔
      (versionKind a).rank < (versionKind b).rank ∨
        versionKind a = versionKind b ∧ (compareBody (versionBody a) (versionBody b)).isLE := by
  have hkind : ∀ k l : VersionKind, k = l ↔ k.rank = l.rank := by
    rintro (_ | _ | _) (_ | _ | _) <;> decide
  rw [compareVersions_eq_then, hkind]
  rcases lt_trichotomy (versionKind a).rank (versionKind b).rank with h | h | h
  · simp [Nat.compare_eq_lt.mpr h, h]
  · simp [h]
  · simp [Nat.compare_eq_gt.mpr h, h.ne', h.not_gt]

/-- Bodies with numbers are compared by them. -/
theorem compareBody_isLE_of_parts (hu : parseSemverParts u = some p)
    (hv : parseSemverParts v = some q) :
    (compareBody u v).isLE ↔ Dotted.value p ≤ Dotted.value q := by
  rw [compareBody_of_parts hu hv]
  exact Dotted.compareParts_isLE

/-- Bodies are compared as texts if one of them has no number. -/
theorem compareBody_isLE_of_text (h : parseSemverParts u = none ∨ parseSemverParts v = none) :
    (compareBody u v).isLE ↔ u ≤ v := by
  rw [compareBody_of_text h, compareText_isLE]

/-- A text `t` without a number stands between the texts of `a` and `b`, of which `a` is greater as
a text and not greater as a number. All are of one kind. -/
structure TextBetween (a b t : List Char) : Prop where
  kind : versionKind a = versionKind t ∧ versionKind b = versionKind t
  text : parseSemverParts (versionBody t) = none
  numbers : ∃ p q, parseSemverParts (versionBody a) = some p ∧
    parseSemverParts (versionBody b) = some q ∧ Dotted.value p ≤ Dotted.value q
  between : versionBody b < versionBody t ∧ versionBody t < versionBody a

/-- The texts of two bodies differ if only one has a number. -/
theorem lt_of_parts_ne (h : u ≤ v) (hne : parseSemverParts u ≠ parseSemverParts v) : u < v :=
  lt_of_le_of_ne h fun heq => hne (congrArg parseSemverParts heq)

/-- What is compared by number and what is compared as text agree, unless a text stands between
numbers. -/
theorem isLE_trans_of_not_between {s : Set (List Char)}
    (h : ∀ a ∈ s, ∀ b ∈ s, ∀ t ∈ s, ¬ TextBetween a b t) (ha : a ∈ s) (hb : b ∈ s) (hc : c ∈ s)
    (hab : versionKind a = versionKind b) (hbc : versionKind b = versionKind c)
    (hle : (compareBody (versionBody a) (versionBody b)).isLE)
    (hle' : (compareBody (versionBody b) (versionBody c)).isLE) :
    (compareBody (versionBody a) (versionBody c)).isLE := by
  rcases hpa : parseSemverParts (versionBody a) with _ | p <;>
    rcases hpb : parseSemverParts (versionBody b) with _ | q <;>
    rcases hpc : parseSemverParts (versionBody c) with _ | r
  · rw [compareBody_isLE_of_text (.inl hpa)] at hle ⊢
    rw [compareBody_isLE_of_text (.inl hpb)] at hle'
    exact hle.trans hle'
  · rw [compareBody_isLE_of_text (.inl hpa)] at hle ⊢
    rw [compareBody_isLE_of_text (.inl hpb)] at hle'
    exact hle.trans hle'
  · rw [compareBody_isLE_of_text (.inl hpa)] at hle ⊢
    rw [compareBody_isLE_of_text (.inr hpc)] at hle'
    exact hle.trans hle'
  · rw [compareBody_isLE_of_text (.inl hpa)] at hle ⊢
    rw [compareBody_isLE_of_parts hpb hpc] at hle'
    by_contra hlt
    have hab' := lt_of_parts_ne hle (by simp [hpa, hpb])
    exact h b hb c hc a ha
      ⟨⟨hab.symm, (hab.trans hbc).symm⟩, hpa, ⟨q, r, hpb, hpc, hle'⟩, not_le.mp hlt, hab'⟩
  · rw [compareBody_isLE_of_text (.inr hpb)] at hle
    rw [compareBody_isLE_of_text (.inl hpb)] at hle'
    rw [compareBody_isLE_of_text (.inr hpc)]
    exact hle.trans hle'
  · rw [compareBody_isLE_of_text (.inr hpb)] at hle
    rw [compareBody_isLE_of_text (.inl hpb)] at hle'
    rw [compareBody_isLE_of_parts hpa hpc]
    by_contra hlt
    have hab' := lt_of_parts_ne hle (by simp [hpa, hpb])
    have hbc' := lt_of_parts_ne hle' (by simp [hpb, hpc])
    exact h c hc a ha b hb
      ⟨⟨hbc.symm, hab⟩, hpb, ⟨r, p, hpc, hpa, (not_le.mp hlt).le⟩, hab', hbc'⟩
  · rw [compareBody_isLE_of_parts hpa hpb] at hle
    rw [compareBody_isLE_of_text (.inr hpc)] at hle' ⊢
    by_contra hlt
    have hbc' := lt_of_parts_ne hle' (by simp [hpb, hpc])
    exact h a ha b hb c hc
      ⟨⟨hab.trans hbc, hbc⟩, hpc, ⟨p, q, hpa, hpb, hle⟩, hbc', not_le.mp hlt⟩
  · rw [compareBody_isLE_of_parts hpa hpb] at hle
    rw [compareBody_isLE_of_parts hpb hpc] at hle'
    rw [compareBody_isLE_of_parts hpa hpc]
    exact hle.trans hle'

open SortSlice in

/-- A set without a text between its numbers is ordered. -/
theorem totalPreorderOn_of_not_between {s : Set (List Char)}
    (h : ∀ a ∈ s, ∀ b ∈ s, ∀ t ∈ s, ¬ TextBetween a b t) :
    TotalPreorderOn compareVersions s where
  swap _ _ _ _ := compareVersions_swap
  trans a ha b hb c hc hab hbc := by
    rw [compareVersions_isLE] at hab hbc ⊢
    rcases hab with hab | ⟨hab, hle⟩
    · rcases hbc with hbc | ⟨hbc, -⟩
      · exact .inl (hab.trans hbc)
      · exact .inl (hbc ▸ hab)
    · rcases hbc with hbc | ⟨hbc, hle'⟩
      · exact .inl (hab ▸ hbc)
      · exact .inr ⟨hab.trans hbc, isLE_trans_of_not_between h ha hb hc hab hbc hle hle'⟩

/-- **When versions are totally preordered.** The comparison is a total preorder on a set of
versions exactly if no text of the set stands between two numbers that are the other way round. -/
theorem totalPreorderOn_iff (s : Set (List Char)) :
    SortSlice.TotalPreorderOn compareVersions s ↔
      ∀ a ∈ s, ∀ b ∈ s, ∀ t ∈ s, ¬ TextBetween a b t := by
  refine ⟨fun h a ha b hb t ht hbetween => ?_, totalPreorderOn_of_not_between⟩
  obtain ⟨⟨hat, hbt⟩, htext, ⟨p, q, hp, hq, hle⟩, hlt, hlt'⟩ := hbetween
  have hab : (compareVersions a b).isLE :=
    compareVersions_isLE.mpr (.inr ⟨hat.trans hbt.symm, (compareBody_isLE_of_parts hp hq).mpr hle⟩)
  have hbt' : (compareVersions b t).isLE :=
    compareVersions_isLE.mpr (.inr ⟨hbt, (compareBody_isLE_of_text (.inr htext)).mpr hlt.le⟩)
  rcases compareVersions_isLE.mp (h.trans a ha b hb t ht hab hbt') with hrank | ⟨-, hle'⟩
  · exact hrank.ne (congrArg VersionKind.rank hat)
  · exact ((compareBody_isLE_of_text (.inr htext)).mp hle').not_gt hlt'

/-- **A text between numbers.** `1.9` comes before `1.10`, which comes before `1.1x`, which comes
before `1.9`. -/
theorem text_between_numbers :
    (compareVersions "1.9".toList "1.10".toList).isLE ∧
      (compareVersions "1.10".toList "1.1x".toList).isLE ∧
      ¬ (compareVersions "1.9".toList "1.1x".toList).isLE ∧
      ¬ SortSlice.TotalPreorderOn compareVersions Set.univ := by
  have hle : (compareVersions "1.9".toList "1.10".toList).isLE := by decide
  have hle' : (compareVersions "1.10".toList "1.1x".toList).isLE := by decide
  have hlt : ¬ (compareVersions "1.9".toList "1.1x".toList).isLE := by decide
  exact ⟨hle, hle', hlt, fun h => hlt (h.trans _ trivial _ trivial _ trivial hle hle')⟩

/-! ### Releases whose versions have numbers -/

/-- A version is a number behind an optional `v`, or a number behind an optional `v`, `dev` and an
optional `-` or `_`. -/
inductive VersionForm : List Char → TagNumber → Prop
  | main {pre number : List Char} {parts : List ℕ} (hpre : pre = [] ∨ pre = ['v'])
      (hnumber : dottedNumber number = some parts) :
      VersionForm (pre ++ number) { dev := false, parts := parts }
  | dev {pre sep number : List Char} {parts : List ℕ} (hpre : pre = [] ∨ pre = ['v'])
      (hsep : sep = [] ∨ sep = ['-'] ∨ sep = ['_'])
      (hnumber : dottedNumber number = some parts) :
      VersionForm (pre ++ 'd' :: 'e' :: 'v' :: sep ++ number) { dev := true, parts := parts }

section Forms

variable {number pre sep : List Char} {parts : List ℕ} {t : TagNumber}

/-- Letters and separators are no blanks. -/
theorem isSpace_of_mem_append (h : dottedNumber number = some parts)
    (hpre : pre.all fun c => !isSpace c) : ∀ c ∈ pre ++ number, isSpace c = false := by
  intro c hc
  rcases List.mem_append.mp hc with hc | hc
  · simpa using List.all_eq_true.mp hpre c hc
  · exact isSpace_of_mem_number h c hc

/-- A version has no white space around it. -/
theorem trimSpace_append (h : dottedNumber number = some parts)
    (hpre : pre.all fun c => !isSpace c) : trimSpace (pre ++ number) = pre ++ number :=
  trimSpace_of_not_space (isSpace_of_mem_append h hpre)

/-- A release is normalised to its number. -/
theorem normalizeVersion_main (hpre : pre = [] ∨ pre = ['v'])
    (hnumber : dottedNumber number = some parts) : normalizeVersion (pre ++ number) = number := by
  rcases hpre with rfl | rfl
  · have hv : lowerHasPrefix number "v" = false :=
      lowerHasPrefix_number hnumber (l := 'v') (by decide) (by decide)
    rw [List.nil_append, normalizeVersion, trimSpace_number hnumber]
    simp only [hv, Bool.false_eq_true, if_false]
  · have hv : lowerHasPrefix (['v'] ++ number) "v" = true := rfl
    rw [normalizeVersion, trimSpace_append hnumber (by decide)]
    simp only [hv, if_true]
    rfl

/-- A development version keeps its `dev` and separator. -/
theorem normalizeVersion_dev (hpre : pre = [] ∨ pre = ['v'])
    (hsep : sep = [] ∨ sep = ['-'] ∨ sep = ['_']) (hnumber : dottedNumber number = some parts) :
    normalizeVersion (pre ++ 'd' :: 'e' :: 'v' :: sep ++ number) =
      'd' :: 'e' :: 'v' :: sep ++ number := by
  have htrim : trimSpace (pre ++ 'd' :: 'e' :: 'v' :: sep ++ number) =
      pre ++ 'd' :: 'e' :: 'v' :: sep ++ number := by
    refine trimSpace_append hnumber ?_
    rcases hpre with rfl | rfl <;> rcases hsep with rfl | rfl | rfl <;> decide
  rw [normalizeVersion, htrim]
  rcases hpre with rfl | rfl
  · rfl
  · rfl

/-- The suffix after `dev` is the number. -/
theorem devSuffix_dev (hsep : sep = [] ∨ sep = ['-'] ∨ sep = ['_'])
    (hnumber : dottedNumber number = some parts) :
    devSuffix ('d' :: 'e' :: 'v' :: sep ++ number) = number := by
  have htrim : trimSpace ('d' :: 'e' :: 'v' :: sep ++ number) =
      'd' :: 'e' :: 'v' :: sep ++ number := by
    refine trimSpace_append hnumber ?_
    rcases hsep with rfl | rfl | rfl <;> decide
  have hv : lowerHasPrefix ('d' :: 'e' :: 'v' :: sep ++ number) "vdev" = false := rfl
  have hcut : trimChar '_' (trimChar '-' (sep ++ number)) = number := by
    rcases hsep with rfl | rfl | rfl
    · rw [List.nil_append, trimChar_number hnumber (by decide), trimChar_number hnumber (by decide)]
    · exact trimChar_number hnumber (by decide)
    · rfl
  rw [devSuffix, htrim]
  simp only [hv, Bool.false_eq_true, if_false]
  exact (congrArg trimSpace hcut).trans (trimSpace_number hnumber)

/-- A number has at least one character. -/
theorem number_ne_nil (hnumber : dottedNumber number = some parts) : number ≠ [] := by
  obtain ⟨c, rest, rfl, -⟩ := exists_cons_of_dottedNumber hnumber
  exact List.cons_ne_nil _ _

/-- The number is what is compared. -/
theorem dottedNumber_versionBody (h : VersionForm v t) :
    dottedNumber (versionBody v) = some t.parts := by
  cases h with
  | @main pre number parts hpre hnumber =>
      have hbody := normalizeVersion_main hpre hnumber
      have hdev : isDevVersion number = false := by
        rw [isDevVersion, trimSpace_number hnumber]
        exact lowerHasPrefix_number hnumber (l := 'd') (by decide) (by decide)
      rw [← hbody] at hdev hnumber
      rcases version_cases (pre ++ number) with ⟨h, -⟩ | ⟨-, hdev', -⟩ | ⟨-, -, -, h⟩
      · exact absurd h (number_ne_nil hnumber)
      · exact absurd (hdev'.symm.trans hdev) (by decide)
      · rwa [h]
  | @dev pre sep number parts hpre hsep hnumber =>
      have hbody := normalizeVersion_dev hpre hsep hnumber
      have hdev : isDevVersion ('d' :: 'e' :: 'v' :: sep ++ number) = true := by
        have htrim : trimSpace ('d' :: 'e' :: 'v' :: sep ++ number) =
            'd' :: 'e' :: 'v' :: sep ++ number := by
          refine trimSpace_append hnumber ?_
          rcases hsep with rfl | rfl | rfl <;> decide
        rw [isDevVersion, htrim]
        rfl
      rcases version_cases (pre ++ 'd' :: 'e' :: 'v' :: sep ++ number) with
        ⟨h, -⟩ | ⟨-, -, -, h⟩ | ⟨-, hdev', -⟩
      · exact absurd (hbody.symm.trans h) (List.cons_ne_nil _ _)
      · rwa [h, hbody, devSuffix_dev hsep hnumber]
      · rw [hbody] at hdev'
        exact absurd (hdev'.symm.trans hdev) (by decide)

/-- Versions of the form are compared by their numbers. -/
theorem parseSemverParts_versionBody (h : VersionForm v t) (hfits : t.FitsInt) :
    parseSemverParts (versionBody v) = some (t.parts.map Nat.cast) :=
  parseSemverParts_of_dottedNumber (dottedNumber_versionBody h) hfits

end Forms

/-- A release that is not a draft, of the channel. -/
def OfChannel (channel : String) (rel : GithubRelease) : Prop :=
  rel.draft = false ∧
    isDevRelease rel = decide (toLower Char.toLower (trimSpaceStr channel) = "dev")

variable {releases other : List GithubRelease} {channel : String} {latest rel : GithubRelease}

/-- If the channel has releases, these are sorted. -/
theorem mem_candidates_iff (h : ∃ rel ∈ releases, OfChannel channel rel) :
    rel ∈ candidates releases channel ↔ rel ∈ releases ∧ OfChannel channel rel := by
  have hmem : ∀ rel, rel ∈ (releases.filter fun rel =>
      !rel.draft &&
        isDevRelease rel == decide (toLower Char.toLower (trimSpaceStr channel) = "dev")) ↔
        rel ∈ releases ∧ OfChannel channel rel := by
    intro rel
    rw [List.mem_filter, Bool.and_eq_true, Bool.not_eq_true', beq_iff_eq, OfChannel]
  obtain ⟨found, hfound⟩ := h
  rw [candidates]
  simp only [if_neg (List.ne_nil_of_mem ((hmem found).mpr hfound))]
  exact hmem rel

/-- The version of a release has a number. -/
def Numbered (rel : GithubRelease) : Prop :=
  ∃ t : TagNumber, VersionForm (releaseVersion rel).toList t ∧ t.FitsInt

/-- Versions with numbers are totally preordered. -/
theorem totalPreorderOn_numbered :
    SortSlice.TotalPreorderOn compareVersions
      {v | ∃ rel, Numbered rel ∧ v = (releaseVersion rel).toList} := by
  refine totalPreorderOn_of_not_between ?_
  rintro a - b - t ⟨rel, ⟨n, hform, hfits⟩, rfl⟩ hbetween
  have hparts := parseSemverParts_versionBody hform hfits
  rw [hbetween.text] at hparts
  cases hparts

/-- No release of the channel has a greater version than the one that is selected. -/
theorem select_not_lt (hnumbered : ∀ rel ∈ releases, Numbered rel)
    (hsome : ∃ rel ∈ releases, OfChannel channel rel)
    (h : SelectReleaseForChannel releases channel (some latest)) :
    (latest ∈ releases ∧ OfChannel channel latest) ∧
      ∀ rel ∈ releases, OfChannel channel rel →
        compareVersions (releaseVersion latest).toList (releaseVersion rel).toList ≠ .lt := by
  obtain ⟨hlatest, hfirst⟩ := h
  have hmem := (mem_candidates_iff hsome).mp hlatest
  refine ⟨hmem, fun rel hrel hchannel hlt => ?_⟩
  have horder : SortSlice.StrictWeakOn newerFirst (candidates releases channel) :=
    totalPreorderOn_numbered.strictWeakOn fun r hr =>
      ⟨r, hnumbered r ((mem_candidates_iff hsome).mp hr).1, rfl⟩
  exact hfirst horder rel ((mem_candidates_iff hsome).mpr ⟨hrel, hchannel⟩) hlt

/-- **The release that is selected.** If the versions of all releases have numbers and one release
is of the channel, a release of the channel is selected that no other one of the channel exceeds.
The order in which the releases are listed does not change its version. -/
theorem select_greatest (releases : List GithubRelease) (channel : String)
    (hnumbered : ∀ rel ∈ releases, Numbered rel)
    (hsome : ∃ rel ∈ releases, OfChannel channel rel) :
    (∃ latest, SelectReleaseForChannel releases channel (some latest)) ∧
      ¬ SelectReleaseForChannel releases channel none ∧
      ∀ latest, SelectReleaseForChannel releases channel (some latest) →
        latest ∈ releases ∧ OfChannel channel latest ∧
          (∀ rel ∈ releases, OfChannel channel rel →
            compareVersions (releaseVersion latest).toList (releaseVersion rel).toList ≠ .lt) ∧
          ∀ other, other.Perm releases → ∀ latest',
            SelectReleaseForChannel other channel (some latest') →
              compareVersions (releaseVersion latest).toList (releaseVersion latest').toList =
                .eq := by
  obtain ⟨found, hfound⟩ := hsome
  have hcandidates : candidates releases channel ≠ [] :=
    List.ne_nil_of_mem ((mem_candidates_iff ⟨found, hfound⟩).mpr hfound)
  refine ⟨SortSlice.exists_firstOfSorted hcandidates, List.ne_nil_of_mem hfound.1, ?_⟩
  intro latest hlatest
  obtain ⟨⟨hmem, hchannel⟩, hmax⟩ := select_not_lt hnumbered ⟨found, hfound⟩ hlatest
  refine ⟨hmem, hchannel, hmax, fun other hperm latest' hlatest' => ?_⟩
  obtain ⟨⟨hmem', hchannel'⟩, hmax'⟩ :=
    select_not_lt (fun rel hrel => hnumbered rel (hperm.mem_iff.mp hrel))
      ⟨found, hperm.mem_iff.mpr hfound.1, hfound.2⟩ hlatest'
  have hle := hmax latest' (hperm.mem_iff.mp hmem') hchannel'
  have hge := hmax' latest (hperm.mem_iff.mpr hmem) hchannel
  rw [compareVersions_swap] at hge
  revert hle hge
  cases compareVersions (releaseVersion latest).toList (releaseVersion latest').toList <;> decide

/-- A release for `main` whose tag starts with `v`. -/
def taggedV110 : GithubRelease where
  tagName := "v1.10"
  name := "v1.10"
  targetCommitish := "main"
  htmlURL := "https://github.com/pbuzdygan/contiwatch/releases/tag/v1.10"
  draft := false

/-- A release for `dev` without a tag. -/
def namedDev3 : GithubRelease where
  tagName := ""
  name := "dev-3"
  targetCommitish := "dev"
  htmlURL := "https://github.com/pbuzdygan/contiwatch/releases/tag/untagged"
  draft := false

/-- Of these two releases, `v1.10` is selected for `main`. -/
theorem select_v110 :
    (∃ latest, SelectReleaseForChannel [namedDev3, taggedV110] "main" (some latest)) ∧
      ¬ SelectReleaseForChannel [namedDev3, taggedV110] "main" none := by
  have hmain : VersionForm (releaseVersion taggedV110).toList { dev := false, parts := [1, 10] } :=
    @VersionForm.main ['v'] ['1', '.', '1', '0'] [1, 10] (.inr rfl) (by decide)
  have hdev : VersionForm (releaseVersion namedDev3).toList { dev := true, parts := [3] } :=
    @VersionForm.dev [] ['-'] ['3'] [3] (.inl rfl) (.inr (.inl rfl)) (by decide)
  have hfitsMain : ∀ n ∈ [1, 10], n < 2 ^ 63 := by decide
  have hfitsDev : ∀ n ∈ [3], n < 2 ^ 63 := by decide
  have hnumbered : ∀ rel ∈ [namedDev3, taggedV110], Numbered rel :=
    List.forall_mem_cons.mpr
      ⟨⟨_, hdev, hfitsDev⟩, List.forall_mem_singleton.mpr ⟨_, hmain, hfitsMain⟩⟩
  have hsome : ∃ rel ∈ [namedDev3, taggedV110], OfChannel "main" rel :=
    ⟨taggedV110, by simp, rfl, by decide⟩
  have h := select_greatest [namedDev3, taggedV110] "main" hnumbered hsome
  exact ⟨h.1, h.2.1⟩

end Contiwatch
