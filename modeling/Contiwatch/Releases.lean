import Contiwatch.ReleaseCheck
import Mathlib.Data.List.Nodup
import Mathlib.Data.Prod.Lex

/-!
# Published Releases and What Their Instances Report

A release is tagged with a dotted number, with or without `dev` before it, and is built for `main`
or `dev`. The number of a tag and its prefix decide how it compares with another tag. The version
of a release for `dev` gets the prefix even if its tag does not have it, but it is compared with
the tags as they are.

## Main results

* `compareVersions_eq_lt` — a tag is compared by its prefix and then by its number.
* `reports_iff` — an instance reports the newest release of its target exactly if the tags of the
  releases that it looks at agree with their targets.
* `newest_can_report_update` — the newest release for `dev`, with the tag `12`.
-/

namespace Contiwatch

open GoStrings

/-! ### Numbers of tags -/

/-- The number of a text such as `1.3.4`. -/
def dottedNumber (text : List Char) : Option (List ℕ) :=
  if ∀ part ∈ split '.' text, part ≠ [] ∧ part.all Char.isDigit then
    some ((split '.' text).map digitsValue)
  else none

/-- What a tag says: whether it starts with `dev`, and its number. -/
structure TagNumber where
  dev : Bool
  parts : List ℕ
  deriving DecidableEq

/-- The number of a tag. -/
def tagNumber (text : List Char) : Option TagNumber :=
  if ['d', 'e', 'v'].isPrefixOf text then
    (dottedNumber (text.drop 3)).map fun parts => { dev := true, parts := parts }
  else (dottedNumber text).map fun parts => { dev := false, parts := parts }

namespace TagNumber

/-- Tag numbers are compared as dotted numbers. -/
def value (t : TagNumber) : Lex (ℕ → ℤ) := Dotted.value (t.parts.map Nat.cast)

/-- The order of `compareVersions`: all tags with `dev` come before those without it. -/
def rank (t : TagNumber) : Lex (Bool × Lex (ℕ → ℤ)) := toLex (!t.dev, t.value)

/-- Every part is a Go `int`. -/
def FitsInt (t : TagNumber) : Prop := ∀ n ∈ t.parts, n < 2 ^ 63

end TagNumber

variable {text a b : List Char} {parts : List ℕ} {s t : TagNumber}

/-- A text is a dotted number exactly if its parts are digits, at least one in each. -/
theorem dottedNumber_eq_some :
    dottedNumber text = some parts ↔
      (∀ part ∈ split '.' text, part ≠ [] ∧ part.all Char.isDigit) ∧
        (split '.' text).map digitsValue = parts := by
  rw [dottedNumber]
  split
  · rename_i hparts
    rw [Option.some.injEq, and_iff_right hparts]
  · rename_i hparts
    exact iff_of_false (by simp) fun h => hparts h.1

/-- The text behind the prefix is the number. -/
theorem tagNumber_eq_some :
    tagNumber text = some t ↔
      ∃ number, dottedNumber number = some t.parts ∧
        if t.dev then text = 'd' :: 'e' :: 'v' :: number
        else text = number ∧ ¬ ['d', 'e', 'v'].isPrefixOf text := by
  rcases t with ⟨_ | _, parts⟩
  · simp only [tagNumber]
    split <;> simp_all
  · simp only [tagNumber]
    split
    · rename_i hprefix
      obtain ⟨number, rfl⟩ := List.isPrefixOf_iff_prefix.mp hprefix
      simp
    · simp only [Option.map_eq_some_iff, TagNumber.mk.injEq, Bool.false_eq_true, false_and,
        and_false, exists_false, if_true, false_iff, not_exists, not_and]
      rintro number - rfl
      simp_all

/-- A character of a dotted number. -/
def isNumberChar (c : Char) : Bool := c.isDigit || c = '.'

/-- Facts about the characters of dotted numbers are checked on all of ASCII. -/
theorem numberChar_forall {p : Char → Prop}
    (h : ∀ n < 128, isNumberChar (Char.ofNat n) = true → p (Char.ofNat n)) {c : Char}
    (hc : isNumberChar c = true) : p c := by
  have hlt : c.toNat < 128 := by
    simp only [isNumberChar, Bool.or_eq_true, decide_eq_true_eq] at hc
    rcases hc with hc | rfl
    · exact toNat_lt_of_isDigit hc
    · decide
  exact ascii_forall (p := fun c => isNumberChar c = true → p c) h hlt hc

/-- A dotted number is made of digits and dots. -/
theorem isNumberChar_of_mem (h : dottedNumber text = some parts) {c : Char} (hc : c ∈ text) :
    isNumberChar c = true := by
  rw [isNumberChar, Bool.or_eq_true, decide_eq_true_eq]
  rcases @mem_split '.' c text hc with hdot | ⟨part, hprefix, hmem⟩
  · exact .inr hdot
  · have hdigits := ((dottedNumber_eq_some.mp h).1 part hprefix).2
    exact .inl (List.all_eq_true.mp hdigits c hmem)

/-- A dotted number starts with a digit. -/
theorem exists_cons_of_dottedNumber (h : dottedNumber text = some parts) :
    ∃ c rest, text = c :: rest ∧ c.isDigit = true := by
  obtain ⟨hparts, -⟩ := dottedNumber_eq_some.mp h
  cases text with
  | nil => exact absurd rfl (hparts [] (by decide)).1
  | cons c rest =>
      refine ⟨c, rest, rfl, ?_⟩
      have hne : c ≠ '.' := by
        rintro rfl
        refine absurd rfl (hparts [] ?_).1
        rw [split, List.splitOn_cons_eq_if_modifyHead, if_pos (beq_self_eq_true '.')]
        exact List.mem_cons_self ..
      have hc := isNumberChar_of_mem h (List.mem_cons_self ..)
      rw [isNumberChar, Bool.or_eq_true, decide_eq_true_eq] at hc
      exact hc.resolve_right hne

/-- It begins with a digit. -/
theorem exists_cons_ne (h : dottedNumber text = some parts) {l : Char} (hl : l.isDigit = false) :
    ∃ c rest, text = c :: rest ∧ c.isDigit = true ∧ l ≠ c := by
  obtain ⟨c, rest, htext, hc⟩ := exists_cons_of_dottedNumber h
  refine ⟨c, rest, htext, hc, ?_⟩
  rintro rfl
  exact absurd hc (by simp [hl])

/-! ### Comparing tags -/

/-- Digits that fit are read as their value. -/
theorem atoi_of_digits {digits : List Char} (hne : digits ≠ []) (h : digits.all Char.isDigit)
    (hfits : digitsValue digits < 2 ^ 63) : atoi digits = some (digitsValue digits : ℤ) := by
  obtain ⟨c, rest, rfl⟩ := List.exists_cons_of_ne_nil hne
  have hc : c.isDigit = true := List.all_eq_true.mp h c (List.mem_cons_self ..)
  have hsign : c ≠ '-' ∧ c ≠ '+' := by
    constructor <;> rintro rfl <;> exact absurd hc (by decide)
  unfold atoi
  split
  rename_i negative number hread
  split at hread
  next heq => exact absurd (List.cons.inj heq).1 hsign.1
  next heq => exact absurd (List.cons.inj heq).1 hsign.2
  next =>
    obtain ⟨rfl, rfl⟩ := Prod.mk.inj hread
    simpa [h] using hfits

/-- A list whose elements can all be read is read. -/
theorem mapM_of_forall {α β : Type} {f : α → Option β} {g : α → β} {l : List α}
    (h : ∀ x ∈ l, f x = some (g x)) : l.mapM f = some (l.map g) := by
  induction l with
  | nil => rfl
  | cons x l ih =>
      rw [List.forall_mem_cons] at h
      rw [List.mapM_cons, h.1, ih h.2]
      rfl

/-- The numbers of a tag are read as they are. -/
theorem parseSemverParts_of_dottedNumber (h : dottedNumber text = some parts)
    (hfits : ∀ n ∈ parts, n < 2 ^ 63) : parseSemverParts text = some (parts.map Nat.cast) := by
  obtain ⟨hparts, rfl⟩ := dottedNumber_eq_some.mp h
  obtain ⟨c, rest, rfl, -⟩ := exists_cons_of_dottedNumber h
  have hread : ∀ part ∈ split '.' (c :: rest),
      (if trimSpace part = [] then some 0 else atoi (trimSpace part)) =
        some (digitsValue part : ℤ) := by
    intro part hprefix
    obtain ⟨hne, hdigits⟩ := hparts part hprefix
    have htrim : trimSpace part = part := by
      refine trimSpace_of_not_space fun d hd => ?_
      have hd : isNumberChar d = true := by
        rw [isNumberChar, List.all_eq_true.mp hdigits d hd, Bool.true_or]
      exact numberChar_forall (p := fun d => isSpace d = false) (by decide) hd
    rw [htrim, if_neg hne]
    exact atoi_of_digits hne hdigits (hfits _ (List.mem_map_of_mem hprefix))
  rw [parseSemverParts, if_neg (List.cons_ne_nil c rest), mapM_of_forall hread, List.map_map]
  rfl

/-- A tag is a number, or `dev` and a number. -/
theorem tag_cases (h : tagNumber text = some t) :
    (t.dev = false ∧ dottedNumber text = some t.parts) ∨
      ∃ number, t.dev = true ∧ dottedNumber number = some t.parts ∧
        text = 'd' :: 'e' :: 'v' :: number := by
  obtain ⟨number, hnumber, htext⟩ := tagNumber_eq_some.mp h
  split at htext
  · rename_i hdev
    exact .inr ⟨number, hdev, hnumber, htext⟩
  · rename_i hdev
    rw [Bool.not_eq_true] at hdev
    exact .inl ⟨hdev, htext.1 ▸ hnumber⟩

/-- A dotted number has no white space. -/
theorem isSpace_of_mem_number (h : dottedNumber text = some parts) :
    ∀ c ∈ text, isSpace c = false := fun _ hc =>
  numberChar_forall (p := fun d => isSpace d = false) (by decide) (isNumberChar_of_mem h hc)

/-- So nothing is trimmed from it. -/
theorem trimSpace_number (h : dottedNumber text = some parts) : trimSpace text = text :=
  trimSpace_of_not_space (isSpace_of_mem_number h)

/-- There is nothing to trim around a tag. -/
theorem trimSpace_tag (h : tagNumber text = some t) : trimSpace text = text := by
  rcases tag_cases h with ⟨-, hnumber⟩ | ⟨number, -, hnumber, rfl⟩
  · exact trimSpace_number hnumber
  · refine trimSpace_of_not_space ?_
    simp only [List.forall_mem_cons]
    exact ⟨by decide, by decide, by decide, isSpace_of_mem_number hnumber⟩

/-- Digits have no case. -/
theorem toLower_of_digit {c : Char} (hc : c.isDigit = true) : c.toLower = c := by
  have hc' : isNumberChar c = true := by rw [isNumberChar, hc, Bool.true_or]
  exact numberChar_forall (p := fun c => c.toLower = c) (by decide) hc'

/-- A number has no prefix that starts with a letter. -/
theorem lowerHasPrefix_number (h : dottedNumber text = some parts) {pre : String} {l : Char}
    (hl : pre.toList.head? = some l) (hletter : l.isDigit = false) :
    lowerHasPrefix text pre = false := by
  obtain ⟨c, rest, rfl, hc, hne⟩ := exists_cons_ne h hletter
  obtain ⟨more, hpre⟩ := List.head?_eq_some_iff.mp hl
  simp [lowerHasPrefix, hpre, toLower_of_digit hc, List.isPrefixOf_cons_cons, hne]

/-- No tag begins with `v`. -/
theorem lowerHasPrefix_tag_v (h : tagNumber text = some t) {pre : String}
    (hv : pre.toList.head? = some 'v') : lowerHasPrefix text pre = false := by
  rcases tag_cases h with ⟨-, hnumber⟩ | ⟨number, -, -, rfl⟩
  · exact lowerHasPrefix_number hnumber hv (by decide)
  · obtain ⟨more, hpre⟩ := List.head?_eq_some_iff.mp hv
    simp only [lowerHasPrefix, hpre, List.map_cons, List.isPrefixOf_cons_cons]
    rfl

/-- A tag begins with `dev` exactly if its number says so. -/
theorem lowerHasPrefix_tag_dev (h : tagNumber text = some t) :
    lowerHasPrefix text "dev" = t.dev := by
  rcases tag_cases h with ⟨hdev, hnumber⟩ | ⟨number, hdev, -, rfl⟩
  · rw [hdev]
    exact lowerHasPrefix_number hnumber (l := 'd') (by decide) (by decide)
  · rw [hdev]
    simp only [lowerHasPrefix, List.map_cons]
    rfl

/-- A tag is normalized. -/
theorem normalizeVersion_tag (h : tagNumber text = some t) : normalizeVersion text = text := by
  rw [normalizeVersion, trimSpace_tag h]
  simp only [@lowerHasPrefix_tag_v text t h "v" (by decide), Bool.false_eq_true, if_false]

/-- A tag is a version for `dev` exactly if its number says so. -/
theorem isDevVersion_tag (h : tagNumber text = some t) : isDevVersion text = t.dev := by
  rw [isDevVersion, trimSpace_tag h, lowerHasPrefix_tag_dev h]

/-- A character that is no digit is not trimmed from a dotted number. -/
theorem trimChar_number (h : dottedNumber text = some parts) {c : Char}
    (hc : c.isDigit = false) : trimChar c text = text := by
  obtain ⟨d, rest, rfl, -, hne⟩ := exists_cons_ne h hc
  rw [trimChar, if_neg hne.symm]

/-- The number after `dev`. -/
theorem devSuffix_tag {number : List Char} (hnumber : dottedNumber number = some parts) :
    devSuffix ('d' :: 'e' :: 'v' :: number) = number := by
  have h : tagNumber ('d' :: 'e' :: 'v' :: number) = some { dev := true, parts := parts } :=
    tagNumber_eq_some.mpr ⟨number, hnumber, rfl⟩
  rw [devSuffix, trimSpace_tag h]
  simp only [@lowerHasPrefix_tag_v _ _ h "vdev" (by decide), Bool.false_eq_true, if_false,
    List.drop_succ_cons, List.drop_zero]
  rw [trimChar_number hnumber (by decide), trimChar_number hnumber (by decide),
    trimSpace_number hnumber]

/-- A tag is not empty. -/
theorem tag_ne_nil (h : tagNumber text = some t) : text ≠ [] := by
  rcases tag_cases h with ⟨-, hnumber⟩ | ⟨number, -, -, rfl⟩
  · obtain ⟨c, rest, rfl, -⟩ := exists_cons_of_dottedNumber hnumber
    exact List.cons_ne_nil _ _
  · exact List.cons_ne_nil _ _

/-- Nor is a version that is one. -/
theorem ne_empty_of_tag {v : String} (h : tagNumber v.toList = some t) : v ≠ "" := by
  rintro rfl
  exact tag_ne_nil h rfl

/-- **Comparing tags.** A tag with `dev` comes before one without it; else the numbers decide. -/
theorem compareVersions_eq_lt (ha : tagNumber a = some s) (hb : tagNumber b = some t)
    (hs : s.FitsInt) (ht : t.FitsInt) : compareVersions a b = .lt ↔ s.rank < t.rank := by
  have hnumbers : ∀ {u v : List Char}, dottedNumber u = some s.parts →
      dottedNumber v = some t.parts →
      parseSemverParts u = some (s.parts.map Nat.cast) ∧
        parseSemverParts v = some (t.parts.map Nat.cast) := fun hu hv =>
    ⟨parseSemverParts_of_dottedNumber hu hs, parseSemverParts_of_dottedNumber hv ht⟩
  simp only [compareVersions, normalizeVersion_tag ha, normalizeVersion_tag hb, tag_ne_nil ha,
    tag_ne_nil hb, false_and, if_false, isDevVersion_tag ha, isDevVersion_tag hb,
    TagNumber.rank, Prod.Lex.toLex_lt_toLex]
  rcases tag_cases ha with ⟨hsdev, hsnumber⟩ | ⟨snumber, hsdev, hsnumber, rfl⟩ <;>
    rcases tag_cases hb with ⟨htdev, htnumber⟩ | ⟨tnumber, htdev, htnumber, rfl⟩ <;>
    rw [hsdev, htdev]
  · obtain ⟨hsparts, htparts⟩ := hnumbers hsnumber htnumber
    simp [hsparts, htparts, compareSemver, Dotted.compareParts_eq_lt, TagNumber.value]
  · simp
  · simp
  · obtain ⟨hsparts, htparts⟩ := hnumbers hsnumber htnumber
    simp [compareDevVersions, devSuffix_tag hsnumber, devSuffix_tag htnumber, hsparts, htparts,
      compareSemver, Dotted.compareParts_eq_lt, TagNumber.value]

/-! ### Published releases -/

/-- The branches that a release is built for. -/
inductive ReleaseTarget
  | main
  | dev
  deriving DecidableEq

/-- The name of the branch. -/
def ReleaseTarget.branch : ReleaseTarget → String
  | .main => "main"
  | .dev => "dev"

/-- A release that the pipeline has published, with a numeric tag. -/
structure Published where
  release : GithubRelease
  target : ReleaseTarget
  tag : TagNumber
  accepted : isReleaseTag release.tagName = true
  numbered : tagNumber release.tagName.toList = some tag
  built : release.targetCommitish = target.branch
  notDraft : release.draft = false

namespace Published

/-- The version of an instance that is built from a release. -/
def version (r : Published) (repository fallback : String) : String :=
  match resolveReleaseTags r.release.tagName r.target.branch repository with
  | some (_, embedded) => resolveVersion embedded fallback
  | none => fallback

/-- The metadata of an instance that is built from a release. -/
def instanceMeta (r : Published) (repository fallback repo : String) : ReleaseMeta :=
  releaseMeta (r.version repository fallback) repo

/-- What the version says: releases for `dev` have the prefix. -/
def versionNumber (r : Published) : TagNumber :=
  { dev := r.tag.dev || r.target = .dev, parts := r.tag.parts }

/-- No release of the same target has a greater number. -/
def Newest (rs : List Published) (r : Published) : Prop :=
  ∀ q ∈ rs, q.target = r.target → q.tag.value ≤ r.tag.value

variable {r q : Published} {rs : List Published} {repository fallback repo : String}

/-- The prefixes of a number start with a digit. -/
theorem hasPrefix_number {v pre : String} {l : Char} {parts : List ℕ}
    (h : dottedNumber v.toList = some parts) (hl : pre.toList.head? = some l)
    (hletter : l.isDigit = false) : hasPrefix v pre = false := by
  obtain ⟨c, rest, hv, -, hne⟩ := exists_cons_ne h hletter
  obtain ⟨more, hpre⟩ := List.head?_eq_some_iff.mp hl
  simp [hasPrefix, hv, hpre, List.isPrefixOf_cons_cons, hne]

/-- The prefix `dev` of a version that is a tag. -/
theorem hasPrefix_tag_dev {v : String} {t : TagNumber} (h : tagNumber v.toList = some t) :
    hasPrefix v "dev" = t.dev := by
  rcases tag_cases h with ⟨hdev, hnumber⟩ | ⟨number, hdev, -, hv⟩
  · rw [hdev]
    exact hasPrefix_number hnumber (l := 'd') (by decide) (by decide)
  · rw [hdev, hasPrefix, hv]
    rfl

/-- `resolveVersion` leaves a tag alone. -/
theorem resolveVersion_tag {v : String} {t : TagNumber} (h : tagNumber v.toList = some t) :
    resolveVersion v fallback = v := by
  have hbare : tagNumber "dev".toList = none := by decide
  have hne : v ≠ "dev" := by
    rintro rfl
    exact absurd (hbare.symm.trans h) (by simp)
  have hv : hasPrefix v "v" = false := by
    rcases tag_cases h with ⟨-, hnumber⟩ | ⟨number, -, -, hv⟩
    · exact hasPrefix_number hnumber (l := 'v') (by decide) (by decide)
    · rw [hasPrefix, hv]
      rfl
  rw [resolveVersion, if_pos ⟨ne_empty_of_tag h, hne⟩, trimPrefix, hv, if_neg Bool.false_ne_true]

/-- The version is itself a tag. -/
theorem tagNumber_version :
    tagNumber (r.version repository fallback).toList = some r.versionNumber := by
  have hname := r.numbered
  rcases htarget : r.target
  · simp [version, resolveReleaseTags, r.accepted, htarget, ReleaseTarget.branch,
      resolveVersion_tag hname, versionNumber, hname]
  · simp only [version, resolveReleaseTags, r.accepted, htarget, ReleaseTarget.branch,
      not_true_eq_false, if_false, if_true, hasPrefix_tag_dev hname, versionNumber, decide_true,
      Bool.or_true]
    rcases tag_cases hname with ⟨hdev, hnumber⟩ | ⟨number, hdev, hnumber, htext⟩
    · have hversion : tagNumber ("dev" ++ r.release.tagName).toList =
          some { dev := true, parts := r.tag.parts } := by
        rw [String.toList_append]
        exact tagNumber_eq_some.mpr ⟨r.release.tagName.toList, hnumber, rfl⟩
      simp only [hdev, Bool.false_eq_true, if_false, resolveVersion_tag hversion, hversion]
    · simp only [hdev, if_true, resolveVersion_tag hname]
      exact hdev ▸ hname

/-- The version of an instance is that of its release. -/
theorem instanceMeta_version :
    (r.instanceMeta repository fallback repo).version = r.version repository fallback := by
  rw [instanceMeta, releaseMeta]
  simp only [trimSpaceStr, trimSpace_tag tagNumber_version, String.ofList_toList]

/-- Its channel is `dev` or `main`, by its version. -/
theorem instanceMeta_channel :
    (r.instanceMeta repository fallback repo).channel =
      if r.versionNumber.dev then "dev" else "main" := by
  have hv : lowerHasPrefix (r.version repository fallback).toList "vdev" = false :=
    lowerHasPrefix_tag_v tagNumber_version (by decide)
  rw [instanceMeta, releaseMeta]
  simp only [trimSpaceStr, trimSpace_tag tagNumber_version, String.ofList_toList,
    lowerHasPrefix_tag_dev tagNumber_version, hv, Bool.or_false]

/-! ### What an instance reports -/

/-- The releases that an instance compares: those of its channel among the 30 that are fetched, or
all of these. -/
def lookedAt (rs : List Published) (r : Published) : List Published :=
  let page := rs.take 30
  let same := page.filter fun q => isDevRelease q.release == r.versionNumber.dev
  if same = [] then page else same

/-- The releases that an instance compares are those that it looks at. -/
theorem candidates_eq :
    candidates ((rs.take 30).map release) (r.instanceMeta repository fallback repo).channel =
      (lookedAt rs r).map release := by
  have hdev : decide (toLower Char.toLower
      (trimSpaceStr (r.instanceMeta repository fallback repo).channel) = "dev") =
        r.versionNumber.dev := by
    rw [instanceMeta_channel]
    cases r.versionNumber.dev <;> decide
  have hfilter : ∀ q : Published,
      (!q.release.draft && isDevRelease q.release == r.versionNumber.dev) =
        (isDevRelease q.release == r.versionNumber.dev) := fun q => by simp [q.notDraft]
  simp only [candidates, lookedAt, hdev, List.filter_map, Function.comp_def, hfilter,
    List.map_eq_nil_iff]
  split <;> rfl

/-- A release that is looked at, such that no other one has a tag above its own. -/
def Highest (rs : List Published) (r q : Published) : Prop :=
  q ∈ lookedAt rs r ∧ ∀ p ∈ lookedAt rs r, p.tag.rank ≤ q.tag.rank

/-- The tags agree with the targets: if `r` is the newest release of its target, no tag is above
its version; else the highest tags are those of the newest releases of its target, and do not have
the prefix if the version of `r` does not have it. -/
def TagsAgree (rs : List Published) (r : Published) : Prop :=
  (Newest rs r → ∀ q ∈ lookedAt rs r, q.tag.rank ≤ r.versionNumber.rank) ∧
    (¬ Newest rs r → ∀ q, Highest rs r q →
      q.target = r.target ∧ Newest rs q ∧ (q.tag.dev → r.versionNumber.dev))

/-- What an instance of `r` should report after the releases are fetched. -/
def Reports (rs : List Published) (r : Published) (state : ReleaseCheckState) : Prop :=
  (Newest rs r → state.updateAvailable = false) ∧
    (¬ Newest rs r → state.updateAvailable = true ∧
      ∃ q ∈ rs, q.target = r.target ∧ Newest rs q ∧ state.latest = releaseInfo (some q.release))

/-- What is looked at was published. -/
theorem mem_of_mem_lookedAt (h : q ∈ lookedAt rs r) : q ∈ rs := by
  rw [lookedAt] at h
  split at h
  · exact List.mem_of_mem_take h
  · exact List.mem_of_mem_take (List.mem_filter.mp h).1

/-- Something is looked at if something was published. -/
theorem lookedAt_ne_nil (h : r ∈ rs) : lookedAt rs r ≠ [] := by
  rw [lookedAt]
  split
  · exact fun htake => by simp [List.take_eq_nil_iff.mp htake |>.resolve_left (by decide)] at h
  · assumption

/-- The version of a published release is its tag. -/
theorem releaseVersion_eq : releaseVersion q.release = q.release.tagName := by
  rw [releaseVersion, if_pos (ne_empty_of_tag q.numbered)]

/-- One of the releases has the highest tag. -/
theorem exists_highest (hr : r ∈ rs) : ∃ q, Highest rs r q := by
  have hranks : ∀ p ∈ lookedAt rs r, ∀ q ∈ lookedAt rs r,
      q.tag.rank < p.tag.rank ↔ q.tag.rank < p.tag.rank := fun _ _ _ _ => Iff.rfl
  obtain ⟨q, hq⟩ := SortSlice.exists_firstOfSorted (lookedAt_ne_nil hr)
  exact ⟨q, (SortSlice.firstOfSorted_iff hranks).mp hq⟩

/-- A newest release of the same target is above the version of `r`, unless it has the prefix and
the version has not. -/
theorem rank_lt_of_newest (hr : ¬ Newest rs r) (hq : Newest rs q) (htarget : q.target = r.target)
    (hdev : q.tag.dev → r.versionNumber.dev) : r.versionNumber.rank < q.tag.rank := by
  have hlt : r.tag.value < q.tag.value := by
    simp only [Newest, not_forall, not_le] at hr
    obtain ⟨p, hp, hptarget, hlt⟩ := hr
    exact hlt.trans_le (hq p hp (hptarget.trans htarget.symm))
  rw [TagNumber.rank, TagNumber.rank, Prod.Lex.toLex_lt_toLex]
  have hvalue : r.versionNumber.value < q.tag.value := hlt
  revert hdev
  cases q.tag.dev <;> cases r.versionNumber.dev <;> simp [hvalue]

/-- Versions with `dev` come before those without it. -/
theorem rank_lt_of_dev (hq : q.tag.dev = true) (hr : r.versionNumber.dev = false) :
    q.tag.rank < r.versionNumber.rank := by
  rw [TagNumber.rank, TagNumber.rank, Prod.Lex.toLex_lt_toLex, hq, hr]
  exact .inl Bool.false_lt_true

/-- The rank of the tag of a release. -/
noncomputable def releaseRank (rel : GithubRelease) : Lex (Bool × Lex (ℕ → ℤ)) :=
  ((tagNumber (releaseVersion rel).toList).getD { dev := true, parts := [] }).rank

/-- The rank of a release is that of its tag. -/
theorem releaseRank_eq : releaseRank q.release = q.tag.rank := by
  rw [releaseRank, releaseVersion_eq, q.numbered, Option.getD_some]

section Fitting

variable (hfits : ∀ q ∈ rs, q.tag.FitsInt)

include hfits

/-- **The release that is selected** is one of the highest. -/
theorem select_iff (hr : r ∈ rs) {latest : Option GithubRelease} :
    SelectReleaseForChannel ((rs.take 30).map release)
        (r.instanceMeta repository fallback repo).channel latest ↔
      ∃ q, Highest rs r q ∧ latest = some q.release := by
  have hranks : ∀ x ∈ (lookedAt rs r).map release, ∀ y ∈ (lookedAt rs r).map release,
      newerFirst x y ↔ releaseRank y < releaseRank x := by
    rw [List.forall_mem_map]
    intro p hp
    rw [List.forall_mem_map]
    intro q hq
    rw [newerFirst, releaseVersion_eq, releaseVersion_eq, releaseRank_eq, releaseRank_eq]
    exact compareVersions_eq_lt q.numbered p.numbered (hfits q (mem_of_mem_lookedAt hq))
      (hfits p (mem_of_mem_lookedAt hp))
  rcases latest with _ | rel
  · have hpage : (rs.take 30).map release ≠ [] := by
      intro hempty
      rw [List.map_eq_nil_iff, List.take_eq_nil_iff] at hempty
      exact List.ne_nil_of_mem hr (hempty.resolve_left (by decide))
    exact iff_of_false hpage fun ⟨q, _, hq⟩ => nomatch hq
  · rw [SelectReleaseForChannel, candidates_eq, SortSlice.firstOfSorted_iff hranks]
    constructor
    · rintro ⟨hrel, hmax⟩
      obtain ⟨q, hq, rfl⟩ := List.mem_map.mp hrel
      refine ⟨q, ⟨hq, fun p hp => ?_⟩, rfl⟩
      have := hmax p.release (List.mem_map_of_mem hp)
      rwa [releaseRank_eq, releaseRank_eq] at this
    · rintro ⟨q, ⟨hq, hmax⟩, hrel⟩
      obtain rfl := Option.some.inj hrel
      refine ⟨List.mem_map_of_mem hq, ?_⟩
      rw [List.forall_mem_map]
      intro p hp
      rw [releaseRank_eq, releaseRank_eq]
      exact hmax p hp

/-- What may be left after a fetch. -/
theorem refresh_iff (hr : r ∈ rs) {prev state : ReleaseCheckState} {now : ℕ} {etag : String} :
    RefreshReleaseCheck (r.instanceMeta repository fallback repo) prev now
        (.fetched ((rs.take 30).map release) etag) state ↔
      ∃ q, Highest rs r q ∧
        state =
          { repo := (r.instanceMeta repository fallback repo).repo
            channel := (r.instanceMeta repository fallback repo).channel
            latest := releaseInfo (some q.release)
            updateAvailable := decide (r.versionNumber.rank < q.tag.rank)
            checkedAt := now
            error := ""
            etag := etag } := by
  have hnewer : ∀ q, Highest rs r q →
      ((releaseInfo (some q.release)).version ≠ "" &&
        (r.instanceMeta repository fallback repo).version ≠ "" &&
        compareVersions (r.instanceMeta repository fallback repo).version.toList
          (releaseInfo (some q.release)).version.toList == .lt) =
        decide (r.versionNumber.rank < q.tag.rank) := by
    intro q hq
    have htag : q.release.tagName ≠ "" := ne_empty_of_tag q.numbered
    have hversion : r.version repository fallback ≠ "" := ne_empty_of_tag tagNumber_version
    have hcompare := compareVersions_eq_lt (@tagNumber_version r repository fallback) q.numbered
      (hfits r hr) (hfits q (mem_of_mem_lookedAt hq.1))
    rw [instanceMeta_version, releaseInfo, releaseVersion_eq]
    simp only [htag, hversion, ne_eq, not_false_eq_true, decide_true, Bool.true_and]
    rw [← decide_eq_decide.mpr hcompare]
    rfl
  constructor
  · rintro (_ | _ | hselect)
    obtain ⟨q, hq, rfl⟩ := (select_iff hfits hr).mp hselect
    exact ⟨q, hq, by rw [hnewer q hq]⟩
  · rintro ⟨q, hq, rfl⟩
    rw [← hnewer q hq]
    exact .fetched ((select_iff hfits hr).mpr ⟨q, hq, rfl⟩)

end Fitting

/-- **What an instance reports.** An instance of a published release reports right, whatever
comes first among equal tags, exactly if the tags agree with the targets. -/
theorem reports_iff (hfits : ∀ q ∈ rs, q.tag.FitsInt)
    (hnodup : (rs.map fun q => q.release.tagName).Nodup) (hr : r ∈ rs)
    (prev : ReleaseCheckState) (now : ℕ) (etag : String) :
    (∀ state, RefreshReleaseCheck (r.instanceMeta repository fallback repo) prev now
        (.fetched ((rs.take 30).map release) etag) state → Reports rs r state) ↔
      TagsAgree rs r := by
  simp only [refresh_iff hfits hr, forall_exists_index, and_imp]
  constructor
  · intro h
    refine ⟨fun hnewest q hq => ?_, fun hold q hq => ?_⟩
    · obtain ⟨p, hp⟩ := exists_highest hr
      have hp' := (h _ p hp rfl).1 hnewest
      exact (hp.2 q hq).trans (not_lt.mp (of_decide_eq_false hp'))
    · obtain ⟨hupdate, p, hp, htarget, hnewest, hinfo⟩ := (h _ q hq rfl).2 hold
      obtain rfl : q = p := List.inj_on_of_nodup_map hnodup (mem_of_mem_lookedAt hq.1) hp
        (congrArg ReleaseInfo.tag hinfo)
      refine ⟨htarget, hnewest, fun hdev => ?_⟩
      by_contra hversion
      have hlt := rank_lt_of_dev hdev (Bool.not_eq_true _ ▸ hversion)
      exact lt_asymm hlt (of_decide_eq_true hupdate)
  · rintro ⟨hnew, hold⟩ state q hq rfl
    refine ⟨fun hnewest => ?_, fun hr => ?_⟩
    · exact decide_eq_false (not_lt.mpr (hnew hnewest q hq.1))
    · obtain ⟨htarget, hnewest, hdev⟩ := hold hr q hq
      exact ⟨decide_eq_true (rank_lt_of_newest hr hnewest htarget hdev), q,
        mem_of_mem_lookedAt hq.1, htarget, hnewest, rfl⟩

/-- A release for `main` with the tag `1.3.4`. -/
def main134 : Published where
  release := { tagName := "1.3.4", name := "1.3.4", targetCommitish := "main",
               htmlURL := "https://github.com/pbuzdygan/contiwatch/releases/tag/1.3.4",
               draft := false }
  target := .main
  tag := { dev := false, parts := [1, 3, 4] }
  accepted := by decide
  numbered := by decide
  built := rfl
  notDraft := rfl

/-- A later release for `main`. -/
def main1310 : Published where
  release := { tagName := "1.3.10", name := "1.3.10", targetCommitish := "main",
               htmlURL := "https://github.com/pbuzdygan/contiwatch/releases/tag/1.3.10",
               draft := false }
  target := .main
  tag := { dev := false, parts := [1, 3, 10] }
  accepted := by decide
  numbered := by decide
  built := rfl
  notDraft := rfl

/-- A release for `dev` with the tag `12`. -/
def dev12 : Published where
  release := { tagName := "12", name := "12", targetCommitish := "dev",
               htmlURL := "https://github.com/pbuzdygan/contiwatch/releases/tag/12",
               draft := false }
  target := .dev
  tag := { dev := false, parts := [12] }
  accepted := by decide
  numbered := by decide
  built := rfl
  notDraft := rfl

/-- An instance of `1.3.4` reports right, and it reports `1.3.10`. -/
theorem newer_is_reported :
    ∃ state, RefreshReleaseCheck
        (main134.instanceMeta "pbuzdygan/contiwatch" "dev" "pbuzdygan/contiwatch")
        ReleaseCheckState.zero 1
        (.fetched (([main1310, main134].take 30).map release) "") state ∧
      Reports [main1310, main134] main134 state := by
  have hlt : main134.tag.value < main1310.tag.value :=
    Dotted.compareParts_eq_lt.mp (by decide)
  have hnewest : Newest [main1310, main134] main1310 := by
    rintro q hq -
    simp only [List.mem_cons, List.not_mem_nil, or_false] at hq
    rcases hq with rfl | rfl
    · exact le_rfl
    · exact hlt.le
  have hold : ¬ Newest [main1310, main134] main134 := fun h =>
    absurd (h main1310 (List.mem_cons_self ..) rfl) (not_le.mpr hlt)
  have hfits : ∀ q ∈ [main1310, main134], q.tag.FitsInt := by
    intro q hq
    simp only [List.mem_cons, List.not_mem_nil, or_false] at hq
    rcases hq with rfl | rfl
    · show ∀ n ∈ [1, 3, 10], n < 2 ^ 63
      decide
    · show ∀ n ∈ [1, 3, 4], n < 2 ^ 63
      decide
  have hagree : TagsAgree [main1310, main134] main134 := by
    refine ⟨fun h => absurd h hold, fun _ q hq => ?_⟩
    have hlook : lookedAt [main1310, main134] main134 = [main1310, main134] := rfl
    obtain ⟨hmem, hmax⟩ := hq
    rw [hlook] at hmem hmax
    simp only [List.mem_cons, List.not_mem_nil, or_false] at hmem
    rcases hmem with rfl | rfl
    · exact ⟨rfl, hnewest, fun hdev => nomatch hdev⟩
    · have hle := hmax main1310 (List.mem_cons_self ..)
      rw [TagNumber.rank, TagNumber.rank, Prod.Lex.toLex_le_toLex] at hle
      rcases hle with hprefix | ⟨-, hle⟩
      · exact absurd hprefix (lt_irrefl _)
      · exact absurd hle (not_le.mpr hlt)
  have hmem : main134 ∈ [main1310, main134] := List.mem_cons_of_mem _ (List.mem_singleton_self _)
  obtain ⟨q, hq⟩ := exists_highest hmem
  obtain ⟨state, hstate⟩ : ∃ state, RefreshReleaseCheck
      (main134.instanceMeta "pbuzdygan/contiwatch" "dev" "pbuzdygan/contiwatch")
      ReleaseCheckState.zero 1 (.fetched (([main1310, main134].take 30).map release) "") state :=
    ⟨_, (refresh_iff hfits hmem).mpr ⟨q, hq, rfl⟩⟩
  exact ⟨state, hstate, (reports_iff hfits (by decide) hmem _ _ _).mpr hagree state hstate⟩

/-- **The newest release can report an update.** The release for `dev` with the tag `12` gets the
version `dev12`, which comes before its own tag. -/
theorem newest_can_report_update :
    dev12.version "pbuzdygan/contiwatch" "dev" = "dev12" ∧ Newest [dev12] dev12 ∧
      ¬ ∀ state, RefreshReleaseCheck
          (dev12.instanceMeta "pbuzdygan/contiwatch" "dev" "pbuzdygan/contiwatch")
          ReleaseCheckState.zero 1
          (.fetched (([dev12].take 30).map release) "") state →
        Reports [dev12] dev12 state := by
  have hnewest : Newest [dev12] dev12 := by
    rintro q hq -
    rw [List.mem_singleton.mp hq]
  have hfits : ∀ q ∈ [dev12], q.tag.FitsInt := by
    intro q hq n hn
    obtain rfl := List.mem_singleton.mp hq
    obtain rfl := List.mem_singleton.mp hn
    decide
  have hhighest : Highest [dev12] dev12 dev12 := by
    have hlook : lookedAt [dev12] dev12 = [dev12] := rfl
    refine ⟨?_, fun p hp => ?_⟩
    · exact hlook ▸ List.mem_singleton_self _
    · rw [hlook, List.mem_singleton] at hp
      rw [hp]
  refine ⟨by decide, hnewest, fun h => ?_⟩
  have hstate := h _ ((refresh_iff hfits (List.mem_singleton_self _)).mpr ⟨dev12, hhighest, rfl⟩)
  have hlt : dev12.versionNumber.rank < dev12.tag.rank := by
    rw [TagNumber.rank, TagNumber.rank, Prod.Lex.toLex_lt_toLex]
    exact .inl Bool.false_lt_true
  exact absurd hlt (of_decide_eq_false (hstate.1 hnewest))

end Published

end Contiwatch
