import Contiwatch.ContainerScan

/-!
# Image References

A reference to an image is a name, and a tag may follow it after a colon. The name is components
with slashes between them, of which the first may be a host with a port, after a colon of its own.
`imageRepo` and `splitRepoTag` of `internal/dockerwatcher/watcher.go` tell the colons apart by the
last slash: a tag is what follows a colon after it. `ListImages` shows the parts, and `PullImage`
joins what it is given.

## Main results

* `splitsRight_iff` — both functions find the name and the tag exactly if the reference has no `@`
  and no blanks around it and is not empty.
* `digest_is_cut` — a reference with a digest has the form of a name with a tag.
* `listImages_count` — an image is listed with the number of containers that use it.
* `pull_listed` — what is listed for a tag of an image pulls this tag.
-/

namespace Contiwatch

open GoStrings

/-! ### The functions -/

/-- `splitRepoTag`. -/
def splitRepoTag (imageRef : String) : String × String :=
  let ref := trimSpaceStr imageRef
  if ref = "" then ("<none>", "<none>")
  else if ref = "<none>:<none>" then ("<none>", "<none>")
  else
    let cut (lastColon : ℕ) :=
      (String.ofList (ref.toList.take lastColon), String.ofList (ref.toList.drop (lastColon + 1)))
    match lastIndex ':' ref.toList, lastIndex '/' ref.toList with
    | some lastColon, some lastSlash =>
        if lastColon > lastSlash then cut lastColon else (ref, "<none>")
    | some lastColon, none => cut lastColon
    | none, _ => (ref, "<none>")

/-! ### References -/

/-- A name: components with slashes between them, of which the first may have a colon if it is not
the only one. -/
structure ImageName where
  first : List Char
  rest : List (List Char)
  first_slash : '/' ∉ first
  first_port : ':' ∈ first → rest ≠ []
  rest_plain : ∀ part ∈ rest, '/' ∉ part ∧ ':' ∉ part

/-- The text of a name. -/
def ImageName.text (name : ImageName) : List Char := ['/'].intercalate (name.first :: name.rest)

/-- A tag. -/
structure ImageTag where
  text : List Char
  plain : '/' ∉ text ∧ ':' ∉ text

/-- The text of a reference. -/
def refText (name : ImageName) : Option ImageTag → List Char
  | none => name.text
  | some tag => name.text ++ ':' :: tag.text

/-- The tag of a reference, or what stands for it. -/
def tagText : Option ImageTag → String
  | none => "<none>"
  | some tag => String.ofList tag.text

/-- Both functions find the parts of a reference. -/
structure SplitsRight (name : ImageName) (tag : Option ImageTag) : Prop where
  repo : imageRepo (String.ofList (refText name tag)) = String.ofList name.text
  split : splitRepoTag (String.ofList (refText name tag)) =
    (String.ofList name.text, tagText tag)
  agree : imageRepo (String.ofList (refText name tag)) =
    (splitRepoTag (String.ofList (refText name tag))).1
  joined : tag.isSome = true →
    (splitRepoTag (String.ofList (refText name tag))).1 ++ ":" ++
      (splitRepoTag (String.ofList (refText name tag))).2 = String.ofList (refText name tag)

/-! ### The last colon and the last slash -/

variable {l before after : List Char} {c : Char}

/-- No last place, no occurrence. -/
theorem lastIndex_eq_none : lastIndex c l = none ↔ c ∉ l := by
  induction l with
  | nil => exact iff_of_true rfl List.not_mem_nil
  | cons a l ih =>
      rw [lastIndex, List.mem_cons, not_or]
      rcases hl : lastIndex c l with _ | i
      · have hmem := ih.mp hl
        dsimp only
        by_cases ha : a = c
        · rw [if_pos ha]
          exact iff_of_false (Option.some_ne_none 0) fun h => h.1 ha.symm
        · rw [if_neg ha]
          exact iff_of_true rfl ⟨Ne.symm ha, hmem⟩
      · have hmem : c ∈ l := by
          by_contra hnot
          rw [ih.mpr hnot] at hl
          cases hl
        exact iff_of_false (Option.some_ne_none _) fun h => h.2 hmem

/-- The last occurrence is the one with none after it. -/
theorem lastIndex_append_cons (h : c ∉ after) (before : List Char) :
    lastIndex c (before ++ c :: after) = some before.length := by
  induction before with
  | nil => rw [List.nil_append, lastIndex, lastIndex_eq_none.mpr h]; simp
  | cons a before ih => rw [List.cons_append, lastIndex, ih]; rfl

/-- The last place of a character is the last one. -/
theorem exists_of_lastIndex {i : ℕ} (h : lastIndex c l = some i) :
    ∃ before after, l = before ++ c :: after ∧ c ∉ after ∧ before.length = i := by
  have hmem : c ∈ l := by
    by_contra hnot
    rw [lastIndex_eq_none.mpr hnot] at h
    cases h
  obtain ⟨after, before, hrev, hafter⟩ := List.eq_append_cons_of_mem (List.mem_reverse.mpr hmem)
  have hl : l = before.reverse ++ c :: after.reverse := by
    rw [← List.reverse_reverse l, hrev, List.reverse_append, List.reverse_cons, List.append_assoc,
      List.singleton_append]
  have hnot : c ∉ after.reverse := fun h => hafter (List.mem_reverse.mp h)
  rw [hl, lastIndex_append_cons hnot, Option.some.injEq] at h
  exact ⟨before.reverse, after.reverse, hl, hnot, h⟩

/-- Every colon of a text is before a slash. -/
def Untagged (l : List Char) : Prop := ∀ before after, l = before ++ ':' :: after → '/' ∈ after

/-- In a text without a tag the last colon, if there is one, is before the last slash. -/
theorem Untagged.lastIndex (h : Untagged l) :
    Contiwatch.lastIndex ':' l = none ∨ ∃ i j, Contiwatch.lastIndex ':' l = some i ∧
      Contiwatch.lastIndex '/' l = some j ∧ i ≤ j := by
  rcases hcolon : Contiwatch.lastIndex ':' l with _ | i
  · exact .inl rfl
  obtain ⟨before, after, rfl, -, rfl⟩ := exists_of_lastIndex hcolon
  obtain ⟨k, hslash⟩ : ∃ k, Contiwatch.lastIndex '/' after = some k := by
    refine Option.ne_none_iff_exists'.mp fun hnone => ?_
    exact lastIndex_eq_none.mp hnone (h before after rfl)
  obtain ⟨front, back, rfl, hback, -⟩ := exists_of_lastIndex hslash
  refine .inr ⟨before.length, (before ++ ':' :: front).length, rfl, ?_, ?_⟩
  · rw [← List.cons_append, ← List.append_assoc]
    exact lastIndex_append_cons hback _
  · rw [List.length_append]
    exact Nat.le_add_right _ _

/-- A text with a tag has the last colon after the last slash, if there is one. -/
theorem lastIndex_tag (htag : '/' ∉ after ∧ ':' ∉ after) (before : List Char) :
    lastIndex ':' (before ++ ':' :: after) = some before.length ∧
      ∀ j, lastIndex '/' (before ++ ':' :: after) = some j → j < before.length := by
  refine ⟨lastIndex_append_cons htag.2 before, fun j hj => ?_⟩
  obtain ⟨front, back, heq, -, rfl⟩ := exists_of_lastIndex hj
  rcases List.append_eq_append_iff.mp heq with ⟨mid, rfl, hmid⟩ | ⟨mid, rfl, hmid⟩
  · -- the slash would be the colon or in the tag
    exfalso
    rcases mid with _ | ⟨a, mid⟩
    · cases hmid
    · rw [List.cons_append, List.cons.injEq] at hmid
      exact htag.1 (hmid.2 ▸ List.mem_append_right _ List.mem_cons_self)
  · rcases mid with _ | ⟨a, mid⟩
    · cases hmid
    · rw [List.length_append, List.length_cons]
      omega

/-- A component before a slash adds no tag. -/
theorem Untagged.cons_part (h : Untagged l) (part : List Char) : Untagged (part ++ '/' :: l) := by
  intro before after heq
  rcases List.append_eq_append_iff.mp heq with ⟨mid, rfl, hmid⟩ | ⟨mid, rfl, hmid⟩
  · rcases mid with _ | ⟨a, mid⟩
    · cases hmid
    · rw [List.cons_append, List.cons.injEq] at hmid
      exact h mid after hmid.2
  · rcases mid with _ | ⟨a, mid⟩
    · cases hmid
    · rw [List.cons_append, List.cons.injEq] at hmid
      exact hmid.2 ▸ List.mem_append_right _ List.mem_cons_self

/-- Without a colon there is no tag. -/
theorem untagged_of_not_mem (h : ':' ∉ l) : Untagged l := by
  rintro before after rfl
  exact absurd (List.mem_append_right _ List.mem_cons_self) h

/-- **A name has no tag**, whatever the number of its components. -/
theorem ImageName.untagged (name : ImageName) : Untagged name.text := by
  obtain ⟨first, rest, -, hport, hplain⟩ := name
  rw [ImageName.text]
  induction rest generalizing first with
  | nil =>
      rw [List.intercalate_singleton]
      exact untagged_of_not_mem fun hmem => hport hmem rfl
  | cons part rest ih =>
      obtain ⟨hpart, hrest⟩ := List.forall_mem_cons.mp hplain
      have htext := ih part hpart.1 (fun hmem => absurd hmem hpart.2) hrest
      rw [List.intercalate_cons_cons, List.append_assoc, List.singleton_append]
      exact htext.cons_part first

/-! ### `imageRepo` -/

/-- What is before the `@` of a digest. -/
theorem imageRepo_of_digest (h : '@' ∈ l) :
    imageRepo (String.ofList l) = String.ofList (l.takeWhile (· ≠ '@')) := by
  rw [imageRepo]
  simp only [String.toList_ofList, if_pos h]

/-- An untagged reference is its own repository. -/
theorem imageRepo_of_untagged (hat : '@' ∉ l) (h : Untagged l) :
    imageRepo (String.ofList l) = String.ofList l := by
  rw [imageRepo]
  simp only [String.toList_ofList, if_neg hat]
  rcases h.lastIndex with hnone | ⟨i, j, hcolon, hslash, hle⟩
  · rw [hnone]
  · rw [hcolon, hslash]
    exact if_neg (Nat.not_lt.mpr hle)

/-- A tag is cut off with its colon. -/
theorem imageRepo_of_tag (hat : '@' ∉ before ++ ':' :: after) (htag : '/' ∉ after ∧ ':' ∉ after) :
    imageRepo (String.ofList (before ++ ':' :: after)) = String.ofList before := by
  obtain ⟨hcolon, hslash⟩ := lastIndex_tag htag before
  rw [imageRepo]
  simp only [String.toList_ofList, if_neg hat, hcolon]
  rcases hlast : lastIndex '/' (before ++ ':' :: after) with _ | j
  · dsimp only
    rw [List.take_left]
  · dsimp only
    rw [if_pos (hslash j hlast), List.take_left]

/-! ### `splitRepoTag` -/

/-- Trimming a string trims its characters. -/
theorem trimSpaceStr_ofList (l : List Char) :
    trimSpaceStr (String.ofList l) = String.ofList (trimSpace l) := by
  rw [trimSpaceStr, String.toList_ofList]

/-- Only no character makes the empty string. -/
theorem ofList_eq_empty : String.ofList l = "" ↔ l = [] := by
  rw [← String.ofList_nil, String.ofList_inj]

/-- Without a tag the second half says `<none>`, and so does an empty first half. -/
theorem splitRepoTag_of_untagged (h : Untagged (trimSpace l)) :
    splitRepoTag (String.ofList l) =
      if trimSpace l = [] then ("<none>", "<none>")
      else (String.ofList (trimSpace l), "<none>") := by
  have hnone : String.ofList (trimSpace l) ≠ "<none>:<none>" := by
    intro heq
    have hslash := h "<none>".toList "<none>".toList (String.ofList_inj.mp heq)
    revert hslash
    decide
  rw [splitRepoTag, trimSpaceStr_ofList]
  simp only [ofList_eq_empty, String.toList_ofList, if_neg hnone]
  split_ifs with hempty
  · rfl
  · rcases h.lastIndex with hindex | ⟨i, j, hcolon, hslash, hle⟩
    · rw [hindex]
    · rw [hcolon, hslash]
      exact if_neg (Nat.not_lt.mpr hle)

/-- With one, the two sides of the last colon come back. -/
theorem splitRepoTag_of_tag (htrim : trimSpace l = before ++ ':' :: after)
    (htag : '/' ∉ after ∧ ':' ∉ after) :
    splitRepoTag (String.ofList l) = (String.ofList before, String.ofList after) := by
  obtain ⟨hcolon, hslash⟩ := lastIndex_tag htag before
  have hempty : before ++ ':' :: after ≠ [] := List.append_ne_nil_of_right_ne_nil _ (by simp)
  have hdrop : (before ++ ':' :: after).drop (before.length + 1) = after := by
    rw [List.drop_length_add_append, List.drop_succ_cons, List.drop_zero]
  rw [splitRepoTag, trimSpaceStr_ofList, htrim]
  simp only [ofList_eq_empty, String.toList_ofList, if_neg hempty, hcolon]
  split_ifs with hnone
  · -- the text that stands for no repository and no tag is split as any other
    have hparts : before ++ ':' :: after = "<none>:<none>".toList :=
      (String.toList_ofList).symm.trans (congrArg String.toList hnone)
    rw [hparts] at hcolon hdrop
    have hlength : before.length = 6 := by
      have hsix : lastIndex ':' "<none>:<none>".toList = some 6 := by decide
      rw [hsix, Option.some.injEq] at hcolon
      exact hcolon.symm
    have hbefore : before = "<none>:<none>".toList.take 6 := by
      rw [← hparts, ← hlength, List.take_left]
    rw [hlength] at hdrop
    rw [hbefore, ← hdrop]
    rfl
  · rcases hlast : lastIndex '/' (before ++ ':' :: after) with _ | j
    · dsimp only
      rw [List.take_left, hdrop]
    · dsimp only
      rw [if_pos (hslash j hlast), List.take_left, hdrop]

/-! ### Blanks around a reference -/

/-- Trimming takes blanks from both sides. -/
theorem exists_trimSpace (l : List Char) :
    ∃ front back, l = front ++ (trimSpace l ++ back) ∧ ∀ c ∈ back, isSpace c = true := by
  refine ⟨l.takeWhile isSpace, (l.dropWhile isSpace).rtakeWhile isSpace, ?_, ?_⟩
  · have htrim : trimSpace l = (l.dropWhile isSpace).rdropWhile isSpace := rfl
    rw [htrim, List.rdropWhile_append_rtakeWhile, List.takeWhile_append_dropWhile]
  · exact fun c hc => List.mem_rtakeWhile_imp hc

/-- What is trimmed has no tag if the text had none. -/
theorem Untagged.trimSpace (h : Untagged l) : Untagged (trimSpace l) := by
  intro before after heq
  obtain ⟨front, back, hl, hback⟩ := exists_trimSpace l
  have hslash : '/' ∈ after ++ back := by
    refine h (front ++ before) (after ++ back) ?_
    rw [hl, heq]
    simp only [List.append_assoc, List.cons_append]
  rcases List.mem_append.mp hslash with hmem | hmem
  · exact hmem
  · exact absurd (hback '/' hmem) (by decide)

/-- Dropping from the front stops at the first character to keep. -/
theorem dropWhile_append_cons {p : Char → Bool} (hc : p c = false) (before after : List Char) :
    (before ++ c :: after).dropWhile p = before.dropWhile p ++ c :: after := by
  rw [List.dropWhile_append]
  split_ifs with hempty
  · rw [List.isEmpty_iff.mp hempty, List.nil_append,
      List.dropWhile_cons_of_neg (ne_true_of_eq_false hc)]
  · rfl

/-- On both sides of a colon, blanks are trimmed at the far end. -/
theorem trimSpace_append_colon (before after : List Char) :
    trimSpace (before ++ ':' :: after) =
      before.dropWhile isSpace ++ ':' :: after.rdropWhile isSpace := by
  have hcolon : isSpace ':' = false := by decide
  rw [trimSpace, dropWhile_append_cons hcolon, List.reverse_append, List.reverse_cons,
    List.append_assoc, List.singleton_append, dropWhile_append_cons hcolon, List.reverse_append,
    List.reverse_cons, List.reverse_reverse, List.append_assoc, List.singleton_append,
    List.rdropWhile]

/-- `splitRepoTag` on a name without a tag. -/
theorem splitRepoTag_ref_none (name : ImageName) :
    splitRepoTag (String.ofList (refText name none)) =
      if trimSpace name.text = [] then ("<none>", "<none>")
      else (String.ofList (trimSpace name.text), "<none>") :=
  splitRepoTag_of_untagged name.untagged.trimSpace

/-- On a tagged name, the outer white space is lost. -/
theorem splitRepoTag_ref_some (name : ImageName) (tag : ImageTag) :
    splitRepoTag (String.ofList (refText name (some tag))) =
      (String.ofList (name.text.dropWhile isSpace),
        String.ofList (tag.text.rdropWhile isSpace)) := by
  refine splitRepoTag_of_tag (trimSpace_append_colon name.text tag.text) ?_
  have hsub : ∀ c ∈ tag.text.rdropWhile isSpace, c ∈ tag.text :=
    fun c hc => (List.rdropWhile_prefix isSpace tag.text).subset hc
  exact ⟨fun h => tag.plain.1 (hsub _ h), fun h => tag.plain.2 (hsub _ h)⟩

/-- `imageRepo` finds the name exactly if there is no digest. -/
theorem imageRepo_ref_iff (name : ImageName) (tag : Option ImageTag) :
    imageRepo (String.ofList (refText name tag)) = String.ofList name.text ↔
      '@' ∉ refText name tag := by
  constructor
  · intro hrepo hat
    rw [imageRepo_of_digest hat, String.ofList_inj] at hrepo
    have hname : ∀ c ∈ name.text, c ≠ '@' := by
      intro c hc
      rw [← hrepo] at hc
      exact of_decide_eq_true (List.mem_takeWhile_imp (p := (· ≠ '@')) hc)
    cases tag with
    | none => exact hname '@' hat rfl
    | some tag =>
        rw [refText, List.takeWhile_append_of_pos fun c hc => decide_eq_true (hname c hc),
          List.takeWhile_cons_of_pos (by decide)] at hrepo
        have hlength := congrArg List.length hrepo
        rw [List.length_append, List.length_cons] at hlength
        omega
  · intro hat
    cases tag with
    | none => exact imageRepo_of_untagged hat name.untagged
    | some tag => exact imageRepo_of_tag hat tag.plain

/-- `splitRepoTag` finds the name and the tag exactly if there is nothing to trim, and something to
split. -/
theorem splitRepoTag_ref_iff (name : ImageName) (tag : Option ImageTag) :
    splitRepoTag (String.ofList (refText name tag)) = (String.ofList name.text, tagText tag) ↔
      trimSpace (refText name tag) = refText name tag ∧ refText name tag ≠ [] := by
  cases tag with
  | none =>
      rw [splitRepoTag_ref_none, refText, tagText]
      split_ifs with hempty
      · -- only the text `<none>` would be right, and it is not blank
        refine iff_of_false (fun heq => ?_) fun h => h.2 (h.1.symm.trans hempty)
        have hname : name.text = "<none>".toList := by
          rw [Prod.mk.injEq] at heq
          exact (String.toList_ofList).symm.trans (congrArg String.toList heq.1.symm)
        rw [hname] at hempty
        revert hempty
        decide
      · rw [Prod.mk.injEq, String.ofList_inj]
        exact ⟨fun h => ⟨h.1, h.1 ▸ hempty⟩, fun h => ⟨h.1, rfl⟩⟩
  | some tag =>
      have hne : refText name (some tag) ≠ [] :=
        List.append_ne_nil_of_right_ne_nil _ (List.cons_ne_nil _ _)
      rw [splitRepoTag_ref_some, tagText, Prod.mk.injEq, String.ofList_inj, String.ofList_inj,
        and_iff_left hne, refText, trimSpace_append_colon]
      constructor
      · rintro ⟨hname, htag⟩
        rw [hname, htag]
      · intro heq
        have hname : (name.text.dropWhile isSpace).length ≤ name.text.length :=
          (List.dropWhile_sublist isSpace).length_le
        have htag : (tag.text.rdropWhile isSpace).length ≤ tag.text.length :=
          (List.rdropWhile_prefix isSpace tag.text).length_le
        have hlength := congrArg List.length heq
        simp only [List.length_append, List.length_cons] at hlength
        obtain ⟨hname, htag⟩ := List.append_inj heq (by omega)
        exact ⟨hname, (List.cons.inj htag).2⟩

/-! ### Both functions -/

/-- A tagged reference, spelt out. -/
theorem ofList_refText_some (name : ImageName) (tag : ImageTag) :
    String.ofList (refText name (some tag)) =
      String.ofList name.text ++ ":" ++ String.ofList tag.text := by
  rw [refText, ← List.singleton_append, String.ofList_append, String.ofList_append,
    String.append_assoc]

/-- **Both functions find the parts of a reference**, and agree, and the parts joined with a colon
are the reference, exactly if it has no digest, no blanks around it and is not empty. -/
theorem splitsRight_iff (name : ImageName) (tag : Option ImageTag) :
    SplitsRight name tag ↔ '@' ∉ refText name tag ∧
      trimSpace (refText name tag) = refText name tag ∧ refText name tag ≠ [] := by
  constructor
  · intro h
    exact ⟨(imageRepo_ref_iff name tag).mp h.repo, (splitRepoTag_ref_iff name tag).mp h.split⟩
  · rintro ⟨hat, htrim⟩
    have hrepo := (imageRepo_ref_iff name tag).mpr hat
    have hsplit := (splitRepoTag_ref_iff name tag).mpr htrim
    refine ⟨hrepo, hsplit, by rw [hrepo, hsplit], fun hsome => ?_⟩
    obtain ⟨tag, rfl⟩ := Option.isSome_iff_exists.mp hsome
    rw [hsplit, tagText, ofList_refText_some]

/-- A digest has the form of a tag after a name with an `@`, and `imageRepo` cuts it off with it. -/
theorem digest_is_cut : ¬ ∀ name tag, SplitsRight name tag := by
  intro h
  let name : ImageName := ⟨"nginx@sha256".toList, [], by decide, by decide, by decide⟩
  let tag : ImageTag :=
    ⟨"9f86d081884c7d659a2feaa0c55ad015a3bf4f1b2b0b822cd15d6c15b0f00a08".toList, by decide⟩
  have hat := ((splitsRight_iff name (some tag)).mp (h name (some tag))).1
  revert hat
  decide

/-! ### Listed images -/

/-- `image.Summary`. -/
structure ImageSummary where
  id : String
  repoTags : List String
  size : ℤ
  created : ℤ

/-- `ImageInfo`. -/
structure ImageInfo where
  id : String
  repository : String
  tag : String
  sizeBytes : ℤ
  createdAt : String
  containersCount : ℤ
  dangling : Bool

/-- The loop over the containers in `ListImages`. -/
def imageUsage (containers : List ContainerSummary) : GoMap String ℤ :=
  containers.foldl (fun usage container =>
    if container.imageID = "" then usage
    else usage.insert container.imageID ((usage.lookup container.imageID).getD 0 + 1)) ∅

/-- The entries of an image in `ListImages`; `format` writes a time as RFC 3339. -/
def imageInfos (format : ℤ → String) (usage : GoMap String ℤ) (image : ImageSummary) :
    List ImageInfo :=
  let info (repo tag : String) (dangling : Bool) : ImageInfo :=
    ⟨image.id, repo, tag, image.size, format image.created, (usage.lookup image.id).getD 0,
      dangling⟩
  if image.repoTags = [] then [info "<none>" "<none>" true]
  else
    image.repoTags.map fun ref =>
      let (repo, tag) := splitRepoTag ref
      info repo tag (repo = "<none>" || tag = "<none>")

/-- `ListImages`, for what the daemon answers. -/
def listImages (format : ℤ → String) (images : Except String (List ImageSummary))
    (containers : Except String (List ContainerSummary)) : Except String (List ImageInfo) := do
  let images ← images
  let containers ← containers
  return images.flatMap (imageInfos format (imageUsage containers))

/-- The reference that `PullImage` pulls. -/
def pullImageRef (repository tag : String) : Except String String :=
  let repo := trimSpaceStr repository
  if repo = "" then .error "repository is required"
  else
    let tag := trimSpaceStr tag
    .ok (repo ++ ":" ++ if tag = "" then "latest" else tag)

/-- An image's entry counts the containers made from it. -/
theorem lookup_imageUsage (containers : List ContainerSummary) {id : String} (hid : id ≠ "") :
    ((imageUsage containers).lookup id).getD 0 = containers.countP (·.imageID = id) := by
  have hfold : ∀ usage : GoMap String ℤ, ((containers.foldl (fun usage container =>
      if container.imageID = "" then usage
      else usage.insert container.imageID ((usage.lookup container.imageID).getD 0 + 1))
      usage).lookup id).getD 0 = (usage.lookup id).getD 0 + containers.countP (·.imageID = id) := by
    induction containers with
    | nil => intro usage; simp
    | cons container containers ih =>
        intro usage
        rw [List.foldl_cons, ih, List.countP_cons]
        by_cases hempty : container.imageID = ""
        · rw [if_pos hempty, if_neg (by simpa [hempty] using Ne.symm hid), Nat.add_zero]
        · rw [if_neg hempty]
          by_cases heq : container.imageID = id
          · rw [heq, Finmap.lookup_insert, if_pos (decide_eq_true rfl)]
            simp only [Option.getD_some, Nat.cast_add, Nat.cast_one]
            omega
          · rw [Finmap.lookup_insert_of_ne _ (Ne.symm heq), if_neg (by simpa using heq),
              Nat.add_zero]
  rw [imageUsage, hfold]
  simp

section

variable {format : ℤ → String} {images : List ImageSummary} {containers : List ContainerSummary}
  {infos : List ImageInfo}

/-- Each entry of the list is its image's, with the image's count. -/
theorem mem_imageInfos {usage : GoMap String ℤ} {image : ImageSummary} {info : ImageInfo}
    (h : info ∈ imageInfos format usage image) :
    info.id = image.id ∧ info.containersCount = (usage.lookup image.id).getD 0 := by
  rw [imageInfos] at h
  split_ifs at h with hempty
  · rw [List.mem_singleton] at h
    exact ⟨by rw [h], by rw [h]⟩
  · obtain ⟨ref, -, rfl⟩ := List.mem_map.mp h
    exact ⟨rfl, rfl⟩

/-- Every tag of an image has an entry. -/
theorem exists_mem_imageInfos (format : ℤ → String) (usage : GoMap String ℤ) {image : ImageSummary}
    {ref : String} (h : ref ∈ image.repoTags) : ∃ info ∈ imageInfos format usage image,
      info.id = image.id ∧ (info.repository, info.tag) = splitRepoTag ref := by
  rw [imageInfos, if_neg (List.ne_nil_of_mem h)]
  refine ⟨_, List.mem_map_of_mem h, ?_⟩
  rcases splitRepoTag ref with ⟨repo, tag⟩
  exact ⟨rfl, rfl⟩

/-- **An image is listed with the number of containers that use it.** -/
theorem listImages_count (h : listImages format (.ok images) (.ok containers) = .ok infos)
    {info : ImageInfo} (hinfo : info ∈ infos) (hid : info.id ≠ "") :
    info.containersCount = containers.countP (·.imageID = info.id) := by
  obtain rfl := Except.ok.inj h
  obtain ⟨image, -, hmem⟩ := List.mem_flatMap.mp hinfo
  obtain ⟨himage, hcount⟩ := mem_imageInfos hmem
  rw [himage] at hid ⊢
  rw [hcount, lookup_imageUsage containers hid]

/-- **A listed tag can be pulled**: the repository and the tag that are shown for a reference
without blanks make this reference again. -/
theorem pull_listed (h : listImages format (.ok images) (.ok containers) = .ok infos)
    {image : ImageSummary} (himage : image ∈ images) {name : ImageName} {tag : ImageTag}
    (href : String.ofList (refText name (some tag)) ∈ image.repoTags)
    (hblank : ∀ c ∈ refText name (some tag), isSpace c = false)
    (hname : name.text ≠ []) (htag : tag.text ≠ []) :
    ∃ info ∈ infos, info.id = image.id ∧ pullImageRef info.repository info.tag =
      .ok (String.ofList (refText name (some tag))) := by
  obtain rfl := Except.ok.inj h
  have hsplit := (splitRepoTag_ref_iff name (some tag)).mpr
    ⟨trimSpace_of_not_space hblank, List.append_ne_nil_of_left_ne_nil hname _⟩
  obtain ⟨info, hinfo, hid, hparts⟩ := exists_mem_imageInfos format (imageUsage containers) href
  rw [hsplit, tagText, Prod.mk.injEq] at hparts
  have hnameBlank : trimSpace name.text = name.text :=
    trimSpace_of_not_space fun c hc => hblank c (List.mem_append_left _ hc)
  have htagBlank : trimSpace tag.text = tag.text := trimSpace_of_not_space fun c hc =>
    hblank c (List.mem_append_right _ (List.mem_cons_of_mem _ hc))
  refine ⟨info, List.mem_flatMap.mpr ⟨image, himage, hinfo⟩, hid, ?_⟩
  rw [hparts.1, hparts.2, pullImageRef]
  simp only [trimSpaceStr_ofList, hnameBlank, htagBlank, ofList_eq_empty, if_neg hname, if_neg htag,
    ofList_refText_some]

end

end Contiwatch
