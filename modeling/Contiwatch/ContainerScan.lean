import Contiwatch.ScanResults
import Contiwatch.SelfUpdate

/-!
# The Scan of a Container

`scanContainer` of `internal/dockerwatcher/watcher.go` compares the digest of a container's image
with the one that the registry has for the reference. An image may have several digests: Docker
lists them with their repositories, in a form and in an order of its own. `localImageDigest` takes
the first one whose repository is written as in the reference, or the first one of all.

## Main results

* `forall_perm_localDigest` — among which digests the order decides.
* `scanRight_iff` — when the digest and the update that are reported do not depend on the order, and
  an image that has the digest of the registry is not reported.
* `first_digest_decides` — an image that has the digest of the registry is reported.
-/

namespace Contiwatch

open GoStrings

/-! ### References -/

/-- `digestFromRef`. -/
def digestFromRef (ref : String) : String :=
  String.ofList ((ref.toList.dropWhile (· ≠ '@')).drop 1)

/-- `strings.LastIndex` for a character. -/
def lastIndex (c : Char) : List Char → Option ℕ
  | [] => none
  | a :: rest =>
      match lastIndex c rest with
      | some i => some (i + 1)
      | none => if a = c then some 0 else none

/-- `imageRepo`. -/
def imageRepo (imageRef : String) : String :=
  let ref := imageRef.toList
  if '@' ∈ ref then String.ofList (ref.takeWhile (· ≠ '@'))
  else
    match lastIndex ':' ref, lastIndex '/' ref with
    | some lastColon, some lastSlash =>
        if lastColon > lastSlash then String.ofList (ref.take lastColon) else imageRef
    | some lastColon, none => String.ofList (ref.take lastColon)
    | none, _ => imageRef

example : imageRepo "localhost:5000/web:1.2" = "localhost:5000/web" := by decide

/-- The digest of an entry, if it is one of the repository. -/
def repoDigest (repo digestRef : String) : Option String :=
  if (repo = "" ∨ hasPrefix digestRef (repo ++ "@") = true) ∧ digestFromRef digestRef ≠ "" then
    some (digestFromRef digestRef)
  else none

/-- `localImageDigest`, with the `RepoDigests` of the image if it could be inspected. -/
def localImageDigest (image : Option (List String)) (imageRef : String) : String :=
  match image with
  | none => ""
  | some repoDigests =>
      match repoDigests.findSome? (repoDigest (imageRepo imageRef)) with
      | some digest => digest
      | none =>
          match repoDigests with
          | [] => ""
          | digestRef :: _ => digestFromRef digestRef

/-! ### The scan -/

/-- The label with the policy. -/
def policyLabel : String := "contiwatch.policy"

/-- `container.Summary`. -/
structure ContainerSummary where
  id : String
  names : List String
  image : String
  imageID : String

/-- What the daemon says of the image, its `RepoDigests`, and the registry of the reference. -/
structure ImageAnswers where
  image : Option (List String)
  remote : Except String String

/-- `err.Error()`. -/
def RecreateError.text : RecreateError → String
  | .missingConfig => "missing container config"
  | .missingHostConfig => "missing host config"
  | .stop err => "stop: " ++ err
  | .remove err => "remove: " ++ err
  | .create err => "create: " ++ err
  | .start err => "start: " ++ err

section

variable (o : Docker) (cfg : Config) (scanOnly : Bool)

/-- The check of the new container in `scanContainer`, with the second recreation that it may lead
to: the error to report, if there is one. A second inspection that fails, which makes the code
dereference a nil pointer, has the empty image here. -/
def checkApplied (newContainerID newImageID : String) (wasRunning : Bool) (s : Client) :
    Option String × Client :=
  if newContainerID ≠ "" ∧ newImageID ≠ "" then
    match containerInspect o newContainerID s with
    | (.error _, s) => (none, s)
    | (.ok newInspect, s) =>
        if newInspect.image ≠ "" ∧ newInspect.image ≠ newImageID then
          match recreateContainer o newInspect newImageID wasRunning s with
          | (.error err, s) =>
              (some ("update applied unexpected image (expected " ++ newImageID ++ " got " ++
                newInspect.image ++ "); retry failed: " ++ err.text), s)
          | (.ok retryID, s) =>
              match containerInspect o retryID s with
              | (.error _, s) =>
                  (some ("update applied unexpected image: expected " ++ newImageID ++ " got "), s)
              | (.ok retryInspect, s) =>
                  if retryInspect.image = newImageID then (none, s)
                  else
                    (some ("update applied unexpected image: expected " ++ newImageID ++ " got " ++
                      retryInspect.image), s)
        else (none, s)
  else (none, s)

/-- The update in `scanContainer`. -/
def updateScanned (inspect : Container) (imageRef : String) (status : ContainerStatus)
    (s : Client) : ContainerStatus × Client :=
  if scanOnly then (status, s)
  else if (inspect.state.map ContainerState.paused).getD false then
    ({ status with error := "skipped: container paused" }, s)
  else if !inspect.running && !cfg.updateStoppedContainers then
    ({ status with error := "skipped: container not running" }, s)
  else
    match recreateContainer o inspect imageRef inspect.running s with
    | (.error err, s) => ({ status with error := err.text }, s)
    | (.ok newContainerID, s) =>
        match checkApplied o newContainerID status.newImageID inspect.running s with
        | (some err, s) => ({ status with error := err }, s)
        | (none, s) => ({ status with updated := true }, s)

/-- `scanContainer` from `localImageDigest` on. -/
def scanDigests (inspect : Container) (answers : ImageAnswers) (status : ContainerStatus)
    (s : Client) : ContainerStatus × Client :=
  let imageRef := inspect.imageRef
  let localDigest := localImageDigest answers.image imageRef
  let status := if localDigest ≠ "" then { status with imageID := localDigest } else status
  let s := s.tick.tick
  match answers.remote with
  | .error err =>
      ({ status with error := "skipped: digest unknown (registry error: " ++ err ++ ")" }, s)
  | .ok remoteDigest =>
      if localDigest = "" then
        ({ status with error := "skipped: digest unknown (local digest unavailable)" }, s)
      else if remoteDigest = "" then
        ({ status with error := "skipped: digest unknown (registry digest unavailable)" }, s)
      else
        let status := { status with
          newImageID := remoteDigest
          updateAvailable := remoteDigest ≠ "" && localDigest ≠ "" && remoteDigest ≠ localDigest }
        if !status.updateAvailable then (status, s)
        else if status.policy = policyUpdate then
          updateScanned o cfg scanOnly inspect imageRef status s
        else (status, s)

variable (lower : Lowering)

/-- The policy of a container: that of its label, if it has one. -/
def scanPolicy (inspect : Container) : String :=
  match inspect.config.bind fun config => config.labels.lookup policyLabel with
  | none => cfg.globalPolicy
  | some override => toLower lower.map (trimSpaceStr override)

/-- `scanContainer`. -/
def scanContainer (candidates : List String) (now : ℕ) (item : ContainerSummary)
    (answers : ImageAnswers) (s : Client) : ContainerStatus × Client :=
  let status : ContainerStatus :=
    { id := item.id
      name := trimPrefix (item.names.headD "") "/"
      image := item.image
      imageID := item.imageID
      newImageID := ""
      running := false
      paused := false
      self := isSelfContainer lower candidates item.id
      policy := cfg.globalPolicy
      updateAvailable := false
      updated := false
      lastChecked := now
      error := "" }
  match containerInspect o item.id s with
  | (.error err, s) => ({ status with error := err }, s)
  | (.ok inspect, s) =>
      let status := { status with
        running := inspect.running
        paused := (inspect.state.map ContainerState.paused).getD false
        policy := scanPolicy cfg lower inspect }
      if status.policy = policySkip then ({ status with error := "skipped: policy" }, s)
      else if inspect.imageRef = "" then
        ({ status with error := "missing image reference" }, s)
      else if digestFromRef inspect.imageRef ≠ "" then
        ({ status with
          imageID := digestFromRef inspect.imageRef
          newImageID := digestFromRef inspect.imageRef
          updateAvailable := false }, s)
      else scanDigests o cfg scanOnly inspect answers status s

end

/-! ### The digests of an image -/

/-- The digests among which the order of the list decides: those of the entries of the repository,
as the reference writes it, or all if there are none. -/
def digestChoices (imageRef : String) (repoDigests : List String) : List String :=
  let named := repoDigests.filterMap (repoDigest (imageRepo imageRef))
  if named = [] then repoDigests.map digestFromRef else named

section

variable {imageRef : String} {l l' : List String} {d : String}

/-- The first of them is taken. -/
theorem localImageDigest_eq (imageRef : String) (l : List String) :
    localImageDigest (some l) imageRef = (digestChoices imageRef l).headD "" := by
  simp only [localImageDigest, digestChoices, ← List.head?_filterMap]
  cases hnamed : l.filterMap (repoDigest (imageRepo imageRef)) with
  | nil =>
      rw [if_pos rfl]
      cases l with
      | nil => rfl
      | cons digestRef rest => rfl
  | cons d rest => rfl

/-- The order of the digests does not decide among which the choice is. -/
theorem digestChoices_perm (h : l'.Perm l) :
    (digestChoices imageRef l').Perm (digestChoices imageRef l) := by
  have hnamed := h.filterMap (repoDigest (imageRepo imageRef))
  rw [digestChoices, digestChoices]
  by_cases hnil : l.filterMap (repoDigest (imageRepo imageRef)) = []
  · rw [if_pos hnil, if_pos (List.perm_nil.mp (hnil ▸ hnamed))]
    exact h.map digestFromRef
  · have hnil' : l'.filterMap (repoDigest (imageRepo imageRef)) ≠ [] := fun hempty =>
      hnil (List.nil_perm.mp (hempty ▸ hnamed))
    rwa [if_neg hnil, if_neg hnil']

/-- An entry at the head of the list gives its digest, if it is one of those that count. -/
theorem head_digestChoices {e : String} {rest : List String} (h : (e :: rest).Perm l)
    (he : if l.filterMap (repoDigest (imageRepo imageRef)) = [] then digestFromRef e = d
      else repoDigest (imageRepo imageRef) e = some d) :
    (digestChoices imageRef (e :: rest)).headD "" = d := by
  have hnamed := h.filterMap (repoDigest (imageRepo imageRef))
  split_ifs at he with hnil
  · rw [digestChoices, if_pos (List.perm_nil.mp (hnil ▸ hnamed))]
    exact he
  · rw [digestChoices, List.filterMap_cons_some he, if_neg (List.cons_ne_nil _ _)]
    rfl

/-- Some order of the list puts a given one first. -/
theorem exists_perm_localDigest (hd : d ∈ digestChoices imageRef l) :
    ∃ l', l'.Perm l ∧ localImageDigest (some l') imageRef = d := by
  obtain ⟨e, he, hfirst⟩ : ∃ e ∈ l,
      if l.filterMap (repoDigest (imageRepo imageRef)) = [] then digestFromRef e = d
      else repoDigest (imageRepo imageRef) e = some d := by
    rw [digestChoices] at hd
    split_ifs at hd ⊢ with hnil
    · exact List.mem_map.mp hd
    · exact List.mem_filterMap.mp hd
  obtain ⟨before, after, rfl⟩ := List.append_of_mem he
  have hperm : (e :: (before ++ after)).Perm (before ++ e :: after) := List.perm_middle.symm
  exact ⟨_, hperm, (localImageDigest_eq _ _).trans (head_digestChoices hperm hfirst)⟩

/-- **Orders.** What holds for the digests that count holds for what is taken from the list in any
order, and the other way round. -/
theorem forall_perm_localDigest (hne : l ≠ []) (P : String → Prop) :
    (∀ l', l'.Perm l → P (localImageDigest (some l') imageRef)) ↔
      ∀ d ∈ digestChoices imageRef l, P d := by
  constructor
  · intro h d hd
    obtain ⟨l', hperm, rfl⟩ := exists_perm_localDigest hd
    exact h l' hperm
  · intro h l' hperm
    refine h _ ((digestChoices_perm hperm).subset ?_)
    have hne' : l' ≠ [] := fun hempty => hne (List.nil_perm.mp (hempty ▸ hperm))
    have hchoices : digestChoices imageRef l' ≠ [] := by
      rw [digestChoices]
      split_ifs with hnil
      · exact mt List.map_eq_nil_iff.mp hne'
      · exact hnil
    rw [localImageDigest_eq]
    obtain ⟨d, rest, hcons⟩ := List.exists_cons_of_ne_nil hchoices
    rw [hcons]
    exact List.mem_cons_self

end

/-! ### What is reported -/

/-- The ID that is reported with a digest. -/
def reportedID (imageID localDigest : String) : String :=
  if localDigest = "" then imageID else localDigest

/-- The update that is reported with a digest. -/
def reportedUpdate (remote : Except String String) (localDigest : String) : Bool :=
  match remote with
  | .error _ => false
  | .ok remoteDigest =>
      remoteDigest ≠ "" && localDigest ≠ "" && remoteDigest ≠ localDigest

section

variable (o : Docker) (cfg : Config) (scanOnly : Bool)

/-- The update changes neither of them. -/
theorem updateScanned_reported (inspect : Container) (imageRef : String) (status : ContainerStatus)
    (s : Client) :
    (updateScanned o cfg scanOnly inspect imageRef status s).1.imageID = status.imageID ∧
      (updateScanned o cfg scanOnly inspect imageRef status s).1.updateAvailable =
        status.updateAvailable := by
  rw [updateScanned]
  split_ifs
  · exact ⟨rfl, rfl⟩
  · exact ⟨rfl, rfl⟩
  · exact ⟨rfl, rfl⟩
  · split
    · exact ⟨rfl, rfl⟩
    · split
      · exact ⟨rfl, rfl⟩
      · exact ⟨rfl, rfl⟩

/-- What is reported for a digest. -/
theorem scanDigests_reported (inspect : Container) (answers : ImageAnswers)
    (status : ContainerStatus) (s : Client) (hupdate : status.updateAvailable = false) :
    (scanDigests o cfg scanOnly inspect answers status s).1.imageID =
        reportedID status.imageID (localImageDigest answers.image inspect.imageRef) ∧
      (scanDigests o cfg scanOnly inspect answers status s).1.updateAvailable =
        reportedUpdate answers.remote (localImageDigest answers.image inspect.imageRef) := by
  rw [scanDigests]
  generalize localImageDigest answers.image inspect.imageRef = localDigest
  dsimp only
  by_cases hlocal : localDigest = ""
  · rw [if_neg (not_not.mpr hlocal), reportedID, if_pos hlocal]
    cases hremote : answers.remote with
    | error err => exact ⟨rfl, hupdate⟩
    | ok remoteDigest =>
        dsimp only
        rw [if_pos hlocal]
        exact ⟨rfl, by simp [reportedUpdate, hlocal, hupdate]⟩
  · rw [if_pos hlocal, reportedID, if_neg hlocal]
    cases hremote : answers.remote with
    | error err => exact ⟨rfl, hupdate⟩
    | ok remoteDigest =>
        dsimp only
        rw [if_neg hlocal]
        by_cases hempty : remoteDigest = ""
        · rw [if_pos hempty]
          exact ⟨rfl, by simp [reportedUpdate, hempty, hupdate]⟩
        · rw [if_neg hempty]
          split_ifs
          · exact ⟨rfl, rfl⟩
          · exact updateScanned_reported o cfg scanOnly inspect _ _ _
          · exact ⟨rfl, rfl⟩

variable (lower : Lowering)

/-- The reference whose digests a scan compares, if it comes to that. -/
def scanTarget (item : ContainerSummary) (s : Client) : Option String :=
  match (containerInspect o item.id s).1 with
  | .error _ => none
  | .ok inspect =>
      if scanPolicy cfg lower inspect = policySkip ∨ inspect.imageRef = "" ∨
          digestFromRef inspect.imageRef ≠ "" then none
      else some inspect.imageRef

variable (candidates : List String) (now : ℕ) (item : ContainerSummary) (s : Client)

/-- What a scan reports. Without a reference to compare it is the same for all answers. -/
theorem scanContainer_reported (answers : ImageAnswers) :
    match scanTarget o cfg lower item s with
    | none => ∃ imageID, ∀ answers,
        (scanContainer o cfg scanOnly lower candidates now item answers s).1.imageID = imageID ∧
          (scanContainer o cfg scanOnly lower candidates now item answers s).1.updateAvailable =
            false
    | some imageRef =>
        (scanContainer o cfg scanOnly lower candidates now item answers s).1.imageID =
            reportedID item.imageID (localImageDigest answers.image imageRef) ∧
          (scanContainer o cfg scanOnly lower candidates now item answers s).1.updateAvailable =
            reportedUpdate answers.remote (localImageDigest answers.image imageRef) := by
  simp only [scanTarget, scanContainer]
  rcases containerInspect o item.id s with ⟨err | inspect, t⟩
  · exact ⟨item.imageID, fun answers => ⟨rfl, rfl⟩⟩
  · dsimp only
    by_cases hpolicy : scanPolicy cfg lower inspect = policySkip
    · rw [if_pos (Or.inl hpolicy)]
      refine ⟨item.imageID, fun answers => ?_⟩
      rw [if_pos hpolicy]
      exact ⟨rfl, rfl⟩
    by_cases hmissing : inspect.imageRef = ""
    · rw [if_pos (Or.inr (Or.inl hmissing))]
      refine ⟨item.imageID, fun answers => ?_⟩
      rw [if_neg hpolicy, if_pos hmissing]
      exact ⟨rfl, rfl⟩
    by_cases hpinned : digestFromRef inspect.imageRef ≠ ""
    · rw [if_pos (Or.inr (Or.inr hpinned))]
      refine ⟨digestFromRef inspect.imageRef, fun answers => ?_⟩
      rw [if_neg hpolicy, if_neg hmissing, if_pos hpinned]
      exact ⟨rfl, rfl⟩
    · rw [if_neg (not_or.mpr ⟨hpolicy, not_or.mpr ⟨hmissing, hpinned⟩⟩), if_neg hpolicy,
        if_neg hmissing, if_neg hpinned]
      exact scanDigests_reported o cfg scanOnly inspect answers _ t rfl

end

/-! ### Orders and forms -/

section

variable (familiar : String → String)

/-- The image has the digest under the repository of the reference; `familiar` is the form of a
repository's name in which Docker compares it. -/
def HasDigest (imageRef : String) (repoDigests : List String) (digest : String) : Prop :=
  ∃ digestRef ∈ repoDigests,
    familiar (imageRepo digestRef) = familiar (imageRepo imageRef) ∧
      digestFromRef digestRef = digest

variable (o : Docker) (cfg : Config) (scanOnly : Bool) (lower : Lowering)
  (candidates : List String) (now : ℕ) (item : ContainerSummary) (remote : Except String String)
  (s : Client)

/-- The status for an image with these entries. -/
def scanWith (repoDigests : List String) : ContainerStatus :=
  (scanContainer o cfg scanOnly lower candidates now item ⟨some repoDigests, remote⟩ s).1

/-- What a scan is to report: no update if the image has the digest of the registry, and for every
order of the entries the same digest and update. -/
def ScanRight (repoDigests : List String) : Prop :=
  (∀ imageRef remoteDigest, scanTarget o cfg lower item s = some imageRef →
    remote = .ok remoteDigest → HasDigest familiar imageRef repoDigests remoteDigest →
      (scanWith o cfg scanOnly lower candidates now item remote s repoDigests).updateAvailable =
        false) ∧
  ∀ repoDigests', repoDigests'.Perm repoDigests →
    (scanWith o cfg scanOnly lower candidates now item remote s repoDigests').imageID =
        (scanWith o cfg scanOnly lower candidates now item remote s repoDigests).imageID ∧
      (scanWith o cfg scanOnly lower candidates now item remote s repoDigests').updateAvailable =
        (scanWith o cfg scanOnly lower candidates now item remote s repoDigests).updateAvailable

/-- Two digests look the same: they are, or one is missing where the other is the ID that is shown
without a digest, and the registry does not tell them apart. -/
def LookSame (imageID : String) (remote : Except String String) (d d' : String) : Prop :=
  d = d' ∨
    (d = "" ∧ d' = imageID ∨ d' = "" ∧ d = imageID) ∧
      ∀ remoteDigest, remote = .ok remoteDigest → remoteDigest = "" ∨ remoteDigest = imageID

/-- All digests that count look the same, and they are that of the registry if the image has it. -/
structure Settled (imageRef imageID : String) (remote : Except String String)
    (repoDigests : List String) : Prop where
  same : ∀ d ∈ digestChoices imageRef repoDigests, ∀ d' ∈ digestChoices imageRef repoDigests,
    LookSame imageID remote d d'
  current : ∀ remoteDigest, remote = .ok remoteDigest → remoteDigest ≠ "" →
    HasDigest familiar imageRef repoDigests remoteDigest →
      ∀ d ∈ digestChoices imageRef repoDigests, d ≠ "" → d = remoteDigest

end

section

variable {imageID d d' : String} {remote : Except String String}

/-- An update is reported for a digest that is not that of the registry. -/
theorem reportedUpdate_iff : reportedUpdate remote d = true ↔
    ∃ remoteDigest, remote = .ok remoteDigest ∧ remoteDigest ≠ "" ∧ d ≠ "" ∧ remoteDigest ≠ d := by
  cases remote with
  | error err => exact iff_of_false nofun nofun
  | ok remoteDigest => simp [reportedUpdate, and_assoc]

/-- No update is reported for a digest that is missing. -/
theorem reportedUpdate_empty : reportedUpdate remote "" = false := by
  cases remote with
  | error err => rfl
  | ok remoteDigest => simp [reportedUpdate]

/-- A missing digest looks like one that is the ID and current. -/
theorem lookSame_empty_iff (hd : d ≠ "") : LookSame imageID remote "" d ↔
    reportedID imageID "" = reportedID imageID d ∧
      reportedUpdate remote "" = reportedUpdate remote d := by
  have hfalse : false = reportedUpdate remote d ↔ ¬ ∃ remoteDigest, remote = .ok remoteDigest ∧
      remoteDigest ≠ "" ∧ d ≠ "" ∧ remoteDigest ≠ d := by
    rw [← reportedUpdate_iff, Bool.not_eq_true, eq_comm]
  rw [reportedID, if_pos rfl, reportedID, if_neg hd, reportedUpdate_empty, LookSame,
    or_iff_right hd.symm, hfalse]
  constructor
  · rintro ⟨⟨-, rfl⟩ | ⟨hempty, -⟩, hremote⟩
    · refine ⟨rfl, ?_⟩
      rintro ⟨remoteDigest, hok, hne, -, hdiffers⟩
      exact (hremote remoteDigest hok).elim hne hdiffers
    · exact absurd hempty hd
  · rintro ⟨rfl, hcurrent⟩
    refine ⟨Or.inl ⟨rfl, rfl⟩, fun remoteDigest hok => ?_⟩
    by_contra hnot
    obtain ⟨hne, hdiffers⟩ := not_or.mp hnot
    exact hcurrent ⟨remoteDigest, hok, hne, hd, hdiffers⟩

/-- Looking the same goes both ways. -/
theorem LookSame.symm (h : LookSame imageID remote d d') : LookSame imageID remote d' d :=
  h.imp Eq.symm fun ⟨hd, hremote⟩ => ⟨hd.symm, hremote⟩

/-- Digests look the same if the status is the same. -/
theorem lookSame_iff : LookSame imageID remote d d' ↔
    reportedID imageID d = reportedID imageID d' ∧
      reportedUpdate remote d = reportedUpdate remote d' := by
  by_cases hd : d = ""
  · by_cases hd' : d' = ""
    · rw [hd, hd']
      exact iff_of_true (Or.inl rfl) ⟨rfl, rfl⟩
    · exact hd ▸ lookSame_empty_iff hd'
  · by_cases hd' : d' = ""
    · rw [hd', eq_comm, eq_comm (a := reportedUpdate remote d), ← lookSame_empty_iff hd]
      exact ⟨LookSame.symm, LookSame.symm⟩
    · rw [reportedID, if_neg hd, reportedID, if_neg hd', LookSame]
      constructor
      · rintro (rfl | ⟨⟨hempty, -⟩ | ⟨hempty, -⟩, -⟩)
        · exact ⟨rfl, rfl⟩
        · exact absurd hempty hd
        · exact absurd hempty hd'
      · exact fun h => Or.inl h.1

/-- What is reported is right exactly if the digests are settled. -/
theorem settled_iff (familiar : String → String) (imageRef imageID : String)
    (remote : Except String String) (l : List String) :
    ((∀ remoteDigest, remote = .ok remoteDigest → HasDigest familiar imageRef l remoteDigest →
        reportedUpdate remote (localImageDigest (some l) imageRef) = false) ∧
      ∀ l', l'.Perm l →
        reportedID imageID (localImageDigest (some l') imageRef) =
            reportedID imageID (localImageDigest (some l) imageRef) ∧
          reportedUpdate remote (localImageDigest (some l') imageRef) =
            reportedUpdate remote (localImageDigest (some l) imageRef)) ↔
      Settled familiar imageRef imageID remote l := by
  by_cases hnil : l = []
  · subst hnil
    refine iff_of_true ⟨fun _ _ h => ?_, fun l' hperm => ?_⟩ ⟨nofun, fun _ _ _ _ => nofun⟩
    · obtain ⟨digestRef, hmem, -⟩ := h
      cases hmem
    · obtain rfl := List.perm_nil.mp hperm
      exact ⟨rfl, rfl⟩
  rw [forall_perm_localDigest hnil fun d =>
    reportedID imageID d = reportedID imageID (localImageDigest (some l) imageRef) ∧
      reportedUpdate remote d = reportedUpdate remote (localImageDigest (some l) imageRef)]
  simp only [← lookSame_iff]
  have hmem : localImageDigest (some l) imageRef ∈ digestChoices imageRef l :=
    (forall_perm_localDigest hnil (· ∈ digestChoices imageRef l)).mpr (fun _ hd => hd) l (.refl l)
  constructor
  · rintro ⟨hcurrent, hsame⟩
    refine ⟨fun d hd d' hd' => ?_, fun remoteDigest hok hne hhas d hd hd0 => ?_⟩
    · have h := lookSame_iff.mp (hsame d hd)
      have h' := lookSame_iff.mp (hsame d' hd')
      exact lookSame_iff.mpr ⟨h.1.trans h'.1.symm, h.2.trans h'.2.symm⟩
    · by_contra hdiffers
      have hfalse : reportedUpdate remote d = false :=
        (lookSame_iff.mp (hsame d hd)).2.trans (hcurrent remoteDigest hok hhas)
      have htrue := reportedUpdate_iff.mpr ⟨remoteDigest, hok, hne, hd0, Ne.symm hdiffers⟩
      exact Bool.noConfusion (hfalse.symm.trans htrue)
  · intro hsettled
    refine ⟨fun remoteDigest hok hhas => Bool.eq_false_iff.mpr fun htrue => ?_, fun d hd =>
      hsettled.same d hd _ hmem⟩
    obtain ⟨remoteDigest', hok', hne, hd0, hdiffers⟩ := reportedUpdate_iff.mp htrue
    obtain rfl := Except.ok.inj (hok.symm.trans hok')
    exact hdiffers (hsettled.current remoteDigest hok hne hhas _ hmem hd0).symm

end

section

variable {familiar : String → String} {o : Docker} {cfg : Config} {scanOnly : Bool}
  {lower : Lowering} {candidates : List String} {now : ℕ} {item : ContainerSummary}
  {remote : Except String String} {s : Client}

/-- **Digests of an image.** A scan reports the same digest and update for every order of the
entries, and no update if the image has the digest of the registry, exactly if it does not come to
compare digests or they are settled. -/
theorem scanRight_iff (repoDigests : List String) :
    ScanRight familiar o cfg scanOnly lower candidates now item remote s repoDigests ↔
      ∀ imageRef, scanTarget o cfg lower item s = some imageRef →
        Settled familiar imageRef item.imageID remote repoDigests := by
  cases htarget : scanTarget o cfg lower item s with
  | none =>
      have hreported := scanContainer_reported o cfg scanOnly lower candidates now item s
        ⟨some repoDigests, remote⟩
      rw [htarget] at hreported
      obtain ⟨imageID, hsame⟩ := hreported
      refine iff_of_true ⟨fun _ _ _ _ _ => (hsame _).2, fun repoDigests' _ => ?_⟩ nofun
      exact ⟨(hsame _).1.trans (hsame _).1.symm, (hsame _).2.trans (hsame _).2.symm⟩
  | some imageRef =>
      have hreported : ∀ l,
          (scanWith o cfg scanOnly lower candidates now item remote s l).imageID =
              reportedID item.imageID (localImageDigest (some l) imageRef) ∧
            (scanWith o cfg scanOnly lower candidates now item remote s l).updateAvailable =
              reportedUpdate remote (localImageDigest (some l) imageRef) := by
        intro l
        have h := scanContainer_reported o cfg scanOnly lower candidates now item s ⟨some l, remote⟩
        rwa [htarget] at h
      simp only [ScanRight, hreported, htarget, Option.some.injEq, forall_eq']
      refine (and_congr_left' ⟨fun h r => h imageRef r rfl, ?_⟩).trans
        (settled_iff familiar imageRef item.imageID remote repoDigests)
      rintro h _ remoteDigest rfl
      exact h remoteDigest

end

/-! ### An image with two digests -/

/-- The entry of a running container of `nginx:latest`. -/
def webSummary : ContainerSummary where
  id := webID
  names := ["/web"]
  image := "nginx:latest"
  imageID := "sha256:old"

/-- The tag was moved without a change of the layers, so that the image has the old digest and the
new one. The registry has the new one, and an update is reported. -/
theorem first_digest_decides :
    ¬ ∀ (familiar : String → String) (o : Docker) (cfg : Config) (scanOnly : Bool)
        (lower : Lowering) (candidates : List String) (now : ℕ) (item : ContainerSummary)
        (remote : Except String String) (s : Client) (repoDigests : List String),
      ScanRight familiar o cfg scanOnly lower candidates now item remote s repoDigests := by
  intro h
  have hright := h id (webDocker 100) webConfig true .ascii [] 0 webSummary (.ok "sha256:b")
    (webClient []) ["nginx@sha256:a", "nginx@sha256:b"]
  have hupdate := hright.1 "nginx:latest" "sha256:b" (by decide) rfl
    ⟨"nginx@sha256:b", by decide, by decide, by decide⟩
  exact absurd hupdate (by decide)

end Contiwatch
