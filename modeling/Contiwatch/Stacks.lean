import Contiwatch.Lib.GoStrings
import Contiwatch.Lib.GoMap

/-!
# Stacks and Their Containers

A stack is stored under a name; Docker Compose gets the name that `composeProjectName` makes of it,
and writes it as a label on every container. `buildStackSummaries` of `internal/server/stacks.go`
finds the containers of a stack again by this label, but looks for the name as it is stored.

## Main results

* `lookup_groupByStack` — the containers that are counted for a name.
* `summaries_iff` — the summaries of the stored stacks count the containers deployed for them
  exactly if the labels of these give back the stored name, and no other container has a label
  that gives a stored name.
* `summary_can_miss` — a stack whose name has a capital letter.
-/

namespace Contiwatch

open GoStrings

/-! ### Names -/

/-- A character that `stackNamePattern` takes. -/
def isStackNameChar (c : Char) : Bool := c.isAlpha || c.isDigit || c = '_' || c = '-'

/-- `validateStackSegment`. -/
def validateStackSegment (value label : String) : Except String Unit :=
  if value = "" then .error (label ++ " name is required")
  else if ¬ value.toList.all isStackNameChar then
    .error (label ++ " name must match [A-Za-z0-9_-]+")
  else .ok ()

/-- `composeProjectName`, for a name that has passed `validateStackSegment` and is in ASCII. -/
def composeProjectName (name : String) : String :=
  let value := toLower Char.toLower (trimSpaceStr name)
  match value.toList with
  | [] => "stack"
  | first :: _ =>
      let isAlphaNum := ('a' ≤ first && first ≤ 'z') || ('0' ≤ first && first ≤ '9')
      if ¬ isAlphaNum then "s" ++ value else value

/-- The valid segments. -/
theorem validateStackSegment_eq_ok {value label : String} :
    validateStackSegment value label = .ok () ↔
      value ≠ "" ∧ ∀ c ∈ value.toList, isStackNameChar c = true := by
  rw [validateStackSegment, ← List.all_eq_true]
  split
  · simp [*]
  split <;> simp_all

/-- Facts about the characters of names are checked on all of ASCII. -/
theorem stackNameChar_forall {p : Char → Prop} [DecidablePred p]
    (h : ∀ n < 128, isStackNameChar (Char.ofNat n) = true → p (Char.ofNat n)) {c : Char}
    (hc : isStackNameChar c = true) : p c := by
  have hlt : c.toNat < 128 := by
    simp only [isStackNameChar, Bool.or_eq_true, decide_eq_true_eq] at hc
    rcases hc with ((hc | hc) | rfl) | rfl
    · exact toNat_lt_of_isAlpha hc
    · exact toNat_lt_of_isDigit hc
    · decide
    · decide
  exact ascii_forall (p := fun c => isStackNameChar c = true → p c) h hlt hc

/-- A valid segment has no white space around it. -/
theorem trimSpaceStr_of_valid {value label : String}
    (h : validateStackSegment value label = .ok ()) :
    trimSpaceStr value = value := by
  have hspace : ∀ c ∈ value.toList, isSpace c = false := fun c hc =>
    stackNameChar_forall (p := fun c => isSpace c = false) (by decide)
      ((validateStackSegment_eq_ok.mp h).2 c hc)
  rw [trimSpaceStr, trimSpace_of_not_space hspace, String.ofList_toList]

/-- A project name is itself an accepted name. -/
theorem validateStackSegment_composeProjectName {name label : String}
    (h : validateStackSegment name label = .ok ()) :
    validateStackSegment (composeProjectName name) label = .ok () := by
  obtain ⟨hne, hchars⟩ := validateStackSegment_eq_ok.mp h
  have hlower : ∀ c ∈ (toLower Char.toLower name).toList, isStackNameChar c = true := by
    intro c hc
    rw [toLower, String.toList_ofList, List.mem_map] at hc
    obtain ⟨d, hd, rfl⟩ := hc
    exact stackNameChar_forall (p := fun d => isStackNameChar d.toLower = true)
      (by decide) (hchars d hd)
  simp only [validateStackSegment_eq_ok, composeProjectName, trimSpaceStr_of_valid h]
  rcases hvalue : (toLower Char.toLower name).toList with _ | ⟨first, rest⟩
  · have hstack : "stack" ≠ "" := by decide
    have hall : "stack".toList.all isStackNameChar = true := by decide
    exact ⟨hstack, List.all_eq_true.mp hall⟩
  · have hrest : ∀ c ∈ first :: rest, isStackNameChar c = true := hvalue ▸ hlower
    have hnonempty : toLower Char.toLower name ≠ "" := fun hempty => by simp [hempty] at hvalue
    simp only []
    split
    · refine ⟨fun hempty => ?_, ?_⟩
      · exact absurd (congrArg String.toList hempty) (by simp)
      · rw [String.toList_append, hvalue]
        exact List.forall_mem_cons.mpr ⟨by decide, hrest⟩
    · rw [hvalue]
      exact ⟨hnonempty, hrest⟩

/-! ### Containers -/

/-- A label without the blanks around it; a missing label is empty. -/
def trimmedLabel (labels : GoMap String String) (key : String) : String :=
  trimSpaceStr ((labels.lookup key).getD "")

/-- `stackFromLabels`; `none` is the `nil` map. -/
def stackFromLabels : Option (GoMap String String) → String
  | none => "-"
  | some labels =>
      let fromNamespace := trimmedLabel labels "com.docker.stack.namespace"
      let fromProject := trimmedLabel labels "com.docker.compose.project"
      let fromPortainer := trimmedLabel labels "io.portainer.stack.name"
      if fromNamespace ≠ "" then fromNamespace
      else if fromProject ≠ "" then fromProject
      else if fromPortainer ≠ "" then fromPortainer
      else "-"

/-- The fields of `dockerwatcher.ContainerInfo` that a summary depends on. -/
structure ContainerInfo where
  state : String
  stack : String
  deriving DecidableEq

/-- The values of the field `Status`: `not_deployed`, `running`, `stopped`, `degraded` and
`partial`. -/
inductive StackStatus
  | notDeployed
  | running
  | stopped
  | degraded
  | partly
  deriving DecidableEq

/-- A row of `listStacksOnDisk`: the name of a stored stack and the time of its last change. -/
structure StoredStack where
  name : String
  updatedAt : String
  deriving DecidableEq

/-- `stackSummary`. -/
structure StackSummary where
  name : String
  status : StackStatus
  containersTotal : ℕ
  containersRunning : ℕ
  containersStopped : ℕ
  updatedAt : String
  deriving DecidableEq

section

-- `unicode.ToLower`, of which the names need only the ASCII letters but the states may need more.
variable (lower : Char → Char)

/-- The state of a container as the summaries compare it. -/
def stateText (item : ContainerInfo) : String :=
  String.ofList ((trimSpaceStr item.state).toList.map lower)

/-- `countContainerStates`: the running and the stopped containers. -/
def countContainerStates : List ContainerInfo → ℕ × ℕ
  | [] => (0, 0)
  | item :: rest =>
      let (running, stopped) := countContainerStates rest
      if stateText lower item ∈ ["running", "paused", "restarting"] then (running + 1, stopped)
      else (running, stopped + 1)

/-- `deriveStackStatus`. -/
def deriveStackStatus (list : List ContainerInfo) (running stopped : ℕ) : StackStatus :=
  if running + stopped = 0 then .notDeployed
  else if running = running + stopped then .running
  else if running = 0 then .stopped
  else if list.any fun item => stateText lower item ∈ ["exited", "dead", "oomkilled"] then .degraded
  else .partly

/-- The first loop of `buildStackSummaries`. -/
def groupByStack (containers : List ContainerInfo) : GoMap String (List ContainerInfo) :=
  containers.foldl (fun grouped item =>
    let stack := trimSpaceStr item.stack
    if stack = "" ∨ stack = "-" then grouped
    else grouped.insert stack ((grouped.lookup stack).getD [] ++ [item])) ∅

/-- The summary that `buildStackSummaries` makes of a stored stack and a list of containers. -/
def summarize (item : StoredStack) (list : List ContainerInfo) : StackSummary :=
  let (running, stopped) := countContainerStates lower list
  { name := item.name
    status := deriveStackStatus lower list running stopped
    containersTotal := running + stopped
    containersRunning := running
    containersStopped := stopped
    updatedAt := item.updatedAt }

/-- The second loop of `buildStackSummaries`. -/
def stackSummaries (stored : List StoredStack) (containers : List ContainerInfo) :
    List StackSummary :=
  stored.map fun item => summarize lower item (((groupByStack containers).lookup item.name).getD [])

/-- The results of `buildStackSummaries`. `sort.Slice` may leave summaries whose names differ in
case only in any order. -/
def BuildStackSummaries (stored : List StoredStack) (containers : List ContainerInfo)
    (result : List StackSummary) : Prop :=
  result.Perm (stackSummaries lower stored containers) ∧
    result.Pairwise fun a b => ¬ toLower lower b.name < toLower lower a.name

end

/-- **Groups.** The containers that are counted for a name are those whose stack text is the name,
in their order; the names that mean no stack have none. -/
theorem lookup_groupByStack (containers : List ContainerInfo) (name : String) :
    ((groupByStack containers).lookup name).getD [] =
      containers.filter fun item =>
        decide (trimSpaceStr item.stack = name ∧ name ≠ "" ∧ name ≠ "-") := by
  rw [groupByStack]
  induction containers using List.reverseRecOn with
  | nil => rfl
  | append_singleton containers item ih =>
      rw [List.foldl_append, List.foldl_cons, List.foldl_nil, List.filter_append]
      simp only []
      split
      · rename_i hskip
        have hitem : ¬ (trimSpaceStr item.stack = name ∧ name ≠ "" ∧ name ≠ "-") := by
          rintro ⟨rfl, hempty, hdash⟩
          exact hskip.elim hempty hdash
        rw [ih, List.filter_singleton, decide_eq_false hitem]
        exact (List.append_nil _).symm
      · rename_i hcount
        rw [not_or] at hcount
        by_cases hname : trimSpaceStr item.stack = name
        · subst hname
          rw [Finmap.lookup_insert, Option.getD_some, ih, List.filter_singleton,
            decide_eq_true ⟨rfl, hcount⟩]
          rfl
        · rw [Finmap.lookup_insert_of_ne _ (Ne.symm hname), ih, List.filter_singleton,
            decide_eq_false fun h => hname h.1]
          exact (List.append_nil _).symm

/-! ### Containers deployed for a stack -/

/-- A container on the server of the stored stacks, with the stack for which `runComposeAction`
deployed it, if it did. -/
structure StackContainer where
  labels : Option (GoMap String String)
  state : String
  deployedFor : Option String

/-- What `containerInfo` says about a container. -/
def StackContainer.info (c : StackContainer) : ContainerInfo :=
  { state := c.state, stack := stackFromLabels c.labels }

/-- A container that was deployed for a stack has the label of its project. -/
def StackContainer.HasProject (c : StackContainer) : Prop :=
  ∀ name, c.deployedFor = some name → ∃ labels, c.labels = some labels ∧
    labels.lookup "com.docker.compose.project" = some (composeProjectName name)

/-- The label of a container that goes before the label of the project. -/
def StackContainer.fromNamespace (c : StackContainer) : String :=
  c.labels.elim "" fun labels => trimmedLabel labels "com.docker.stack.namespace"

/-- The containers deployed for a stack. -/
def deployedInfos (containers : List StackContainer) (name : String) : List ContainerInfo :=
  (containers.filter fun c => c.deployedFor = some name).map StackContainer.info

/-- The summaries count what they should: the containers counted for a stored stack are those that
were deployed for it, and the summary of the stack is made of these. -/
def CountsDeployed (lower : Char → Char) (stored : List StoredStack)
    (containers : List StackContainer) : Prop :=
  ∀ item ∈ stored,
    ((groupByStack (containers.map StackContainer.info)).lookup item.name).getD [] =
        deployedInfos containers item.name ∧
      ∀ result, BuildStackSummaries lower stored (containers.map StackContainer.info) result →
        summarize lower item (deployedInfos containers item.name) ∈ result ∧
          ∀ summary ∈ result, summary.name = item.name →
            summary = summarize lower item (deployedInfos containers item.name)

/-- The labels of a container give back the name of a stored stack exactly if it was deployed for
the stack: if it was, the label that goes first is the name, or it is missing and the name is
its own project name; if it was not, its labels give another text. -/
def LabelsMatch (stored : List StoredStack) (containers : List StackContainer) : Prop :=
  ∀ item ∈ stored, ∀ c ∈ containers,
    (c.deployedFor = some item.name →
      c.fromNamespace = item.name ∧ item.name ≠ "-" ∨
        c.fromNamespace = "" ∧ composeProjectName item.name = item.name) ∧
    (c.deployedFor ≠ some item.name → stackFromLabels c.labels ≠ item.name ∨ item.name = "-")

instance (stored : List StoredStack) (containers : List StackContainer) :
    Decidable (LabelsMatch stored containers) :=
  inferInstanceAs (Decidable (∀ item ∈ stored, ∀ c ∈ containers, _ ∧ _))

/-- A container is counted for a name. -/
def StackContainer.Counted (c : StackContainer) (name : String) : Prop :=
  trimSpaceStr c.info.stack = name ∧ name ≠ "" ∧ name ≠ "-"

instance (c : StackContainer) (name : String) : Decidable (c.Counted name) :=
  inferInstanceAs (Decidable (_ ∧ _))

/-- The stack of a container is trimmed already. -/
theorem trimSpaceStr_stackFromLabels (labels : Option (GoMap String String)) :
    trimSpaceStr (stackFromLabels labels) = stackFromLabels labels := by
  cases labels with
  | none => decide
  | some labels =>
      simp only [stackFromLabels]
      split
      · exact trimSpaceStr_trimSpaceStr _
      split
      · exact trimSpaceStr_trimSpaceStr _
      split
      · exact trimSpaceStr_trimSpaceStr _
      · decide

section

variable {name : String} (hname : validateStackSegment name "stack" = .ok ())
include hname

/-- When a container is counted for the stack it was deployed for. -/
theorem counted_iff_of_deployed {c : StackContainer} (hproject : c.HasProject)
    (hc : c.deployedFor = some name) :
    c.Counted name ↔ c.fromNamespace = name ∧ name ≠ "-" ∨
      c.fromNamespace = "" ∧ composeProjectName name = name := by
  obtain ⟨labels, hlabels, hproject⟩ := hproject name hc
  have hne : name ≠ "" := (validateStackSegment_eq_ok.mp hname).1
  have hvalid := validateStackSegment_composeProjectName hname
  have hlabel : trimmedLabel labels "com.docker.compose.project" = composeProjectName name := by
    rw [trimmedLabel, hproject, Option.getD_some, trimSpaceStr_of_valid hvalid]
  have hnamespace : c.fromNamespace = trimmedLabel labels "com.docker.stack.namespace" := by
    rw [StackContainer.fromNamespace, hlabels, Option.elim_some]
  rw [StackContainer.Counted, StackContainer.info, trimSpaceStr_stackFromLabels, hlabels,
    stackFromLabels, hlabel, ← hnamespace, if_pos (validateStackSegment_eq_ok.mp hvalid).1]
  by_cases hempty : c.fromNamespace = ""
  · rw [if_neg (not_not.mpr hempty), hempty]
    refine ⟨fun h => .inr ⟨rfl, h.1⟩, ?_⟩
    rintro (⟨rfl, -⟩ | ⟨-, heq⟩)
    · exact absurd rfl hne
    · refine ⟨heq, hne, ?_⟩
      rintro rfl
      exact absurd heq (by decide)
  · rw [if_pos hempty]
    refine ⟨fun h => .inl ⟨h.1, h.2.2⟩, ?_⟩
    rintro (⟨heq, hdash⟩ | ⟨heq, -⟩)
    · exact ⟨heq, hne, hdash⟩
    · exact absurd heq hempty

/-- A container counts for its stack, unless the stack is `-`. -/
theorem counted_iff {c : StackContainer} :
    c.Counted name ↔ ¬ (stackFromLabels c.labels ≠ name ∨ name = "-") := by
  have hne : name ≠ "" := (validateStackSegment_eq_ok.mp hname).1
  rw [StackContainer.Counted, StackContainer.info, trimSpaceStr_stackFromLabels, not_or, not_not]
  exact and_congr_right fun _ => and_iff_right hne

end

/-- The containers counted for a name, as the containers that they are. -/
theorem lookup_groupByStack_info (containers : List StackContainer) (name : String) :
    ((groupByStack (containers.map StackContainer.info)).lookup name).getD [] =
      (containers.filter fun c => c.Counted name).map StackContainer.info := by
  simp only [lookup_groupByStack, List.filter_map, Function.comp_def, StackContainer.Counted]
  -- the two decisions of one proposition
  exact congrArg _ (List.filter_congr fun c _ => decide_eq_decide.mpr Iff.rfl)

/-- The containers counted for a name are those deployed for it exactly if the two agree on every
container. -/
theorem counted_eq_deployed_iff {containers : List StackContainer} {name : String} :
    (containers.filter fun c => c.Counted name).map StackContainer.info =
        deployedInfos containers name ↔
      ∀ c ∈ containers, c.Counted name ↔ c.deployedFor = some name := by
  rw [deployedInfos]
  constructor
  · intro heq
    have hcounted : ∀ c ∈ containers, c.deployedFor = some name → c.Counted name := by
      intro c hc hdeployed
      have hmem : c.info ∈ (containers.filter fun c => c.deployedFor = some name).map
          StackContainer.info :=
        List.mem_map_of_mem (List.mem_filter.mpr ⟨hc, decide_eq_true hdeployed⟩)
      rw [← heq, List.mem_map] at hmem
      obtain ⟨c', hc', hinfo⟩ := hmem
      -- being counted depends on the information alone
      have hcounted' : c'.Counted name := of_decide_eq_true (List.mem_filter.mp hc').2
      rwa [StackContainer.Counted, hinfo] at hcounted'
    have hsub : (containers.filter fun c => c.deployedFor = some name).Sublist
        (containers.filter fun c => c.Counted name) := by
      have hboth : (containers.filter fun c => c.deployedFor = some name) =
          (containers.filter fun c => c.Counted name).filter fun c =>
            c.deployedFor = some name := by
        rw [List.filter_filter]
        refine List.filter_congr fun c hc => ?_
        rw [← Bool.decide_and, decide_eq_decide]
        exact ⟨fun h => ⟨h, hcounted c hc h⟩, And.left⟩
      rw [hboth]
      exact List.filter_sublist
    have hlength := congrArg List.length heq
    rw [List.length_map, List.length_map] at hlength
    have hsame := hsub.eq_of_length hlength.symm
    intro c hc
    refine ⟨fun hcount => ?_, hcounted c hc⟩
    have hmem : c ∈ containers.filter fun c => c.Counted name :=
      List.mem_filter.mpr ⟨hc, decide_eq_true hcount⟩
    rw [← hsame] at hmem
    exact of_decide_eq_true (List.mem_filter.mp hmem).2
  · intro h
    rw [List.filter_congr fun c hc => decide_eq_decide.mpr (h c hc)]

/-- **Summaries.** For stored stacks with accepted names that are all different, and containers
that have the label of the project they were deployed for, the summaries count the containers
deployed for each stack exactly if the labels match. -/
theorem summaries_iff (lower : Char → Char) {stored : List StoredStack}
    {containers : List StackContainer}
    (hvalid : ∀ item ∈ stored, validateStackSegment item.name "stack" = .ok ())
    (hnodup : (stored.map StoredStack.name).Nodup)
    (hproject : ∀ c ∈ containers, c.HasProject) :
    CountsDeployed lower stored containers ↔ LabelsMatch stored containers := by
  have hlist : (∀ item ∈ stored, ((groupByStack (containers.map StackContainer.info)).lookup
      item.name).getD [] = deployedInfos containers item.name) ↔ LabelsMatch stored containers := by
    refine forall₂_congr fun item hitem => ?_
    rw [lookup_groupByStack_info, counted_eq_deployed_iff]
    refine forall₂_congr fun c hc => ?_
    by_cases hdeployed : c.deployedFor = some item.name
    · have hcounted := counted_iff_of_deployed (hvalid item hitem) (hproject c hc) hdeployed
      simp only [hdeployed, iff_true, true_imp_iff, ne_eq, not_true_eq_false, false_imp_iff,
        and_true, hcounted]
    · simp only [hdeployed, iff_false, counted_iff (hvalid item hitem), not_not, false_imp_iff,
        true_and, ne_eq, not_false_eq_true, true_imp_iff]
  rw [← hlist]
  refine ⟨fun h item hitem => (h item hitem).1, fun h item hitem => ⟨h item hitem, ?_⟩⟩
  rintro result ⟨hperm, -⟩
  refine ⟨?_, fun summary hsummary hname => ?_⟩
  · rw [hperm.mem_iff, ← h item hitem]
    exact List.mem_map_of_mem hitem
  · rw [hperm.mem_iff, stackSummaries, List.mem_map] at hsummary
    obtain ⟨item', hitem', rfl⟩ := hsummary
    obtain rfl : item' = item := List.inj_on_of_nodup_map hnodup hitem' hitem hname
    rw [h item' hitem']

/-- A running container of the project. -/
def projectContainer (project name : String) : StackContainer :=
  { labels := some (Finmap.singleton "com.docker.compose.project" project)
    state := "running"
    deployedFor := some name }

/-- The sample container has a project. -/
theorem projectContainer_hasProject (name : String) :
    (projectContainer (composeProjectName name) name).HasProject := by
  rintro name' hname
  obtain rfl := Option.some.inj hname
  exact ⟨_, rfl, Finmap.lookup_singleton_eq⟩

/-- A running container that no stack was deployed for. -/
def plainContainer : StackContainer :=
  { labels := none
    state := "running"
    deployedFor := none }

/-- Two stacks with lower-case names are found, each with its own containers. -/
theorem summaries_of_lower_case :
    CountsDeployed Char.toLower
      [⟨"web", "2026-01-01T00:00:00Z"⟩, ⟨"db", "2026-01-02T00:00:00Z"⟩]
      [projectContainer "web" "web", projectContainer "db" "db", projectContainer "web" "web",
        plainContainer] := by
  refine (summaries_iff _ (by decide) (by decide) ?_).mpr ?_
  · have hweb : composeProjectName "web" = "web" := by decide
    have hdb : composeProjectName "db" = "db" := by decide
    simp only [List.forall_mem_cons, List.not_mem_nil, false_imp_iff, implies_true, and_true]
    exact ⟨hweb ▸ projectContainer_hasProject "web", hdb ▸ projectContainer_hasProject "db",
      hweb ▸ projectContainer_hasProject "web",
      fun name hname => absurd hname (by simp [plainContainer])⟩
  · decide

/-- **A summary can miss its containers.** The running container of the stack `Web` has the project
`web`, and the summary says that the stack is not deployed. -/
theorem summary_can_miss :
    validateStackSegment "Web" "stack" = .ok () ∧
      (projectContainer "web" "Web").HasProject ∧
      BuildStackSummaries Char.toLower [⟨"Web", "2026-01-01T00:00:00Z"⟩]
        [(projectContainer "web" "Web").info]
        [{ name := "Web", status := .notDeployed, containersTotal := 0, containersRunning := 0,
           containersStopped := 0, updatedAt := "2026-01-01T00:00:00Z" }] ∧
      ¬ CountsDeployed Char.toLower [⟨"Web", "2026-01-01T00:00:00Z"⟩]
        [projectContainer "web" "Web"] := by
  have hproject : composeProjectName "Web" = "web" := by decide
  have hname : validateStackSegment "Web" "stack" = .ok () := by decide
  have hlabels : (projectContainer "web" "Web").HasProject :=
    hproject ▸ projectContainer_hasProject "Web"
  refine ⟨hname, hlabels, ?_, ?_⟩
  · refine ⟨List.Perm.of_eq ?_, List.pairwise_singleton _ _⟩
    decide
  · intro hcounts
    have hgroup := (hcounts _ (List.mem_singleton_self _)).1
    exact absurd hgroup (by decide)

end Contiwatch
