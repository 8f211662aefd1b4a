import Contiwatch.ScanResults
import Mathlib.Data.List.Perm.Basic

/-!
# Counts of a Status Card

A card of the status page of `web/static/app.js` shows how many containers of a server are outdated,
updated, skipped, failed and up to date: `renderStatus` counts the first four marks and subtracts
them from the number of containers. The details below it, `buildDetailsContent`, sort the same
records into four groups.

## Main results

* `length_add_extraMarks` — what the subtraction counts.
* `counts_agree_iff` — the card shows the number of containers without a mark exactly if no
  container has two marks or every container has one; the groups are right for all records.
-/

namespace Contiwatch

open GoStrings

/-! ### The card -/

/-- `String(container.error || "").startsWith("skipped:")`. -/
def ContainerStatus.skipped (c : ContainerStatus) : Bool := hasPrefix c.error "skipped:"

/-- The record has an error that is not one of a skipped container. -/
def ContainerStatus.failed (c : ContainerStatus) : Bool := c.error ≠ "" && !c.skipped

/-- The numbers on a card. -/
structure SummaryMetrics where
  totalScanned : ℕ
  updates : ℕ
  updated : ℕ
  skipped : ℕ
  failed : ℕ
  upToDate : ℕ
  deriving DecidableEq, Repr

/-- `renderStatus`: the numbers of a server; `hasCheckedAt` says whether it has been scanned. -/
def renderStatus (hasCheckedAt : Bool) (containers : List ContainerStatus) : SummaryMetrics :=
  let count (p : ContainerStatus → Bool) := if hasCheckedAt then (containers.filter p).length else 0
  let totalScanned := if hasCheckedAt then containers.length else 0
  let updates := count ContainerStatus.updateAvailable
  let updated := count ContainerStatus.updated
  let skipped := count ContainerStatus.skipped
  let failed := count ContainerStatus.failed
  let upToDate :=
    if 0 < totalScanned then
      (max 0 ((totalScanned : ℤ) - updates - updated - skipped - failed)).toNat
    else 0
  ⟨totalScanned, updates, updated, skipped, failed, upToDate⟩

/-- The groups of the details. -/
inductive DetailsGroup
  | updates | updated | skipped | scanned
  deriving DecidableEq, Repr

/-- What a group is for. -/
def DetailsGroup.holds : DetailsGroup → ContainerStatus → Bool
  | .skipped, c => c.skipped
  | .updated, c => c.updated
  | .updates, c => c.updateAvailable && !c.updated && !c.skipped
  | .scanned, c => !c.updateAvailable && !c.updated && !c.skipped

/-- `buildDetailsContent`: the records of a group, in the order of their names. -/
def buildDetailsContent (localeCompare : String → String → Ordering)
    (containers : List ContainerStatus) (g : DetailsGroup) : List ContainerStatus :=
  (containers.filter g.holds).mergeSort fun a b => (localeCompare a.name b.name).isLE

/-! ### Marks -/

/-- How many of the four marks a record has. -/
def ContainerStatus.marks (c : ContainerStatus) : ℕ :=
  c.updateAvailable.toNat + c.updated.toNat + c.skipped.toNat + c.failed.toNat

/-- The record has no available update, was not updated, was not skipped and carries no error. -/
def ContainerStatus.latest (c : ContainerStatus) : Bool :=
  !c.updateAvailable && !c.updated && !c.skipped && c.error = ""

/-- The number of the records without a mark is on the card, and every record is in exactly one of
the groups. -/
structure CountsAgree (localeCompare : String → String → Ordering)
    (containers : List ContainerStatus) : Prop where
  latest : (renderStatus true containers).upToDate =
    (containers.filter ContainerStatus.latest).length
  groups : ∀ c ∈ containers, ∃! g, c ∈ buildDetailsContent localeCompare containers g
  whole : (buildDetailsContent localeCompare containers .updates ++
    buildDetailsContent localeCompare containers .updated ++
    buildDetailsContent localeCompare containers .skipped ++
    buildDetailsContent localeCompare containers .scanned).Perm containers

/-- A container is up to date where it has no mark. -/
theorem latest_eq_decide (c : ContainerStatus) : c.latest = decide (c.marks = 0) := by
  have hfailed : c.failed = (!decide (c.error = "") && !c.skipped) := by
    rw [ContainerStatus.failed, decide_not]
  rw [ContainerStatus.latest, ContainerStatus.marks, hfailed]
  cases c.updateAvailable <;> cases c.updated <;> cases c.skipped <;>
    cases decide (c.error = "") <;> rfl

variable (containers : List ContainerStatus)

/-- **What the subtraction counts.** The records, with the marks that records have beyond their
first, are the marks and the records without one. -/
theorem length_add_extraMarks :
    containers.length + (containers.map fun c => c.marks - 1).sum =
      (containers.map ContainerStatus.marks).sum +
        (containers.filter ContainerStatus.latest).length := by
  induction containers with
  | nil => rfl
  | cons c cs ih =>
      rw [List.map_cons, List.map_cons, List.sum_cons, List.sum_cons, List.length_cons,
        List.filter_cons, latest_eq_decide]
      by_cases hc : c.marks = 0
      · rw [if_pos (decide_eq_true hc), List.length_cons]
        omega
      · rw [if_neg (by simpa using hc)]
        omega

/-- Counting is adding up. -/
theorem length_filter_eq_sum (p : ContainerStatus → Bool) :
    (containers.filter p).length = (containers.map fun c => (p c).toNat).sum := by
  induction containers with
  | nil => rfl
  | cons c cs ih =>
      rw [List.filter_cons, List.map_cons, List.sum_cons, ← ih]
      cases p c
      · exact (Nat.zero_add _).symm
      · exact Nat.add_comm _ 1

/-- The four numbers of the card are the marks. -/
theorem sum_marks :
    (containers.map ContainerStatus.marks).sum =
      (containers.filter ContainerStatus.updateAvailable).length +
        (containers.filter ContainerStatus.updated).length +
        (containers.filter ContainerStatus.skipped).length +
        (containers.filter ContainerStatus.failed).length := by
  simp only [length_filter_eq_sum, ← List.sum_map_add]
  rfl

/-- The number on the card. -/
theorem renderStatus_upToDate :
    (renderStatus true containers).upToDate =
      containers.length - (containers.map ContainerStatus.marks).sum := by
  simp only [renderStatus, if_true, sum_marks]
  split_ifs with hpos <;> omega

/-- The number on the card is right exactly if no record has two marks or every record has one. -/
theorem upToDate_eq_iff :
    (renderStatus true containers).upToDate = (containers.filter ContainerStatus.latest).length ↔
      (∀ c ∈ containers, c.marks ≤ 1) ∨ ∀ c ∈ containers, c.latest = false := by
  have hcounts := length_add_extraMarks containers
  have hextra : (containers.map fun c => c.marks - 1).sum = 0 ↔ ∀ c ∈ containers, c.marks ≤ 1 := by
    rw [List.sum_eq_zero_iff_forall_eq_nat, List.forall_mem_map]
    exact forall₂_congr fun _ _ => Nat.sub_eq_zero_iff_le
  have hlatest : (containers.filter ContainerStatus.latest).length = 0 ↔
      ∀ c ∈ containers, c.latest = false := by
    rw [List.length_eq_zero_iff, List.filter_eq_nil_iff]
    exact forall₂_congr fun _ _ => Bool.not_eq_true _ ▸ Iff.rfl
  rw [renderStatus_upToDate, ← hextra, ← hlatest]
  omega

/-! ### Groups -/

variable {containers} {localeCompare : String → String → Ordering}

/-- A group of the details lists the containers it holds. -/
theorem mem_buildDetailsContent {g : DetailsGroup} {c : ContainerStatus} :
    c ∈ buildDetailsContent localeCompare containers g ↔ c ∈ containers ∧ g.holds c = true := by
  rw [buildDetailsContent, List.mem_mergeSort, List.mem_filter]

/-- A record that is not both updated and skipped belongs to one group. -/
theorem existsUnique_holds {c : ContainerStatus} (h : ¬ (c.updated = true ∧ c.skipped = true)) :
    ∃! g : DetailsGroup, g.holds c = true := by
  rcases hupdated : c.updated with _ | _
  · rcases hskipped : c.skipped with _ | _
    · rcases havailable : c.updateAvailable with _ | _
      · refine ⟨.scanned, by simp [DetailsGroup.holds, *], fun g hg => ?_⟩
        cases g <;> simp_all [DetailsGroup.holds]
      · refine ⟨.updates, by simp [DetailsGroup.holds, *], fun g hg => ?_⟩
        cases g <;> simp_all [DetailsGroup.holds]
    · refine ⟨.skipped, hskipped, fun g hg => ?_⟩
      cases g <;> simp_all [DetailsGroup.holds]
  · refine ⟨.updated, hupdated, fun g hg => ?_⟩
    cases g <;> simp_all [DetailsGroup.holds]

/-- The groups hold all records, each as often as the list. -/
theorem perm_buildDetailsContent (h : ∀ c ∈ containers, ¬ (c.updated = true ∧ c.skipped = true)) :
    (buildDetailsContent localeCompare containers .updates ++
      buildDetailsContent localeCompare containers .updated ++
      buildDetailsContent localeCompare containers .skipped ++
      buildDetailsContent localeCompare containers .scanned).Perm containers := by
  rw [List.perm_iff_count]
  intro c
  simp only [List.count_append, buildDetailsContent, (List.mergeSort_perm _ _).count_eq]
  by_cases hc : c ∈ containers
  · obtain ⟨g, hg, hunique⟩ := existsUnique_holds (h c hc)
    have hcount (g' : DetailsGroup) : (containers.filter g'.holds).count c =
        if g' = g then containers.count c else 0 := by
      split_ifs with heq
      · rw [List.count_filter (heq ▸ hg)]
      · exact List.count_eq_zero.mpr fun hmem => heq (hunique g' (List.mem_filter.mp hmem).2)
    simp only [hcount]
    cases g <;> simp
  · have hcount (g' : DetailsGroup) : (containers.filter g'.holds).count c = 0 :=
      List.count_eq_zero.mpr fun hmem => hc (List.mem_filter.mp hmem).1
    rw [hcount, hcount, hcount, hcount, List.count_eq_zero.mpr hc]

/-- **The counts agree** exactly if no record has two marks, or every record has one. -/
theorem counts_agree_iff (h : ∀ c ∈ containers, ¬ (c.updated = true ∧ c.skipped = true)) :
    CountsAgree localeCompare containers ↔
      (∀ c ∈ containers, c.marks ≤ 1) ∨ ∀ c ∈ containers, c.latest = false := by
  rw [← upToDate_eq_iff]
  refine ⟨CountsAgree.latest, fun hlatest => ⟨hlatest, fun c hc => ?_, perm_buildDetailsContent h⟩⟩
  obtain ⟨g, hg, hunique⟩ := existsUnique_holds (h c hc)
  exact ⟨g, mem_buildDetailsContent.mpr ⟨hc, hg⟩,
    fun g' hg' => hunique g' (mem_buildDetailsContent.mp hg').2⟩

/-! ### Cards that are right and wrong -/

/-- A record with these marks. -/
def markedStatus (name : String) (updateAvailable updated : Bool) (error : String) :
    ContainerStatus :=
  ⟨name, name, "img", "sha256:a", "sha256:b", true, false, false, "update", updateAvailable,
    updated, 5, error⟩

/-- Four sample containers, one for each mark and one without. -/
theorem counts_agree_marked : CountsAgree compare
    [markedStatus "web" true false "", markedStatus "db" false true "",
      markedStatus "job" false false "skipped: policy", markedStatus "app" false false ""] :=
  (counts_agree_iff (by decide)).mpr (Or.inl (by decide))

/-- The failed update of one container hides that another is up to date. -/
theorem failed_update_counts_twice :
    ¬ ∀ (localeCompare : String → String → Ordering) (containers : List ContainerStatus),
      (∀ c ∈ containers, ¬ (c.updated = true ∧ c.skipped = true)) →
      CountsAgree localeCompare containers := by
  intro h
  have hagree := h compare [markedStatus "web" true false "update failed: no space left",
    markedStatus "app" false false ""] (by decide)
  exact absurd hagree.latest (by decide)

end Contiwatch
