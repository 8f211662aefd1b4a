import Contiwatch.UpdateRecords

/-!
# Three Ways to Record an Update

The result of an update is folded into the stored scan record in three places: by
`handleUpdateContainer` after a manual update, by `updateScanResultContainer` after an automatic
one, and by the helper process of a self-update in `cmd/contiwatch/main.go`. The first two keep
the ID of the container that is gone, and the third marks the container as updated whatever the
result says.

## Main results

* `record_update_agree_iff` — the three leave the record that the result calls for exactly if
  the container is not in the record, or was updated and kept its ID.
-/

namespace Contiwatch

open GoStrings

/-- `patchLocalScanStateAfterSelfUpdate`: the scans that the file of the scan results holds
afterwards. -/
def patchLocalScanStateAfterSelfUpdate (configPath oldContainerID : String)
    (update : UpdateResult) (now : ℕ) (lastScans : List ScanResult) : List ScanResult :=
  if trimSpaceStr configPath = "" ∨ trimSpaceStr oldContainerID = "" then lastScans
  else lastScans.map fun scan =>
    { scan with
      containers := scan.containers.map fun c =>
        if c.id ≠ oldContainerID then c
        else
          { c with
            id := if trimSpaceStr update.id ≠ "" then update.id else c.id
            updated := true
            updateAvailable := false
            lastChecked := now
            error := "" } }

/-- What `handleUpdateContainer` makes of the record of its server. -/
def recordManualUpdate (result : ScanResult) (containerID : String) (update : UpdateResult)
    (now : ℕ) : List ScanResult :=
  Server.patchScans (fun scan => updateScanResultContainer scan containerID update.updated now)
    result.serverName (!result.isLocal) [result]

/-- The same status of a container but for the time it was checked. -/
def ContainerStatus.Same (c d : ContainerStatus) : Prop :=
  { c with lastChecked := 0 } = { d with lastChecked := 0 }

/-- The status that an update leaves: it is marked as updated exactly if it was, there is no
update left then, and the ID is the one of the container that exists now. -/
def ContainerStatus.fold (update : UpdateResult) (c : ContainerStatus) : ContainerStatus :=
  { c with
    id := if update.updated then update.id else c.id
    updated := update.updated
    updateAvailable := if update.updated then false else c.updateAvailable
    error := "" }

/-- The record `out` is `result` with the status of the container folded in. -/
def FoldsUpdate (containerID : String) (update : UpdateResult) (result out : ScanResult) : Prop :=
  List.Forall₂ (fun c e => if c.id = containerID then (c.fold update).Same e else e = c)
    result.containers out.containers

section

variable {containerID : String} {update : UpdateResult} {result : ScanResult} {now : ℕ}

/-- A manual update is folded into its own result. -/
theorem recordManualUpdate_eq : recordManualUpdate result containerID update now =
    [updateScanResultContainer result containerID update.updated now] := by
  rw [recordManualUpdate, Server.patchScans, if_neg (by simp)]

/-- A change of the containers with one ID folds the update in exactly if it does so for each
of them. -/
theorem foldsUpdate_map {f : ContainerStatus → ContainerStatus} {out : ScanResult}
    (hout : out.containers =
      result.containers.map fun c => if c.id = containerID then f c else c) :
    FoldsUpdate containerID update result out ↔
      ∀ c ∈ result.containers, c.id = containerID → (c.fold update).Same (f c) := by
  rw [FoldsUpdate, hout, List.forall₂_map_right_iff, List.forall₂_same]
  refine forall₂_congr fun c _ => ?_
  by_cases hc : c.id = containerID
  · simp [hc]
  · simp [hc]

/-- Manual and automatic updates keep the ID. -/
theorem same_updateScanContainerStatus {c : ContainerStatus} :
    (c.fold update).Same (updateScanContainerStatus update.updated now c) ↔
      (update.updated = true → update.id = c.id) := by
  simp only [ContainerStatus.Same, ContainerStatus.fold, updateScanContainerStatus,
    ContainerStatus.mk.injEq, and_true]
  cases update.updated with
  | true => simp
  | false => simp

/-- A self-update marks the container as updated. -/
theorem same_patched {c : ContainerStatus} :
    (c.fold update).Same
      { c with
        id := if trimSpaceStr update.id ≠ "" then update.id else c.id
        updated := true
        updateAvailable := false
        lastChecked := now
        error := "" } ↔
      update.updated = true ∧ (trimSpaceStr update.id = "" → update.id = c.id) := by
  simp only [ContainerStatus.Same, ContainerStatus.fold, ContainerStatus.mk.injEq, and_true,
    true_and]
  cases update.updated with
  | true =>
      by_cases hblank : trimSpaceStr update.id = ""
      · simp [hblank]
      · simp [hblank]
  | false => simp

/-- The fold of a manual update is right unless the update bears another id. -/
theorem foldsUpdate_updateScanResultContainer
    (hids : (result.containers.map (·.id)).Nodup) :
    FoldsUpdate containerID update result
        (updateScanResultContainer result containerID update.updated now) ↔
      ∀ c ∈ result.containers, c.id = containerID → update.updated = true →
        update.id = containerID := by
  rw [foldsUpdate_map (f := updateScanContainerStatus update.updated now)
    (changeContainer_eq_map hids)]
  refine forall₂_congr fun c _ => forall_congr' fun hc => ?_
  rw [same_updateScanContainerStatus, hc]

/-- So is that of the own container's update, with a path and an id. -/
theorem foldsUpdate_patched {configPath : String} (hpath : trimSpaceStr configPath ≠ "")
    (hid : trimSpaceStr containerID ≠ "") :
    List.Forall₂ (FoldsUpdate containerID update) [result]
        (patchLocalScanStateAfterSelfUpdate configPath containerID update now [result]) ↔
      ∀ c ∈ result.containers, c.id = containerID → update.updated = true ∧
        (trimSpaceStr update.id = "" → update.id = containerID) := by
  rw [patchLocalScanStateAfterSelfUpdate, if_neg (by simp [hpath, hid]), List.map_singleton,
    List.forall₂_cons, and_iff_left .nil, foldsUpdate_map (f := fun c => { c with
      id := if trimSpaceStr update.id ≠ "" then update.id else c.id
      updated := true
      updateAvailable := false
      lastChecked := now
      error := "" })]
  · refine forall₂_congr fun c _ => forall_congr' fun hc => ?_
    rw [same_patched, hc]
  · exact List.map_congr_left fun c _ => by simp only [ne_eq, ite_not]

/-- **When the three ways to record an update agree.** For a record in which no two containers
have the same ID, and the path and the ID that are given to the helper process: the record after
a manual update, after an automatic update and after a self-update is the one that the result
calls for, up to times, if and only if the container is not in the record, or it was updated
and its ID is still the same. -/
theorem record_update_agree_iff {configPath : String}
    (hids : (result.containers.map (·.id)).Nodup) (hpath : trimSpaceStr configPath ≠ "")
    (hid : trimSpaceStr containerID ≠ "") :
    (∀ now, List.Forall₂ (FoldsUpdate containerID update) [result]
          (recordManualUpdate result containerID update now) ∧
        FoldsUpdate containerID update result
          (updateScanResultContainer result containerID update.updated now) ∧
        List.Forall₂ (FoldsUpdate containerID update) [result]
          (patchLocalScanStateAfterSelfUpdate configPath containerID update now [result])) ↔
      (∀ c ∈ result.containers, c.id ≠ containerID) ∨
        (update.updated = true ∧ update.id = containerID) := by
  constructor
  · intro h
    obtain ⟨-, hauto, hpatched⟩ := h 0
    rw [foldsUpdate_updateScanResultContainer hids] at hauto
    rw [foldsUpdate_patched hpath hid] at hpatched
    by_cases hin : ∃ c ∈ result.containers, c.id = containerID
    · obtain ⟨c, hc, heq⟩ := hin
      have hupdated := (hpatched c hc heq).1
      exact Or.inr ⟨hupdated, hauto c hc heq hupdated⟩
    · exact Or.inl fun c hc heq => hin ⟨c, hc, heq⟩
  · intro h now
    have hauto : FoldsUpdate containerID update result
        (updateScanResultContainer result containerID update.updated now) := by
      rw [foldsUpdate_updateScanResultContainer hids]
      intro c hc heq _
      exact h.elim (fun hnot => absurd heq (hnot c hc)) And.right
    refine ⟨?_, hauto, ?_⟩
    · rw [recordManualUpdate_eq]
      exact .cons hauto .nil
    · rw [foldsUpdate_patched hpath hid]
      intro c hc heq
      obtain hnot | ⟨hupdated, hsame⟩ := h
      · exact absurd heq (hnot c hc)
      · exact ⟨hupdated, fun _ => hsame⟩

end

/-! ### An update that changes the ID -/

/-- The result of an update: the container has got the ID `id`. -/
def updatedTo (id : String) : UpdateResult :=
  ⟨id, "agent", "agent", "", "", "", true, .online, .online, .restored⟩

/-- The ways to record an update may disagree: after a manual or automatic update the record
has the ID of the container that is gone. -/
theorem record_update_can_disagree :
    ¬ ∀ (containerID configPath : String) (update : UpdateResult) (result : ScanResult) (now : ℕ),
      (result.containers.map (·.id)).Nodup → trimSpaceStr configPath ≠ "" →
      trimSpaceStr containerID ≠ "" →
      List.Forall₂ (FoldsUpdate containerID update) [result]
          (recordManualUpdate result containerID update now) ∧
        FoldsUpdate containerID update result
          (updateScanResultContainer result containerID update.updated now) ∧
        List.Forall₂ (FoldsUpdate containerID update) [result]
          (patchLocalScanStateAfterSelfUpdate configPath containerID update now [result]) := by
  intro h
  have hids : (dueRecord.containers.map (·.id)).Nodup := by decide
  obtain ⟨-, hauto, -⟩ := h "1" "/data/config.json" (updatedTo "3") dueRecord 0 hids
    (by decide) (by decide)
  rw [foldsUpdate_updateScanResultContainer hids] at hauto
  exact absurd (hauto _ (List.mem_cons_self ..) rfl rfl) (by decide)

/-- An update that keeps the ID is recorded in the same way by all three. -/
theorem record_update_agree_same_id :
    List.Forall₂ (FoldsUpdate "1" (updatedTo "1")) [dueRecord]
        (recordManualUpdate dueRecord "1" (updatedTo "1") 7) ∧
      FoldsUpdate "1" (updatedTo "1") dueRecord (updateScanResultContainer dueRecord "1" true 7) ∧
      List.Forall₂ (FoldsUpdate "1" (updatedTo "1")) [dueRecord]
        (patchLocalScanStateAfterSelfUpdate "/data/config.json" "1" (updatedTo "1") 7
          [dueRecord]) := by
  have hids : (dueRecord.containers.map (·.id)).Nodup := by decide
  have hpath : trimSpaceStr "/data/config.json" ≠ "" := by decide
  have hid : trimSpaceStr "1" ≠ "" := by decide
  exact (record_update_agree_iff hids hpath hid).mpr (Or.inr ⟨rfl, rfl⟩) 7

end Contiwatch
