import Contiwatch.Lib.GoMap
import Contiwatch.StoredConfig

/-!
# The Configuration Store

`Store` of `internal/config/config.go`: the configuration in memory, and the file that it is
written to. The file is replaced through a temporary file beside it, by a sequence of calls to
the operating system each of which may fail; `WriteFaults` says which do. Reading the file at
the start of the process is modelled the same way.

## Main results

* `update_allOrNothing_iff` — when an update takes effect as a whole or not at all, in memory
  and on disk: exactly when no call fails, or the update changes nothing in memory and the file
  is not replaced by anything new.
-/

namespace Contiwatch

open GoJson

/-! ### Replacing the file -/

/-- What a file holds: a JSON document, or bytes that are none. -/
inductive Contents
  | json (doc : Json)
  | raw (bytes : List UInt8)

/-- The directory of the configuration: the file at the store's path, and the temporary files
beside it. -/
structure Disk where
  file : Option Contents
  temps : GoMap String Contents

/-- The calls of `writeConfigAtomically` that may fail, in their order. -/
inductive WriteStep
  | createTemp | chmod | write | sync | close | rename | openDir | syncDir
  deriving DecidableEq, Repr

/-- What the operating system does during `writeConfigAtomically`: which calls fail, the name of
the temporary file, what it holds after a write that failed, and whether it can be removed. -/
structure WriteFaults where
  fails : WriteStep → Bool
  temp : String
  torn : Contents
  removes : Bool

/-- `os.Remove` of the temporary file, whose error is ignored. -/
def Disk.removeTemp (faults : WriteFaults) (disk : Disk) : Disk :=
  if faults.removes then { disk with temps := disk.temps.erase faults.temp } else disk

/-- The temporary file holds `contents`. -/
def Disk.writeTemp (faults : WriteFaults) (contents : Contents) (disk : Disk) : Disk :=
  { disk with temps := disk.temps.insert faults.temp contents }

/-- `os.Rename` of the temporary file to the store's path. -/
def Disk.rename (faults : WriteFaults) (disk : Disk) : Disk where
  file := disk.temps.lookup faults.temp
  temps := disk.temps.erase faults.temp

/-- The end of `writeConfigAtomically`: the directory is opened and synchronized. -/
def Disk.syncDir (faults : WriteFaults) (disk : Disk) : Option WriteStep × Disk :=
  if faults.fails .openDir then (some .openDir, disk)
  else if faults.fails .syncDir then (some .syncDir, disk)
  else (none, disk)

/-- `writeConfigAtomically`: the call that failed, if one did, and the directory afterwards. -/
def writeConfigAtomically (faults : WriteFaults) (data : Contents) (disk : Disk) :
    Option WriteStep × Disk :=
  if faults.fails .createTemp then (some .createTemp, disk)
  else
    let created := disk.writeTemp faults (.raw [])
    if faults.fails .chmod then (some .chmod, created.removeTemp faults)
    else if faults.fails .write then
      (some .write, (created.writeTemp faults faults.torn).removeTemp faults)
    else
      let written := created.writeTemp faults data
      if faults.fails .sync then (some .sync, written.removeTemp faults)
      else if faults.fails .close then (some .close, written.removeTemp faults)
      else if faults.fails .rename then (some .rename, written.removeTemp faults)
      else (written.rename faults).syncDir faults

/-- A call fails before the file is replaced. -/
def WriteFaults.Early (faults : WriteFaults) : Prop :=
  ∃ step, faults.fails step = true ∧ step ≠ .openDir ∧ step ≠ .syncDir

/-- Removing the temporary file leaves the file. -/
@[simp] theorem file_removeTemp (faults : WriteFaults) (disk : Disk) :
    (disk.removeTemp faults).file = disk.file := by
  rw [Disk.removeTemp]
  split
  · rfl
  · rfl

@[simp] theorem file_writeTemp (faults : WriteFaults) (contents : Contents) (disk : Disk) :
    (disk.writeTemp faults contents).file = disk.file := rfl

/-- The rename puts what was written in the file's place. -/
@[simp] theorem file_rename_writeTemp (faults : WriteFaults) (contents : Contents)
    (disk : Disk) : ((disk.writeTemp faults contents).rename faults).file = some contents := by
  simp [Disk.rename, Disk.writeTemp]

/-- Syncing the directory changes no file. -/
theorem syncDir_disk (faults : WriteFaults) (disk : Disk) : (disk.syncDir faults).2 = disk := by
  rw [Disk.syncDir]
  split
  · rfl
  · split
    · rfl
    · rfl

/-- It succeeds where neither of its steps fails. -/
theorem syncDir_eq_none {faults : WriteFaults} {disk : Disk} :
    (disk.syncDir faults).1 = none ↔
      faults.fails .openDir = false ∧ faults.fails .syncDir = false := by
  rw [Disk.syncDir]
  split
  · simp [*]
  · split
    · simp [*]
    · simp [*]

/-- **What replacing the file does.** If a call fails before the file is replaced, the file is as
before; otherwise it holds the data, whether or not the directory is synchronized afterwards. -/
theorem writeConfigAtomically_cases (faults : WriteFaults) (data : Contents) (disk : Disk) :
    (faults.Early ∧ (writeConfigAtomically faults data disk).1 ≠ none ∧
      (writeConfigAtomically faults data disk).2.file = disk.file) ∨
    (¬ faults.Early ∧
      ((writeConfigAtomically faults data disk).1 = none ↔ ∀ step, faults.fails step = false) ∧
      (writeConfigAtomically faults data disk).2.file = some data) := by
  rw [writeConfigAtomically]
  by_cases hcreate : faults.fails .createTemp = true
  · exact .inl ⟨⟨_, hcreate, by decide, by decide⟩, by simp [hcreate]⟩
  by_cases hchmod : faults.fails .chmod = true
  · exact .inl ⟨⟨_, hchmod, by decide, by decide⟩, by simp [hcreate, hchmod]⟩
  by_cases hwrite : faults.fails .write = true
  · exact .inl ⟨⟨_, hwrite, by decide, by decide⟩, by simp [hcreate, hchmod, hwrite]⟩
  by_cases hsync : faults.fails .sync = true
  · exact .inl ⟨⟨_, hsync, by decide, by decide⟩, by simp [hcreate, hchmod, hwrite, hsync]⟩
  by_cases hclose : faults.fails .close = true
  · exact .inl ⟨⟨_, hclose, by decide, by decide⟩,
      by simp [hcreate, hchmod, hwrite, hsync, hclose]⟩
  by_cases hrename : faults.fails .rename = true
  · exact .inl ⟨⟨_, hrename, by decide, by decide⟩,
      by simp [hcreate, hchmod, hwrite, hsync, hclose, hrename]⟩
  -- the file has been replaced; what is left may fail, but not undo it
  refine .inr ⟨?_, ?_, ?_⟩
  · rintro ⟨step, hfails, hopen, hsyncDir⟩
    cases step <;> contradiction
  · simp only [hcreate, hchmod, hwrite, hsync, hclose, hrename, Bool.false_eq_true, if_false]
    rw [syncDir_eq_none]
    constructor
    · rintro ⟨hopen, hsyncDir⟩ step
      cases step <;> simp_all
    · exact fun hnever => ⟨hnever _, hnever _⟩
  · simp only [hcreate, hchmod, hwrite, hsync, hclose, hrename, Bool.false_eq_true, if_false]
    rw [syncDir_disk, file_rename_writeTemp]

/-! ### Updates -/

/-- `Store`, with the directory of its file. -/
structure Store where
  path : String
  config : StoredConfig
  disk : Disk

section

variable (fold : Char → Char)

/-- What the configuration is written as. -/
def fileOf (cfg : StoredConfig) : Contents := .json ((configCodec fold).encode cfg)

/-- `Store.saveLocked`. -/
def Store.saveLocked (faults : WriteFaults) (s : Store) : Option WriteStep × Store :=
  let (err, disk) := writeConfigAtomically faults (fileOf fold s.config) s.disk
  (err, { s with disk := disk })

/-- `Store.Get`. -/
def Store.get (s : Store) : StoredConfig := s.config

/-- `Store.Update`: the configuration and the error it returns, and the store afterwards. -/
def Store.update (faults : WriteFaults) (update : StoredConfig → StoredConfig) (s : Store) :
    (StoredConfig × Option WriteStep) × Store :=
  let s := { s with config := normalizeUpdated (update s.config) }
  let (err, saved) := s.saveLocked fold faults
  ((s.config, err), saved)

/-- An update takes effect as a whole or not at all: after an error the configuration in memory
and the file are the previous ones, without an error both are the new ones. -/
def AllOrNothing (update : StoredConfig → StoredConfig) (before : Store)
    (err : Option WriteStep) (after : Store) : Prop :=
  (err ≠ none → after.get = before.get ∧ after.disk.file = before.disk.file) ∧
    (err = none → after.get = normalizeUpdated (update before.get) ∧
      after.disk.file = some (fileOf fold (normalizeUpdated (update before.get))))

/-- **When updates are all or nothing.** No call fails; or the configuration in memory stays what
it was, and the file does so too, because a call fails before it is replaced or because it held
this configuration already. -/
theorem update_allOrNothing_iff (faults : WriteFaults) (update : StoredConfig → StoredConfig)
    (s : Store) :
    AllOrNothing fold update s (s.update fold faults update).1.2 (s.update fold faults update).2 ↔
      (∀ step, faults.fails step = false) ∨
      (normalizeUpdated (update s.config) = s.config ∧
        (faults.Early ∨ s.disk.file = some (fileOf fold s.config))) := by
  simp only [AllOrNothing, Store.update, Store.saveLocked, Store.get]
  obtain ⟨hearly, herr, hfile⟩ | ⟨hlate, herr, hfile⟩ := writeConfigAtomically_cases faults
    (fileOf fold (normalizeUpdated (update s.config))) s.disk
  · have hfails : ¬ ∀ step, faults.fails step = false := by
      obtain ⟨step, hstep, -⟩ := hearly
      exact fun h => Bool.false_ne_true ((h step).symm.trans hstep)
    simp [herr, hfile, hfails, hearly]
  · simp only [hfile, herr, hlate, false_or, ne_eq]
    by_cases hnever : ∀ step, faults.fails step = false
    · simp [hnever]
    · simp only [hnever, not_false_eq_true, forall_const, false_implies, and_true, false_or]
      constructor
      · rintro ⟨hmem, hdisk⟩
        rw [hmem] at hdisk
        exact ⟨hmem, hdisk.symm⟩
      · rintro ⟨hmem, hdisk⟩
        rw [hmem]
        exact ⟨rfl, hdisk.symm⟩

/-- A store whose file holds its configuration. -/
def savedStore (cfg : StoredConfig) : Store where
  path := "/data/config.json"
  config := cfg
  disk := { file := some (fileOf fold cfg), temps := ∅ }

/-- No call fails. -/
def noFaults : WriteFaults where
  fails _ := false
  temp := ".contiwatch-config-1.tmp"
  torn := .raw []
  removes := true

/-- Only the first call fails: the temporary file cannot be created. -/
def noTempFile : WriteFaults where
  fails step := step = .createTemp
  temp := ".contiwatch-config-1.tmp"
  torn := .raw []
  removes := true

/-- **A failed update can stay in force.** The policy is set, the disk is full: the caller gets an
error, and the new policy is what the store has in memory. -/
theorem update_can_stay_after_error :
    ((savedStore id defaultConfig).update id noTempFile
        fun cfg => { cfg with globalPolicy := policyUpdate }).1.2 = some .createTemp ∧
      ((savedStore id defaultConfig).update id noTempFile
        fun cfg => { cfg with globalPolicy := policyUpdate }).2.get.globalPolicy = policyUpdate ∧
      ¬ AllOrNothing id (fun cfg => { cfg with globalPolicy := policyUpdate })
        (savedStore id defaultConfig)
        ((savedStore id defaultConfig).update id noTempFile
          fun cfg => { cfg with globalPolicy := policyUpdate }).1.2
        ((savedStore id defaultConfig).update id noTempFile
          fun cfg => { cfg with globalPolicy := policyUpdate }).2 := by
  refine ⟨rfl, rfl, fun h => ?_⟩
  have hmem := congrArg StoredConfig.globalPolicy (h.1 (Option.some_ne_none _)).1
  exact absurd hmem (by decide)

/-! ### The start of the process -/

/-- The calls of `NewStore` that may fail, apart from those that write the file. -/
inductive OpenStep
  | stat | mkdirAll | chmod | readFile
  deriving DecidableEq, Repr

/-- The errors of `NewStore`. -/
inductive OpenError
  | pathRequired
  | call (step : OpenStep)
  | save (step : WriteStep)
  | unmarshal
  deriving DecidableEq, Repr

/-- `Store.load`: what the file gives. -/
def load (fails : OpenStep → Bool) (disk : Disk) : Except OpenError StoredConfig :=
  match disk.file with
  | none => .error (.call .chmod)
  | some contents =>
      if fails .chmod then .error (.call .chmod)
      else if fails .readFile then .error (.call .readFile)
      else
        match contents with
        | .raw _ => .error .unmarshal
        | .json doc =>
            match (configCodec fold).decode doc zeroConfig with
            | none => .error .unmarshal
            | some cfg => .ok (normalizeLoaded cfg)

/-- `NewStore` with `loadOrCreate`: the file is loaded if there is one, and written with the
defaults if there is none. -/
def newStore (fails : OpenStep → Bool) (faults : WriteFaults) (path : String) (disk : Disk) :
    Except OpenError Store :=
  if path = "" then .error .pathRequired
  else if disk.file.isSome && !fails .stat then
    (load fold fails disk).map fun cfg => { path := path, config := cfg, disk := disk }
  else if fails .mkdirAll then .error (.call .mkdirAll)
  else
    match Store.saveLocked fold faults { path := path, config := defaultConfig, disk := disk } with
    | (none, s) => .ok s
    | (some step, _) => .error (.save step)

/-- A file that holds a configuration is loaded. -/
theorem load_of_file {fails : OpenStep → Bool} {disk : Disk} {cfg : StoredConfig}
    (hfails : ∀ step, fails step = false) (hfile : disk.file = some (fileOf fold cfg)) :
    load fold fails disk = .ok (normalizeLoaded cfg) := by
  have hread : (configCodec fold).decode ((configCodec fold).encode cfg) zeroConfig = some cfg :=
    (configCodec fold).decode_encode cfg
  simp only [load, hfile, fileOf, hfails, Bool.false_eq_true, if_false, hread]

/-- What is loaded needs no repair. -/
theorem normal_of_load {fails : OpenStep → Bool} {disk : Disk} {cfg : StoredConfig}
    (h : load fold fails disk = .ok cfg) : Normal cfg := by
  rw [load] at h
  split at h
  · cases h
  split at h
  · cases h
  split at h
  · cases h
  split at h
  · cases h
  split at h
  · cases h
  · obtain rfl := Except.ok.inj h
    exact normal_normalizeLoaded _

end

end Contiwatch
