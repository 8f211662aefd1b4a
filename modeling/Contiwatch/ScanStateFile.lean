import Contiwatch.Lib.Files
import Contiwatch.Lib.JsonText
import Contiwatch.Lib.Runs
import Contiwatch.Lib.Slots
import Contiwatch.Lib.Unicode
import Contiwatch.ScanServer

/-!
# The Scan State File

`saveScanState` and `loadScanState` of `internal/server/server.go`: the results of the local
servers are kept in a file across restarts. A save copies the results, writes them to a temporary
file and renames it; every change of the results starts one, in the background or not, and nothing
orders the saves. All of them write the same temporary file.

## Main results

* `unmarshalScanState_marshal` — what a save writes is read back.
* `run_saved_of_serial` — if no save makes its copy while another one is between its copy and its
  end, the file can be read in every state, and holds the results when all saves have ended.
* `saves_can_interfere` — the file of a run that ends in the middle of two saves cannot be read,
  and after two saves that overtake each other it holds the older results.
-/

namespace Contiwatch

open GoJson JsonText

/-! ### What the file holds -/

/-- The text of a time, `time.Time.MarshalJSON` and `UnmarshalJSON`. -/
structure TimeText where
  format : ℕ → String
  parse : String → Option ℕ
  parse_format : ∀ t, parse (format t) = some t

/-- The JSON form of a `time.Time`. -/
def timeCodec (time : TimeText) : Codec ℕ where
  zero := 0
  encode t := .str (time.format t)
  decode
    | .null, old => some old
    | .str s, _ => time.parse s
    | _, _ => none
  decode_encode t := time.parse_format t

section

variable (fold : Char → Char) (time : TimeText)

/-- The JSON form of `ContainerStatus`. -/
def containerStatusCodec : Codec ContainerStatus :=
  structCodec fold ⟨"", "", "", "", "", false, false, false, "", false, false, 0, ""⟩
    [field "id" stringCodec (·.id) fun v t => { t with id := v },
      field "name" stringCodec (·.name) fun v t => { t with name := v },
      field "image" stringCodec (·.image) fun v t => { t with image := v },
      field "image_id" stringCodec (·.imageID) fun v t => { t with imageID := v },
      omitempty "new_image_id" stringCodec (·.newImageID) (fun v t => { t with newImageID := v })
        fun _ => rfl,
      field "running" boolCodec (·.running) fun v t => { t with running := v },
      field "paused" boolCodec (·.paused) fun v t => { t with paused := v },
      omitempty "self" boolCodec (·.self) (fun v t => { t with self := v }) fun _ => rfl,
      field "policy" stringCodec (·.policy) fun v t => { t with policy := v },
      field "update_available" boolCodec (·.updateAvailable)
        fun v t => { t with updateAvailable := v },
      field "updated" boolCodec (·.updated) fun v t => { t with updated := v },
      field "last_checked" (timeCodec time) (·.lastChecked) fun v t => { t with lastChecked := v },
      omitempty "error" stringCodec (·.error) (fun v t => { t with error := v }) fun _ => rfl]
    (by simp) (by simp [timeCodec])

/-- The JSON form of `ScanResult`. -/
def scanResultCodec : Codec ScanResult :=
  structCodec fold .zero
    [field "server_name" stringCodec (·.serverName) fun v t => { t with serverName := v },
      field "server_url" stringCodec (·.serverURL) fun v t => { t with serverURL := v },
      field "local" boolCodec (·.isLocal) fun v t => { t with isLocal := v },
      field "checked_at" (timeCodec time) (·.checkedAt) fun v t => { t with checkedAt := v },
      field "containers" (sliceCodec (containerStatusCodec fold time)) (·.containers)
        fun v t => { t with containers := v },
      omitempty "error" stringCodec (·.error) (fun v t => { t with error := v }) fun _ => rfl,
      omitempty "scan_state" stringCodec (·.scanState) (fun v t => { t with scanState := v })
        fun _ => rfl,
      omitempty "scan_started_at" (ptrCodec (timeCodec time) nofun) (·.scanStartedAt)
        (fun v t => { t with scanStartedAt := v }) fun _ => rfl,
      omitempty "scan_finished_at" (ptrCodec (timeCodec time) nofun) (·.scanFinishedAt)
        (fun v t => { t with scanFinishedAt := v }) fun _ => rfl]
    (by simp) (by simp [ScanResult.zero, timeCodec])

/-- The JSON form of `scanStateFile`. -/
def scanStateCodec : Codec (List ScanResult) :=
  structCodec fold []
    [field "last_scans" (sliceCodec (scanResultCodec fold time)) id fun v _ => v]
    (by simp) (by simp)

/-- `json.MarshalIndent` of a `scanStateFile`. -/
def marshalScanState (scans : List ScanResult) : ByteArray :=
  (String.ofList (render indented 0 ((scanStateCodec fold time).encode scans))).toUTF8

/-- `json.Unmarshal` into a `scanStateFile`. -/
def unmarshalScanState (data : ByteArray) : Option (List ScanResult) := do
  let text ← String.fromUTF8? data
  let doc ← JsonText.parse text
  (scanStateCodec fold time).decode doc []

/-- A time is written as a string. -/
@[simp] theorem numberFree_time : WritesNumberFree (timeCodec time) := fun _ => trivial

/-- A container's status is written without numbers. -/
@[simp] theorem numberFree_containerStatus :
    WritesNumberFree (containerStatusCodec fold time) :=
  numberFree_struct (by simp)

/-- So is a result. -/
@[simp] theorem numberFree_scanResult : WritesNumberFree (scanResultCodec fold time) :=
  numberFree_struct (by simp)

/-- **Saved results are read back.** -/
theorem unmarshalScanState_marshal (scans : List ScanResult) :
    unmarshalScanState fold time (marshalScanState fold time scans) = some scans := by
  have hfree : WritesNumberFree (scanStateCodec fold time) := numberFree_struct (by simp)
  rw [unmarshalScanState, marshalScanState, Unicode.fromUTF8_toUTF8]
  simp only [Option.bind_eq_bind, Option.bind_some, parse_render (hfree scans)]
  exact (scanStateCodec fold time).decode_encode scans

end

/-! ### The saves -/

/-- How far a call of `saveScanState` has come, with the results that it has copied. -/
inductive SavePhase
  | started
  /-- There are no results of local servers: `os.Remove` is next. -/
  | removing
  /-- `os.WriteFile` is about to open the temporary file, which truncates it. -/
  | creating (localScans : List ScanResult)
  | writing (localScans : List ScanResult) (fd : ℕ)
  /-- `os.Rename` is next. -/
  | written (localScans : List ScanResult)
  | done

/-- The save is between its copy and its end. -/
def SavePhase.Active : SavePhase → Prop
  | .started | .done => False
  | _ => True

/-- The results, the files beside the configuration, and the saves. -/
structure ScanFiles where
  lastScans : List ScanResult
  files : Files String
  saves : List SavePhase

inductive SaveEvent
  /-- The results change, and a save of them is started. -/
  | change (scans : List ScanResult)
  /-- A save is started without a change. -/
  | start
  | skip (i : ℕ)
  | copy (i : ℕ)
  | remove (i : ℕ)
  | create (i : ℕ)
  | write (i : ℕ)
  | rename (i : ℕ)

/-- The results of the local servers. -/
def localScans (scans : List ScanResult) : List ScanResult := scans.filter (·.isLocal)

/-- What a save does after its copy. -/
def afterCopy (scans : List ScanResult) : SavePhase :=
  if localScans scans = [] then .removing else .creating (localScans scans)

/-- The name of the temporary file. -/
def tmpPath (statePath : String) : String := statePath ++ ".tmp"

section

variable (fold : Char → Char) (time : TimeText) (statePath : String)

/-- One step of one of the saves, or a change of the results. -/
inductive SaveStep (s : ScanFiles) : SaveEvent → ScanFiles → Prop
  | change (scans : List ScanResult) :
      SaveStep s (.change scans) { s with lastScans := scans, saves := s.saves ++ [.started] }
  | start : SaveStep s .start { s with saves := s.saves ++ [.started] }
  | skip {i : ℕ} (hi : s.saves[i]? = some .started) (hpath : statePath = "") :
      SaveStep s (.skip i) { s with saves := s.saves.set i .done }
  | copy {i : ℕ} (hi : s.saves[i]? = some .started) (hpath : statePath ≠ "") :
      SaveStep s (.copy i) { s with saves := s.saves.set i (afterCopy s.lastScans) }
  | remove {i : ℕ} (hi : s.saves[i]? = some .removing) :
      SaveStep s (.remove i)
        { s with files := s.files.remove statePath, saves := s.saves.set i .done }
  | create {i : ℕ} {scans : List ScanResult} (hi : s.saves[i]? = some (.creating scans)) :
      SaveStep s (.create i)
        { s with
          files := (s.files.create (tmpPath statePath)).2
          saves := s.saves.set i (.writing scans (s.files.create (tmpPath statePath)).1) }
  | write {i fd : ℕ} {scans : List ScanResult} (hi : s.saves[i]? = some (.writing scans fd)) :
      SaveStep s (.write i)
        { s with
          files := s.files.write fd (marshalScanState fold time scans)
          saves := s.saves.set i (.written scans) }
  | rename {i : ℕ} {scans : List ScanResult} (hi : s.saves[i]? = some (.written scans)) :
      SaveStep s (.rename i)
        { s with
          files := s.files.rename (tmpPath statePath) statePath
          saves := s.saves.set i .done }

/-- What the file holds when it is up to date: it does not exist if there are no results of local
servers. -/
def savedFile (scans : List ScanResult) : Option ByteArray :=
  if localScans scans = [] then none else some (marshalScanState fold time (localScans scans))

/-- `loadScanState`: the results that the server starts with. -/
def loadScanState (files : Files String) : List ScanResult :=
  if statePath = "" then []
  else
    match files.read statePath with
    | none => []
    | some data => (unmarshalScanState fold time data).getD []

/-- A server that has just been started. -/
def ScanFiles.boot (files : Files String) : ScanFiles where
  lastScans := loadScanState fold time statePath files
  files := files
  saves := []

namespace ScanFiles

/-- `loadScanState` would not discard what the file holds. -/
def Loads (s : ScanFiles) : Prop :=
  ∀ data, s.files.read statePath = some data → (unmarshalScanState fold time data).isSome

/-- All saves have ended. -/
def Settled (s : ScanFiles) : Prop :=
  ∀ (i : ℕ) (phase : SavePhase), s.saves[i]? = some phase → phase = .done

/-- What is expected of the file. -/
structure Saved (s : ScanFiles) : Prop where
  loads : s.Loads fold time statePath
  settled : s.Settled → s.files.read statePath = savedFile fold time s.lastScans

/-- A save makes its copy while no other one is between its copy and its end. -/
def Serial (s : ScanFiles) : SaveEvent → Prop
  | .copy _ => ∀ (i : ℕ) (phase : SavePhase), s.saves[i]? = some phase → ¬ phase.Active
  | _ => True

/-! ### Saves that do not overlap -/

/-- No save is left to make its copy. -/
def AllCopied (s : ScanFiles) : Prop := ∀ i : ℕ, s.saves[i]? ≠ some .started

/-- What a save has copied: the current results, unless another save is to follow. -/
structure Copied (s : ScanFiles) (scans : List ScanResult) : Prop where
  nonempty : scans ≠ []
  locals : localScans scans = scans
  current : s.AllCopied → localScans s.lastScans = scans

/-- What a save relies on. -/
def PhaseOk (s : ScanFiles) : SavePhase → Prop
  | .started | .done => True
  | .removing => s.AllCopied → localScans s.lastScans = []
  | .creating scans => s.Copied scans
  | .writing scans fd => s.Copied scans ∧
      s.files.entry (tmpPath statePath) = some fd ∧ s.files.data fd = ByteArray.empty
  | .written scans => s.Copied scans ∧
      s.files.read (tmpPath statePath) = some (marshalScanState fold time scans)

/-- The saves take turns, and the file holds what the last one of them has left. -/
structure Inv (s : ScanFiles) : Prop where
  turns : ∀ {i j : ℕ} {p q : SavePhase}, s.saves[i]? = some p → s.saves[j]? = some q →
    p.Active → q.Active → i = j
  phases : ∀ {i : ℕ} {phase : SavePhase}, s.saves[i]? = some phase →
    s.PhaseOk fold time statePath phase
  file : ∃ scans, s.files.read statePath = savedFile fold time scans
  current : s.Settled → s.files.read statePath = savedFile fold time s.lastScans

variable {fold time statePath} {s t : ScanFiles} {i : ℕ} {p q : SavePhase}
  {scans : List ScanResult}

/-- The temporary file has another name. -/
theorem tmpPath_ne (statePath : String) : statePath ≠ tmpPath statePath := by
  intro h
  have hlength := congrArg String.length h
  rw [tmpPath, String.length_append] at hlength
  exact absurd hlength (by simp)

/-- Results that are all local are written as they are. -/
theorem savedFile_of_locals (hlocals : localScans scans = scans) (hne : scans ≠ []) :
    savedFile fold time scans = some (marshalScanState fold time scans) := by
  rw [savedFile, hlocals, if_neg hne]

/-- The invariant says what is expected of the file. -/
theorem Inv.saved (h : Inv fold time statePath s) : ScanFiles.Saved fold time statePath s := by
  refine ⟨fun data hdata => ?_, h.current⟩
  obtain ⟨scans, hfile⟩ := h.file
  rw [hfile, savedFile] at hdata
  split at hdata
  · cases hdata
  · obtain rfl := Option.some.inj hdata
    rw [unmarshalScanState_marshal]
    rfl

/-- Nothing is asked of a save that is not active. -/
theorem phaseOk_of_not_active (hp : ¬ p.Active) : s.PhaseOk fold time statePath p := by
  cases p with
  | started => trivial
  | done => trivial
  | _ => exact absurd trivial hp

/-- It is enough to look at the only save that may be active. -/
theorem inv_of_one (i : ℕ)
    (hothers : ∀ {j : ℕ} {p : SavePhase}, j ≠ i → s.saves[j]? = some p → ¬ p.Active)
    (hphase : ∀ {p : SavePhase}, s.saves[i]? = some p → s.PhaseOk fold time statePath p)
    (hfile : ∃ scans, s.files.read statePath = savedFile fold time scans)
    (hcurrent : s.Settled → s.files.read statePath = savedFile fold time s.lastScans) :
    Inv fold time statePath s where
  turns {j k p q} hj hk hp hq := by
    have hji : j = i := by_contra fun hne => hothers hne hj hp
    have hki : k = i := by_contra fun hne => hothers hne hk hq
    rw [hji, hki]
  phases {j p} hj := by
    by_cases hji : j = i
    · exact hphase (hji ▸ hj)
    · exact phaseOk_of_not_active (hothers hji hj)
  file := hfile
  current := hcurrent

/-- While a save is active, the others are not. -/
theorem Inv.others (h : Inv fold time statePath s) (hi : s.saves[i]? = some p) (hp : p.Active)
    {q r : SavePhase} {j : ℕ} (hji : j ≠ i) (hj : (s.saves.set i q)[j]? = some r) : ¬ r.Active := by
  rw [Slots.set_ne hji] at hj
  exact fun hr => hji (h.turns hj hi hr hp)

/-- A save that has made its copy does not change which ones are left to make theirs. -/
theorem AllCopied.of_set (hsaves : t.saves = s.saves.set i q) (hi : s.saves[i]? = some p)
    (hp : p.Active) (h : t.AllCopied) : s.AllCopied := by
  intro j hj
  by_cases hji : j = i
  · rw [hji, hi] at hj
    obtain rfl := Option.some.inj hj
    exact hp
  · exact h j (by rw [hsaves, Slots.set_ne hji, hj])

/-- Where all saves have ended, all have made their copy. -/
theorem Settled.allCopied (h : s.Settled) : s.AllCopied := by
  intro i hi
  exact nomatch h i _ hi

/-- Another step of the same save leaves its copy what it was. -/
theorem Copied.of_set (hsaves : t.saves = s.saves.set i q) (hscans : t.lastScans = s.lastScans)
    (hi : s.saves[i]? = some p) (hp : p.Active) (h : s.Copied scans) : t.Copied scans where
  nonempty := h.nonempty
  locals := h.locals
  current hall := by rw [hscans, h.current (hall.of_set hsaves hi hp)]

/-- A new save. -/
theorem inv_started (h : Inv fold time statePath s) (scans : List ScanResult) :
    Inv fold time statePath { s with lastScans := scans, saves := s.saves ++ [.started] } := by
  have hstarted : (s.saves ++ [SavePhase.started])[s.saves.length]? = some .started :=
    Slots.append_self ..
  have hnever : ¬ AllCopied { s with lastScans := scans, saves := s.saves ++ [.started] } :=
    fun hall => hall _ hstarted
  refine ⟨fun {j k p q} hj hk hp hq => ?_, fun {j p} hj => ?_, h.file,
    fun hsettled => absurd hsettled.allCopied hnever⟩
  · rcases Slots.of_append hj with ⟨-, rfl⟩ | hj
    · exact hp.elim
    · rcases Slots.of_append hk with ⟨-, rfl⟩ | hk
      · exact hq.elim
      · exact h.turns hj hk hp hq
  · rcases Slots.of_append hj with ⟨-, rfl⟩ | hj
    · trivial
    · have hphase := h.phases hj
      have hcopied : ∀ {scans'}, s.Copied scans' →
          Copied { s with lastScans := scans, saves := s.saves ++ [.started] } scans' :=
        fun hcopied => ⟨hcopied.nonempty, hcopied.locals, fun hall => absurd hall hnever⟩
      cases p with
      | started => trivial
      | done => trivial
      | removing => exact fun hall => absurd hall hnever
      | creating => exact hcopied hphase
      | writing => exact ⟨hcopied hphase.1, hphase.2⟩
      | written => exact ⟨hcopied hphase.1, hphase.2⟩

/-- The copy keeps the invariant, where no other save is between its copy and its end. -/
theorem inv_copy (h : Inv fold time statePath s) (hi : s.saves[i]? = some .started)
    (hserial : s.Serial (.copy i)) :
    Inv fold time statePath { s with saves := s.saves.set i (afterCopy s.lastScans) } := by
  have hself := Slots.set_self hi (afterCopy s.lastScans)
  refine inv_of_one i (fun {j p} hji hj => ?_) (fun {p} hp => ?_) h.file fun hsettled => ?_
  · exact hserial j p ((Slots.set_ne hji _).symm.trans hj)
  · obtain rfl := Option.some.inj (hself.symm.trans hp)
    rw [afterCopy]
    split
    · rename_i hnone
      exact fun _ => hnone
    · rename_i hsome
      exact ⟨hsome, List.filter_filter .. |>.trans (by simp [localScans]), fun _ => rfl⟩
  · have hdone := hsettled i _ hself
    rw [afterCopy] at hdone
    split at hdone <;> cases hdone

/-- So does the removal when there is nothing to save. -/
theorem inv_remove (h : Inv fold time statePath s) (hi : s.saves[i]? = some .removing) :
    Inv fold time statePath
      { s with files := s.files.remove statePath, saves := s.saves.set i .done } := by
  have hgone : (s.files.remove statePath).read statePath = none := Files.read_remove ..
  refine inv_of_one i (h.others hi trivial) (fun {p} hp => ?_) ⟨[], hgone⟩ fun hsettled => ?_
  · obtain rfl := Option.some.inj ((Slots.set_self hi _).symm.trans hp)
    trivial
  · have hnone : localScans s.lastScans = [] :=
      h.phases hi (hsettled.allCopied.of_set rfl hi trivial)
    rw [savedFile, if_pos hnone]
    exact hgone

/-- So does the creation of the temporary file. -/
theorem inv_create (h : Inv fold time statePath s) (hi : s.saves[i]? = some (.creating scans)) :
    Inv fold time statePath
      { s with
        files := (s.files.create (tmpPath statePath)).2
        saves := s.saves.set i (.writing scans (s.files.create (tmpPath statePath)).1) } := by
  have hself := Slots.set_self hi (.writing scans (s.files.create (tmpPath statePath)).1)
  have hread : (s.files.create (tmpPath statePath)).2.read statePath = s.files.read statePath :=
    Files.read_create_of_ne (tmpPath_ne statePath)
  refine inv_of_one i (h.others hi trivial) (fun {p} hp => ?_) ?_ fun hsettled => ?_
  · obtain rfl := Option.some.inj (hself.symm.trans hp)
    exact ⟨(h.phases hi).of_set rfl rfl hi trivial, Files.entry_create .., Files.data_create ..⟩
  · obtain ⟨scans, hfile⟩ := h.file
    exact ⟨scans, hread.trans hfile⟩
  · exact nomatch hsettled i _ hself

/-- So does the write. -/
theorem inv_write {fd : ℕ} (h : Inv fold time statePath s)
    (hi : s.saves[i]? = some (.writing scans fd)) :
    Inv fold time statePath
      { s with
        files := s.files.write fd (marshalScanState fold time scans)
        saves := s.saves.set i (.written scans) } := by
  have hself := Slots.set_self hi (.written scans)
  obtain ⟨hcopied, hentry, hempty⟩ := h.phases hi
  have hread : (s.files.write fd (marshalScanState fold time scans)).read statePath =
      s.files.read statePath := Files.read_write_of_ne hentry (tmpPath_ne statePath) _
  refine inv_of_one i (h.others hi trivial) (fun {p} hp => ?_) ?_ fun hsettled => ?_
  · obtain rfl := Option.some.inj (hself.symm.trans hp)
    exact ⟨hcopied.of_set rfl rfl hi trivial, Files.read_write hentry hempty _⟩
  · obtain ⟨scans, hfile⟩ := h.file
    exact ⟨scans, hread.trans hfile⟩
  · exact nomatch hsettled i _ hself

/-- So does the rename, which ends the save. -/
theorem inv_rename (h : Inv fold time statePath s) (hi : s.saves[i]? = some (.written scans)) :
    Inv fold time statePath
      { s with
        files := s.files.rename (tmpPath statePath) statePath
        saves := s.saves.set i .done } := by
  obtain ⟨hcopied, htmp⟩ := h.phases hi
  have hread : (s.files.rename (tmpPath statePath) statePath).read statePath =
      some (marshalScanState fold time scans) := by
    rw [Files.read_rename (by rw [htmp]; rfl), htmp]
  have hfile : savedFile fold time scans = some (marshalScanState fold time scans) :=
    savedFile_of_locals hcopied.locals hcopied.nonempty
  refine inv_of_one i (h.others hi trivial) (fun {p} hp => ?_) ⟨scans, hread.trans hfile.symm⟩
    fun hsettled => ?_
  · obtain rfl := Option.some.inj ((Slots.set_self hi _).symm.trans hp)
    trivial
  · have hcurrent := hcopied.current (hsettled.allCopied.of_set rfl hi trivial)
    rw [savedFile, hcurrent, if_neg hcopied.nonempty]
    exact hread

/-- Every step of saves that do not overlap keeps the invariant. -/
theorem inv_step {e : SaveEvent} (hpath : statePath ≠ "") (h : Inv fold time statePath s)
    (hserial : s.Serial e) (hstep : SaveStep fold time statePath s e t) :
    Inv fold time statePath t := by
  cases hstep with
  | change scans => exact inv_started h scans
  | start => exact inv_started h s.lastScans
  | skip hi hempty => exact absurd hempty hpath
  | copy hi => exact inv_copy h hi hserial
  | remove hi => exact inv_remove h hi
  | create hi => exact inv_create h hi
  | write hi => exact inv_write h hi
  | rename hi => exact inv_rename h hi

/-- A server that starts with what saves have left. -/
theorem inv_boot (hpath : statePath ≠ "") {files : Files String}
    (hfile : files.read statePath = savedFile fold time scans) :
    Inv fold time statePath (boot fold time statePath files) := by
  refine ⟨fun hj => (nomatch hj), fun hj => (nomatch hj), ⟨scans, hfile⟩, fun _ => ?_⟩
  have hload : localScans (loadScanState fold time statePath files) = localScans scans := by
    rw [loadScanState, if_neg hpath, hfile, savedFile]
    split
    · rename_i hnone
      split at hnone
      · rename_i hlocals
        rw [hlocals]
        rfl
      · cases hnone
    · rename_i data hsome
      split at hsome
      · cases hsome
      · obtain rfl := Option.some.inj hsome
        rw [unmarshalScanState_marshal, Option.getD_some]
        simp [localScans]
  change files.read statePath = savedFile fold time (loadScanState fold time statePath files)
  rw [hfile, savedFile, savedFile, hload]

end ScanFiles

open ScanFiles in
/-- **When the file is right.** If no save makes its copy while another one is between its copy and
its end, then in every state the file can be read, and when all saves that were started have
ended, it holds the results of the local servers. -/
theorem run_saved_of_serial {files : Files String} {scans : List ScanResult} {es : List SaveEvent}
    {s : ScanFiles} (hpath : statePath ≠ "")
    (hfile : files.read statePath = savedFile fold time scans)
    (h : Run (fun s e t => s.Serial e ∧ SaveStep fold time statePath s e t)
      (boot fold time statePath files) es s) :
    ScanFiles.Saved fold time statePath s :=
  (h.state_invariant (Inv fold time statePath) (inv_boot hpath hfile)
    fun hinv hstep => inv_step hpath hinv hstep.1 hstep.2).saved

end

/-! ### Saves that overlap -/

/-- Times that are written as the zero time is, and longer. -/
def sampleTime : TimeText where
  format t := String.ofList ("0001-01-01T00:00:00Z".toList ++ List.replicate t '0')
  parse s := some (s.length - 20)
  parse_format t := by
    rw [String.length_ofList, List.length_append, List.length_replicate]
    exact congrArg some (Nat.add_sub_cancel_left 20 t)

/-- A directory without files. -/
def noFiles : Files String where
  entry _ := none
  data _ := ByteArray.empty
  next := 0
  entry_lt h := nomatch h
  entry_inj h := nomatch h

/-- The result of a scan of the local server. -/
def localScan (error : String) : ScanResult := .bare "local" "/var/run/docker.sock" true 0 error

/-- The result of a scan of a remote server. -/
def remoteScan : ScanResult := .bare "nas" "http://nas:8080" false 0 ""

def sampleStatePath : String := "/data/scan_state.json"

open ScanFiles in
/-- The results change again in the middle of a save; the second save makes its copy when the
first one has ended. -/
theorem run_saved_of_serial_turns : ∃ es s,
    Run (fun s e t => s.Serial e ∧ SaveStep id sampleTime sampleStatePath s e t)
      (boot id sampleTime sampleStatePath noFiles) es s ∧ s.Settled ∧
    s.files.read sampleStatePath = some (marshalScanState id sampleTime [localScan "new"]) ∧
    s.Saved id sampleTime sampleStatePath := by
  let step (s : ScanFiles) (e : SaveEvent) (t : ScanFiles) : Prop :=
    s.Serial e ∧ SaveStep id sampleTime sampleStatePath s e t
  have hstep {s : ScanFiles} {e : SaveEvent} {t : ScanFiles}
      (h : SaveStep id sampleTime sampleStatePath s e t) (hserial : s.Serial e) : step s e t :=
    ⟨hserial, h⟩
  have hfirst : ∀ (i : ℕ) (phase : SavePhase),
      [SavePhase.started][i]? = some phase → ¬ phase.Active := by
    rintro (_ | _) phase hphase hactive
    · obtain rfl := Option.some.inj hphase
      exact hactive
    · cases hphase
  have hsecond : ∀ (i : ℕ) (phase : SavePhase),
      [SavePhase.done, .started][i]? = some phase → ¬ phase.Active := by
    rintro (_ | _ | _) phase hphase hactive
    · obtain rfl := Option.some.inj hphase
      exact hactive
    · obtain rfl := Option.some.inj hphase
      exact hactive
    · cases hphase
  have hboot : Run step (boot id sampleTime sampleStatePath noFiles) []
      (boot id sampleTime sampleStatePath noFiles) := .nil
  have hrun := hboot |>.snoc (hstep (.change [localScan "old"]) trivial)
    |>.snoc (hstep (.copy (i := 0) rfl (by decide)) hfirst)
    |>.snoc (hstep (.create (i := 0) rfl) trivial)
    |>.snoc (hstep (.change [localScan "new"]) trivial)
    |>.snoc (hstep (.write (i := 0) rfl) trivial) |>.snoc (hstep (.rename (i := 0) rfl) trivial)
    |>.snoc (hstep (.copy (i := 1) rfl (by decide)) hsecond)
    |>.snoc (hstep (.create (i := 1) rfl) trivial) |>.snoc (hstep (.write (i := 1) rfl) trivial)
    |>.snoc (hstep (.rename (i := 1) rfl) trivial)
  have hfile : noFiles.read sampleStatePath = savedFile id sampleTime [] := rfl
  refine ⟨_, _, hrun, ?_, Files.read_replace ..,
    run_saved_of_serial id sampleTime sampleStatePath (by decide) hfile hrun⟩
  rintro (_ | _ | _) phase hphase
  · exact (Option.some.inj hphase).symm
  · exact (Option.some.inj hphase).symm
  · cases hphase

open ScanFiles in

/-- Overlapping saves can leave a file that does not load, and one that is not the last results. -/
theorem saves_can_interfere :
    (∃ es s, Run (SaveStep id sampleTime sampleStatePath)
        (boot id sampleTime sampleStatePath noFiles) es s ∧
      ¬ s.Loads id sampleTime sampleStatePath) ∧
    ∃ es s, Run (SaveStep id sampleTime sampleStatePath)
        (boot id sampleTime sampleStatePath noFiles) es s ∧ s.Settled ∧
      s.files.read sampleStatePath ≠ savedFile id sampleTime s.lastScans := by
  constructor
  · refine ⟨_, _, (((((((Run.nil.snoc (.change [localScan ""])).snoc
      (.change [localScan "", remoteScan])).snoc (.copy (i := 0) rfl (by decide))).snoc
      (.create (i := 0) rfl)).snoc (.write (i := 0) rfl)).snoc
      (.copy (i := 1) rfl (by decide))).snoc (.create (i := 1) rfl)).snoc
      (.rename (i := 0) rfl), fun hloads => ?_⟩
    exact absurd (hloads ByteArray.empty rfl) (by decide)
  · refine ⟨_, _, (((((((((Run.nil.snoc (.change [localScan "old"])).snoc
      (.copy (i := 0) rfl (by decide))).snoc (.change [localScan "new"])).snoc
      (.copy (i := 1) rfl (by decide))).snoc (.create (i := 1) rfl)).snoc
      (.write (i := 1) rfl)).snoc (.rename (i := 1) rfl)).snoc (.create (i := 0) rfl)).snoc
      (.write (i := 0) rfl)).snoc (.rename (i := 0) rfl), ?_, ?_⟩
    · rintro (_ | _ | _) phase hphase
      · exact (Option.some.inj hphase).symm
      · exact (Option.some.inj hphase).symm
      · cases hphase
    · intro heq
      have hsaved : savedFile id sampleTime [localScan "new"] =
          some (marshalScanState id sampleTime [localScan "new"]) :=
        savedFile_of_locals rfl (List.cons_ne_nil _ _)
      have hbytes := Option.some.inj ((Files.read_replace ..).symm.trans (heq.trans hsaved))
      have hscans := congrArg (unmarshalScanState id sampleTime) hbytes
      rw [unmarshalScanState_marshal, unmarshalScanState_marshal] at hscans
      exact absurd hscans (by decide)

end Contiwatch
