import Contiwatch.Lib.EventLoop
import Contiwatch.Lib.Js
import Mathlib.Tactic.SplitIfs

/-!
# The Stack Dialog

The dialog of `src/web/static/app.js` that edits a stack. Its functions wait for the answers to
four kinds of requests; while one is under way, the controls of the dialog are disabled. The server
that is selected may change at any time.

## Main results

* `phase_run` — what the dialog may wait for, and what its flags are meanwhile.
* `run_modal` — the dialog does not lose edits, does one thing at a time, and starts an action only
  after the save of the same click.
* `blank_env_dropped` — a blank `.env` text is saved as none.
-/

namespace Contiwatch

open Js

/-! ### The dialog -/

/-- The actions that the dialog offers. -/
inductive ModalAction
  | up | down | redeploy | restart
  deriving DecidableEq, Repr

/-- What the dialog shows while an action runs. -/
def ModalAction.progressLabel : ModalAction → String
  | .up => "Deploying stack…"
  | .down => "Stopping and removing stack services…"
  | .redeploy => "Pulling images and redeploying stack…"
  | .restart => "Restarting stack services…"

/-- What the dialog shows after an action. -/
def ModalAction.successLabel : ModalAction → String
  | .up => "Stack deployed successfully."
  | .down => "Stack services stopped and removed."
  | .redeploy => "Stack redeployed successfully."
  | .restart => "Stack restarted successfully."

/-- `getStackModalValues`. -/
structure StackValues where
  name : String
  compose : String
  env : String
  useEnv : Bool
  deriving DecidableEq, Repr

/-- The controls of the dialog that are disabled. The name is one, the two editors are one, and so
are the buttons that save or start an action, and those that close the dialog. -/
structure ModalControls where
  save : Bool
  close : Bool
  name : Bool
  editors : Bool
  envDelete : Bool
  deriving DecidableEq, Repr

/-- The dialog. `codeMirror` says whether its editors are those of CodeMirror, or text areas. -/
structure StackModal where
  codeMirror : Bool
  containersSelectedScope : String
  shown : Bool
  editingStackName : String
  name : String
  compose : String
  env : String
  stackEnvExists : Bool
  stackEnvDeletePending : Bool
  stackEnvDeleteConfirming : Bool
  loading : Bool
  saving : Bool
  loadFailed : Bool
  actionInProgress : Option ModalAction
  savedValues : Option StackValues
  error : String
  operation : String
  disabled : ModalControls

namespace StackModal

/-- `showStackModalError`. -/
def showStackModalError (message : String) (m : StackModal) : StackModal :=
  { m with error := Js.trim message }

/-- `clearStackModalError`. -/
def clearStackModalError (m : StackModal) : StackModal := showStackModalError "" m

/-- `shouldSaveStackEnv`. -/
def shouldSaveStackEnv (m : StackModal) : Bool :=
  if m.stackEnvDeletePending then false else m.stackEnvExists || Js.trim m.env ≠ ""

/-- `getStackModalValues`. -/
def getStackModalValues (m : StackModal) : StackValues :=
  ⟨m.name, m.compose, m.env, m.shouldSaveStackEnv⟩

/-- Something is under way. -/
def isBusy (m : StackModal) : Bool := m.loading || m.saving || m.actionInProgress.isSome

/-- What `updateStackEnvDeleteButton` makes of its button. -/
def envDeleteDisabled (m : StackModal) : Bool :=
  m.loading || m.saving || m.loadFailed || m.actionInProgress.isSome ||
    (!m.stackEnvExists && Js.trim m.env = "")

/-- What `updateStackModalBusyState` makes of the controls. -/
def busyControls (m : StackModal) : ModalControls where
  save := m.isBusy || m.loadFailed
  close := m.isBusy
  name := m.isBusy || m.loadFailed || m.editingStackName ≠ ""
  editors := m.isBusy || m.loadFailed
  envDelete := m.envDeleteDisabled

/-- `updateStackEnvDeleteButton`. -/
def updateStackEnvDeleteButton (m : StackModal) : StackModal :=
  { m with disabled := { m.disabled with envDelete := m.envDeleteDisabled } }

/-- `updateStackModalBusyState`. -/
def updateStackModalBusyState (m : StackModal) : StackModal :=
  { m with disabled := m.busyControls }

/-- `setStackModalLoading`. -/
def setStackModalLoading (loading : Bool) (m : StackModal) : StackModal :=
  updateStackModalBusyState { m with loading := loading }

/-- `setStackModalOperation`. -/
def setStackModalOperation (action : Option ModalAction) (message : String) (m : StackModal) :
    StackModal :=
  updateStackModalBusyState { m with actionInProgress := action, operation := Js.trim message }

/-- The `.env` text was edited, by the user or by CodeMirror. -/
def envEdited (m : StackModal) : StackModal :=
  updateStackEnvDeleteButton
    { clearStackModalError m with
      stackEnvDeletePending := false
      stackEnvDeleteConfirming := false }

/-- CodeMirror reports a change, unless nothing replaces nothing. -/
def reportsChange (m : StackModal) (old new : String) : Bool :=
  m.codeMirror && (old ≠ "" || new ≠ "")

/-- `setComposeValue`. -/
def setComposeValue (value : String) (m : StackModal) : StackModal :=
  let next := { m with compose := textArea value }
  if m.reportsChange m.compose value then clearStackModalError next else next

/-- `setEnvValue`. -/
def setEnvValue (value : String) (m : StackModal) : StackModal :=
  let next := { m with env := textArea value }
  if m.reportsChange m.env value then envEdited next else next

/-- `getStackModalChangedFields`. -/
def getStackModalChangedFields (m : StackModal) : List String :=
  match m.savedValues with
  | none => []
  | some saved =>
      let current := m.getStackModalValues
      (if current.name ≠ saved.name then ["Name"] else []) ++
        (if current.compose ≠ saved.compose then ["Compose (docker-compose.yml)"] else []) ++
        if current.env ≠ saved.env ∨ current.useEnv ≠ saved.useEnv then [".env"] else []

/-- `closeStackModal`. -/
def closeStackModal (discardChanges : Bool) (m : StackModal) : StackModal :=
  if m.isBusy then m
  else if !discardChanges && m.getStackModalChangedFields ≠ [] then
    showStackModalError ("Unsaved changes in: " ++
      ", ".intercalate m.getStackModalChangedFields ++
      ". Click Save to save them, or Cancel to discard them and keep the previously saved " ++
      "configuration.") m
  else { m with shown := false, editingStackName := "", savedValues := none }

end StackModal

/-- `isValidStackName`. -/
def isValidStackName (name : String) : Bool :=
  let chars := (Js.trim name).toList
  chars ≠ [] && chars.all fun c => c.isAlphanum || c = '_' || c = '-'

/-- The lines of a text, without their ends. -/
def splitLines : List Char → List (List Char)
  | [] => [[]]
  | '\r' :: '\n' :: cs | '\n' :: cs => [] :: splitLines cs
  | c :: cs =>
      match splitLines cs with
      | line :: rest => (c :: line) :: rest
      | [] => [[c]]

/-- A line with two blanks for each tab of its indentation. -/
def expandIndent (line : List Char) : List Char :=
  (line.takeWhile Js.isSpace).flatMap (fun c => if c = '\t' then [' ', ' '] else [c]) ++
    line.dropWhile Js.isSpace

/-- What `saveStackFromModal` makes of the Compose text. -/
@[irreducible] def normalizeCompose (text : String) : String :=
  Js.trim (String.ofList
    (List.intercalate ['\n'] ((splitLines text.toList).map expandIndent)))

example : normalizeCompose "services:\r\n\tapp:\n \t image: a\tb\n\n" =
    "services:\n  app:\n    image: a\tb" := by decide +kernel

/-! ### Requests -/

/-- The answer of `GET /api/stacks/get`: without a `.env` file, there is no `.env` text. -/
structure StackPayload where
  composeYaml : String
  env : String
  hasEnv : Bool
  env_eq : hasEnv = false → env = ""

/-- Whether the dialog finds a `.env` file in the answer. -/
theorem StackPayload.presence (payload : StackPayload) :
    (payload.hasEnv || decide (Js.trim (textArea payload.env) ≠ "")) = payload.hasEnv := by
  rcases hhas : payload.hasEnv with _ | _
  · simp [payload.env_eq hhas]
  · rfl

/-- What calls `saveStackFromModal`: a button, or `runStackActionFromModal`. -/
inductive SaveCaller
  | button (closeOnSuccess : Bool)
  | action (action : ModalAction) (name : String)

/-- The action that waits for the save. -/
def SaveCaller.inProgress : SaveCaller → Option ModalAction
  | .button _ => none
  | .action modalAction _ => some modalAction

/-- What `saveStackFromModal` has read when it makes its requests, with the number of the click
that it belongs to and the dialog as it was then. -/
structure SaveCall where
  name : String
  composeYml : String
  env : String
  useEnv : Bool
  caller : SaveCaller
  click : ℕ
  before : StackModal

/-- What the dialog may wait for. An action carries the number of its click. -/
inductive ModalWait
  | load
  | validate (call : SaveCall)
  | save (call : SaveCall)
  | refresh (call : SaveCall)
  | action (action : ModalAction) (click : ℕ)

/-- The answers. A document of `null` has no stack. -/
inductive ModalAnswer
  | failed (message : String)
  | loaded (payload : Option StackPayload)
  | valid
  | invalid (message : String)
  | saved
  | refreshed
  | finished (completed : Bool)

/-- What the user does. The server is selected elsewhere on the page, or falls back to another one.
`dismiss` is the Escape key, or a click beside the dialog. -/
inductive ModalEvent
  | selectScope (scope : String)
  | openStack (name : String)
  | typeName (value : String)
  | typeCompose (value : String)
  | typeEnv (value : String)
  | clickEnvDelete
  | clickSave (closeOnSuccess : Bool)
  | clickAction (action : ModalAction)
  | clickClose
  | clickCancel
  | dismiss

/-- The dialog, with the number of clicks so far, the clicks whose save has succeeded, and the
values that were last loaded from the server or saved there. -/
structure ModalPage where
  modal : StackModal
  clicks : ℕ
  savedClicks : List ℕ
  stored : StackValues

namespace ModalPage

/-- `openStackModal`. -/
def openStackModal (name : String) (p : ModalPage) : ModalPage × List ModalWait :=
  if p.modal.containersSelectedScope = "" then (p, [])
  else
    let m := { p.modal with
      editingStackName := name
      name := textInput name
      disabled := { p.modal.disabled with name := name ≠ "" } }
    let m := (m.setComposeValue "").setEnvValue ""
    let m := { m with
      stackEnvExists := false
      stackEnvDeletePending := false
      stackEnvDeleteConfirming := false
      loadFailed := false }
    let m := if m.actionInProgress = none then m.setStackModalOperation none "" else m
    let m := m.updateStackEnvDeleteButton.clearStackModalError
    let m := { m with savedValues := some m.getStackModalValues, shown := true }
    let stored := ⟨name, "", "", false⟩
    if name ≠ "" then ({ p with modal := m.setStackModalLoading true, stored := stored }, [.load])
    else ({ p with modal := m, stored := stored }, [])

/-- `openStackModal`, after the stack was loaded. -/
def stackLoaded (payload : Option StackPayload) (p : ModalPage) : ModalPage :=
  match payload with
  | none => { p with modal := p.modal.setStackModalLoading false }
  | some payload =>
      let m := (p.modal.setComposeValue payload.composeYaml).setEnvValue payload.env
      let m := { m with stackEnvExists := payload.hasEnv }
      let m := { m with savedValues := some m.getStackModalValues }
      let m := m.updateStackEnvDeleteButton.clearStackModalError
      { p with
        modal := m.setStackModalLoading false
        stored := ⟨m.editingStackName, payload.composeYaml, payload.env, payload.hasEnv⟩ }

/-- `openStackModal`, if the stack could not be loaded. -/
def stackLoadFailed (message : String) (p : ModalPage) : ModalPage :=
  let m := { p.modal with loadFailed := true }
  let m := m.showStackModalError (if message ≠ "" then message else
    "Unable to load stack. Close the editor and try again.")
  { p with modal := m.setStackModalLoading false }

/-- The end of `runStackActionFromModal`. -/
def actionFinished (action : ModalAction) (completed : Bool) (p : ModalPage) : ModalPage :=
  { p with modal := p.modal.setStackModalOperation none (if completed then action.successLabel
      else "Stack action failed. Check the error notification for details.") }

/-- `runStackActionFromModal`, after `saveStackFromModal`. -/
def saveEnded (caller : SaveCaller) (click : ℕ) (ok : Bool) (p : ModalPage) :
    ModalPage × List ModalWait :=
  match caller with
  | .button _ => (p, [])
  | .action action name =>
      if ok then
        let p := { p with
          modal := p.modal.setStackModalOperation (some action) action.progressLabel }
        if name = "" ∨ p.modal.containersSelectedScope = "" then
          (p.actionFinished action false, [])
        else (p, [.action action click])
      else
        let m := p.modal.setStackModalOperation none
          "Stack action was not started because saving or validation failed."
        ({ p with modal := m }, [])

/-- The name of the stack that is saved. -/
def stackName (p : ModalPage) : String :=
  if p.modal.editingStackName ≠ "" then p.modal.editingStackName else Js.trim p.modal.name

/-- `saveStackFromModal`, up to its first request. -/
def saveStackFromModal (caller : SaveCaller) (click : ℕ) (before : StackModal) (p : ModalPage) :
    ModalPage × List ModalWait :=
  if p.modal.loading || p.modal.saving || p.modal.loadFailed then p.saveEnded caller click false
  else if p.modal.containersSelectedScope = "" then p.saveEnded caller click false
  else if ¬ isValidStackName p.stackName then p.saveEnded caller click false
  else
    let composeYml := normalizeCompose p.modal.compose
    let m := p.modal.clearStackModalError.setComposeValue composeYml
    if composeYml = "" then
      saveEnded caller click false
        { p with modal := m.showStackModalError "docker-compose.yml is required." }
    else
      let useEnv := m.shouldSaveStackEnv
      let call : SaveCall :=
        { name := p.stackName
          composeYml := composeYml
          env := if useEnv then m.env else ""
          useEnv := useEnv
          caller := caller
          click := click
          before := before }
      ({ p with modal := { m with saving := true }.updateStackModalBusyState }, [.validate call])

/-- The end of `saveStackFromModal`. -/
def endSave (p : ModalPage) : ModalPage :=
  { p with modal := { p.modal with saving := false }.updateStackModalBusyState }

/-- `saveStackFromModal`, if a request fails. -/
def saveFailed (call : SaveCall) (message : String) (p : ModalPage) :
    ModalPage × List ModalWait :=
  saveEnded call.caller call.click false
    (endSave { p with modal := p.modal.showStackModalError message })

/-- `saveStackFromModal`, after the stack was saved. -/
def stackSaved (call : SaveCall) (p : ModalPage) : ModalPage :=
  let m := { p.modal with stackEnvExists := call.useEnv }
  let m := if m.stackEnvDeletePending then m.setEnvValue "" else m
  let m := { m with stackEnvDeletePending := false, stackEnvDeleteConfirming := false }
  let m := m.updateStackEnvDeleteButton
  { p with
    modal := { m with savedValues := some m.getStackModalValues }
    savedClicks := call.click :: p.savedClicks
    stored := ⟨call.name, call.composeYml, call.env, call.useEnv⟩ }

/-- `saveStackFromModal`, after the list was refreshed. -/
def saveCompleted (call : SaveCall) (p : ModalPage) : ModalPage × List ModalWait :=
  let p := p.endSave
  let p :=
    match call.caller with
    | .button true => { p with modal := p.modal.closeStackModal false }
    | _ => p
  p.endSave.saveEnded call.caller call.click true

/-- `runStackActionFromModal`, up to `saveStackFromModal`. -/
def runStackActionFromModal (action : ModalAction) (p : ModalPage) :
    ModalPage × List ModalWait :=
  let m := p.modal
  let q := { p with clicks := p.clicks + 1 }
  if m.loading || m.saving || m.loadFailed || m.actionInProgress.isSome then (q, [])
  else if m.containersSelectedScope = "" then (q, [])
  else if ¬ isValidStackName p.stackName then (q, [])
  else
    saveStackFromModal (.action action p.stackName) p.clicks m
      { q with modal := m.setStackModalOperation (some action) "Saving stack configuration…" }

/-- The handler of the button that deletes the `.env` file: it asks first, and can be undone. -/
def envDeleteClicked (m : StackModal) : StackModal :=
  if m.stackEnvDeletePending then
    { m with
      stackEnvDeletePending := false
      stackEnvDeleteConfirming := false }.updateStackEnvDeleteButton
  else if m.stackEnvDeleteConfirming then
    { m with
      stackEnvDeletePending := true
      stackEnvDeleteConfirming := false }.updateStackEnvDeleteButton
  else { m with stackEnvDeleteConfirming := true }.updateStackEnvDeleteButton

/-- The handlers. The dialog covers the page while it is shown; a disabled control does nothing. -/
def handle (p : ModalPage) : ModalEvent → Option (ModalPage × List ModalWait)
  | .selectScope scope =>
      some ({ p with modal := { p.modal with containersSelectedScope := scope } }, [])
  | .openStack name => if p.modal.shown then none else some (p.openStackModal name)
  | .typeName value =>
      if !p.modal.shown || p.modal.disabled.name then none
      else some ({ p with modal := { p.modal with name := textInput value } }, [])
  | .typeCompose value =>
      if !p.modal.shown || p.modal.disabled.editors then none
      else
        let m := { p.modal with compose := textArea value }
        some ({ p with modal := m.clearStackModalError }, [])
  | .typeEnv value =>
      if !p.modal.shown || p.modal.disabled.editors then none
      else some ({ p with modal := { p.modal with env := textArea value }.envEdited }, [])
  | .clickEnvDelete =>
      if !p.modal.shown || p.modal.disabled.envDelete then none
      else some ({ p with modal := envDeleteClicked p.modal }, [])
  | .clickSave closeOnSuccess =>
      if !p.modal.shown || p.modal.disabled.save then none
      else some (saveStackFromModal (.button closeOnSuccess) p.clicks p.modal
        { p with clicks := p.clicks + 1 })
  | .clickAction action =>
      if !p.modal.shown || p.modal.disabled.save then none
      else some (p.runStackActionFromModal action)
  | .clickClose =>
      if !p.modal.shown || p.modal.disabled.close then none
      else some ({ p with modal := p.modal.closeStackModal false }, [])
  | .clickCancel =>
      if !p.modal.shown || p.modal.disabled.close then none
      else some ({ p with modal := p.modal.closeStackModal true }, [])
  | .dismiss =>
      if !p.modal.shown then none
      else some ({ p with modal := p.modal.closeStackModal false }, [])

/-- What comes of the answers. -/
def resume (p : ModalPage) : ModalWait → ModalAnswer → Option (ModalPage × List ModalWait)
  | .load, .loaded payload => some (p.stackLoaded payload, [])
  | .load, .failed message => some (p.stackLoadFailed message, [])
  | .validate call, .valid => some (p, [.save call])
  | .validate call, .invalid message =>
      some (p.saveFailed call (if message ≠ "" then message else "Compose validation failed."))
  | .validate call, .failed message =>
      some (p.saveFailed call (if message ≠ "" then message else "Stack save failed."))
  | .save call, .saved => some (p.stackSaved call, [.refresh call])
  | .save call, .failed message =>
      some (p.saveFailed call (if message ≠ "" then message else "Stack save failed."))
  | .refresh call, .refreshed => some (p.saveCompleted call)
  | .action action _, .finished completed => some (p.actionFinished action completed, [])
  | _, _ => none

end ModalPage

/-- The dialog of a page. -/
def modalLoop : EventLoop ModalPage ModalEvent ModalWait ModalAnswer where
  handle := ModalPage.handle
  resume := ModalPage.resume

/-- What happens to the dialog. -/
abbrev ModalLabel := EventLoop.Label ModalEvent ModalWait ModalAnswer

/-- The dialog, and what it waits for. -/
abbrev ModalConfig := EventLoop.Config ModalPage ModalWait

/-- The dialog before it is opened for the first time. -/
def closedModal (codeMirror : Bool) (scope : String) : ModalPage where
  modal :=
    { codeMirror := codeMirror
      containersSelectedScope := scope
      shown := false
      editingStackName := ""
      name := ""
      compose := ""
      env := ""
      stackEnvExists := false
      stackEnvDeletePending := false
      stackEnvDeleteConfirming := false
      loading := false
      saving := false
      loadFailed := false
      actionInProgress := none
      savedValues := none
      error := ""
      operation := ""
      disabled := ⟨false, false, false, false, false⟩ }
  clicks := 0
  savedClicks := []
  stored := ⟨"", "", "", false⟩

/-! ### What the functions do -/

namespace StackModal

variable {m : StackModal}

/-- Setting the Compose text changes nothing else but the error. -/
theorem setComposeValue_eq (m : StackModal) (value : String) :
    ∃ error, m.setComposeValue value = { m with compose := textArea value, error := error } := by
  rw [setComposeValue]
  split
  · exact ⟨_, rfl⟩
  · exact ⟨m.error, rfl⟩

/-- Setting the `.env` text may take its deletion back. -/
theorem setEnvValue_eq (m : StackModal) (value : String) :
    ∃ pending confirming error envDelete, m.setEnvValue value = { m with
      env := textArea value
      stackEnvDeletePending := pending
      stackEnvDeleteConfirming := confirming
      error := error
      disabled := { m.disabled with envDelete := envDelete } } ∧
      (m.stackEnvDeletePending = false → pending = false) := by
  rw [setEnvValue]
  split
  · exact ⟨_, _, _, _, rfl, fun _ => rfl⟩
  · exact ⟨m.stackEnvDeletePending, m.stackEnvDeleteConfirming, m.error,
      m.disabled.envDelete, rfl, id⟩

/-- Setting both texts. -/
theorem setValues_eq (m : StackModal) (compose env : String) :
    ∃ pending confirming error envDelete, (m.setComposeValue compose).setEnvValue env = { m with
      compose := textArea compose
      env := textArea env
      stackEnvDeletePending := pending
      stackEnvDeleteConfirming := confirming
      error := error
      disabled := { m.disabled with envDelete := envDelete } } ∧
      (m.stackEnvDeletePending = false → pending = false) := by
  obtain ⟨error, hcompose⟩ := setComposeValue_eq m compose
  rw [hcompose]
  obtain ⟨pending, confirming, error, envDelete, henv, hpending⟩ :=
    setEnvValue_eq { m with compose := textArea compose, error := error } env
  exact ⟨pending, confirming, error, envDelete, henv, hpending⟩

/-- Nothing has changed exactly if the values are those that are kept. -/
theorem changedFields_eq_nil_iff {saved : StackValues} (h : m.savedValues = some saved) :
    m.getStackModalChangedFields = [] ↔ m.getStackModalValues = saved := by
  obtain ⟨name, compose, env, useEnv⟩ := saved
  rw [getStackModalChangedFields, h]
  by_cases hname : m.name = name <;> by_cases hcompose : m.compose = compose <;>
    by_cases henv : m.env = env <;> by_cases hdelete : m.shouldSaveStackEnv = useEnv <;>
    simp [getStackModalValues, hname, hcompose, henv, hdelete]

end StackModal

/-- The values of the dialog are those of a stack: the name that is saved, the texts as the editors
show them, and the `.env` text if there is a `.env` file. -/
def Matches (editing : String) (shown stored : StackValues) : Prop :=
  (if editing ≠ "" then editing else Js.trim shown.name) = stored.name ∧
    shown.compose = textArea stored.compose ∧ shown.useEnv = stored.useEnv ∧
    (shown.useEnv = true → shown.env = textArea stored.env)

/-- What is shown differs from what was last loaded from the server or saved there. -/
def ModalPage.Edited (p : ModalPage) : Prop :=
  ¬ Matches p.modal.editingStackName p.modal.getStackModalValues p.stored

/-- The flags of the dialog. -/
def StackModal.Flags (m : StackModal) (loading saving : Bool) (action : Option ModalAction) :
    Prop :=
  m.loading = loading ∧ m.saving = saving ∧ m.actionInProgress = action

/-- The edits are kept, apart from the Compose text, and so are the values to compare with. -/
structure StackModal.KeepsEdits (before m : StackModal) : Prop where
  editing : m.editingStackName = before.editingStackName
  name : m.name = before.name
  env : m.env = before.env
  envExists : m.stackEnvExists = before.stackEnvExists
  envDelete : m.stackEnvDeletePending = before.stackEnvDeletePending
  saved : m.savedValues = before.savedValues

/-- The dialog while it is shown: its controls agree with its flags, and the values that it compares
with are those that were last loaded or saved. -/
structure ModalPage.Shown (p : ModalPage) : Prop where
  shown : p.modal.shown = true
  disabled : p.modal.disabled = p.modal.busyControls
  env : textArea p.modal.env = p.modal.env
  anchored : ∃ v, p.modal.savedValues = some v ∧ Matches p.modal.editingStackName v p.stored

/-- A save sends what the dialog shows, and what it showed when it was asked to save. -/
structure SaveCall.Sends (call : SaveCall) (p : ModalPage) : Prop where
  name : call.name = p.stackName
  compose : p.modal.compose = textArea call.composeYml
  normalized : call.composeYml = normalizeCompose call.before.compose
  useEnv : call.useEnv = p.modal.shouldSaveStackEnv
  env : call.env = if call.useEnv then p.modal.env else ""
  kept : call.before.KeepsEdits p.modal

/-- **What the dialog may wait for**, with its flags. -/
inductive Phase (p : ModalPage) : List ModalWait → Prop
  | hidden (h : p.modal.shown = false) (hflags : p.modal.Flags false false none) : Phase p []
  | idle (h : p.Shown) (hflags : p.modal.Flags false false none) : Phase p []
  | loading (h : p.Shown) (hflags : p.modal.Flags true false none)
      (hediting : p.modal.editingStackName ≠ "") (hkept : p.modal.stackEnvDeletePending = false) :
      Phase p [.load]
  | validating {call : SaveCall} (h : p.Shown)
      (hflags : p.modal.Flags false true call.caller.inProgress) (hcall : call.Sends p) :
      Phase p [.validate call]
  | saving {call : SaveCall} (h : p.Shown)
      (hflags : p.modal.Flags false true call.caller.inProgress) (hcall : call.Sends p) :
      Phase p [.save call]
  | refreshing {call : SaveCall} (h : p.Shown)
      (hflags : p.modal.Flags false true call.caller.inProgress)
      (hclean : p.modal.savedValues = some p.modal.getStackModalValues)
      (hclick : call.click ∈ p.savedClicks) : Phase p [.refresh call]
  | acting {action : ModalAction} {click : ℕ} (h : p.Shown)
      (hflags : p.modal.Flags false false (some action)) (hclick : click ∈ p.savedClicks) :
      Phase p [.action action click]

namespace ModalPage

variable {p q : ModalPage}

/-- What keeps the dialog in order while it is shown. -/
theorem Shown.congr (h : p.Shown) (hshown : q.modal.shown = p.modal.shown)
    (hdisabled : q.modal.disabled = q.modal.busyControls) (henv : q.modal.env = p.modal.env)
    (hsaved : q.modal.savedValues = p.modal.savedValues)
    (hediting : q.modal.editingStackName = p.modal.editingStackName)
    (hstored : q.stored = p.stored) : q.Shown where
  shown := hshown.trans h.shown
  disabled := hdisabled
  env := by rw [henv, h.env]
  anchored := by rw [hsaved, hediting, hstored]; exact h.anchored

/-- An empty dialog shows what is stored of a stack that was not loaded. -/
theorem matches_empty {m : StackModal} (hname : m.name = textInput m.editingStackName)
    (hcompose : m.compose = textArea "") (henv : m.env = textArea "")
    (hexists : m.stackEnvExists = false) :
    Matches m.editingStackName m.getStackModalValues ⟨m.editingStackName, "", "", false⟩ := by
  refine ⟨?_, hcompose, ?_, fun _ => henv⟩
  · by_cases hediting : m.editingStackName = ""
    · have hblank : Js.trim (textInput "") = "" := by decide +kernel
      simp [StackModal.getStackModalValues, hname, hediting, hblank]
    · exact if_pos hediting
  · simp [StackModal.getStackModalValues, StackModal.shouldSaveStackEnv, henv, hexists]

/-- Opening the dialog shows an empty one, or one that is loading. -/
theorem phase_openStackModal (name : String) (h : p.modal.shown = false)
    (hflags : p.modal.Flags false false none) :
    Phase (p.openStackModal name).1 (p.openStackModal name).2 := by
  obtain ⟨hloading, hsaving, haction⟩ := hflags
  rw [openStackModal]
  split
  · exact .hidden h ⟨hloading, hsaving, haction⟩
  · obtain ⟨pending, confirming, error, envDelete, hset, -⟩ := StackModal.setValues_eq
      { p.modal with
        editingStackName := name
        name := textInput name
        disabled := { p.modal.disabled with name := name ≠ "" } } "" ""
    simp only [hset]
    simp only [haction, if_true]
    split
    · rename_i hname
      exact .loading ⟨rfl, rfl, textArea_textArea _, _, rfl, matches_empty rfl rfl rfl rfl⟩
        ⟨rfl, hsaving, rfl⟩ hname rfl
    · exact .idle ⟨rfl, rfl, textArea_textArea _, _, rfl, matches_empty rfl rfl rfl rfl⟩
        ⟨hloading, hsaving, rfl⟩

/-- A stack that was loaded is what the dialog compares with. -/
theorem phase_stackLoaded (payload : Option StackPayload) (h : Phase p [.load]) :
    Phase (p.stackLoaded payload) [] := by
  cases h with
  | loading h hflags hediting hkept =>
      obtain ⟨-, hsaving, haction⟩ := hflags
      rcases payload with _ | payload
      · exact .idle (h.congr rfl rfl rfl rfl rfl rfl) ⟨rfl, hsaving, haction⟩
      · obtain ⟨pending, confirming, error, envDelete, hset, hpending⟩ :=
          p.modal.setValues_eq payload.composeYaml payload.env
        obtain rfl := hpending hkept
        simp only [stackLoaded, hset]
        refine .idle ⟨h.shown, rfl, textArea_textArea _, _, rfl, if_pos hediting, rfl, ?_,
          fun _ => rfl⟩ ⟨rfl, hsaving, haction⟩
        exact payload.presence

/-- If the stack could not be loaded, the dialog can only be closed. -/
theorem phase_stackLoadFailed (message : String) (h : Phase p [.load]) :
    Phase (p.stackLoadFailed message) [] := by
  cases h with
  | loading h hflags hediting hkept =>
      obtain ⟨-, hsaving, haction⟩ := hflags
      exact .idle (h.congr rfl rfl rfl rfl rfl rfl) ⟨rfl, hsaving, haction⟩

/-- Closing the dialog hides it, or leaves it as it is but for its error. -/
theorem closeStackModal_cases (m : StackModal) (discard : Bool) :
    (∃ error, m.closeStackModal discard = { m with error := error }) ∨
      ((discard = true ∨ m.getStackModalChangedFields = []) ∧
        m.closeStackModal discard =
          { m with shown := false, editingStackName := "", savedValues := none }) := by
  rw [StackModal.closeStackModal]
  split
  · exact .inl ⟨m.error, rfl⟩
  · split
    · exact .inl ⟨_, rfl⟩
    · rename_i hclean
      refine .inr ⟨?_, rfl⟩
      cases discard
      · exact .inr (by simpa using hclean)
      · exact .inl rfl

/-- Closing the dialog. -/
theorem phase_closeStackModal (discard : Bool) (h : p.Shown)
    (hflags : p.modal.Flags false false none) :
    Phase { p with modal := p.modal.closeStackModal discard } [] := by
  obtain ⟨error, hclose⟩ | ⟨-, hclose⟩ := closeStackModal_cases p.modal discard
  · rw [hclose]
    exact .idle (h.congr rfl h.disabled rfl rfl rfl rfl) hflags
  · rw [hclose]
    exact .hidden rfl hflags

/-- A dialog that closes without being told to discard shows what is stored. -/
theorem not_edited_of_closed (h : p.Shown)
    (hclosed : (p.modal.closeStackModal false).shown = false) : ¬ p.Edited := by
  obtain ⟨error, hclose⟩ | ⟨hclean | hclean, hclose⟩ := closeStackModal_cases p.modal false
  · rw [hclose] at hclosed
    exact absurd (h.shown.symm.trans hclosed) (by decide)
  · cases hclean
  · obtain ⟨v, hsaved, hmatches⟩ := h.anchored
    rw [Edited, not_not, (StackModal.changedFields_eq_nil_iff hsaved).mp hclean]
    exact hmatches

/-- The save of a button that has ended leaves the dialog as it is; that of an action starts the
action, if it succeeded. -/
theorem phase_saveEnded {caller : SaveCaller} {click : ℕ} {ok : Bool} (h : p.Shown)
    (hflags : p.modal.Flags false false caller.inProgress)
    (hok : ok = true → click ∈ p.savedClicks) :
    Phase (p.saveEnded caller click ok).1 (p.saveEnded caller click ok).2 := by
  obtain ⟨hloading, hsaving, haction⟩ := hflags
  cases caller with
  | button closeOnSuccess => exact .idle h ⟨hloading, hsaving, haction⟩
  | action act name =>
      rw [saveEnded]
      cases ok
      · exact .idle (h.congr rfl rfl rfl rfl rfl rfl) ⟨hloading, hsaving, rfl⟩
      · simp only [if_true]
        split
        · exact .idle (h.congr rfl rfl rfl rfl rfl rfl) ⟨hloading, hsaving, rfl⟩
        · exact .acting (h.congr rfl rfl rfl rfl rfl rfl) ⟨hloading, hsaving, rfl⟩ (hok rfl)

/-- What `saveEnded` leaves of the dialog. -/
theorem keepsEdits_saveEnded (p : ModalPage) (caller : SaveCaller) (click : ℕ) (ok : Bool) :
    p.modal.KeepsEdits (p.saveEnded caller click ok).1.modal ∧
      (p.saveEnded caller click ok).1.modal.compose = p.modal.compose ∧
      (p.saveEnded caller click ok).1.modal.shown = p.modal.shown ∧
      (p.saveEnded caller click ok).1.stored = p.stored := by
  cases caller with
  | button closeOnSuccess => exact ⟨⟨rfl, rfl, rfl, rfl, rfl, rfl⟩, rfl, rfl, rfl⟩
  | action act name =>
      rw [saveEnded]
      cases ok
      · exact ⟨⟨rfl, rfl, rfl, rfl, rfl, rfl⟩, rfl, rfl, rfl⟩
      · simp only [if_true]
        split
        · exact ⟨⟨rfl, rfl, rfl, rfl, rfl, rfl⟩, rfl, rfl, rfl⟩
        · exact ⟨⟨rfl, rfl, rfl, rfl, rfl, rfl⟩, rfl, rfl, rfl⟩

/-- Asking to save sends what is shown, or ends at once. -/
theorem phase_saveStackFromModal {caller : SaveCaller} {click : ℕ} {before : StackModal}
    (h : p.Shown) (hflags : p.modal.Flags false false caller.inProgress)
    (hkept : before.KeepsEdits p.modal) (hcompose : before.compose = p.modal.compose) :
    Phase (p.saveStackFromModal caller click before).1
      (p.saveStackFromModal caller click before).2 := by
  have hend := @phase_saveEnded _ caller click false h hflags nofun
  rw [saveStackFromModal]
  split
  · exact hend
  split
  · exact hend
  split
  · exact hend
  obtain ⟨hloading, hsaving, haction⟩ := hflags
  obtain ⟨error, hset⟩ :=
    p.modal.clearStackModalError.setComposeValue_eq (normalizeCompose p.modal.compose)
  simp only [hset]
  simp only [StackModal.showStackModalError, StackModal.clearStackModalError]
  split
  · refine phase_saveEnded ?_ ?_ nofun
    · exact h.congr rfl h.disabled rfl rfl rfl rfl
    · exact ⟨hloading, hsaving, haction⟩
  · refine .validating (h.congr rfl rfl rfl rfl rfl rfl) ⟨hloading, rfl, haction⟩
      ⟨rfl, rfl, ?_, rfl, rfl, ⟨hkept.editing, hkept.name, hkept.env, hkept.envExists,
        hkept.envDelete, hkept.saved⟩⟩
    rw [hcompose]

/-- A request of a save that fails ends it. -/
theorem phase_saveFailed {call : SaveCall} (message : String) (h : p.Shown)
    (hflags : p.modal.Flags false true call.caller.inProgress) :
    Phase (p.saveFailed call message).1 (p.saveFailed call message).2 := by
  obtain ⟨hloading, -, haction⟩ := hflags
  rw [saveFailed, endSave]
  refine phase_saveEnded ?_ ⟨hloading, rfl, haction⟩ nofun
  exact h.congr rfl rfl rfl rfl rfl rfl

/-- A save that succeeds sets the values to compare with. -/
theorem phase_stackSaved {call : SaveCall} (h : p.Shown)
    (hflags : p.modal.Flags false true call.caller.inProgress) (hcall : call.Sends p) :
    Phase (p.stackSaved call) [.refresh call] := by
  obtain ⟨hloading, hsaving, haction⟩ := hflags
  have huseEnv := hcall.useEnv
  have henv := hcall.env
  rw [StackModal.shouldSaveStackEnv] at huseEnv
  rcases hpending : p.modal.stackEnvDeletePending with _ | _
  · have hstored : call.useEnv = (call.useEnv || Js.trim p.modal.env ≠ "") := by
      rw [huseEnv, hpending]
      cases p.modal.stackEnvExists <;> simp
    simp only [stackSaved, hpending]
    refine .refreshing ⟨h.shown, ?_, h.env, _, rfl, hcall.name.symm, hcall.compose,
      hstored.symm, fun hsome => ?_⟩ ⟨hloading, hsaving, haction⟩ rfl List.mem_cons_self
    · simp only [Bool.false_eq_true, if_false, StackModal.updateStackEnvDeleteButton, h.disabled]
      rfl
    · have hsent : call.useEnv = true := hstored.trans hsome
      rw [henv, if_pos hsent]
      exact h.env.symm
  · have hnone : call.useEnv = false := by
      rw [huseEnv, if_pos hpending]
    obtain ⟨pending, confirming, error, envDelete, hset, -⟩ :=
      StackModal.setEnvValue_eq { p.modal with stackEnvExists := call.useEnv } ""
    have hnoEnv : (call.useEnv || Js.trim (textArea "") ≠ "") = call.useEnv := by
      simp [hnone]
    simp only [hpending] at hset
    simp only [stackSaved, hpending, if_true, hset]
    refine .refreshing ⟨h.shown, ?_, textArea_textArea _, _, rfl, hcall.name.symm, hcall.compose,
      hnoEnv, fun hsome => ?_⟩ ⟨hloading, hsaving, haction⟩ rfl List.mem_cons_self
    · simp only [StackModal.updateStackEnvDeleteButton, h.disabled]
      rfl
    · exact absurd (hsome.symm.trans (hnoEnv.trans hnone)) (by decide)

/-- A dialog that waits for nothing is not saving. -/
theorem phase_endSave (h : Phase p []) : Phase p.endSave [] := by
  cases h with
  | hidden h hflags => exact .hidden h ⟨hflags.1, rfl, hflags.2.2⟩
  | idle h hflags =>
      exact .idle (h.congr rfl rfl rfl rfl rfl rfl) ⟨hflags.1, rfl, hflags.2.2⟩

/-- A save that is completed ends, and may close the dialog. -/
theorem phase_saveCompleted {call : SaveCall} (h : Phase p [.refresh call]) :
    Phase (p.saveCompleted call).1 (p.saveCompleted call).2 := by
  cases h with
  | refreshing h hflags hclean hclick =>
      obtain ⟨hloading, -, haction⟩ := hflags
      have hended : p.endSave.Shown := h.congr rfl rfl rfl rfl rfl rfl
      rw [saveCompleted]
      rcases hcaller : call.caller with closeOnSuccess | ⟨act, name⟩
      · rw [hcaller] at haction
        cases closeOnSuccess
        · exact .idle (hended.congr rfl rfl rfl rfl rfl rfl) ⟨hloading, rfl, haction⟩
        · exact phase_endSave (phase_closeStackModal false hended ⟨hloading, rfl, haction⟩)
      · rw [hcaller] at haction
        refine phase_saveEnded ?_ ⟨hloading, rfl, haction⟩ fun _ => hclick
        exact hended.congr rfl rfl rfl rfl rfl rfl

/-- An action that is finished leaves the dialog open. -/
theorem phase_actionFinished {act : ModalAction} {click : ℕ} (completed : Bool)
    (h : Phase p [.action act click]) : Phase (p.actionFinished act completed) [] := by
  cases h with
  | acting h hflags hclick =>
      obtain ⟨hloading, hsaving, -⟩ := hflags
      exact .idle (h.congr rfl rfl rfl rfl rfl rfl) ⟨hloading, hsaving, rfl⟩

/-! ### Steps -/

/-- While the dialog waits, it is shown and busy. -/
theorem phase_busy {waiting : List ModalWait} (h : Phase p waiting) (hwaiting : waiting ≠ []) :
    p.Shown ∧ p.modal.isBusy = true := by
  cases h with
  | hidden | idle => exact absurd rfl hwaiting
  | loading h hflags => exact ⟨h, by simp [StackModal.isBusy, hflags.1]⟩
  | validating h hflags => exact ⟨h, by simp [StackModal.isBusy, hflags.2.1]⟩
  | saving h hflags => exact ⟨h, by simp [StackModal.isBusy, hflags.2.1]⟩
  | refreshing h hflags => exact ⟨h, by simp [StackModal.isBusy, hflags.2.1]⟩
  | acting h hflags => exact ⟨h, by simp [StackModal.isBusy, hflags.2.2]⟩

/-- A busy dialog lets no `.env` be deleted. -/
theorem envDeleteDisabled_of_busy {m : StackModal} (h : m.isBusy = true) :
    m.envDeleteDisabled = true := by
  simp only [StackModal.isBusy, Bool.or_eq_true] at h
  rcases h with (hloading | hsaving) | haction
  · simp [StackModal.envDeleteDisabled, hloading]
  · simp [StackModal.envDeleteDisabled, hsaving]
  · simp [StackModal.envDeleteDisabled, haction]

/-- The controls of a busy dialog do nothing. -/
theorem handle_busy {e : ModalEvent} {new : List ModalWait} (h : p.Shown)
    (hbusy : p.modal.isBusy = true) (hstep : p.handle e = some (q, new)) :
    new = [] ∧ ∃ scope, q =
      { p with modal := { p.modal with containersSelectedScope := scope } } := by
  have hdisabled := h.disabled
  cases e with
  | selectScope scope =>
      obtain ⟨rfl, rfl⟩ := Prod.mk.inj (Option.some.inj hstep)
      exact ⟨rfl, scope, rfl⟩
  | dismiss =>
      have hclose : p.modal.closeStackModal false = p.modal := if_pos hbusy
      simp only [handle, h.shown, hclose, Bool.not_true, Bool.false_eq_true, if_false,
        Option.some.injEq, Prod.mk.injEq] at hstep
      obtain ⟨rfl, rfl⟩ := hstep
      exact ⟨rfl, p.modal.containersSelectedScope, rfl⟩
  | openStack name => simp [handle, h.shown] at hstep
  | clickEnvDelete =>
      simp [handle, hdisabled, StackModal.busyControls, envDeleteDisabled_of_busy hbusy] at hstep
  | _ => simp [handle, hdisabled, StackModal.busyControls, hbusy] at hstep

/-- The server that is selected is no part of the dialog. -/
theorem phase_selectScope {waiting : List ModalWait} (scope : String) (h : Phase p waiting) :
    Phase { p with modal := { p.modal with containersSelectedScope := scope } } waiting := by
  cases h with
  | hidden h hflags => exact .hidden h hflags
  | idle h hflags => exact .idle (h.congr rfl h.disabled rfl rfl rfl rfl) hflags
  | loading h hflags hediting hkept =>
      exact .loading (h.congr rfl h.disabled rfl rfl rfl rfl) hflags hediting hkept
  | validating h hflags hcall =>
      exact .validating (h.congr rfl h.disabled rfl rfl rfl rfl) hflags
        { hcall with kept := { hcall.kept with } }
  | saving h hflags hcall =>
      exact .saving (h.congr rfl h.disabled rfl rfl rfl rfl) hflags
        { hcall with kept := { hcall.kept with } }
  | refreshing h hflags hclean hclick =>
      exact .refreshing (h.congr rfl h.disabled rfl rfl rfl rfl) hflags hclean hclick
  | acting h hflags hclick =>
      exact .acting (h.congr rfl h.disabled rfl rfl rfl rfl) hflags hclick

/-- Editing the `.env` text keeps the dialog in order. -/
theorem Shown.envEdited (h : p.Shown) (value : String) :
    Shown { p with modal := { p.modal with env := textArea value }.envEdited } where
  shown := h.shown
  disabled := by
    simp only [StackModal.envEdited, StackModal.updateStackEnvDeleteButton,
      StackModal.clearStackModalError, StackModal.showStackModalError, h.disabled]
    rfl
  env := textArea_textArea value
  anchored := h.anchored

/-- The deletion of the `.env` file is asked for, confirmed or undone. -/
theorem Shown.envDeleteClicked (h : p.Shown) :
    Shown { p with modal := envDeleteClicked p.modal } := by
  rw [ModalPage.envDeleteClicked]
  split_ifs
  all_goals
    refine h.congr rfl ?_ rfl rfl rfl rfl
    simp only [StackModal.updateStackEnvDeleteButton, h.disabled]
    rfl

/-- A click counts, and changes nothing in the dialog. -/
theorem Shown.clicked (h : p.Shown) : Shown { p with clicks := p.clicks + 1 } :=
  h.congr rfl h.disabled rfl rfl rfl rfl

/-- Asking for an action asks for a save first. -/
theorem phase_runStackActionFromModal (act : ModalAction) (h : p.Shown)
    (hflags : p.modal.Flags false false none) :
    Phase (p.runStackActionFromModal act).1 (p.runStackActionFromModal act).2 := by
  have hidle : Phase { p with clicks := p.clicks + 1 } [] := .idle h.clicked hflags
  obtain ⟨hloading, hsaving, -⟩ := hflags
  rw [runStackActionFromModal]
  split
  · exact hidle
  split
  · exact hidle
  split
  · exact hidle
  refine phase_saveStackFromModal ?_ ⟨hloading, hsaving, rfl⟩ ⟨rfl, rfl, rfl, rfl, rfl, rfl⟩ rfl
  exact h.congr rfl rfl rfl rfl rfl rfl

/-- A control that is not disabled does what it is for. -/
theorem of_guard {α : Type} {c : Bool} {x y : α} (h : (if c then none else some x) = some y) :
    x = y := by
  cases c
  · exact Option.some.inj h
  · cases h

/-- What a user does while nothing is under way. -/
theorem phase_handle_idle {e : ModalEvent} {new : List ModalWait} (h : Phase p [])
    (hstep : p.handle e = some (q, new)) : Phase q new := by
  cases h with
  | hidden hhidden hflags =>
      cases e with
      | selectScope scope =>
          obtain ⟨rfl, rfl⟩ := Prod.mk.inj (Option.some.inj hstep)
          exact .hidden hhidden hflags
      | openStack name =>
          simp only [handle, hhidden, Bool.false_eq_true, if_false, Option.some.injEq] at hstep
          have hopen := phase_openStackModal name hhidden hflags
          rwa [hstep] at hopen
      | _ => simp [handle, hhidden] at hstep
  | idle h hflags =>
      have hloading := hflags.1
      have hsaving := hflags.2.1
      have haction := hflags.2.2
      cases e with
      | selectScope scope =>
          obtain ⟨rfl, rfl⟩ := Prod.mk.inj (Option.some.inj hstep)
          exact phase_selectScope scope (.idle h hflags)
      | openStack name => simp [handle, h.shown] at hstep
      | typeName value =>
          obtain ⟨rfl, rfl⟩ := Prod.mk.inj (of_guard hstep)
          exact .idle (h.congr rfl h.disabled rfl rfl rfl rfl) hflags
      | typeCompose value =>
          obtain ⟨rfl, rfl⟩ := Prod.mk.inj (of_guard hstep)
          exact .idle (h.congr rfl h.disabled rfl rfl rfl rfl) hflags
      | typeEnv value =>
          obtain ⟨rfl, rfl⟩ := Prod.mk.inj (of_guard hstep)
          exact .idle (h.envEdited value) hflags
      | clickEnvDelete =>
          obtain ⟨rfl, rfl⟩ := Prod.mk.inj (of_guard hstep)
          refine .idle h.envDeleteClicked ?_
          rw [envDeleteClicked]
          split_ifs
          all_goals exact hflags
      | clickSave closeOnSuccess =>
          have hsave := @phase_saveStackFromModal _ (.button closeOnSuccess) p.clicks p.modal
            h.clicked hflags ⟨rfl, rfl, rfl, rfl, rfl, rfl⟩ rfl
          rwa [of_guard hstep] at hsave
      | clickAction act =>
          have hrun := phase_runStackActionFromModal act h hflags
          rwa [of_guard hstep] at hrun
      | clickClose =>
          obtain ⟨rfl, rfl⟩ := Prod.mk.inj (of_guard hstep)
          exact phase_closeStackModal false h hflags
      | clickCancel =>
          obtain ⟨rfl, rfl⟩ := Prod.mk.inj (of_guard hstep)
          exact phase_closeStackModal true h hflags
      | dismiss =>
          obtain ⟨rfl, rfl⟩ := Prod.mk.inj (of_guard hstep)
          exact phase_closeStackModal false h hflags

/-- What comes of an answer. -/
theorem phase_resume {k : ModalWait} {r : ModalAnswer} {new : List ModalWait} (h : Phase p [k])
    (hstep : p.resume k r = some (q, new)) : Phase q new := by
  cases h with
  | loading h hflags hediting hkept =>
      have hload : Phase p [.load] := .loading h hflags hediting hkept
      cases r with
      | loaded payload =>
          obtain ⟨rfl, rfl⟩ := Prod.mk.inj (Option.some.inj hstep)
          exact phase_stackLoaded payload hload
      | failed message =>
          obtain ⟨rfl, rfl⟩ := Prod.mk.inj (Option.some.inj hstep)
          exact phase_stackLoadFailed message hload
      | _ => cases hstep
  | validating h hflags hcall =>
      cases r with
      | valid =>
          obtain ⟨rfl, rfl⟩ := Prod.mk.inj (Option.some.inj hstep)
          exact .saving h hflags hcall
      | invalid message =>
          obtain ⟨rfl, rfl⟩ := Prod.ext_iff.mp (Option.some.inj hstep)
          exact phase_saveFailed _ h hflags
      | failed message =>
          obtain ⟨rfl, rfl⟩ := Prod.ext_iff.mp (Option.some.inj hstep)
          exact phase_saveFailed _ h hflags
      | _ => cases hstep
  | saving h hflags hcall =>
      cases r with
      | saved =>
          obtain ⟨rfl, rfl⟩ := Prod.mk.inj (Option.some.inj hstep)
          exact phase_stackSaved h hflags hcall
      | failed message =>
          obtain ⟨rfl, rfl⟩ := Prod.ext_iff.mp (Option.some.inj hstep)
          exact phase_saveFailed _ h hflags
      | _ => cases hstep
  | refreshing h hflags hclean hclick =>
      have hrefresh : Phase p [.refresh _] := .refreshing h hflags hclean hclick
      cases r with
      | refreshed =>
          obtain ⟨rfl, rfl⟩ := Prod.ext_iff.mp (Option.some.inj hstep)
          exact phase_saveCompleted hrefresh
      | _ => cases hstep
  | acting h hflags hclick =>
      have hacting : Phase p [.action _ _] := .acting h hflags hclick
      cases r with
      | finished completed =>
          obtain ⟨rfl, rfl⟩ := Prod.mk.inj (Option.some.inj hstep)
          exact phase_actionFinished completed hacting
      | _ => cases hstep

/-! ### What a step leaves as it is -/

/-- What a save leaves of the dialog when it has just been asked for. -/
theorem saveStackFromModal_kept (p : ModalPage) (caller : SaveCaller) (click : ℕ)
    (before : StackModal) :
    p.modal.KeepsEdits (p.saveStackFromModal caller click before).1.modal ∧
      ((p.saveStackFromModal caller click before).1.modal.compose = p.modal.compose ∨
        (p.saveStackFromModal caller click before).1.modal.compose =
          textArea (normalizeCompose p.modal.compose)) ∧
      (p.saveStackFromModal caller click before).1.modal.shown = p.modal.shown := by
  obtain ⟨hkept, hcompose, hshown, -⟩ := p.keepsEdits_saveEnded caller click false
  rw [saveStackFromModal]
  split
  · exact ⟨hkept, .inl hcompose, hshown⟩
  split
  · exact ⟨hkept, .inl hcompose, hshown⟩
  split
  · exact ⟨hkept, .inl hcompose, hshown⟩
  obtain ⟨error, hset⟩ :=
    p.modal.clearStackModalError.setComposeValue_eq (normalizeCompose p.modal.compose)
  simp only [hset]
  simp only [StackModal.showStackModalError, StackModal.clearStackModalError]
  split
  · obtain ⟨hkept, hcompose, hshown, -⟩ := keepsEdits_saveEnded { p with
      modal := { p.modal with
        compose := textArea (normalizeCompose p.modal.compose)
        error := Js.trim "docker-compose.yml is required." } } caller click false
    exact ⟨⟨hkept.editing, hkept.name, hkept.env, hkept.envExists, hkept.envDelete, hkept.saved⟩,
      .inr hcompose, hshown⟩
  · exact ⟨⟨rfl, rfl, rfl, rfl, rfl, rfl⟩, .inr rfl, rfl⟩

/-- The end of a save that was not successful makes no request. -/
theorem saveEnded_false (p : ModalPage) (caller : SaveCaller) (click : ℕ) :
    (p.saveEnded caller click false).2 = [] := by
  cases caller <;> rfl

/-- The first request of a save belongs to the click. -/
theorem call_of_saveStackFromModal {caller : SaveCaller} {click : ℕ} {before : StackModal}
    {k : ModalWait} (h : k ∈ (p.saveStackFromModal caller click before).2) :
    ∃ call, k = .validate call ∧ call.click = click ∧ call.before = before ∧
      call.caller = caller := by
  rw [saveStackFromModal] at h
  split at h
  · rw [saveEnded_false] at h
    cases h
  split at h
  · rw [saveEnded_false] at h
    cases h
  split at h
  · rw [saveEnded_false] at h
    cases h
  simp only at h
  split at h
  · rw [saveEnded_false] at h
    cases h
  · rw [List.mem_singleton] at h
    exact ⟨_, h, rfl, rfl, rfl⟩

/-- The operation is no edit. -/
theorem keepsEdits_of_operation {m m' : StackModal} {act : Option ModalAction} {message : String}
    (h : (m.setStackModalOperation act message).KeepsEdits m') : m.KeepsEdits m' := by
  obtain ⟨hediting, hname, henv, hexists, hdelete, hsaved⟩ := h
  exact ⟨hediting, hname, henv, hexists, hdelete, hsaved⟩

/-- What asking for an action leaves of the dialog, and the request that it makes. -/
theorem runStackActionFromModal_kept (p : ModalPage) (act : ModalAction) :
    p.modal.KeepsEdits (p.runStackActionFromModal act).1.modal ∧
      ((p.runStackActionFromModal act).1.modal.compose = p.modal.compose ∨
        (p.runStackActionFromModal act).1.modal.compose =
          textArea (normalizeCompose p.modal.compose)) ∧
      (p.runStackActionFromModal act).1.modal.shown = p.modal.shown ∧
      ∀ call, .validate call ∈ (p.runStackActionFromModal act).2 →
        call.click = p.clicks ∧ call.before = p.modal := by
  have hkept : p.modal.KeepsEdits p.modal := ⟨rfl, rfl, rfl, rfl, rfl, rfl⟩
  rw [runStackActionFromModal]
  split
  · exact ⟨hkept, .inl rfl, rfl, fun _ hmem => absurd hmem List.not_mem_nil⟩
  split
  · exact ⟨hkept, .inl rfl, rfl, fun _ hmem => absurd hmem List.not_mem_nil⟩
  split
  · exact ⟨hkept, .inl rfl, rfl, fun _ hmem => absurd hmem List.not_mem_nil⟩
  obtain ⟨hsave, hcompose, hshown⟩ := saveStackFromModal_kept { p with
    clicks := p.clicks + 1
    modal := p.modal.setStackModalOperation (some act) "Saving stack configuration…" }
    (.action act p.stackName) p.clicks p.modal
  refine ⟨keepsEdits_of_operation hsave, hcompose, hshown, fun call hmem => ?_⟩
  obtain ⟨call', hcall, hclick, hbefore, -⟩ := call_of_saveStackFromModal hmem
  obtain rfl := ModalWait.validate.inj hcall
  exact ⟨hclick, hbefore⟩

/-- A request of a save that fails leaves the edits as they are. -/
theorem saveFailed_kept (p : ModalPage) (call : SaveCall) (message : String) :
    p.modal.KeepsEdits (p.saveFailed call message).1.modal ∧
      (p.saveFailed call message).1.modal.compose = p.modal.compose ∧
      (p.saveFailed call message).1.modal.shown = p.modal.shown ∧
      (p.saveFailed call message).1.stored = p.stored := by
  obtain ⟨hkept, hcompose, hshown, hstored⟩ := keepsEdits_saveEnded
    (endSave { p with modal := p.modal.showStackModalError message }) call.caller call.click false
  exact ⟨⟨hkept.editing, hkept.name, hkept.env, hkept.envExists, hkept.envDelete, hkept.saved⟩,
    hcompose, hshown, hstored⟩

/-- An event closes the dialog if it discards, or if nothing was edited. -/
theorem closed_of_handle {e : ModalEvent} {new : List ModalWait} (h : p.Shown)
    (hstep : p.handle e = some (q, new)) (hhidden : q.modal.shown = false) :
    e = .clickCancel ∨ ¬ p.Edited := by
  have hsame (heq : q.modal.shown = p.modal.shown) : e = .clickCancel ∨ ¬ p.Edited :=
    absurd (h.shown.symm.trans (heq.symm.trans hhidden)) (by decide)
  cases e with
  | selectScope scope =>
      obtain ⟨rfl, -⟩ := Prod.mk.inj (Option.some.inj hstep)
      exact hsame rfl
  | openStack name => simp [handle, h.shown] at hstep
  | typeName value =>
      obtain ⟨rfl, -⟩ := Prod.mk.inj (of_guard hstep)
      exact hsame rfl
  | typeCompose value =>
      obtain ⟨rfl, -⟩ := Prod.mk.inj (of_guard hstep)
      exact hsame rfl
  | typeEnv value =>
      obtain ⟨rfl, -⟩ := Prod.mk.inj (of_guard hstep)
      exact hsame rfl
  | clickEnvDelete =>
      obtain ⟨rfl, -⟩ := Prod.mk.inj (of_guard hstep)
      refine hsame ?_
      rw [envDeleteClicked]
      split_ifs <;> rfl
  | clickSave closeOnSuccess =>
      obtain ⟨rfl, -⟩ := Prod.ext_iff.mp (of_guard hstep)
      exact hsame (saveStackFromModal_kept _ _ _ _).2.2
  | clickAction act =>
      obtain ⟨rfl, -⟩ := Prod.ext_iff.mp (of_guard hstep)
      exact hsame (p.runStackActionFromModal_kept act).2.2.1
  | clickClose =>
      obtain ⟨rfl, -⟩ := Prod.mk.inj (of_guard hstep)
      exact .inr (not_edited_of_closed h hhidden)
  | clickCancel => exact .inl rfl
  | dismiss =>
      obtain ⟨rfl, -⟩ := Prod.mk.inj (of_guard hstep)
      exact .inr (not_edited_of_closed h hhidden)

/-- The answer to the load neither opens nor closes the dialog. -/
theorem stackLoaded_shown (p : ModalPage) (payload : Option StackPayload) :
    (p.stackLoaded payload).modal.shown = p.modal.shown := by
  rcases payload with _ | payload
  · rfl
  · obtain ⟨pending, confirming, error, envDelete, hset, -⟩ :=
      p.modal.setValues_eq payload.composeYaml payload.env
    simp only [stackLoaded, hset]
    rfl

end ModalPage

/-- **What the dialog may wait for**, after any events and answers. -/
theorem phase_run {codeMirror : Bool} {scope : String} {es : List ModalLabel}
    {q : ModalConfig}
    (h : Run modalLoop.Step ⟨closedModal codeMirror scope, []⟩ es q) :
    Phase q.state q.waiting := by
  refine h.state_invariant (fun q => Phase q.state q.waiting) (.hidden rfl ⟨rfl, rfl, rfl⟩) ?_
  rintro ⟨p, waiting⟩ l r hphase hstep
  rcases waiting with _ | ⟨k, waiting⟩
  · obtain ⟨e, -, hevent⟩ := EventLoop.step_idle hstep
    exact ModalPage.phase_handle_idle hphase hevent
  · have hsingle : waiting = [] := by cases hphase <;> rfl
    subst hsingle
    obtain ⟨hshown, hbusy⟩ := ModalPage.phase_busy hphase (List.cons_ne_nil _ _)
    rcases EventLoop.step_single hstep with ⟨e, new, -, hevent, hwaiting⟩ | ⟨r, -, hanswer⟩
    · obtain ⟨rfl, scope, hstate⟩ := ModalPage.handle_busy hshown hbusy hevent
      rw [hwaiting, hstate]
      exact ModalPage.phase_selectScope scope hphase
    · exact ModalPage.phase_resume hphase hanswer

/-- An answer that ends a save without success. -/
def ModalAnswer.Refuses : ModalAnswer → Prop
  | .failed _ | .invalid _ => True
  | _ => False

/-- The dialog does one thing at a time: while it waits it is shown, while it does not its flags are
off, and an action belongs to a click whose save has succeeded. -/
structure OneAtATime (q : ModalConfig) : Prop where
  single : q.waiting.length ≤ 1
  shown : q.waiting ≠ [] → q.state.modal.shown = true
  free : q.waiting = [] → q.state.modal.Flags false false none
  saved : ∀ act click, .action act click ∈ q.waiting → click ∈ q.state.savedClicks

/-- What a step keeps. The dialog closes only if it is told to discard, or shows what is stored.
While it waits, no event changes it or starts a request. A save that is refused leaves the edits as
they were at the click, with the Compose text normalized. -/
structure StepKept (q : ModalConfig) (l : ModalLabel) (r : ModalConfig) : Prop where
  closes : q.state.modal.shown = true → r.state.modal.shown = false →
    l = .event .clickCancel ∨ ¬ q.state.Edited
  blocked : q.waiting ≠ [] → ∀ e, l = .event e → r.waiting = q.waiting ∧ ∃ scope, r.state =
    { q.state with modal := { q.state.modal with containersSelectedScope := scope } }
  asked : ∀ e, (∃ close, e = .clickSave close) ∨ (∃ act, e = .clickAction act) → l = .event e →
    q.waiting = [] → q.state.modal.KeepsEdits r.state.modal ∧
      (r.state.modal.compose = q.state.modal.compose ∨
        r.state.modal.compose = textArea (normalizeCompose q.state.modal.compose)) ∧
      ∀ call, .validate call ∈ r.waiting → call.click = q.state.clicks ∧
        call.before = q.state.modal
  refused : ∀ call answer, l = .answer (.validate call) answer ∨ l = .answer (.save call) answer →
    answer.Refuses → call.before.KeepsEdits r.state.modal ∧
      r.state.modal.compose = textArea (normalizeCompose call.before.compose) ∧
      r.state.stored = q.state.stored

/-- The dialog does one thing at a time in each phase. -/
theorem oneAtATime_of_phase {q : ModalConfig} (h : Phase q.state q.waiting) : OneAtATime q := by
  obtain ⟨p, waiting⟩ := q
  refine ⟨by cases h <;> simp, fun hwaiting => (ModalPage.phase_busy h hwaiting).1.shown, ?_, ?_⟩
  · rintro rfl
    cases h with
    | hidden h hflags => exact hflags
    | idle h hflags => exact hflags
  · intro act click hmem
    cases h with
    | acting h hflags hclick =>
        obtain ⟨rfl, rfl⟩ := ModalWait.action.inj (List.mem_singleton.mp hmem)
        exact hclick
    | _ => simp at hmem

/-- A dialog that is refreshing its list shows what is stored. -/
theorem not_edited_of_refreshing {p : ModalPage} {call : SaveCall}
    (h : Phase p [.refresh call]) : ¬ p.Edited := by
  cases h with
  | refreshing h hflags hclean hclick =>
      obtain ⟨v, hsaved, hmatches⟩ := h.anchored
      rw [ModalPage.Edited, not_not, Option.some.inj (hclean.symm.trans hsaved)]
      exact hmatches

/-- An answer closes the dialog only if it shows what is stored. -/
theorem closed_of_resume {p q : ModalPage} {k : ModalWait} {answer : ModalAnswer}
    {new : List ModalWait} (h : Phase p [k]) (hstep : p.resume k answer = some (q, new))
    (hhidden : q.modal.shown = false) : ¬ p.Edited := by
  have hshown := (ModalPage.phase_busy h (List.cons_ne_nil _ _)).1.shown
  have hnone : new = [] := by
    by_contra hnew
    have hbusy := (ModalPage.phase_busy (ModalPage.phase_resume h hstep) hnew).1.shown
    exact absurd (hbusy.symm.trans hhidden) (by decide)
  have hsame (heq : q.modal.shown = p.modal.shown) : ¬ p.Edited :=
    absurd (hshown.symm.trans (heq.symm.trans hhidden)) (by decide)
  subst hnone
  cases k with
  | refresh call => exact not_edited_of_refreshing h
  | load =>
      cases answer with
      | loaded payload =>
          obtain ⟨rfl, -⟩ := Prod.mk.inj (Option.some.inj hstep)
          exact hsame (p.stackLoaded_shown payload)
      | failed message =>
          obtain ⟨rfl, -⟩ := Prod.mk.inj (Option.some.inj hstep)
          exact hsame rfl
      | _ => cases hstep
  | validate call =>
      cases answer with
      | invalid message | failed message =>
          obtain ⟨rfl, -⟩ := Prod.ext_iff.mp (Option.some.inj hstep)
          exact hsame (p.saveFailed_kept call _).2.2.1
      | _ => cases hstep
  | save call =>
      cases answer with
      | failed message =>
          obtain ⟨rfl, -⟩ := Prod.ext_iff.mp (Option.some.inj hstep)
          exact hsame (p.saveFailed_kept call _).2.2.1
      | _ => cases hstep
  | action act click =>
      cases answer with
      | finished completed =>
          obtain ⟨rfl, -⟩ := Prod.mk.inj (Option.some.inj hstep)
          exact hsame rfl
      | _ => cases hstep

/-- A save that is refused leaves the dialog as it was at the click. -/
theorem kept_of_refused {p q : ModalPage} {call : SaveCall} {k : ModalWait}
    {answer : ModalAnswer} {new : List ModalWait} (hk : k = .validate call ∨ k = .save call)
    (hrefuses : answer.Refuses) (h : Phase p [k]) (hstep : p.resume k answer = some (q, new)) :
    call.before.KeepsEdits q.modal ∧
      q.modal.compose = textArea (normalizeCompose call.before.compose) ∧
      q.stored = p.stored := by
  have hsends : call.Sends p := by
    rcases hk with rfl | rfl
    · cases h with
      | validating h hflags hcall => exact hcall
    · cases h with
      | saving h hflags hcall => exact hcall
  have hfailed : ∃ message, (q, new) = p.saveFailed call message := by
    rcases hk with rfl | rfl
    · cases answer with
      | invalid message | failed message => exact ⟨_, (Option.some.inj hstep).symm⟩
      | _ => exact absurd hrefuses id
    · cases answer with
      | failed message => exact ⟨_, (Option.some.inj hstep).symm⟩
      | invalid message => cases hstep
      | _ => exact absurd hrefuses id
  obtain ⟨message, hfailed⟩ := hfailed
  obtain ⟨rfl, -⟩ := Prod.ext_iff.mp hfailed
  obtain ⟨hkept, hcompose, -, hstored⟩ := p.saveFailed_kept call message
  refine ⟨⟨?_, ?_, ?_, ?_, ?_, ?_⟩, ?_, hstored⟩
  · exact hkept.editing.trans hsends.kept.editing
  · exact hkept.name.trans hsends.kept.name
  · exact hkept.env.trans hsends.kept.env
  · exact hkept.envExists.trans hsends.kept.envExists
  · exact hkept.envDelete.trans hsends.kept.envDelete
  · exact hkept.saved.trans hsends.kept.saved
  · rw [hcompose, hsends.compose, hsends.normalized]

/-- **What a step keeps.** -/
theorem stepKept_of_phase {q r : ModalConfig} {l : ModalLabel} (h : Phase q.state q.waiting)
    (hstep : modalLoop.Step q l r) : StepKept q l r := by
  obtain ⟨p, waiting⟩ := q
  rcases waiting with _ | ⟨k, waiting⟩
  · obtain ⟨e, rfl, hevent⟩ := EventLoop.step_idle hstep
    refine ⟨fun hshown hhidden => ?_, fun hwaiting => absurd rfl hwaiting, ?_, by simp⟩
    · cases h with
      | hidden h hflags => exact absurd (h.symm.trans hshown) (by decide)
      | idle h hflags =>
          rcases ModalPage.closed_of_handle h hevent hhidden with rfl | hclean
          · exact .inl rfl
          · exact .inr hclean
    · rintro _ (⟨close, rfl⟩ | ⟨act, rfl⟩) hlabel -
      · obtain rfl := EventLoop.Label.event.inj hlabel
        obtain ⟨hpage, hwaiting⟩ := Prod.ext_iff.mp (ModalPage.of_guard hevent)
        simp only at hpage hwaiting
        obtain ⟨hkept, hcompose, -⟩ := ModalPage.saveStackFromModal_kept
          { p with clicks := p.clicks + 1 } (.button close) p.clicks p.modal
        rw [← hpage, ← hwaiting]
        refine ⟨hkept, hcompose, fun call hmem => ?_⟩
        obtain ⟨call', hcall, hclick, hbefore, -⟩ := ModalPage.call_of_saveStackFromModal hmem
        obtain rfl := ModalWait.validate.inj hcall
        exact ⟨hclick, hbefore⟩
      · obtain rfl := EventLoop.Label.event.inj hlabel
        obtain ⟨hpage, hwaiting⟩ := Prod.ext_iff.mp (ModalPage.of_guard hevent)
        simp only at hpage hwaiting
        obtain ⟨hkept, hcompose, -, hcall⟩ := p.runStackActionFromModal_kept act
        rw [← hpage, ← hwaiting]
        exact ⟨hkept, hcompose, hcall⟩
  · have hsingle : waiting = [] := by cases h <;> rfl
    subst hsingle
    have hne : ([k] : List ModalWait) ≠ [] := List.cons_ne_nil _ _
    obtain ⟨hshown, hbusy⟩ := ModalPage.phase_busy h hne
    rcases EventLoop.step_single hstep with ⟨e, new, rfl, hevent, hwaiting⟩ | ⟨answer, rfl, hanswer⟩
    · obtain ⟨rfl, scope, hstate⟩ := ModalPage.handle_busy hshown hbusy hevent
      refine ⟨fun _ hhidden => ?_, fun _ _ _ => ⟨hwaiting, scope, hstate⟩,
        fun _ _ _ hnone => absurd hnone hne, by simp⟩
      rw [hstate] at hhidden
      exact absurd (hshown.shown.symm.trans hhidden) (by decide)
    · refine ⟨fun _ hhidden => .inr (closed_of_resume h hanswer hhidden),
        fun _ e hlabel => (nomatch hlabel), fun e _ hlabel => (nomatch hlabel), ?_⟩
      rintro call answer' hlabel hrefuses
      have hk : k = .validate call ∨ k = .save call := by
        rcases hlabel with hlabel | hlabel
        · exact .inl (EventLoop.Label.answer.inj hlabel).1
        · exact .inr (EventLoop.Label.answer.inj hlabel).1
      have hanswer' : answer = answer' := by
        rcases hlabel with hlabel | hlabel
        · exact (EventLoop.Label.answer.inj hlabel).2
        · exact (EventLoop.Label.answer.inj hlabel).2
      subst hanswer'
      exact kept_of_refused hk hrefuses h hanswer

/-- **The dialog**, after any events and answers in any order. It does one thing at a time, starts
an action only after the save of the same click has succeeded, and has no flag set when nothing is
under way. No step closes it with edits, unless it is told to discard them; a save that is refused
keeps them. -/
theorem run_modal {codeMirror : Bool} {scope : String} {es : List ModalLabel} {q : ModalConfig}
    (h : Run modalLoop.Step ⟨closedModal codeMirror scope, []⟩ es q) :
    OneAtATime q ∧ ∀ l r, modalLoop.Step q l r → StepKept q l r :=
  ⟨oneAtATime_of_phase (phase_run h), fun _ _ hstep => stepKept_of_phase (phase_run h) hstep⟩

/-! ### Runs of the dialog -/

/-- A new stack is saved whose `.env` text is one blank. -/
def saveBlankEnv : List (EventLoop.Input ModalEvent ModalAnswer) :=
  [.event (.openStack ""), .event (.typeName "a"), .event (.typeCompose "services: {}"),
    .event (.typeEnv " "), .event (.clickSave false), .answer 0 .valid, .answer 0 .saved,
    .answer 0 .refreshed]

/-- **A blank `.env` text is saved as none**, so the dialog may be closed although the text that it
shows is not the one that was saved. -/
theorem blank_env_dropped : ∃ es q r,
    Run modalLoop.Step ⟨closedModal true "local:a", []⟩ es q ∧
      modalLoop.Step q (.event .clickClose) r ∧ q.state.modal.shown = true ∧
      r.state.modal.shown = false ∧ q.state.modal.env = " " ∧ q.state.stored.env = "" := by
  have hexec : ((modalLoop.exec (fun _ _ => true) ⟨closedModal true "local:a", []⟩
      saveBlankEnv).bind fun q => (modalLoop.handle q.state .clickClose).map fun r =>
        (q.state.modal.shown, r.1.modal.shown, q.state.modal.env, q.state.stored.env)) =
      some (true, false, " ", "") := by
    decide +kernel
  obtain ⟨q, hrun, hclose⟩ := Option.bind_eq_some_iff.mp hexec
  obtain ⟨⟨t, new⟩, hhandle, hvalues⟩ := Option.map_eq_some_iff.mp hclose
  simp only [Prod.mk.injEq] at hvalues
  obtain ⟨hshown, hhidden, henv, hstored⟩ := hvalues
  obtain ⟨es, hsteps⟩ := EventLoop.run_of_exec hrun
  exact ⟨es, q, ⟨t, q.waiting ++ new⟩, hsteps.mono And.left, .event hhandle, hshown, hhidden,
    henv, hstored⟩

/-- An action on a stack that was loaded: while it runs, the dialog is shown. -/
theorem run_modal_action : ∃ es q,
    Run modalLoop.Step ⟨closedModal true "local:a", []⟩ es q ∧ OneAtATime q ∧
      q.waiting.length = 1 ∧ q.state.modal.actionInProgress = some .up ∧
      q.state.savedClicks = [0] := by
  have hexec : (modalLoop.exec (fun _ _ => true) ⟨closedModal true "local:a", []⟩
      [.event (.openStack "a"),
        .answer 0 (.loaded (some ⟨"services: {}", "", false, fun _ => rfl⟩)),
        .event (.clickAction .up), .answer 0 .valid, .answer 0 .saved, .answer 0 .refreshed]).map
        (fun q => (q.waiting.length, q.state.modal.actionInProgress, q.state.savedClicks)) =
      some (1, some .up, [0]) := by
    decide +kernel
  obtain ⟨q, hrun, hvalues⟩ := Option.map_eq_some_iff.mp hexec
  simp only [Prod.mk.injEq] at hvalues
  obtain ⟨hlength, haction, hsaved⟩ := hvalues
  obtain ⟨es, hsteps⟩ := EventLoop.run_of_exec hrun
  have hmodal : Run modalLoop.Step ⟨closedModal true "local:a", []⟩ es q := hsteps.mono And.left
  exact ⟨es, q, hmodal, (run_modal hmodal).1, hlength, haction, hsaved⟩

end Contiwatch
