import Contiwatch.Lib.GoMap
import Contiwatch.Lib.Js
import Contiwatch.Lib.Keyed
import Contiwatch.Lib.Runs
import Contiwatch.Lib.Slots
import Contiwatch.StatusCounts

/-!
# Scans on the Status Page

The button `Check updates` of `src/web/static/app.js`, which starts a scan or stops it, and what
the page knows of a scan: the results of `/api/aggregate` and of the event stream, which come at any
time and in any order, the timer that asks for them every two seconds while a scan is active, and
states that the page assumes of servers until it hears of them. Clicks wait for answers, so that any
number of them can be under way. An aborted request fails before anything else happens.

What the page draws is left out, as are self-updates and the details of a server.

## Main results

* `run_page` — one start request at a time; while there is one, or a server is shown as being
  scanned, or a state is only assumed, or a completion is still to be reported, the page asks.
* `update_ends` — the first update without an active server ends all that.
* `run_completions` — a completion is reported once for a scan of all servers that was accepted, and
  for no other.
-/

namespace Contiwatch

open GoStrings

/-! ### The page -/

/-- The payload of `notify`. -/
structure Notice where
  type : String
  message : String
  deriving DecidableEq, Repr

/-- A start request in flight: `wasSelectiveScan`, the controller that aborts it, the targets after
the one that is asked for, and the lengths of `effectiveTargets` and `skippedOffline`. -/
structure ScanStart where
  selective : Bool
  controller : ℕ
  rest : List String
  scanned : ℕ
  skipped : ℕ
  deriving DecidableEq, Repr

/-- What a click waits for. -/
inductive ScanClick
  /-- For `POST /api/scan`. -/
  | starting (request : ScanStart)
  /-- For `POST /api/scan/stop`. -/
  | stopping
  /-- For the refresh after a stop. -/
  | stopped
  | ended
  deriving DecidableEq, Repr

/-- The start request that a click waits for. -/
def ScanClick.request? : ScanClick → Option ScanStart
  | .starting request => some request
  | _ => none

/-- The start requests in flight. -/
def startRequests (clicks : List ScanClick) : List ScanStart :=
  clicks.filterMap ScanClick.request?

/-- A click ends when its request is aborted. -/
def ScanClick.abort (controller : ℕ) : ScanClick → ScanClick
  | .starting request =>
      if request.controller = controller then .ended else .starting request
  | c => c

/-- What is remembered of scans, for the results: that one was started, of all servers or of some,
that its last request was accepted, that a request failed, that the button was clicked to stop, and
that a completion was reported of these results. -/
inductive ScanMark
  | started (all : Bool)
  | accepted
  | failed
  | stopClicked
  | completed (results : List ScanResult)
  deriving DecidableEq, Repr

/-- The variables of the page that belong to scans, what its clicks wait for, and the marks and
notices so far, newest first. `currentScanController` is the number of an `AbortController`, and
`polling` says that `scanPollingTimer` is set. -/
structure StatusPage where
  lastStatusResults : List ScanResult
  scanStateOverrides : GoMap String String
  currentScanController : Option ℕ
  controllers : ℕ
  scanActive : Bool
  polling : Bool
  scanRequestActive : Bool
  scanCompletionPending : Bool
  selective : Bool
  selectedScanServers : List String
  clicks : List ScanClick
  marks : List ScanMark
  notices : List Notice

/-- The page when it is loaded. -/
def StatusPage.start : StatusPage where
  lastStatusResults := []
  scanStateOverrides := ∅
  currentScanController := none
  controllers := 0
  scanActive := false
  polling := false
  scanRequestActive := false
  scanCompletionPending := false
  selective := false
  selectedScanServers := []
  clicks := []
  marks := []
  notices := []

/-- What the page knows of the servers: `cachedLocals` and `cachedRemotes` by their keys, and the
status of a key in `cachedServerInfo`. -/
structure KnownServers where
  servers : List String
  status : String → String

/-- `serverScopeKey`. -/
def serverScopeKey (result : ScanResult) : String :=
  (if result.isLocal then "local" else "remote") ++ ":" ++
    (if result.serverName = "" then "unknown" else result.serverName)

/-- The server is waiting for a scan, being scanned or being updated. -/
def ScanResult.isActive (result : ScanResult) : Bool :=
  ["pending", "scanning", "updating"].contains result.scanState

/-- `/cancelled|canceled|context canceled/i`. -/
def saysCancelled (text : String) : Bool :=
  ["cancelled", "canceled", "context canceled"].any (contains (toLower Char.toLower text))

namespace StatusPage

/-- `notify`. -/
def notify (type message : String) (p : StatusPage) : StatusPage :=
  { p with notices := ⟨type, message⟩ :: p.notices }

/-- `setSelectiveScanEnabled`. -/
def setSelectiveScanEnabled (enabled : Bool) (p : StatusPage) : StatusPage :=
  if enabled then { p with selective := true }
  else { p with selective := false, selectedScanServers := [] }

/-- The checkbox of a server. -/
def setChecked (key : String) (checked : Bool) (p : StatusPage) : StatusPage :=
  { p with
    selectedScanServers :=
      if checked then
        if key ∈ p.selectedScanServers then p.selectedScanServers
        else p.selectedScanServers ++ [key]
      else p.selectedScanServers.erase key }

/-! ### Results -/

/-- The payload of `notifyScanCompletion`. -/
def completionNotice (results : List ScanResult) : Notice :=
  let cancelled := (results.filter fun result =>
    Js.toLowerCase result.scanState = "cancelled" || saysCancelled result.error).length
  let failedServers := (results.filter fun result =>
    Js.toLowerCase result.scanState = "error" ||
      (result.error ≠ "" && Js.toLowerCase result.scanState ≠ "cancelled")).length
  let containers := results.flatMap ScanResult.containers
  let failedContainers := (containers.filter ContainerStatus.failed).length
  let failed := failedServers + failedContainers
  let updated := (containers.filter ContainerStatus.updated).length
  let remaining := (containers.filter ContainerStatus.updateAvailable).length
  { type :=
      if 0 < failed then "error"
      else if 0 < cancelled ∨ 0 < remaining then "warning"
      else "success"
    message := "Check updates finished: " ++ toString updated ++ " updated, " ++
      toString remaining ++ " remaining, " ++ toString failed ++ " failed, " ++
      toString cancelled ++ " cancelled" }

/-- `notifyScanCompletion`. -/
def notifyScanCompletion (results : List ScanResult) (p : StatusPage) : StatusPage :=
  { p with
    notices := completionNotice results :: p.notices
    marks := .completed results :: p.marks }

/-- `updateScanPolling`. -/
def updateScanPolling (results : List ScanResult) (p : StatusPage) : StatusPage :=
  let active := results.any ScanResult.isActive || p.scanRequestActive ||
    p.currentScanController.isSome
  let p := { p with scanActive := active }
  let p :=
    if active ∧ ¬ p.polling then { p with polling := true }
    else if ¬ active ∧ p.polling then { p with polling := false, scanStateOverrides := ∅ }
    else p
  if ¬ active ∧ p.scanCompletionPending ∧ ¬ p.scanRequestActive ∧
      p.currentScanController.isNone then
    { p with scanCompletionPending := false }.notifyScanCompletion results
  else p

/-- `applyStatusResults`. -/
def applyStatusResults (results : List ScanResult) (p : StatusPage) : StatusPage :=
  let results := results.mergeSort fun a b => a.isLocal || !b.isLocal
  let heard := (results.filter fun result =>
    Js.toLowerCase result.scanState ≠ "" &&
      Js.toLowerCase result.scanState ≠ "idle").map serverScopeKey
  let p := { p with lastStatusResults := results }
  let p :=
    if results ≠ [] then
      { p with scanStateOverrides := p.scanStateOverrides.filter fun key _ => key ∉ heard }
    else p
  p.updateScanPolling results

/-- `upsertStatusResult`. -/
def upsertStatusResult (next : ScanResult) (p : StatusPage) : StatusPage :=
  p.applyStatusResults (Keyed.upsert serverScopeKey p.lastStatusResults next)

/-! ### Clicks -/

/-- `startScanPolling`. -/
def startScanPolling (p : StatusPage) : StatusPage :=
  { p with scanActive := true, polling := true }

/-- Put states for the keys into `nextOverrides`: the first one is scanned, the others wait. -/
def overrideStates (keys : List String) (m : GoMap String String) : GoMap String String :=
  match keys with
  | [] => m
  | key :: keys =>
      keys.foldl (fun m key => m.insert key "pending") (m.insert key "scanning")

/-- `applyOptimisticScanState`, for some servers or for all. -/
def applyOptimisticScanState (known : KnownServers) (scope : Option (List String))
    (cancelledScopes : List String) (p : StatusPage) : StatusPage :=
  let items :=
    if p.lastStatusResults ≠ [] then p.lastStatusResults.map serverScopeKey else known.servers
  let targets := scope.getD (items.filter fun key => Js.toLowerCase (known.status key) = "online")
  let cancelled := cancelledScopes.foldl (fun m key => m.insert key "cancelled") ∅
  { p with scanStateOverrides := overrideStates targets cancelled }

/-- The `finally` block of a click that starts a scan, up to its refresh. -/
def finishStart (selective : Bool) (p : StatusPage) : StatusPage :=
  let p := { p with currentScanController := none, scanRequestActive := false }
  if selective then p.setSelectiveScanEnabled false else p

/-- What a click says of a failure of a start. -/
def failureNotice (name message : String) : Notice :=
  if name = "AbortError" ∨
      ["aborted", "canceled", "cancelled"].any (contains (Js.toLowerCase message)) then
    { type := "warning", message := "Scan cancelled." }
  else { type := "error", message := if message = "" then "Scan failed." else message }

/-- The `catch` block of a click that starts a scan, and what follows. -/
def failStart (selective : Bool) (name message : String) (p : StatusPage) : StatusPage :=
  { p with
    scanCompletionPending := false
    marks := .failed :: p.marks
    notices := failureNotice name message :: p.notices }.finishStart selective

/-- What a click says at the end of the requests of a start. -/
def startedNotice (request : ScanStart) : Notice :=
  if request.selective then
    { type := if 0 < request.skipped then "warning" else "success"
      message :=
        if 0 < request.skipped then
          "Check updates finished (" ++ toString request.scanned ++ " scanned, " ++
            toString request.skipped ++ " skipped offline)"
        else "Check updates finished (" ++ toString request.scanned ++ " scanned)" }
  else
    { type := "info", message := "Check updates started — waiting for all servers." }

/-- A click that starts a scan. -/
def startScan (known : KnownServers) (p : StatusPage) : StatusPage :=
  let wasSelectiveScan := p.selective
  let controller := p.controllers
  let p := { p with currentScanController := some controller, controllers := controller + 1 }
  if wasSelectiveScan ∧ p.selectedScanServers = [] then
    { p.notify "warning" "Select at least one server to scan." with
      currentScanController := none, scanActive := false }
  else
    let p := { p with scanRequestActive := true, scanCompletionPending := !wasSelectiveScan }
    let p := p.startScanPolling
    if wasSelectiveScan then
      let offline key := Js.toLowerCase (known.status key) = "offline"
      let skippedOffline := p.selectedScanServers.filter offline
      let effectiveTargets := p.selectedScanServers.filter fun key => ¬ key ∈ skippedOffline
      let p := p.applyOptimisticScanState known (some effectiveTargets) skippedOffline
      match effectiveTargets with
      | [] =>
          (p.notify "warning" "All selected servers are offline — scan cancelled.").finishStart true
      | _ :: rest =>
          let request : ScanStart :=
            ⟨true, controller, rest, effectiveTargets.length, skippedOffline.length⟩
          { p with clicks := p.clicks ++ [.starting request], marks := .started false :: p.marks }
    else
      let p := p.applyOptimisticScanState known none []
      { p with
        clicks := p.clicks ++ [.starting ⟨false, controller, [], 0, 0⟩]
        marks := .started true :: p.marks }

/-- A click on the button. -/
def click (known : KnownServers) (p : StatusPage) : StatusPage :=
  if p.currentScanController.isSome ∨ p.scanActive then
    { p with
      scanCompletionPending := false
      clicks := p.clicks ++ [.stopping]
      marks := .stopClicked :: p.marks }
  else p.startScan known

/-- A start request is answered: the click `i` asks for the next server, or is at its end. Without
a controller, reading its `signal` throws an error with the text `typeError`. -/
def startAnswered (i : ℕ) (request : ScanStart) (typeError : String) (p : StatusPage) :
    StatusPage :=
  match request.rest with
  | [] =>
      { p with
        clicks := p.clicks.set i .ended
        marks := .accepted :: p.marks
        notices := startedNotice request :: p.notices }.finishStart request.selective
  | _ :: rest =>
      match p.currentScanController with
      | some controller =>
          { p with
            clicks :=
              p.clicks.set i (.starting { request with controller := controller, rest := rest }) }
      | none =>
          { p with clicks := p.clicks.set i .ended }.failStart request.selective "TypeError"
            typeError

/-- A start request fails. -/
def startFailed (i : ℕ) (request : ScanStart) (name message : String) (p : StatusPage) :
    StatusPage :=
  { p with clicks := p.clicks.set i .ended }.failStart request.selective name message

/-- `abort` of a controller: the requests under it fail at once. -/
def abort (controller : ℕ) (p : StatusPage) : StatusPage :=
  let aborted := (startRequests p.clicks).filter (·.controller = controller)
  aborted.foldl (fun p request => p.failStart request.selective "AbortError" "")
    { p with clicks := p.clicks.map (ScanClick.abort controller) }

/-- `POST /api/scan/stop` is answered, or fails with the text `failure`. -/
def stopAnswered (i : ℕ) (failure : Option String) (p : StatusPage) : StatusPage :=
  let p := { p with clicks := p.clicks.set i .stopped }
  let p := failure.elim p fun message =>
    p.notify "error" (if message = "" then "Failed to stop scan." else message)
  let controller := p.currentScanController
  let p := { p with currentScanController := none, scanStateOverrides := ∅ }
  controller.elim p fun controller => p.abort controller

/-- The refresh after a stop is answered. -/
def stopRefreshed (i : ℕ) (results : List ScanResult) (p : StatusPage) : StatusPage :=
  ({ p with clicks := p.clicks.set i .ended }.applyStatusResults results).notify "warning"
    "Scan stopped"

end StatusPage

/-! ### Steps -/

/-- What happens on the page. -/
inductive StatusPageEvent
  | click (known : KnownServers)
  | startAnswered (i : ℕ) (typeError : String)
  | startFailed (i : ℕ) (name message : String)
  | stopAnswered (i : ℕ) (failure : Option String)
  | stopRefreshed (i : ℕ) (results : List ScanResult)
  /-- A refresh after a stop fails. -/
  | stopEnded (i : ℕ)
  /-- The answer to a call of `refreshStatus`, or a `scan_snapshot`. -/
  | results (results : List ScanResult)
  /-- A `scan_result`. -/
  | result (result : ScanResult)
  | setSelective (enabled : Bool)
  | setChecked (key : String) (checked : Bool)

/-- The steps of the page. -/
inductive StatusPageStep : StatusPage → StatusPageEvent → StatusPage → Prop
  | click {p : StatusPage} (known : KnownServers) :
      StatusPageStep p (.click known) (p.click known)
  | startAnswered {p : StatusPage} {i : ℕ} {request : ScanStart}
      (hi : p.clicks[i]? = some (.starting request)) (typeError : String) :
      StatusPageStep p (.startAnswered i typeError) (p.startAnswered i request typeError)
  | startFailed {p : StatusPage} {i : ℕ} {request : ScanStart}
      (hi : p.clicks[i]? = some (.starting request)) (name message : String) :
      StatusPageStep p (.startFailed i name message) (p.startFailed i request name message)
  | stopAnswered {p : StatusPage} {i : ℕ} (hi : p.clicks[i]? = some .stopping)
      (failure : Option String) :
      StatusPageStep p (.stopAnswered i failure) (p.stopAnswered i failure)
  | stopRefreshed {p : StatusPage} {i : ℕ} (hi : p.clicks[i]? = some .stopped)
      (results : List ScanResult) :
      StatusPageStep p (.stopRefreshed i results) (p.stopRefreshed i results)
  | stopEnded {p : StatusPage} {i : ℕ} (hi : p.clicks[i]? = some .stopped) :
      StatusPageStep p (.stopEnded i) { p with clicks := p.clicks.set i .ended }
  | results {p : StatusPage} (results : List ScanResult) :
      StatusPageStep p (.results results) (p.applyStatusResults results)
  | result {p : StatusPage} (result : ScanResult) :
      StatusPageStep p (.result result) (p.upsertStatusResult result)
  | setSelective {p : StatusPage} (enabled : Bool) :
      StatusPageStep p (.setSelective enabled) (p.setSelectiveScanEnabled enabled)
  | setChecked {p : StatusPage} (key : String) (checked : Bool) :
      StatusPageStep p (.setChecked key checked) (p.setChecked key checked)

/-! ### What updates do -/

namespace StatusPage

/-- What is known of the page at any time. -/
structure Sound (p : StatusPage) : Prop where
  requests :
    (startRequests p.clicks = [] ∧ p.currentScanController = none ∧ p.scanRequestActive = false) ∨
    ∃ request, startRequests p.clicks = [request] ∧
      p.currentScanController = some request.controller ∧ p.scanRequestActive = true ∧
      p.scanActive = true
  polling : p.polling = p.scanActive
  shown : ∀ result ∈ p.lastStatusResults, result.isActive = true → p.scanActive = true
  overrides : p.scanActive = false → p.scanStateOverrides = ∅
  pending : p.scanCompletionPending = true → p.scanActive = true
  pendingMarks : p.scanCompletionPending = true →
    (p.scanRequestActive = true ∧ ∃ rest, p.marks = .started true :: rest) ∨
    (p.scanRequestActive = false ∧ ∃ rest, p.marks = .accepted :: .started true :: rest)
  started : ∀ all rest, p.marks = .started all :: rest →
    p.scanRequestActive = true ∧ p.scanCompletionPending = all
  accepted : ∀ rest, p.marks = .accepted :: .started true :: rest →
    p.scanCompletionPending = true
  completed : ∀ front results back, p.marks = front ++ .completed results :: back →
    (∃ earlier, back = .accepted :: .started true :: earlier) ∧
      ∀ result ∈ results, result.isActive = false

/-- The page starts sound. -/
theorem sound_start : StatusPage.start.Sound where
  requests := Or.inl ⟨rfl, rfl, rfl⟩
  polling := rfl
  shown := fun result h => absurd h List.not_mem_nil
  overrides := fun _ => rfl
  pending := fun h => absurd h Bool.false_ne_true
  pendingMarks := fun h => absurd h Bool.false_ne_true
  started := fun all rest h => by cases h
  accepted := fun rest h => by cases h
  completed := fun front results back h => by cases front <;> cases h

/-- The order in which results are shown. -/
def shownOrder (results : List ScanResult) : List ScanResult :=
  results.mergeSort fun a b => a.isLocal || !b.isLocal

/-- Sorting the results loses none and adds none. -/
theorem mem_shownOrder {results : List ScanResult} {result : ScanResult} :
    result ∈ shownOrder results ↔ result ∈ results :=
  List.mem_mergeSort

/-- The results have an active server, or a start request is in flight. -/
def Busy (results : List ScanResult) (p : StatusPage) : Prop :=
  results.any ScanResult.isActive = true ∨ p.scanRequestActive = true ∨
    p.currentScanController.isSome = true

/-- An update while a scan is active. -/
theorem updateScanPolling_busy {results : List ScanResult} {p : StatusPage}
    (h : Busy results p) :
    p.updateScanPolling results = { p with scanActive := true, polling := true } := by
  have hactive : (results.any ScanResult.isActive || p.scanRequestActive ||
      p.currentScanController.isSome) = true := by
    rw [Bool.or_eq_true, Bool.or_eq_true, or_assoc]
    exact h
  rw [updateScanPolling, hactive]
  cases p.polling <;> simp

/-- An update while no scan is active. -/
theorem updateScanPolling_idle {results : List ScanResult} {p : StatusPage}
    (h : ¬ Busy results p) (hoff : p.polling = false → p.scanStateOverrides = ∅) :
    p.updateScanPolling results =
      { p with
        scanActive := false, polling := false, scanStateOverrides := ∅
        scanCompletionPending := false
        notices :=
          if p.scanCompletionPending then completionNotice results :: p.notices else p.notices
        marks :=
          if p.scanCompletionPending then .completed results :: p.marks else p.marks } := by
  simp only [Busy, not_or, Bool.not_eq_true] at h
  obtain ⟨hany, hrequest, hcontroller⟩ := h
  have hnone : p.currentScanController.isNone = true := by
    rwa [Option.isSome_eq_false_iff] at hcontroller
  rw [updateScanPolling, hany, hrequest, hcontroller]
  cases hpolling : p.polling with
  | false =>
      cases p.scanCompletionPending <;> simp [hnone, hoff hpolling, notifyScanCompletion]
  | true =>
      cases p.scanCompletionPending <;> simp [hnone, notifyScanCompletion]

/-- The assumed states that stay after results. -/
def keptOverrides (results : List ScanResult) (p : StatusPage) : GoMap String String :=
  let heard := ((shownOrder results).filter fun result =>
    Js.toLowerCase result.scanState ≠ "" &&
      Js.toLowerCase result.scanState ≠ "idle").map serverScopeKey
  if shownOrder results ≠ [] then p.scanStateOverrides.filter fun key _ => key ∉ heard
  else p.scanStateOverrides

/-- The results are shown, and the page asks for more or not. -/
theorem applyStatusResults_eq (results : List ScanResult) (p : StatusPage) :
    p.applyStatusResults results =
      { p with
        lastStatusResults := shownOrder results
        scanStateOverrides := keptOverrides results p }.updateScanPolling
          (shownOrder results) := by
  rw [applyStatusResults, keptOverrides]
  by_cases hnil : shownOrder results ≠ []
  · rw [if_pos hnil]
    exact congrArg (updateScanPolling _) (if_pos hnil)
  · rw [if_neg hnil]
    exact congrArg (updateScanPolling _) (if_neg hnil)

theorem keptOverrides_empty {p : StatusPage} (h : p.scanStateOverrides = ∅)
    (results : List ScanResult) : keptOverrides results p = ∅ := by
  rw [keptOverrides, h]
  split_ifs
  · rfl
  · rfl

/-- Results without an active server, while no start request is in flight. -/
theorem Sound.applyStatusResults_idle {p : StatusPage} (h : p.Sound) {results : List ScanResult}
    (hresults : ∀ result ∈ results, result.isActive = false)
    (hrequest : p.scanRequestActive = false) :
    p.applyStatusResults results =
      { p with
        lastStatusResults := shownOrder results, scanStateOverrides := ∅
        scanActive := false, polling := false, scanCompletionPending := false
        notices :=
          if p.scanCompletionPending then completionNotice (shownOrder results) :: p.notices
          else p.notices
        marks :=
          if p.scanCompletionPending then .completed (shownOrder results) :: p.marks
          else p.marks } := by
  rw [applyStatusResults_eq]
  refine updateScanPolling_idle ?_ fun hpolling => ?_
  · rintro (hany | hactive | hcontroller)
    · obtain ⟨result, hmem, hresult⟩ := List.any_eq_true.mp hany
      cases (hresults result (mem_shownOrder.mp hmem)).symm.trans hresult
    · cases hrequest.symm.trans hactive
    · rcases h.requests with ⟨-, hnone, -⟩ | ⟨request, -, -, hactive, -⟩
      · have hcontroller : p.currentScanController.isSome = true := hcontroller
        rw [hnone] at hcontroller
        cases hcontroller
      · cases hrequest.symm.trans hactive
  · exact keptOverrides_empty (h.overrides (h.polling ▸ hpolling)) results

/-- Other results. -/
theorem applyStatusResults_busy {p : StatusPage} {results : List ScanResult}
    (hbusy : (∃ result ∈ results, result.isActive = true) ∨ p.scanRequestActive = true) :
    p.applyStatusResults results =
      { p with
        lastStatusResults := shownOrder results
        scanStateOverrides := keptOverrides results p
        scanActive := true, polling := true } := by
  rw [applyStatusResults_eq]
  refine updateScanPolling_busy ?_
  rcases hbusy with ⟨result, hmem, hresult⟩ | hactive
  · exact Or.inl (List.any_eq_true.mpr ⟨result, mem_shownOrder.mpr hmem, hresult⟩)
  · exact Or.inr (Or.inl hactive)

/-- Results keep what is known. -/
theorem Sound.applyStatusResults {p : StatusPage} (h : p.Sound) (results : List ScanResult) :
    (p.applyStatusResults results).Sound := by
  by_cases hbusy : (∃ result ∈ results, result.isActive = true) ∨ p.scanRequestActive = true
  · rw [applyStatusResults_busy hbusy]
    refine ⟨?_, rfl, fun _ _ _ => rfl, fun hoff => Bool.noConfusion hoff, fun _ => rfl,
      h.pendingMarks, h.started, h.accepted, h.completed⟩
    rcases h.requests with hidle | ⟨request, hone, hcontroller, hactive, -⟩
    · exact Or.inl hidle
    · exact Or.inr ⟨request, hone, hcontroller, hactive, rfl⟩
  rw [not_or, Bool.not_eq_true, not_exists] at hbusy
  obtain ⟨hnone, hrequest⟩ := hbusy
  have hresults : ∀ result ∈ results, result.isActive = false := fun result hmem =>
    Bool.eq_false_iff.mpr fun hactive => hnone result ⟨hmem, hactive⟩
  have hshown : ∀ result ∈ shownOrder results, result.isActive = false := fun result hmem =>
    hresults result (mem_shownOrder.mp hmem)
  rw [h.applyStatusResults_idle hresults hrequest]
  have hrequests : startRequests p.clicks = [] ∧ p.currentScanController = none ∧
      p.scanRequestActive = false := by
    rcases h.requests with hidle | ⟨request, -, -, hactive, -⟩
    · exact hidle
    · cases hrequest.symm.trans hactive
  cases hpending : p.scanCompletionPending with
  | false =>
      refine ⟨Or.inl hrequests, rfl, fun result hmem hactive => ?_, fun _ => rfl,
        fun hp => (Bool.false_ne_true hp).elim, fun hp => (Bool.false_ne_true hp).elim,
        fun all rest hmarks => ?_, fun rest hmarks => ?_, h.completed⟩
      · cases (hshown result hmem).symm.trans hactive
      · cases hrequest.symm.trans (h.started all rest hmarks).1
      · exact hpending.symm.trans (h.accepted rest hmarks)
  | true =>
      have hmarks : ∃ rest, p.marks = .accepted :: .started true :: rest := by
        rcases h.pendingMarks hpending with ⟨hactive, -⟩ | ⟨-, hmarks⟩
        · cases hrequest.symm.trans hactive
        · exact hmarks
      refine ⟨Or.inl hrequests, rfl, fun result hmem hactive => ?_, fun _ => rfl,
        fun hp => (Bool.false_ne_true hp).elim, fun hp => (Bool.false_ne_true hp).elim,
        fun all rest hnew => (by cases hnew), fun rest hnew => (by cases hnew),
        fun front results' back hnew => ?_⟩
      · cases (hshown result hmem).symm.trans hactive
      · cases front with
        | nil =>
            obtain ⟨hhead, rfl⟩ := List.cons.inj hnew
            obtain rfl := ScanMark.completed.inj hhead
            exact ⟨hmarks, hshown⟩
        | cons mark front => exact h.completed front results' back (List.cons.inj hnew).2

/-! ### What clicks do -/

/-- The requests of the first click come first. -/
theorem startRequests_cons (c : ScanClick) (clicks : List ScanClick) :
    startRequests (c :: clicks) = c.request?.toList ++ startRequests clicks := by
  cases c <;> rfl

/-- A further click adds its own request, if it has one. -/
theorem startRequests_append (clicks : List ScanClick) (c : ScanClick) :
    startRequests (clicks ++ [c]) = startRequests clicks ++ c.request?.toList := by
  refine List.filterMap_append.trans (congrArg (startRequests clicks ++ ·) ?_)
  cases c <;> rfl

/-- The end of a click that started a scan. -/
theorem finishStart_eq (selective : Bool) (p : StatusPage) : ∃ selective' selected,
    p.finishStart selective =
      { p with
        currentScanController := none, scanRequestActive := false
        selective := selective', selectedScanServers := selected } := by
  cases selective with
  | false => exact ⟨p.selective, p.selectedScanServers, rfl⟩
  | true => exact ⟨false, [], rfl⟩

/-- A failure of a click that started a scan. -/
theorem failStart_eq (selective : Bool) (name message : String) (p : StatusPage) :
    ∃ selective' selected notices, p.failStart selective name message =
      { p with
        currentScanController := none, scanRequestActive := false, scanCompletionPending := false
        selective := selective', selectedScanServers := selected
        notices := notices, marks := .failed :: p.marks } := by
  obtain ⟨selective', selected, h⟩ := finishStart_eq selective
    { p with
      scanCompletionPending := false
      marks := .failed :: p.marks
      notices := failureNotice name message :: p.notices }
  exact ⟨selective', selected, _, h⟩

/-- A mark that is not one of a completion. -/
theorem Sound.completed_cons {p : StatusPage} (h : p.Sound) {mark : ScanMark}
    (hmark : ∀ results, mark ≠ .completed results) {front back : List ScanMark}
    {results : List ScanResult} (hmarks : mark :: p.marks = front ++ .completed results :: back) :
    (∃ earlier, back = .accepted :: .started true :: earlier) ∧
      ∀ result ∈ results, result.isActive = false := by
  cases front with
  | nil => exact absurd (List.cons.inj hmarks).1 (hmark results)
  | cons mark' front => exact h.completed front results back (List.cons.inj hmarks).2

/-- After a failure no start request is in flight. -/
theorem Sound.fail {p : StatusPage} (h : p.Sound) {clicks : List ScanClick}
    (hnone : startRequests clicks = []) (selective : Bool)
    (selected : List String) (notices : List Notice) :
    { p with
      clicks := clicks, currentScanController := none, scanRequestActive := false
      scanCompletionPending := false, selective := selective, selectedScanServers := selected
      notices := notices, marks := .failed :: p.marks }.Sound where
  requests := Or.inl ⟨hnone, rfl, rfl⟩
  polling := h.polling
  shown := h.shown
  overrides := h.overrides
  pending := fun hpending => (Bool.false_ne_true hpending).elim
  pendingMarks := fun hpending => (Bool.false_ne_true hpending).elim
  started := fun all rest hmarks => by cases hmarks
  accepted := fun rest hmarks => by cases hmarks
  completed := fun front results back => h.completed_cons fun _ => ScanMark.noConfusion

/-- The click that started the scan ends, or asks for the next server. -/
theorem Sound.starting {p : StatusPage} (h : p.Sound) {i : ℕ} {request : ScanStart}
    (hi : p.clicks[i]? = some (.starting request)) :
    p.currentScanController = some request.controller ∧ p.scanRequestActive = true ∧
      p.scanActive = true ∧
      startRequests (p.clicks.set i .ended) = [] ∧
      ∀ next, startRequests (p.clicks.set i (.starting next)) = [next] := by
  rcases h.requests with ⟨hnone, -, -⟩ | ⟨request', hone, hcontroller, hrequest, hactive⟩
  · have hmem : request ∈ startRequests p.clicks :=
      List.mem_filterMap.mpr ⟨_, List.mem_of_getElem? hi, rfl⟩
    rw [hnone] at hmem
    cases hmem
  · obtain ⟨rfl, hended⟩ := Slots.filterMap_set_one ScanClick.request? hi rfl hone .ended
    exact ⟨hcontroller, hrequest, hactive, hended,
      fun next => (Slots.filterMap_set_one ScanClick.request? hi rfl hone (.starting next)).2⟩

/-- A failed start leaves the page sound. -/
theorem Sound.startFailed {p : StatusPage} (h : p.Sound) {i : ℕ} {request : ScanStart}
    (hi : p.clicks[i]? = some (.starting request)) (name message : String) :
    (p.startFailed i request name message).Sound := by
  obtain ⟨selective, selected, notices, heq⟩ := failStart_eq request.selective name message
    { p with clicks := p.clicks.set i .ended }
  rw [StatusPage.startFailed, heq]
  exact h.fail (h.starting hi).2.2.2.1 selective selected notices

/-- Clicks that wait for something else do not matter. -/
theorem Sound.clicks {p : StatusPage} (h : p.Sound) {clicks : List ScanClick}
    (hsame : startRequests clicks = startRequests p.clicks) :
    { p with clicks := clicks }.Sound where
  requests := hsame ▸ h.requests
  polling := h.polling
  shown := h.shown
  overrides := h.overrides
  pending := h.pending
  pendingMarks := h.pendingMarks
  started := h.started
  accepted := h.accepted
  completed := h.completed

/-- So does one that is answered. -/
theorem Sound.startAnswered {p : StatusPage} (h : p.Sound) {i : ℕ} {request : ScanStart}
    (hi : p.clicks[i]? = some (.starting request)) (typeError : String) :
    (p.startAnswered i request typeError).Sound := by
  obtain ⟨hcontroller, hactive, hscan, hended, hnext⟩ := h.starting hi
  rw [StatusPage.startAnswered]
  cases request.rest with
  | nil =>
      obtain ⟨selective, selected, heq⟩ := finishStart_eq request.selective
        { p with
          clicks := p.clicks.set i .ended, marks := .accepted :: p.marks
          notices := startedNotice request :: p.notices }
      simp only [heq]
      refine ⟨Or.inl ⟨hended, rfl, rfl⟩, h.polling, h.shown, h.overrides, h.pending,
        fun hpending => ?_, fun all rest hmarks => (by cases hmarks), fun rest hmarks => ?_,
        fun front results back => h.completed_cons fun _ => ScanMark.noConfusion⟩
      · rcases h.pendingMarks hpending with ⟨-, rest, hmarks⟩ | ⟨hidle, -⟩
        · exact Or.inr ⟨rfl, rest, congrArg (ScanMark.accepted :: ·) hmarks⟩
        · cases hidle.symm.trans hactive
      · exact (h.started true rest (List.cons.inj hmarks).2).2
  | cons target rest =>
      simp only [hcontroller]
      refine ⟨Or.inr ⟨_, hnext _, rfl, hactive, hscan⟩, h.polling, h.shown, h.overrides, h.pending,
        h.pendingMarks, h.started, h.accepted, h.completed⟩

/-- The mark of a click to stop. -/
theorem Sound.stopClicked {p : StatusPage} (h : p.Sound) :
    { p with
      scanCompletionPending := false
      clicks := p.clicks ++ [ScanClick.stopping]
      marks := .stopClicked :: p.marks }.Sound where
  requests := by
    have hsame := (startRequests_append p.clicks .stopping).trans (List.append_nil _)
    exact hsame ▸ h.requests
  polling := h.polling
  shown := h.shown
  overrides := h.overrides
  pending := fun hpending => (Bool.false_ne_true hpending).elim
  pendingMarks := fun hpending => (Bool.false_ne_true hpending).elim
  started := fun all rest hmarks => by cases hmarks
  accepted := fun rest hmarks => by cases hmarks
  completed := fun front results back => h.completed_cons fun _ => ScanMark.noConfusion

/-- A request to start a scan is sent. -/
theorem Sound.sent {p : StatusPage} (h : p.Sound) (hnone : startRequests p.clicks = [])
    (request : ScanStart) (overrides : GoMap String String) (all selective : Bool) :
    { p with
      currentScanController := some request.controller, controllers := request.controller + 1
      scanStateOverrides := overrides, scanActive := true, polling := true
      scanRequestActive := true, scanCompletionPending := all, selective := selective
      clicks := p.clicks ++ [ScanClick.starting request]
      marks := .started all :: p.marks }.Sound where
  requests := by
    refine Or.inr ⟨request, ?_, rfl, rfl, rfl⟩
    exact (startRequests_append p.clicks (.starting request)).trans
      (congrArg (· ++ [request]) hnone)
  polling := rfl
  shown := fun _ _ _ => rfl
  overrides := fun hoff => Bool.noConfusion hoff
  pending := fun _ => rfl
  pendingMarks := fun hpending => by
    obtain rfl : all = true := hpending
    exact Or.inl ⟨rfl, p.marks, rfl⟩
  started := fun all' rest hmarks => ⟨rfl, ScanMark.started.inj (List.cons.inj hmarks).1⟩
  accepted := fun rest hmarks => by cases hmarks
  completed := fun front results back => h.completed_cons fun _ => ScanMark.noConfusion

/-- So does a click on the button while nothing is on its way. -/
theorem Sound.startScan {p : StatusPage} (h : p.Sound)
    (hnone : startRequests p.clicks = [] ∧ p.currentScanController = none ∧
      p.scanRequestActive = false) (hidle : p.scanActive = false) (known : KnownServers) :
    (p.startScan known).Sound := by
  have hpending : p.scanCompletionPending = false :=
    Bool.eq_false_iff.mpr fun hp => by cases hidle.symm.trans (h.pending hp)
  rw [StatusPage.startScan]
  by_cases hempty : p.selective = true ∧ p.selectedScanServers = []
  · rw [if_pos hempty]
    refine ⟨Or.inl ⟨hnone.1, rfl, hnone.2.2⟩, h.polling.trans hidle, fun result hmem hactive => ?_,
      fun _ => h.overrides hidle, fun hp => ?_, h.pendingMarks, h.started, h.accepted,
      h.completed⟩
    · cases hidle.symm.trans (h.shown result hmem hactive)
    · cases hpending.symm.trans hp
  rw [if_neg hempty]
  dsimp only
  cases hselective : p.selective with
  | false =>
      rw [if_neg (by simp)]
      exact h.sent hnone.1 ⟨false, p.controllers, [], 0, 0⟩ _ true false
  | true =>
      rw [if_pos rfl]
      split
      · obtain ⟨selective, selected, heq⟩ := finishStart_eq true _
        rw [heq]
        refine ⟨Or.inl ⟨hnone.1, rfl, rfl⟩, rfl, fun _ _ _ => rfl,
          fun hoff => Bool.noConfusion hoff, fun _ => rfl, fun hp => (Bool.false_ne_true hp).elim,
          fun all rest hmarks => ?_, fun rest hmarks => ?_, h.completed⟩
        · cases hnone.2.2.symm.trans (h.started all rest hmarks).1
        · exact hpending.symm.trans (h.accepted rest hmarks)
      · exact h.sent hnone.1 ⟨true, p.controllers, _, _, _⟩ _ false true

/-- Aborting takes the requests of that controller away. -/
theorem startRequests_abort (controller : ℕ) (clicks : List ScanClick) :
    startRequests (clicks.map (ScanClick.abort controller)) =
      (startRequests clicks).filter (·.controller ≠ controller) := by
  have hone : ∀ c : ScanClick, (c.abort controller).request?.toList =
      c.request?.toList.filter (·.controller ≠ controller) := by
    intro c
    cases c with
    | starting request =>
        by_cases h : request.controller = controller <;>
          simp [ScanClick.abort, ScanClick.request?, h]
    | _ => rfl
  induction clicks with
  | nil => rfl
  | cons c clicks ih =>
      rw [List.map_cons, startRequests_cons, startRequests_cons, ih, hone, List.filter_append]

/-- After it the page is sound. -/
theorem Sound.abort {p : StatusPage} (h : p.Sound) {controller : ℕ}
    (hcontroller : p.currentScanController = some controller)
    (notices : List Notice) :
    ({ p with
      currentScanController := none, scanStateOverrides := ∅
      notices := notices }.abort controller).Sound := by
  rcases h.requests with ⟨-, hnone, -⟩ | ⟨request, hone, hsome, -, -⟩
  · cases hnone.symm.trans hcontroller
  obtain rfl : request.controller = controller := Option.some.inj (hsome.symm.trans hcontroller)
  have haborted : (startRequests p.clicks).filter (·.controller = request.controller) =
      [request] := by
    rw [hone]
    simp
  have hnone : startRequests (p.clicks.map (ScanClick.abort request.controller)) = [] := by
    rw [startRequests_abort, hone]
    simp
  obtain ⟨selective, selected, notices', heq⟩ := failStart_eq request.selective "AbortError" ""
    { p with
      currentScanController := none, scanStateOverrides := ∅, notices := notices
      clicks := p.clicks.map (ScanClick.abort request.controller) }
  have hfail := h.fail hnone selective selected notices'
  rw [StatusPage.abort, haborted, List.foldl_cons, List.foldl_nil, heq]
  exact ⟨hfail.requests, hfail.polling, hfail.shown, fun _ => rfl, hfail.pending,
    hfail.pendingMarks, hfail.started, hfail.accepted, hfail.completed⟩

/-- The answer to a stop leaves the page sound. -/
theorem Sound.stopAnswered {p : StatusPage} (h : p.Sound) {i : ℕ}
    (hi : p.clicks[i]? = some .stopping) (failure : Option String) :
    (p.stopAnswered i failure).Sound := by
  have hstopped : { p with clicks := p.clicks.set i .stopped }.Sound :=
    h.clicks (Slots.filterMap_set_none ScanClick.request? hi rfl rfl)
  have hrest : ∀ notices, StatusPage.Sound (Option.elim p.currentScanController
      { p with
        clicks := p.clicks.set i .stopped, currentScanController := none
        scanStateOverrides := ∅, notices := notices }
      fun controller => StatusPage.abort controller
        { p with
          clicks := p.clicks.set i .stopped, currentScanController := none
          scanStateOverrides := ∅, notices := notices }) := by
    intro notices
    cases hcontroller : p.currentScanController with
    | none =>
        have hrequests := hstopped.requests
        rw [hcontroller] at hrequests
        exact ⟨hrequests, hstopped.polling, hstopped.shown, fun _ => rfl, hstopped.pending,
          hstopped.pendingMarks, hstopped.started, hstopped.accepted, hstopped.completed⟩
    | some controller => exact hstopped.abort hcontroller notices
  cases failure with
  | none => exact hrest p.notices
  | some message => exact hrest _

/-- A step keeps what is known. -/
theorem Sound.step {p q : StatusPage} {e : StatusPageEvent} (h : p.Sound)
    (hstep : StatusPageStep p e q) : q.Sound := by
  cases hstep with
  | click known =>
      rw [click]
      split_ifs with hstop
      · exact h.stopClicked
      · rw [not_or, Bool.not_eq_true, Bool.not_eq_true] at hstop
        refine h.startScan ?_ hstop.2 known
        rcases h.requests with hnone | ⟨request, -, hsome, -, -⟩
        · exact hnone
        · rw [hsome] at hstop
          cases hstop.1
  | startAnswered hi typeError => exact h.startAnswered hi typeError
  | startFailed hi name message => exact h.startFailed hi name message
  | stopAnswered hi failure => exact h.stopAnswered hi failure
  | @stopRefreshed i hi results =>
      have hended : startRequests (p.clicks.set i .ended) = startRequests p.clicks :=
        Slots.filterMap_set_none ScanClick.request? hi rfl rfl
      have hsound := (h.clicks hended).applyStatusResults results
      exact ⟨hsound.requests, hsound.polling, hsound.shown, hsound.overrides, hsound.pending,
        hsound.pendingMarks, hsound.started, hsound.accepted, hsound.completed⟩
  | stopEnded hi => exact h.clicks (Slots.filterMap_set_none ScanClick.request? hi rfl rfl)
  | results results => exact h.applyStatusResults results
  | result result => exact h.applyStatusResults _
  | setSelective enabled =>
      cases enabled <;> exact ⟨h.requests, h.polling, h.shown, h.overrides, h.pending,
        h.pendingMarks, h.started, h.accepted, h.completed⟩
  | setChecked key checked => exact ⟨h.requests, h.polling, h.shown, h.overrides, h.pending,
      h.pendingMarks, h.started, h.accepted, h.completed⟩

/-- It is sound after every run. -/
theorem run_sound {es : List StatusPageEvent} {p : StatusPage}
    (hrun : Run StatusPageStep .start es p) : p.Sound :=
  hrun.state_invariant Sound sound_start Sound.step

/-! ### What the page waits for -/

/-- A start request is in flight, a server is shown as being scanned, a state is only assumed, or a
completion is to be reported. -/
def AwaitsScan (p : StatusPage) : Prop :=
  startRequests p.clicks ≠ [] ∨ (∃ result ∈ p.lastStatusResults, result.isActive = true) ∨
    p.scanStateOverrides ≠ ∅ ∨ p.scanCompletionPending = true

/-- A sound page that waits for a scan polls. -/
theorem Sound.polls {p : StatusPage} (h : p.Sound) (hawaits : p.AwaitsScan) :
    p.polling = true := by
  rw [h.polling]
  rcases hawaits with hrequest | ⟨result, hmem, hactive⟩ | hoverrides | hpending
  · rcases h.requests with ⟨hnone, -⟩ | ⟨-, -, -, -, hactive⟩
    · exact absurd hnone hrequest
    · exact hactive
  · exact h.shown result hmem hactive
  · exact Bool.of_not_eq_false fun hidle => hoverrides (h.overrides hidle)
  · exact h.pending hpending

/-- It takes no request to be on its way when none is. -/
theorem Sound.requestActive {p : StatusPage} (h : p.Sound) (hnone : startRequests p.clicks = []) :
    p.scanRequestActive = false := by
  rcases h.requests with ⟨-, -, hidle⟩ | ⟨request, hone, -⟩
  · exact hidle
  · cases hnone.symm.trans hone

/-- **The end of a scan.** Results without an active server end what the page waits for, if no
start request is in flight. -/
theorem update_ends {p : StatusPage} (h : p.Sound) {results : List ScanResult}
    (hresults : ∀ result ∈ results, result.isActive = false)
    (hnone : startRequests p.clicks = []) :
    ¬ (p.applyStatusResults results).AwaitsScan ∧
      (p.applyStatusResults results).polling = false := by
  rw [h.applyStatusResults_idle hresults (h.requestActive hnone)]
  refine ⟨?_, rfl⟩
  rintro (hrequest | ⟨result, hmem, hactive⟩ | hoverrides | hpending)
  · exact hrequest hnone
  · cases (hresults result (mem_shownOrder.mp hmem)).symm.trans hactive
  · exact hoverrides rfl
  · exact Bool.false_ne_true hpending

/-- **Scans on the page.** In every run, whatever answers come and in whatever order, at most one
start request is in flight, and it is the one that a stop aborts. While the page waits for anything
of a scan, it asks for results; and the first results without an active server, while no start
request is in flight, end all of it. -/
theorem run_page {es : List StatusPageEvent} {p : StatusPage}
    (hrun : Run StatusPageStep .start es p) :
    (startRequests p.clicks = [] ∨ ∃ request, startRequests p.clicks = [request] ∧
      p.currentScanController = some request.controller) ∧
    (p.AwaitsScan → p.polling = true) ∧
    ∀ results : List ScanResult, (∀ result ∈ results, result.isActive = false) →
      startRequests p.clicks = [] →
        ¬ (p.applyStatusResults results).AwaitsScan ∧
          (p.applyStatusResults results).polling = false := by
  have h := run_sound hrun
  refine ⟨?_, h.polls, fun results => update_ends h⟩
  rcases h.requests with ⟨hnone, -⟩ | ⟨request, hone, hcontroller, -⟩
  · exact Or.inl hnone
  · exact Or.inr ⟨request, hone, hcontroller⟩

/-- A page that knows of a local server and of an agent. -/
def twoServers : KnownServers := ⟨["local:docker", "remote:nas"], fun _ => "online"⟩

/-- The result of the local server, with one container that was updated. -/
def dockerResult (scanState : String) : ScanResult :=
  { ScanResult.bare "docker" "/var/run/docker.sock" true 1 "" with
    scanState := scanState
    containers :=
      [⟨"a1", "web", "nginx", "", "", true, false, false, "update", false, true, 1, ""⟩] }

/-- The result of the agent, with one container that can be updated. -/
def nasResult (scanState : String) : ScanResult :=
  { ScanResult.bare "nas" "http://nas:8080" false 1 "" with
    scanState := scanState
    containers := [⟨"b2", "db", "postgres", "", "", true, false, false, "notify", true, false, 1,
      ""⟩] }

/-- All servers are to be scanned, and the page hears that they are. -/
def scanningPage : StatusPage :=
  (StatusPage.start.click twoServers).applyStatusResults
    [dockerResult "scanning", nasResult "pending"]

/-- The request to scan them was accepted. -/
def acceptedPage : StatusPage := scanningPage.startAnswered 0 ⟨false, 0, [], 0, 0⟩ ""

/-- The run of the sample: a click, the results, the answer. -/
theorem run_accepted : Run StatusPageStep .start
    [.click twoServers, .results [dockerResult "scanning", nasResult "pending"],
      .startAnswered 0 ""] acceptedPage := by
  have hclicks : scanningPage.clicks[0]? = some (.starting ⟨false, 0, [], 0, 0⟩) := by
    rw [scanningPage, applyStatusResults_busy (Or.inr rfl)]
    rfl
  exact ((Run.single (.click twoServers)).snoc (.results _)).snoc (.startAnswered hclicks "")

/-- The servers are done. -/
theorem done_not_active (result : ScanResult)
    (h : result ∈ [dockerResult "done", nasResult "done"]) : result.isActive = false := by
  simp only [List.mem_cons, List.not_mem_nil, or_false] at h
  rcases h with rfl | rfl <;> decide

/-- While its servers are being scanned the page asks for results, and their last ones end it. -/
theorem run_page_scanned : acceptedPage.polling = true ∧
    (acceptedPage.applyStatusResults [dockerResult "done", nasResult "done"]).polling = false := by
  obtain ⟨-, hpolls, hends⟩ := run_page run_accepted
  have hshown : acceptedPage.lastStatusResults =
      shownOrder [dockerResult "scanning", nasResult "pending"] := by
    rw [acceptedPage, scanningPage, applyStatusResults_busy (Or.inr rfl)]
    rfl
  have hnone : startRequests acceptedPage.clicks = [] := by
    rw [acceptedPage, scanningPage, applyStatusResults_busy (Or.inr rfl)]
    rfl
  refine ⟨hpolls (Or.inr (Or.inl ⟨dockerResult "scanning", ?_, by decide⟩)),
    (hends _ done_not_active hnone).2⟩
  rw [hshown, mem_shownOrder]
  exact List.mem_cons_self ..

/-- **Completions.** In every run, a completion is reported of results without an active server,
and what happened to scans before it was that one of all servers was started and accepted, with no
stop, failure or other completion since. Of such a scan, the next results without an active server
are reported, and the page asks for them. -/
theorem run_completions {es : List StatusPageEvent} {p : StatusPage}
    (hrun : Run StatusPageStep .start es p) :
    (∀ front results back, p.marks = front ++ .completed results :: back →
      (∃ earlier, back = .accepted :: .started true :: earlier) ∧
        ∀ result ∈ results, result.isActive = false) ∧
    ∀ rest, p.marks = .accepted :: .started true :: rest → p.polling = true ∧
      ∀ results : List ScanResult, (∀ result ∈ results, result.isActive = false) →
        (p.applyStatusResults results).marks = .completed (shownOrder results) :: p.marks ∧
          (p.applyStatusResults results).notices =
            completionNotice (shownOrder results) :: p.notices := by
  have h := run_sound hrun
  refine ⟨h.completed, fun rest hmarks => ?_⟩
  have hpending := h.accepted rest hmarks
  refine ⟨h.polls (Or.inr (Or.inr (Or.inr hpending))), fun results hresults => ?_⟩
  have hidle : p.scanRequestActive = false := by
    rcases h.pendingMarks hpending with ⟨-, rest', hstarted⟩ | ⟨hidle, -⟩
    · cases hmarks.symm.trans hstarted
    · exact hidle
  rw [h.applyStatusResults_idle hresults hidle, hpending]
  exact ⟨rfl, rfl⟩

/-- One container was updated, and one is left. -/
theorem run_completions_scanned :
    (acceptedPage.applyStatusResults [dockerResult "done", nasResult "done"]).marks =
        [.completed (shownOrder [dockerResult "done", nasResult "done"]), .accepted,
          .started true] ∧
      (acceptedPage.applyStatusResults [dockerResult "done", nasResult "done"]).notices =
        [⟨"warning", "Check updates finished: 1 updated, 1 remaining, 0 failed, 0 cancelled"⟩,
          ⟨"info", "Check updates started — waiting for all servers."⟩] := by
  have hmarks : acceptedPage.marks = [.accepted, .started true] := by
    rw [acceptedPage, scanningPage, applyStatusResults_busy (Or.inr rfl)]
    rfl
  have hnotices : acceptedPage.notices =
      [⟨"info", "Check updates started — waiting for all servers."⟩] := by
    rw [acceptedPage, scanningPage, applyStatusResults_busy (Or.inr rfl)]
    rfl
  have hshown : shownOrder [dockerResult "done", nasResult "done"] =
      [dockerResult "done", nasResult "done"] :=
    List.mergeSort_of_pairwise (by decide)
  have hcompleted : completionNotice (shownOrder [dockerResult "done", nasResult "done"]) =
      ⟨"warning", "Check updates finished: 1 updated, 1 remaining, 0 failed, 0 cancelled"⟩ := by
    rw [hshown]
    decide
  obtain ⟨-, hreport⟩ := run_completions run_accepted
  obtain ⟨hnewMarks, hnewNotices⟩ := (hreport [] hmarks).2 _ done_not_active
  rw [hnewMarks, hnewNotices, hmarks, hnotices, hcompleted]
  exact ⟨rfl, rfl⟩

end StatusPage

end Contiwatch
