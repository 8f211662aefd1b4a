import Contiwatch.Lib.Slots
import Contiwatch.ListRefreshes
import Contiwatch.LogFrames
import Mathlib.Tactic.SplitIfs

/-!
# Shell and Log Sessions

The shell and the logs of a container, in the containers page of `web/static/app.js`. Opening a
session closes the one before, and then waits for a ticket; the socket is created when it comes, and
is closed at once if the session was closed or another one was opened meanwhile. A counter of
attempts says so. Selecting another server closes nothing: a session is closed when a list is
rendered that lacks its container.

Histories are kept for the results: which open request was the last and has not been closed since,
which sockets the log holds text of, and which keystrokes were sent. Texts of the page itself are
left out, but for those in the log.

## Main results

* `Reduces.trans` — what closing does, one function after another.
* `run_attached` — what is shown comes from the socket of the last open request that has not been
  closed since, keystrokes go there, and every other socket is closed.
-/

namespace Contiwatch

/-! ### The page -/

/-- The sessions of the containers page. -/
inductive SessionKind
  | shell | logs
  deriving DecidableEq, Repr

/-- The view mode of a session. -/
def SessionKind.mode : SessionKind → ContainersViewMode
  | .shell => .shell
  | .logs => .logs

/-- The data of a container that a session needs. -/
structure SessionContainer where
  id : String
  name : String
  state : String

/-- `normalizeContainerState`. -/
def normalizeContainerState (state : String) : String := Js.toLowerCase state

/-- The states of a socket. From `close()` on it counts as closed. -/
inductive ReadyState
  | connecting | open | closed
  deriving DecidableEq, Repr

/-- A socket, with the open request that it was created for. -/
structure SessionSocket where
  kind : SessionKind
  scope : String
  containerID : String
  request : ℕ
  deriving DecidableEq, Repr

/-- The data of a message. -/
inductive SocketData
  | text (data : String)
  | binary (data : List UInt8)

/-- A keystroke that was sent to a socket, with the open request that was the last then. -/
structure Keystroke where
  data : String
  socket : ℕ
  asked : Option ℕ
  deriving DecidableEq, Repr

/-- The page with its sessions. `asked` is the last open request, if it has not been closed since,
and `sources` are the sockets that the log holds text of. -/
structure SessionPage where
  page : Workspace
  attempt : SessionKind → ℕ
  selectedID : SessionKind → String
  asked : SessionKind → Option ℕ
  requests : ℕ
  sockets : List SessionSocket
  readyState : ℕ → ReadyState
  terminalLoaded : Bool
  shellSocket : Option ℕ
  dataListener : Option ℕ
  terminal : Option (List (ℕ × SocketData))
  shellToasts : List String
  logs : LogsView
  silentClose : Bool
  sources : List ℕ
  keystrokes : List Keystroke

/-- An open request that waits for its ticket. -/
structure SessionTicket where
  kind : SessionKind
  attempt : ℕ
  request : ℕ
  scope : String
  containerID : String
  deriving DecidableEq, Repr

/-- The socket that is created for a ticket. -/
def SessionTicket.socket (t : SessionTicket) : SessionSocket :=
  ⟨t.kind, t.scope, t.containerID, t.request⟩

/-- What the page may wait for. -/
inductive SessionWait
  | page (k : WorkspaceWait)
  | ticket (t : SessionTicket)

/-- The answers: a list and the like, the socket that is created with the ticket, or none; then the
page may have been locked. -/
inductive SessionAnswer
  | page (answer : WorkspaceAnswer)
  | socket
  | failed (locks : Bool)

/-- What the user does and what the sockets do. `toggleTimestamps` has the name of the container in
the cache. -/
inductive SessionPageEvent
  | page (e : WorkspaceEvent)
  | openShell (container : SessionContainer)
  | openLogs (container : SessionContainer)
  | type (data : String)
  | opened (socket : ℕ)
  | message (socket : ℕ) (data : SocketData)
  | closed (socket : ℕ)
  | error (socket : ℕ)
  | pinLock
  | clearLogs
  | pauseLogs
  | toggleTimestamps (name : String)

namespace SessionPage

/-- The state after a function, with the requests that it has made. -/
abbrev Effect := SessionPage × List SessionWait

/-- `containersShellSocket` or `containersLogsSocket`. -/
def socket (s : SessionPage) : SessionKind → Option ℕ
  | .shell => s.shellSocket
  | .logs => s.logs.socket

/-- The containers in the cache. -/
def cacheIDs (s : SessionPage) : List String := (s.page.listing .containers).rows.map (·.id)

/-! ### Closing -/

/-- What closing a session does to its counter and to its socket. -/
def endSession (kind : SessionKind) (s : SessionPage) : SessionPage :=
  { s with
    attempt := Function.update s.attempt kind (s.attempt kind + 1)
    asked := Function.update s.asked kind none
    readyState := fun i => if s.socket kind = some i then .closed else s.readyState i }

/-- `closeContainersShellSession`. -/
def closeContainersShellSession (s : SessionPage) : SessionPage :=
  { s.endSession .shell with shellSocket := none, dataListener := none, terminal := none }

/-- `resetContainersLogsBuffer`. -/
def resetContainersLogsBuffer (s : SessionPage) : SessionPage :=
  { s with logs := { s.logs with buffer := [], pending := [], lineBuffer := [] }, sources := [] }

/-- `closeContainersLogsSession`. -/
def closeContainersLogsSession (silent : Bool) (s : SessionPage) : SessionPage :=
  resetContainersLogsBuffer
    { s.endSession .logs with
      logs := { s.logs with socket := none }
      silentClose := if s.logs.socket.isSome then silent else s.silentClose }

/-- The session of a kind is closed. -/
def closeSession : SessionKind → SessionPage → SessionPage
  | .shell => closeContainersShellSession
  | .logs => closeContainersLogsSession false

/-- What `renderContainersShellList` and `renderContainersLogsList` do to the session, for the
containers of a list: one that is missing closes it, unless the list is empty. -/
def renderSessionList (kind : SessionKind) (ids : List String) (s : SessionPage) : SessionPage :=
  if ids.filter (· ≠ "") = [] ∨ s.selectedID kind = "" ∨ s.selectedID kind ∈ ids then s
  else closeSession kind { s with selectedID := Function.update s.selectedID kind "" }

/-- `renderContainersShellList`. -/
def renderContainersShellList : List String → SessionPage → SessionPage := renderSessionList .shell

/-- `renderContainersLogsList`. -/
def renderContainersLogsList : List String → SessionPage → SessionPage := renderSessionList .logs

/-- The end of `renderContainers`, for a list that is not empty. -/
def renderLists (ids : List String) (s : SessionPage) : SessionPage :=
  match s.page.containersViewMode with
  | .shell => s.renderContainersShellList ids
  | .logs => s.renderContainersLogsList ids
  | _ => s

/-- `setContainersLogsPaused`. -/
def setContainersLogsPaused (paused : Bool) (s : SessionPage) : SessionPage :=
  if paused ∨ s.logs.pending = [] then { s with logs := { s.logs with paused := paused } }
  else
    { s with
      logs :=
        { s.logs with
          paused := false
          pending := []
          buffer := lastUnits containersLogsMaxBytes (s.logs.buffer ++ s.logs.pending) } }

/-- `setPinGuardState`, when it shows the overlay. -/
def pinGuardLock (s : SessionPage) : SessionPage :=
  s.closeContainersShellSession.closeContainersLogsSession true

/-- What `setContainersViewMode` does to the sessions. -/
def switchSessions (mode : ContainersViewMode) (s : SessionPage) : SessionPage :=
  match mode with
  | .shell =>
      ((s.closeContainersLogsSession false).setContainersLogsPaused false).renderContainersShellList
        s.cacheIDs
  | .logs =>
      ((s.closeContainersShellSession.closeContainersLogsSession false).setContainersLogsPaused
        false).renderContainersLogsList s.cacheIDs
  | .table => s.closeContainersShellSession.closeContainersLogsSession false
  | _ => (s.closeContainersShellSession.closeContainersLogsSession false).setContainersLogsPaused
      false

/-- What an event of the workspace does to the sessions. Containers whose buttons can be pressed are
in the table. -/
def follow (s : SessionPage) : WorkspaceEvent → SessionPage
  | .switchView mode => s.switchSessions mode
  | .enter mode => { s with selectedID := fun _ => "" }.switchSessions mode
  | .leave =>
      if s.page.onScreen then
        (s.closeContainersShellSession.closeContainersLogsSession false).setContainersLogsPaused
          false
      else s
  | .redraw _ => if s.page.containersSelectedScope = "" then s else s.renderLists s.cacheIDs
  | _ => s

/-- What an answer to the workspace does to the sessions: the containers are rendered. -/
def followAnswer (s : SessionPage) : WorkspaceWait → WorkspaceAnswer → SessionPage
  | .list .containers scope _, .list (.rows ids) =>
      if s.page.containersSelectedScope = scope then s.renderLists ids else s
  | _, _ => s

/-! ### Opening -/

/-- A ticket is asked for. -/
def ask (kind : SessionKind) (id : String) (s : SessionPage) : Effect :=
  ({ s with
      asked := Function.update s.asked kind (some s.requests)
      requests := s.requests + 1 },
    [.ticket ⟨kind, s.attempt kind, s.requests, s.page.containersSelectedScope, id⟩])

/-- A container is selected for a session. -/
def select (kind : SessionKind) (id : String) (s : SessionPage) : SessionPage :=
  { s with selectedID := Function.update s.selectedID kind id }

/-- `openContainersShell` up to its request. -/
def openContainersShell (container : SessionContainer) (s : SessionPage) : Effect :=
  if container.id = "" then (s, [])
  else
    let chosen := (s.select .shell container.id).renderContainersShellList s.cacheIDs
    if normalizeContainerState container.state ≠ "running" then
      (chosen.closeContainersShellSession, [])
    else if !chosen.terminalLoaded then (chosen, [])
    else ask .shell container.id { chosen.closeContainersShellSession with terminal := some [] }

/-- The page's own text is appended to the log. -/
def appendNote (text : String) (s : SessionPage) : SessionPage :=
  { s with logs := appendContainersLogs text s.logs }

/-- The first line of a log. -/
def connectingNote (container : SessionContainer) : String :=
  let name := if container.name = "" then String.ofList (container.id.toList.take 12)
    else container.name
  "Connecting to \"" ++ name ++ "\"...\n"

/-- `openContainersLogs` up to its request. -/
def openContainersLogs (container : SessionContainer) (silentClose : Bool) (s : SessionPage) :
    Effect :=
  if container.id = "" then (s, [])
  else
    let chosen := (s.select .logs container.id).renderContainersLogsList s.cacheIDs
    let closed := (chosen.setContainersLogsPaused false).closeContainersLogsSession silentClose
    ask .logs container.id (closed.appendNote (connectingNote container))

/-- A socket is created. -/
def addSocket (x : SessionSocket) (state : ReadyState) (s : SessionPage) : SessionPage :=
  { s with
    sockets := s.sockets ++ [x]
    readyState := Function.update s.readyState s.sockets.length state }

/-- A socket becomes that of its session. -/
def attach : SessionKind → ℕ → SessionPage → SessionPage
  | .shell, i, s => { s with shellSocket := some i, dataListener := some i }
  | .logs, i, s => { s with logs := { s.logs with socket := some i } }

/-- The session of a ticket has been neither closed nor replaced. -/
def Accepts (s : SessionPage) (t : SessionTicket) : Prop :=
  s.attempt t.kind = t.attempt ∧ s.selectedID t.kind = t.containerID ∧
    s.page.containersViewMode = t.kind.mode

instance (s : SessionPage) (t : SessionTicket) : Decidable (s.Accepts t) :=
  inferInstanceAs (Decidable (_ ∧ _ ∧ _))

/-- The rest of `openContainersShell` and `openContainersLogs`, once the socket is there. -/
def socketCreated (t : SessionTicket) (s : SessionPage) : SessionPage :=
  if s.Accepts t then (s.addSocket t.socket .connecting).attach t.kind s.sockets.length
  else s.addSocket t.socket .closed

/-- The rest of them if there is none. -/
def ticketFailed (t : SessionTicket) (locks : Bool) (s : SessionPage) : SessionPage :=
  let s := if locks then s.pinGuardLock else s
  if t.kind = .shell ∧ s.attempt .shell = t.attempt ∧ s.selectedID .shell = t.containerID then
    s.closeContainersShellSession
  else s

/-! ### Sockets -/

/-- A socket changes its state. -/
def setReadyState (i : ℕ) (state : ReadyState) (s : SessionPage) : SessionPage :=
  { s with readyState := Function.update s.readyState i state }

section

-- as for the log of a container
variable (numberText : String → String) (normalizeLogLineTimestamp : List Char → String)

/-- The `message` listener of the shell. -/
def onShellMessage (ws : ℕ) (data : SocketData) (s : SessionPage) : SessionPage :=
  if s.shellSocket ≠ some ws then s
  else
    let written := { s with terminal := s.terminal.map (· ++ [(ws, data)]) }
    match data with
    | .text text =>
        match controlToasts numberText text with
        | none => written
        | some toasts =>
            if s.terminal = none then s else { s with shellToasts := s.shellToasts ++ toasts }
    | .binary bytes => if bytes = [] then s else written

/-- The `message` listener of the logs, to which binary data come as a `Blob`. -/
def onLogsSocketMessage (ws : ℕ) (data : SocketData) (s : SessionPage) : SessionPage :=
  match data with
  | .text text =>
      { s with
        logs := onLogsMessage numberText normalizeLogLineTimestamp ws text s.logs
        sources := if s.logs.socket = some ws then s.sources ++ [ws] else s.sources }
  | .binary _ => s

/-- A message of a socket. -/
def onMessage (kind : SessionKind) (ws : ℕ) (data : SocketData) (s : SessionPage) : SessionPage :=
  match kind with
  | .shell => s.onShellMessage numberText ws data
  | .logs => s.onLogsSocketMessage numberText normalizeLogLineTimestamp ws data

/-- The `close` listener of the logs; that of the shell only shows a placeholder. -/
def onLogsClose (ws : ℕ) (s : SessionPage) : SessionPage :=
  if s.logs.socket ≠ some ws then s
  else if s.silentClose then { s with silentClose := false }
  else s.appendNote "\n[logs disconnected]\n"

/-- The `error` listener of the logs. -/
def onLogsError (ws : ℕ) (s : SessionPage) : SessionPage :=
  if s.logs.socket ≠ some ws then s else s.appendNote "\n[logs connection failed]\n"

/-- The listener for what is typed. -/
def onData (data : String) (s : SessionPage) : SessionPage :=
  match s.dataListener with
  | some ws =>
      if s.shellSocket = some ws ∧ s.readyState ws = .open then
        { s with keystrokes := s.keystrokes ++ [⟨data, ws, s.asked .shell⟩] }
      else s
  | none => s

/-- The button for timestamps. -/
def toggleTimestamps (name : String) (s : SessionPage) : Effect :=
  let toggled := { s with logs := { s.logs with timestamps := !s.logs.timestamps } }
  if s.selectedID .logs = "" ∨ s.selectedID .logs ∉ s.cacheIDs then (toggled, [])
  else
    (toggled.setContainersLogsPaused false).openContainersLogs ⟨s.selectedID .logs, name, ""⟩ true

/-! ### Steps -/

/-- A session can be opened from its list. -/
def Shows (s : SessionPage) (kind : SessionKind) : Prop :=
  s.page.onScreen = true ∧ s.page.containersViewMode = kind.mode

instance (s : SessionPage) (kind : SessionKind) : Decidable (s.Shows kind) :=
  inferInstanceAs (Decidable (_ ∧ _))

/-- What events do. -/
def handle (s : SessionPage) : SessionPageEvent → Option Effect
  | .page e =>
      (s.page.handle e).map fun (page, new) => ({ s.follow e with page := page }, new.map .page)
  | .openShell container =>
      if s.Shows .shell then some (s.openContainersShell container) else none
  | .openLogs container =>
      if s.Shows .logs then some (s.openContainersLogs container false) else none
  | .type data => if s.terminal.isSome then some (s.onData data, []) else none
  | .opened i =>
      if s.readyState i = .connecting ∧ i < s.sockets.length then some (s.setReadyState i .open, [])
      else none
  | .message i data =>
      s.sockets[i]?.map fun x =>
        (s.onMessage numberText normalizeLogLineTimestamp x.kind i data, [])
  | .closed i =>
      s.sockets[i]?.map fun x =>
        let gone := s.setReadyState i .closed
        (if x.kind = .logs then gone.onLogsClose i else gone, [])
  | .error i => s.sockets[i]?.map fun x => (if x.kind = .logs then s.onLogsError i else s, [])
  | .pinLock => some (s.pinGuardLock, [])
  | .clearLogs => some (s.resetContainersLogsBuffer, [])
  | .pauseLogs => some (s.setContainersLogsPaused (!s.logs.paused), [])
  | .toggleTimestamps name => if s.Shows .logs then some (s.toggleTimestamps name) else none

end

/-- What answers do. -/
def resume (s : SessionPage) : SessionWait → SessionAnswer → Option Effect
  | .page k, .page answer =>
      (s.page.resume k answer).map fun (page, new) =>
        ({ s.followAnswer k answer with page := page }, new.map .page)
  | .ticket t, .socket => some (s.socketCreated t, [])
  | .ticket t, .failed locks => some (s.ticketFailed t locks, [])
  | _, _ => none

/-! ### What closing does -/

/-- What functions do that open nothing: each session is left alone, or closed. -/
structure Reduces (s t : SessionPage) : Prop where
  page : t.page = s.page
  sockets : t.sockets = s.sockets
  terminalLoaded : t.terminalLoaded = s.terminalLoaded
  keystrokes : t.keystrokes = s.keystrokes
  sessions : ∀ kind,
    (t.attempt kind = s.attempt kind ∧ t.asked kind = s.asked kind ∧
        t.socket kind = s.socket kind) ∨
      (s.attempt kind < t.attempt kind ∧ t.asked kind = none ∧ t.socket kind = none)
  closed : ∀ i, s.readyState i = .closed → t.readyState i = .closed
  dropped : ∀ kind i, s.socket kind = some i → t.socket kind = some i ∨ t.readyState i = .closed
  terminal : t.terminal = none ∨ (t.terminal = s.terminal ∧ t.shellSocket = s.shellSocket)
  sources : t.sources = [] ∨ (t.sources = s.sources ∧ t.logs.socket = s.logs.socket)

variable {s t u : SessionPage} {kind : SessionKind} {ids : List String}

/-- Two functions that open nothing open nothing together. -/
theorem Reduces.trans (h : Reduces s t) (h' : Reduces t u) : Reduces s u where
  page := h'.page.trans h.page
  sockets := h'.sockets.trans h.sockets
  terminalLoaded := h'.terminalLoaded.trans h.terminalLoaded
  keystrokes := h'.keystrokes.trans h.keystrokes
  sessions kind := by
    rcases h.sessions kind with ⟨hattempt, hasked, hsocket⟩ | ⟨hattempt, hasked, hsocket⟩
    · rw [← hattempt, ← hasked, ← hsocket]
      exact h'.sessions kind
    · refine .inr ?_
      rcases h'.sessions kind with ⟨hattempt', hasked', hsocket'⟩ | ⟨hattempt', hnone, hnone'⟩
      · exact ⟨hattempt'.symm ▸ hattempt, hasked'.trans hasked, hsocket'.trans hsocket⟩
      · exact ⟨hattempt.trans hattempt', hnone, hnone'⟩
  closed i hi := h'.closed i (h.closed i hi)
  dropped kind i hi := by
    rcases h.dropped kind i hi with hstays | hclosed
    · exact h'.dropped kind i hstays
    · exact .inr (h'.closed i hclosed)
  terminal := by
    rcases h'.terminal with hnone | ⟨hsame, hsocket⟩
    · exact .inl hnone
    · rw [hsame, hsocket]
      exact h.terminal
  sources := by
    rcases h'.sources with hnone | ⟨hsame, hsocket⟩
    · exact .inl hnone
    · rw [hsame, hsocket]
      exact h.sources

/-- A function that leaves the sessions. -/
theorem reduces_of_eq (hpage : t.page = s.page) (hsockets : t.sockets = s.sockets)
    (hready : t.readyState = s.readyState) (hattempt : t.attempt = s.attempt)
    (hasked : t.asked = s.asked) (hsocket : t.socket = s.socket)
    (hterminal : t.terminal = s.terminal) (hloaded : t.terminalLoaded = s.terminalLoaded)
    (hkeys : t.keystrokes = s.keystrokes) (hsources : t.sources = [] ∨ t.sources = s.sources) :
    Reduces s t where
  page := hpage
  sockets := hsockets
  terminalLoaded := hloaded
  keystrokes := hkeys
  sessions kind := .inl ⟨by rw [hattempt], by rw [hasked], by rw [hsocket]⟩
  closed i hi := by rwa [hready]
  dropped kind i hi := .inl (by rwa [hsocket])
  terminal := .inr ⟨hterminal, congrFun hsocket .shell⟩
  sources := hsources.imp id fun h => ⟨h, congrFun hsocket .logs⟩

/-- No change opens nothing. -/
theorem Reduces.refl (s : SessionPage) : Reduces s s :=
  reduces_of_eq rfl rfl rfl rfl rfl rfl rfl rfl rfl (.inr rfl)

/-- Closing the shell opens nothing. -/
theorem reduces_closeContainersShellSession (s : SessionPage) :
    Reduces s s.closeContainersShellSession where
  page := rfl
  sockets := rfl
  terminalLoaded := rfl
  keystrokes := rfl
  sessions kind := by
    cases kind with
    | shell => exact .inr ⟨Nat.lt_succ_self _, rfl, rfl⟩
    | logs => exact .inl ⟨rfl, rfl, rfl⟩
  closed i hi := by
    change (if _ then _ else _) = _
    rw [hi, ite_self]
  dropped kind i hi := by
    cases kind with
    | shell => exact .inr (if_pos hi)
    | logs => exact .inl hi
  terminal := .inl rfl
  sources := .inr ⟨rfl, rfl⟩

/-- So does closing the logs. -/
theorem reduces_closeContainersLogsSession (silent : Bool) (s : SessionPage) :
    Reduces s (s.closeContainersLogsSession silent) where
  page := rfl
  sockets := rfl
  terminalLoaded := rfl
  keystrokes := rfl
  sessions kind := by
    cases kind with
    | shell => exact .inl ⟨rfl, rfl, rfl⟩
    | logs => exact .inr ⟨Nat.lt_succ_self _, rfl, rfl⟩
  closed i hi := by
    change (if _ then _ else _) = _
    rw [hi, ite_self]
  dropped kind i hi := by
    cases kind with
    | shell => exact .inl hi
    | logs => exact .inr (if_pos hi)
  terminal := .inr ⟨rfl, rfl⟩
  sources := .inl rfl

/-- So does closing a session. -/
theorem reduces_closeSession (kind : SessionKind) (s : SessionPage) :
    Reduces s (closeSession kind s) := by
  cases kind with
  | shell => exact reduces_closeContainersShellSession s
  | logs => exact reduces_closeContainersLogsSession false s

/-- So does selecting a container. -/
theorem reduces_select (kind : SessionKind) (id : String) (s : SessionPage) :
    Reduces s (s.select kind id) :=
  reduces_of_eq rfl rfl rfl rfl rfl rfl rfl rfl rfl (.inr rfl)

/-- So does rendering the list of a session. -/
theorem reduces_renderSessionList (kind : SessionKind) (ids : List String) (s : SessionPage) :
    Reduces s (renderSessionList kind ids s) := by
  rw [renderSessionList]
  split_ifs
  · exact .refl s
  · exact (reduces_select kind "" s).trans (reduces_closeSession kind _)

/-- So does rendering both lists. -/
theorem reduces_renderLists (ids : List String) (s : SessionPage) :
    Reduces s (s.renderLists ids) := by
  rw [renderLists]
  split
  · exact reduces_renderSessionList .shell ids s
  · exact reduces_renderSessionList .logs ids s
  · exact .refl s

/-- So does emptying the log. -/
theorem reduces_resetContainersLogsBuffer (s : SessionPage) :
    Reduces s s.resetContainersLogsBuffer :=
  reduces_of_eq rfl rfl rfl rfl rfl (funext fun kind => by cases kind <;> rfl) rfl rfl rfl
    (.inl rfl)

/-- So does a pause of the logs. -/
theorem reduces_setContainersLogsPaused (paused : Bool) (s : SessionPage) :
    Reduces s (s.setContainersLogsPaused paused) := by
  rw [setContainersLogsPaused]
  split_ifs <;>
    exact reduces_of_eq rfl rfl rfl rfl rfl (funext fun kind => by cases kind <;> rfl) rfl rfl rfl
      (.inr rfl)

/-- So does the lock of the page. -/
theorem reduces_pinGuardLock (s : SessionPage) : Reduces s s.pinGuardLock :=
  (reduces_closeContainersShellSession s).trans (reduces_closeContainersLogsSession true _)

/-- Both sessions are closed, and the log goes on. -/
theorem reduces_closeBoth (s : SessionPage) :
    Reduces s ((s.closeContainersShellSession.closeContainersLogsSession
      false).setContainersLogsPaused false) :=
  ((reduces_closeContainersShellSession s).trans
    (reduces_closeContainersLogsSession false _)).trans (reduces_setContainersLogsPaused false _)

/-- So does a switch to another view. -/
theorem reduces_switchSessions (mode : ContainersViewMode) (s : SessionPage) :
    Reduces s (s.switchSessions mode) := by
  cases mode with
  | shell =>
      exact ((reduces_closeContainersLogsSession false s).trans
        (reduces_setContainersLogsPaused false _)).trans (reduces_renderSessionList .shell _ _)
  | logs => exact (reduces_closeBoth s).trans (reduces_renderSessionList .logs _ _)
  | table =>
      exact (reduces_closeContainersShellSession s).trans
        (reduces_closeContainersLogsSession false _)
  | _ => exact reduces_closeBoth s

/-- So does what follows an event of the workspace. -/
theorem reduces_follow (e : WorkspaceEvent) (s : SessionPage) : Reduces s (s.follow e) := by
  cases e with
  | switchView mode => exact reduces_switchSessions mode s
  | enter mode =>
      have hselected : Reduces s { s with selectedID := fun _ => "" } :=
        reduces_of_eq rfl rfl rfl rfl rfl rfl rfl rfl rfl (.inr rfl)
      exact hselected.trans (reduces_switchSessions mode _)
  | leave =>
      rw [follow]
      split_ifs
      · exact reduces_closeBoth s
      · exact .refl s
  | redraw byState =>
      rw [follow]
      split_ifs
      · exact .refl s
      · exact reduces_renderLists _ s
  | _ => exact .refl s

/-- So does what follows an answer to it. -/
theorem reduces_followAnswer (k : WorkspaceWait) (answer : WorkspaceAnswer) (s : SessionPage) :
    Reduces s (s.followAnswer k answer) := by
  unfold followAnswer
  split
  · split_ifs
    · exact reduces_renderLists _ s
    · exact .refl s
  · exact .refl s

/-- So does a ticket that was refused. -/
theorem reduces_ticketFailed (t : SessionTicket) (locks : Bool) (s : SessionPage) :
    Reduces s (s.ticketFailed t locks) := by
  have hlock := reduces_pinGuardLock s
  rw [ticketFailed]
  split_ifs
  · exact hlock.trans (reduces_closeContainersShellSession _)
  · exact hlock
  · exact reduces_closeContainersShellSession s
  · exact .refl s

/-! ### What the sessions wait for -/

/-- The tickets that a session still waits for. -/
def pending (s : SessionPage) (kind : SessionKind) (tickets : List SessionTicket) :
    List SessionTicket :=
  tickets.filter fun t => t.kind = kind ∧ t.attempt = s.attempt kind

/-- A session has no socket, or waits for one, or has one; then it is for the last open request. -/
inductive SessionState (s : SessionPage) (kind : SessionKind) : List SessionTicket → Prop
  | idle (hsocket : s.socket kind = none) : SessionState s kind []
  | opening {t : SessionTicket} (hsocket : s.socket kind = none)
      (hasked : s.asked kind = some t.request) : SessionState s kind [t]
  | attached {i : ℕ} {x : SessionSocket} (hsocket : s.socket kind = some i)
      (hx : s.sockets[i]? = some x) (hkind : x.kind = kind)
      (hasked : s.asked kind = some x.request) : SessionState s kind []

/-- The sessions, with the tickets that the page waits for. -/
structure SessionsInv (s : SessionPage) (tickets : List SessionTicket) : Prop where
  sessions : ∀ kind, SessionState s kind (s.pending kind tickets)
  older : ∀ t ∈ tickets, t.attempt ≤ s.attempt t.kind
  shown : ∀ kind, s.asked kind ≠ none → s.Shows kind
  unloaded : s.terminalLoaded = false → s.asked .shell = none
  closed : ∀ i, i < s.sockets.length → (∃ kind, s.socket kind = some i) ∨ s.readyState i = .closed
  terminal : ∀ written ∈ s.terminal, ∀ piece ∈ written, s.shellSocket = some piece.1
  sources : ∀ i ∈ s.sources, s.logs.socket = some i
  keystrokes : ∀ k ∈ s.keystrokes, ∃ x, s.sockets[k.socket]? = some x ∧ k.asked = some x.request

variable {tickets : List SessionTicket}

/-- A session that was not asked for has no ticket and no socket. -/
theorem SessionState.eq_nil {ts : List SessionTicket} (h : SessionState s kind ts)
    (hasked : s.asked kind = none) : ts = [] ∧ s.socket kind = none := by
  cases h with
  | idle hsocket => exact ⟨rfl, hsocket⟩
  | opening _ hsome => cases hasked.symm.trans hsome
  | attached _ _ _ hsome => cases hasked.symm.trans hsome

/-- **Closing keeps the sessions in order.** -/
theorem SessionsInv.reduce (h : SessionsInv s tickets) (hred : Reduces s t) :
    SessionsInv t tickets where
  sessions kind := by
    rcases hred.sessions kind with ⟨hattempt, hasked, hsocket⟩ | ⟨hattempt, hasked, hsocket⟩
    · have hsame : t.pending kind tickets = s.pending kind tickets := by
        rw [pending, pending, hattempt]
      have hold := h.sessions kind
      rw [hsame]
      generalize s.pending kind tickets = ts at hold ⊢
      cases hold with
      | idle hnone => exact .idle (hsocket.trans hnone)
      | opening hnone hsome => exact .opening (hsocket.trans hnone) (hasked.trans hsome)
      | attached hsome hx hkind hrequest =>
          exact .attached (hsocket.trans hsome) (hred.sockets ▸ hx) hkind (hasked.trans hrequest)
    · -- the tickets that come are of an older attempt
      have hnone : t.pending kind tickets = [] := by
        refine List.filter_eq_nil_iff.mpr fun x hx hlive => ?_
        obtain ⟨rfl, hlast⟩ := of_decide_eq_true hlive
        have hle := h.older x hx
        omega
      rw [hnone]
      exact .idle hsocket
  older x hx := by
    refine (h.older x hx).trans ?_
    rcases hred.sessions x.kind with ⟨hattempt, -⟩ | ⟨hattempt, -⟩
    · exact hattempt.ge
    · exact hattempt.le
  shown kind hsome := by
    rw [Shows, hred.page]
    rcases hred.sessions kind with ⟨-, hasked, -⟩ | ⟨-, hasked, -⟩
    · exact h.shown kind (hasked ▸ hsome)
    · exact absurd hasked hsome
  unloaded hloaded := by
    rcases hred.sessions .shell with ⟨-, hasked, -⟩ | ⟨-, hasked, -⟩
    · exact hasked.trans (h.unloaded (hred.terminalLoaded ▸ hloaded))
    · exact hasked
  closed i hi := by
    rcases h.closed i (hred.sockets ▸ hi) with ⟨kind, hkind⟩ | hclosed
    · exact (hred.dropped kind i hkind).imp (fun hsocket => ⟨kind, hsocket⟩) id
    · exact .inr (hred.closed i hclosed)
  terminal written hwritten piece hpiece := by
    rcases hred.terminal with hnone | ⟨hsame, hsocket⟩
    · rw [hnone] at hwritten
      cases hwritten
    · exact hsocket.trans (h.terminal written (hsame ▸ hwritten) piece hpiece)
  sources i hi := by
    rcases hred.sources with hnone | ⟨hsame, hsocket⟩
    · rw [hnone] at hi
      cases hi
    · exact hsocket.trans (h.sources i (hsame ▸ hi))
  keystrokes k hk := by
    rw [hred.sockets]
    exact h.keystrokes k (hred.keystrokes ▸ hk)

/-! ### What else functions do -/

/-- The tickets that a session waits for, when there is one more. -/
theorem pending_append (front back : List SessionTicket) :
    s.pending kind (front ++ back) = s.pending kind front ++ s.pending kind back :=
  List.filter_append ..

/-- The tickets that a session waits for, by the first of a list. -/
theorem pending_cons (t : SessionTicket) (ts : List SessionTicket) :
    s.pending kind (t :: ts) =
      if t.kind = kind ∧ t.attempt = s.attempt kind then t :: s.pending kind ts
      else s.pending kind ts := by
  simp [pending, List.filter_cons]

/-- The state of a session depends on its own fields only. -/
theorem SessionState.of_eq {ts : List SessionTicket} (h : SessionState s kind ts)
    (hsocket : t.socket kind = s.socket kind) (hasked : t.asked kind = s.asked kind)
    (hsockets : ∀ (i : ℕ) (x : SessionSocket), s.sockets[i]? = some x → t.sockets[i]? = some x) :
    SessionState t kind ts := by
  cases h with
  | idle hnone => exact .idle (hsocket.trans hnone)
  | opening hnone hsome => exact .opening (hsocket.trans hnone) (hasked.trans hsome)
  | attached hsome hx hkind hrequest =>
      exact .attached (hsocket.trans hsome) (hsockets _ _ hx) hkind (hasked.trans hrequest)

/-- A function leaves the sessions, and opens no socket that was closed. -/
structure Keeps (s t : SessionPage) : Prop where
  page : t.page = s.page
  sockets : t.sockets = s.sockets
  terminalLoaded : t.terminalLoaded = s.terminalLoaded
  attempt : t.attempt = s.attempt
  asked : t.asked = s.asked
  socket : t.socket = s.socket
  closed : ∀ i, s.readyState i = .closed → t.readyState i = .closed

/-- A function that leaves the sessions keeps the invariant, if the terminal, the log and the
keystrokes are as the invariant says. -/
theorem SessionsInv.keep (h : SessionsInv s tickets) (hkeeps : Keeps s t)
    (hterminal : ∀ written ∈ t.terminal, ∀ piece ∈ written, s.shellSocket = some piece.1)
    (hsources : ∀ i ∈ t.sources, s.logs.socket = some i)
    (hkeys : ∀ k ∈ t.keystrokes, ∃ x, s.sockets[k.socket]? = some x ∧ k.asked = some x.request) :
    SessionsInv t tickets where
  sessions kind := by
    rw [pending, hkeeps.attempt]
    refine (h.sessions kind).of_eq (congrFun hkeeps.socket kind) (congrFun hkeeps.asked kind) ?_
    exact fun i x hx => hkeeps.sockets ▸ hx
  older x hx := by
    rw [hkeeps.attempt]
    exact h.older x hx
  shown kind hsome := by
    rw [Shows, hkeeps.page]
    exact h.shown kind (hkeeps.asked ▸ hsome)
  unloaded hloaded := by
    rw [hkeeps.asked]
    exact h.unloaded (hkeeps.terminalLoaded ▸ hloaded)
  closed i hi := by
    rw [hkeeps.socket]
    exact (h.closed i (hkeeps.sockets ▸ hi)).imp id (hkeeps.closed i)
  terminal written hwritten piece hpiece :=
    (congrFun hkeeps.socket .shell).trans (hterminal written hwritten piece hpiece)
  sources i hi := (congrFun hkeeps.socket .logs).trans (hsources i hi)
  keystrokes k hk := by
    rw [hkeeps.sockets]
    exact hkeys k hk

/-- Appending to the log leaves its socket. -/
theorem socket_appendContainersLogs (data : String) (v : LogsView) :
    (appendContainersLogs data v).socket = v.socket := by
  rw [appendContainersLogs]
  split_ifs <;> rfl

/-- A note in the log leaves the sessions. -/
theorem keeps_appendNote (text : String) (s : SessionPage) : Keeps s (s.appendNote text) := by
  refine ⟨rfl, rfl, rfl, rfl, rfl, funext fun kind => ?_, fun _ => id⟩
  cases kind with
  | shell => rfl
  | logs => exact socket_appendContainersLogs text s.logs

/-- So it keeps the invariant. -/
theorem SessionsInv.appendNote (h : SessionsInv s tickets) (text : String) :
    SessionsInv (s.appendNote text) tickets :=
  h.keep (keeps_appendNote text s) h.terminal h.sources h.keystrokes

/-- A terminal that holds nothing yet keeps the invariant. -/
theorem SessionsInv.newTerminal (h : SessionsInv s tickets) :
    SessionsInv { s with terminal := some [] } tickets := by
  refine h.keep ⟨rfl, rfl, rfl, rfl, rfl, rfl, fun _ => id⟩ ?_ h.sources h.keystrokes
  rintro written ⟨⟩ piece hpiece
  cases hpiece

/-! ### Opening -/

/-- **An open request**, after its session was closed. -/
theorem SessionsInv.ask (h : SessionsInv s tickets) (id : String) (hnone : s.asked kind = none)
    (hshows : s.Shows kind) (hloaded : s.terminalLoaded = true ∨ kind = .logs) :
    SessionsInv (ask kind id s).1 (tickets ++
      [⟨kind, s.attempt kind, s.requests, s.page.containersSelectedScope, id⟩]) where
  sessions kind' := by
    change SessionState _ kind' (s.pending kind' (tickets ++ [_]))
    rw [pending_append, pending_cons]
    rcases eq_or_ne kind' kind with rfl | hne
    · obtain ⟨hnil, hsocket⟩ := (h.sessions kind').eq_nil hnone
      rw [hnil, if_pos ⟨rfl, rfl⟩]
      exact .opening hsocket (Function.update_self ..)
    · rw [if_neg fun hlive => hne hlive.1.symm]
      rw [show s.pending kind' [] = [] from rfl, List.append_nil]
      refine (h.sessions kind').of_eq ?_ (Function.update_of_ne hne ..) fun _ _ hx => hx
      cases kind' <;> rfl
  older x hx := by
    rcases List.mem_append.mp hx with hold | hnew
    · exact h.older x hold
    · rw [List.mem_singleton.mp hnew]
      exact Nat.le_refl _
  shown kind' hsome := by
    rcases eq_or_ne kind' kind with rfl | hne
    · exact hshows
    · exact h.shown kind' fun hnone' => hsome ((Function.update_of_ne hne ..).trans hnone')
  unloaded hfalse := by
    have hlogs : kind = .logs := hloaded.resolve_left fun htrue => absurd (htrue.symm.trans hfalse)
      (by decide)
    subst hlogs
    exact h.unloaded hfalse
  closed := h.closed
  terminal := h.terminal
  sources := h.sources
  keystrokes := h.keystrokes

/-- The ticket that comes, if its session still waits for it, is the only one. -/
theorem SessionState.answered {ticket : SessionTicket} {front back : List SessionTicket}
    (h : SessionState s kind (s.pending kind (front ++ ticket :: back)))
    (hlive : ticket.kind = kind ∧ ticket.attempt = s.attempt kind) :
    s.pending kind (front ++ back) = [] ∧ s.socket kind = none ∧
      s.asked kind = some ticket.request := by
  rw [pending_append, pending_cons, if_pos hlive] at h
  generalize hts : s.pending kind front ++ ticket :: s.pending kind back = ts at h
  cases h with
  | idle => exact absurd hts (List.append_ne_nil_of_right_ne_nil _ nofun)
  | opening hsocket hasked =>
      rcases List.append_eq_singleton_iff.mp hts with ⟨hfront, hlast⟩ | ⟨-, hlast⟩
      · obtain ⟨rfl, hback⟩ := List.cons.inj hlast
        refine ⟨?_, hsocket, hasked⟩
        rw [pending_append, hfront, hback, List.append_nil]
      · cases hlast
  | attached => exact absurd hts (List.append_ne_nil_of_right_ne_nil _ nofun)

/-- A ticket that has come is no longer waited for. -/
theorem SessionsInv.drop {ticket : SessionTicket} {front back : List SessionTicket}
    (h : SessionsInv s (front ++ ticket :: back)) : SessionsInv s (front ++ back) where
  sessions kind := by
    by_cases hlive : ticket.kind = kind ∧ ticket.attempt = s.attempt kind
    · obtain ⟨hnil, hsocket, -⟩ := (h.sessions kind).answered hlive
      rw [hnil]
      exact .idle hsocket
    · have hold := h.sessions kind
      rw [pending_append, pending_cons, if_neg hlive, ← pending_append] at hold
      exact hold
  older x hx := h.older x (((List.sublist_cons_self ticket back).append_left front).subset hx)
  shown := h.shown
  unloaded := h.unloaded
  closed := h.closed
  terminal := h.terminal
  sources := h.sources
  keystrokes := h.keystrokes

/-- A new socket leaves those that were there. -/
theorem getElem?_addSocket {x y : SessionSocket} {state : ReadyState} {i : ℕ}
    (h : s.sockets[i]? = some y) : (s.addSocket x state).sockets[i]? = some y :=
  Slots.append_of_some h

/-- A socket that was created before, or the new one. -/
theorem closed_addSocket {x : SessionSocket} {state : ReadyState} (h : SessionsInv s tickets)
    {i : ℕ} (hi : i < (s.addSocket x state).sockets.length) :
    i = s.sockets.length ∨
      (∃ kind, s.socket kind = some i) ∨ (s.addSocket x state).readyState i = .closed := by
  rw [addSocket, List.length_append] at hi
  rcases Nat.lt_succ_iff_lt_or_eq.mp hi with hlt | heq
  · refine .inr ((h.closed i hlt).imp id fun hclosed => ?_)
    exact (Function.update_of_ne hlt.ne ..).trans hclosed
  · exact .inl heq

/-- A socket that nobody waits for is closed at once. -/
theorem SessionsInv.addClosed (h : SessionsInv s tickets) (x : SessionSocket) :
    SessionsInv (s.addSocket x .closed) tickets where
  sessions kind := (h.sessions kind).of_eq rfl rfl fun _ _ => getElem?_addSocket
  older := h.older
  shown := h.shown
  unloaded := h.unloaded
  closed i hi := by
    rcases closed_addSocket h hi with rfl | hold
    · exact .inr (Function.update_self ..)
    · exact hold
  terminal := h.terminal
  sources := h.sources
  keystrokes k hk := by
    obtain ⟨y, hy, hasked⟩ := h.keystrokes k hk
    exact ⟨y, getElem?_addSocket hy, hasked⟩

/-- The socket that is attached is that of its session. -/
theorem socket_attach_self (i : ℕ) (s : SessionPage) : (s.attach kind i).socket kind = some i := by
  cases kind <;> rfl

/-- The other session keeps its socket. -/
theorem socket_attach_of_ne {kind' : SessionKind} (hne : kind' ≠ kind) (i : ℕ) (s : SessionPage) :
    (attach kind i s).socket kind' = s.socket kind' := by
  cases kind <;> cases kind' <;> first | rfl | exact absurd rfl hne

/-- **A socket for which the session waited becomes its socket.** -/
theorem SessionsInv.attach (h : SessionsInv s tickets) {x : SessionSocket} (hkind : x.kind = kind)
    (hpending : s.pending kind tickets = []) (hnone : s.socket kind = none)
    (hasked : s.asked kind = some x.request) :
    SessionsInv ((s.addSocket x .connecting).attach kind s.sockets.length) tickets where
  sessions kind' := by
    have hsame : ((s.addSocket x .connecting).attach kind s.sockets.length).attempt = s.attempt ∧
        ((s.addSocket x .connecting).attach kind s.sockets.length).asked = s.asked ∧
        ((s.addSocket x .connecting).attach kind s.sockets.length).sockets =
          s.sockets ++ [x] := by
      cases kind <;> exact ⟨rfl, rfl, rfl⟩
    obtain ⟨hattempt, hall, hsockets⟩ := hsame
    rw [pending, hattempt]
    rcases eq_or_ne kind' kind with rfl | hne
    · rw [← pending, hpending]
      refine .attached (socket_attach_self ..) ?_ hkind ?_
      · rw [hsockets]
        exact Slots.append_self _ _
      · rw [hall]
        exact hasked
    · refine (h.sessions kind').of_eq ?_ (congrFun hall kind') fun i y hy => ?_
      · exact socket_attach_of_ne hne _ _
      · rw [hsockets]
        exact Slots.append_of_some hy
  older y hy := by
    have hold := h.older y hy
    cases kind <;> exact hold
  shown kind' hsome := by
    have hold := h.shown kind'
    cases kind <;> exact hold hsome
  unloaded hfalse := by
    have hold := h.unloaded
    cases kind <;> exact hold hfalse
  closed i hi := by
    have hlt : i < (s.addSocket x .connecting).sockets.length := by cases kind <;> exact hi
    rcases closed_addSocket h hlt with rfl | ⟨kind', hkind'⟩ | hclosed
    · exact .inl ⟨kind, socket_attach_self ..⟩
    · have hne : kind' ≠ kind := by
        rintro rfl
        cases hnone.symm.trans hkind'
      exact .inl ⟨kind', (socket_attach_of_ne hne _ _).trans hkind'⟩
    · refine .inr ?_
      cases kind <;> exact hclosed
  terminal written hwritten piece hpiece := by
    cases kind with
    | shell => cases hnone.symm.trans (h.terminal written hwritten piece hpiece)
    | logs => exact h.terminal written hwritten piece hpiece
  sources i hi := by
    cases kind with
    | shell => exact h.sources i hi
    | logs => cases hnone.symm.trans (h.sources i hi)
  keystrokes k hk := by
    have hold : ∃ y, s.sockets[k.socket]? = some y ∧ k.asked = some y.request :=
      h.keystrokes k (by cases kind <;> exact hk)
    obtain ⟨y, hy, hrequest⟩ := hold
    refine ⟨y, ?_, hrequest⟩
    cases kind <;> exact Slots.append_of_some hy

/-- **A ticket comes.** -/
theorem SessionsInv.socketCreated {ticket : SessionTicket} {front back : List SessionTicket}
    (h : SessionsInv s (front ++ ticket :: back)) :
    SessionsInv (s.socketCreated ticket) (front ++ back) := by
  rw [SessionPage.socketCreated]
  split_ifs with haccepts
  · obtain ⟨hpending, hnone, hasked⟩ :=
      (h.sessions ticket.kind).answered ⟨rfl, haccepts.1.symm⟩
    exact h.drop.attach rfl hpending hnone hasked
  · exact h.drop.addClosed _

/-! ### Sockets -/

section

variable (numberText : String → String) (normalizeLogLineTimestamp : List Char → String)

/-- Text that arrives leaves the socket of the log. -/
theorem socket_processContainersLogsChunk (chunk : String) (v : LogsView) :
    (processContainersLogsChunk normalizeLogLineTimestamp chunk v).socket = v.socket := by
  have hfold : ∀ (lines : List (List Char)) (v : LogsView),
      (lines.foldl (fun v line =>
        appendContainersLogs (normalizeLogLineTimestamp line ++ "\n") v) v).socket = v.socket := by
    intro lines
    induction lines with
    | nil => exact fun _ => rfl
    | cons line lines ih => exact fun v => (ih _).trans (socket_appendContainersLogs _ v)
  rw [processContainersLogsChunk]
  split_ifs
  · rfl
  · exact socket_appendContainersLogs chunk v
  · exact hfold _ _

/-- So does a message. -/
theorem socket_onLogsMessage (ws : ℕ) (data : String) (v : LogsView) :
    (onLogsMessage numberText normalizeLogLineTimestamp ws data v).socket = v.socket := by
  rw [onLogsMessage]
  split_ifs
  · rfl
  · split
    · exact socket_processContainersLogsChunk normalizeLogLineTimestamp data v
    · rfl

/-- **A message is shown only if it comes from the socket of its session.** -/
theorem SessionsInv.message (h : SessionsInv s tickets) (kind : SessionKind) (ws : ℕ)
    (data : SocketData) :
    SessionsInv (s.onMessage numberText normalizeLogLineTimestamp kind ws data) tickets := by
  cases kind with
  | shell =>
      have hwritten : s.shellSocket = some ws →
          SessionsInv { s with terminal := s.terminal.map (· ++ [(ws, data)]) } tickets := by
        intro hws
        refine h.keep ⟨rfl, rfl, rfl, rfl, rfl, rfl, fun _ => id⟩ ?_ h.sources h.keystrokes
        intro written hmem piece hpiece
        obtain ⟨before, hbefore, rfl⟩ := Option.map_eq_some_iff.mp hmem
        rcases List.mem_append.mp hpiece with hold | hnew
        · exact h.terminal before hbefore piece hold
        · rw [List.mem_singleton.mp hnew]
          exact hws
      rw [onMessage, onShellMessage]
      by_cases hws : s.shellSocket = some ws
      · rw [if_neg (not_not_intro hws)]
        cases data with
        | text text =>
            simp only
            split
            · exact hwritten hws
            · split_ifs
              · exact h
              · exact h.keep ⟨rfl, rfl, rfl, rfl, rfl, rfl, fun _ => id⟩ h.terminal h.sources
                  h.keystrokes
        | binary bytes =>
            simp only
            split_ifs
            · exact h
            · exact hwritten hws
      · rw [if_pos hws]
        exact h
  | logs =>
      cases data with
      | binary bytes => exact h
      | text text =>
          refine h.keep ⟨rfl, rfl, rfl, rfl, rfl, funext fun kind => ?_, fun _ => id⟩ h.terminal
            (fun i hi => ?_) h.keystrokes
          · cases kind with
            | shell => rfl
            | logs => exact socket_onLogsMessage numberText normalizeLogLineTimestamp ws text s.logs
          · change i ∈ (if _ then _ else _) at hi
            split_ifs at hi with hws
            · rcases List.mem_append.mp hi with hold | hnew
              · exact h.sources i hold
              · rw [List.mem_singleton.mp hnew]
                exact hws
            · exact h.sources i hi

end

/-- A socket that changes its state, and does not open again, keeps the invariant. -/
theorem SessionsInv.setReadyState (h : SessionsInv s tickets) {i : ℕ} {state : ReadyState}
    (hstate : s.readyState i = .closed → state = .closed) :
    SessionsInv (s.setReadyState i state) tickets := by
  refine h.keep ⟨rfl, rfl, rfl, rfl, rfl, rfl, fun j hj => ?_⟩ h.terminal h.sources h.keystrokes
  rcases eq_or_ne j i with rfl | hne
  · exact (Function.update_self ..).trans (hstate hj)
  · exact (Function.update_of_ne hne ..).trans hj

/-- So does the end of the logs. -/
theorem SessionsInv.onLogsClose (h : SessionsInv s tickets) (ws : ℕ) :
    SessionsInv (s.onLogsClose ws) tickets := by
  rw [SessionPage.onLogsClose]
  split_ifs
  · exact h
  · exact h.keep ⟨rfl, rfl, rfl, rfl, rfl, rfl, fun _ => id⟩ h.terminal h.sources h.keystrokes
  · exact h.appendNote _

/-- So does an error of the logs. -/
theorem SessionsInv.onLogsError (h : SessionsInv s tickets) (ws : ℕ) :
    SessionsInv (s.onLogsError ws) tickets := by
  rw [SessionPage.onLogsError]
  split_ifs
  · exact h
  · exact h.appendNote _

/-- The socket of a session is for its last open request. -/
theorem SessionsInv.attached (h : SessionsInv s tickets) {i : ℕ}
    (hsocket : s.socket kind = some i) :
    ∃ x, s.sockets[i]? = some x ∧ x.kind = kind ∧ s.asked kind = some x.request := by
  have hstate := h.sessions kind
  generalize s.pending kind tickets = ts at hstate
  cases hstate with
  | idle hnone => cases hnone.symm.trans hsocket
  | opening hnone => cases hnone.symm.trans hsocket
  | attached hsome hx hkind hasked =>
      obtain rfl := Option.some.inj (hsome.symm.trans hsocket)
      exact ⟨_, hx, hkind, hasked⟩

/-- **Keystrokes go to the socket of the session.** -/
theorem SessionsInv.onData (h : SessionsInv s tickets) (data : String) :
    SessionsInv (s.onData data) tickets := by
  rw [SessionPage.onData]
  split
  · rename_i ws hlistener
    split_ifs with hopen
    · refine h.keep ⟨rfl, rfl, rfl, rfl, rfl, rfl, fun _ => id⟩ h.terminal h.sources
        fun k hk => ?_
      rcases List.mem_append.mp hk with hold | hnew
      · exact h.keystrokes k hold
      · obtain rfl := List.mem_singleton.mp hnew
        have hsocket : s.socket .shell = some ws := hopen.1
        obtain ⟨x, hx, -, hasked⟩ := h.attached hsocket
        exact ⟨x, hx, hasked⟩
    · exact h
  · exact h

/-! ### Opening requests -/

/-- Logs that were closed are not asked for. -/
theorem asked_closeContainersLogsSession (silent : Bool) (s : SessionPage) :
    (s.closeContainersLogsSession silent).asked .logs = none := rfl

/-- A function that opens nothing leaves the lists of the sessions. -/
theorem Reduces.shows (h : Reduces s t) (hs : s.Shows kind) : t.Shows kind := by
  rw [Shows, h.page]
  exact hs

/-- The tickets among what the page waits for. -/
def ticketsOf (waiting : List SessionWait) : List SessionTicket :=
  waiting.filterMap fun k =>
    match k with
    | .ticket t => some t
    | .page _ => none

/-- What a function leaves is in order, with the tickets that it has asked for. -/
def InOrder (ts : List SessionTicket) (r : Effect) : Prop :=
  SessionsInv r.1 (ts ++ ticketsOf r.2)

/-- Sessions that keep the invariant are in order without a further ticket. -/
theorem SessionsInv.inOrder {ts : List SessionTicket} (h : SessionsInv s ts) :
    InOrder ts (s, []) := by
  rw [InOrder, ticketsOf, List.filterMap_nil, List.append_nil]
  exact h

/-- **What opening a shell leaves.** -/
theorem SessionsInv.openContainersShell {ts : List SessionTicket} (h : SessionsInv s ts)
    (container : SessionContainer) (hshows : s.Shows .shell) :
    InOrder ts (s.openContainersShell container) := by
  have hchosen : Reduces s
      ((s.select .shell container.id).renderContainersShellList s.cacheIDs) :=
    (reduces_select .shell container.id s).trans (reduces_renderSessionList .shell _ _)
  have hclosed := hchosen.trans (reduces_closeContainersShellSession _)
  rw [SessionPage.openContainersShell]
  dsimp only
  split_ifs with hid hrunning hloaded
  · exact h.inOrder
  · exact (h.reduce hclosed).inOrder
  · exact (h.reduce hchosen).inOrder
  · have hshows' := hclosed.shows hshows
    refine (h.reduce hclosed).newTerminal.ask container.id rfl hshows' (.inl ?_)
    rw [Bool.not_eq_true', Bool.not_eq_false] at hloaded
    exact hloaded

/-- **What opening a log leaves.** -/
theorem SessionsInv.openContainersLogs {ts : List SessionTicket} (h : SessionsInv s ts)
    (container : SessionContainer) (silentClose : Bool) (hshows : s.Shows .logs) :
    InOrder ts (s.openContainersLogs container silentClose) := by
  have hclosed : Reduces s
      ((((s.select .logs container.id).renderContainersLogsList
        s.cacheIDs).setContainersLogsPaused false).closeContainersLogsSession silentClose) :=
    (((reduces_select .logs container.id s).trans (reduces_renderSessionList .logs _ _)).trans
      (reduces_setContainersLogsPaused false _)).trans (reduces_closeContainersLogsSession _ _)
  rw [SessionPage.openContainersLogs]
  split_ifs with hid
  · exact h.inOrder
  · have hshows' := hclosed.shows hshows
    exact ((h.reduce hclosed).appendNote _).ask container.id rfl hshows' (.inr rfl)

/-- The button for timestamps leaves the sessions in order. -/
theorem SessionsInv.toggleTimestamps {ts : List SessionTicket} (h : SessionsInv s ts)
    (name : String) (hshows : s.Shows .logs) : InOrder ts (s.toggleTimestamps name) := by
  have htoggled : Reduces s { s with logs := { s.logs with timestamps := !s.logs.timestamps } } :=
    reduces_of_eq rfl rfl rfl rfl rfl (funext fun kind => by cases kind <;> rfl) rfl rfl rfl
      (.inr rfl)
  have hgoesOn := htoggled.trans (reduces_setContainersLogsPaused false _)
  rw [SessionPage.toggleTimestamps]
  split_ifs
  · exact (h.reduce htoggled).inOrder
  · exact (h.reduce hgoesOn).openContainersLogs _ true (hgoesOn.shows hshows)

/-! ### The workspace -/

/-- What an event does to the view. -/
theorem handle_view {w : Workspace} {r : Workspace.Effect} {e : WorkspaceEvent}
    (h : w.handle e = some r) :
    (∃ mode, e = .switchView mode ∧ r.1.onScreen = w.onScreen ∧ r.1.containersViewMode = mode) ∨
      (∃ mode, e = .enter mode ∧ w.onScreen = false) ∨ e = .leave ∨ Workspace.KeepsView w r.1 := by
  have hkeeps {v : Workspace} (hview : Workspace.KeepsView w v) {new : List WorkspaceWait}
      (heq : some (v, new) = some r) : Workspace.KeepsView w r.1 := Option.some.inj heq ▸ hview
  have hrefresh {v : Workspace} (hview : Workspace.KeepsView w v) (kind : ListKind) :
      Workspace.KeepsView w (Workspace.refresh kind .nothing v).1 :=
    hview.trans (Workspace.keepsView_refresh kind .nothing v)
  cases e with
  | selectServer scope =>
      obtain ⟨-, heq⟩ := Option.ite_none_right_eq_some.mp h
      obtain rfl := Option.some.inj heq
      refine .inr (.inr (.inr ?_))
      rw [Workspace.pickServer, Workspace.refreshSelectedServerView]
      split_ifs
      · refine hrefresh ?_ _
        exact ⟨rfl, rfl⟩
      · refine hrefresh ?_ _
        exact ⟨rfl, rfl⟩
  | serverList scopes =>
      obtain rfl := Option.some.inj h
      refine .inr (.inr (.inr ?_))
      rw [Workspace.updateContainersServerOptions, Workspace.refreshSelectedServerView]
      split_ifs
      · refine hrefresh ?_ _
        exact ⟨rfl, rfl⟩
      · exact ⟨rfl, rfl⟩
  | switchView mode =>
      obtain rfl := Option.some.inj h
      have hview := Workspace.keepsView_refresh mode.kind .nothing (w.showMode mode)
      refine .inl ⟨mode, rfl, ?_⟩
      rw [Workspace.setContainersViewMode, Workspace.Effect.andThen]
      simp only
      split_ifs
      · exact ⟨hview.onScreen, hview.mode⟩
      · exact ⟨hview.onScreen, hview.mode⟩
  | enter mode =>
      obtain ⟨hscreen, -⟩ := Option.ite_none_left_eq_some.mp h
      exact .inr (.inl ⟨mode, rfl, Bool.eq_false_of_not_eq_true hscreen⟩)
  | leave => exact .inr (.inr (.inl rfl))
  | refresh kind =>
      obtain rfl := Option.some.inj h
      exact .inr (.inr (.inr (Workspace.keepsView_refresh kind .nothing w)))
  | redraw byState =>
      obtain rfl := Option.some.inj h
      exact .inr (.inr (.inr ⟨rfl, rfl⟩))
  | selectResources id =>
      obtain ⟨-, heq⟩ := Option.ite_none_right_eq_some.mp h
      obtain rfl := Option.some.inj heq
      exact .inr (.inr (.inr ⟨rfl, rfl⟩))
  | pressContainer row action =>
      obtain ⟨-, heq⟩ := Option.ite_none_right_eq_some.mp h
      exact .inr (.inr (.inr (hkeeps
        (Workspace.leavesLists_pressContainer row action w).1.toKeepsView heq)))
  | pressStack row action =>
      obtain ⟨-, heq⟩ := Option.ite_none_right_eq_some.mp h
      exact .inr (.inr (.inr (hkeeps
        (Workspace.leavesLists_runStackAction row action w).1.toKeepsView heq)))
  | pressRemove kind row =>
      obtain ⟨-, heq⟩ := Option.ite_none_right_eq_some.mp h
      exact .inr (.inr (.inr (hkeeps (Workspace.leavesLists_runRemove row w).1.toKeepsView heq)))
  | openStack name =>
      obtain ⟨-, heq⟩ := Option.ite_none_right_eq_some.mp h
      exact .inr (.inr (.inr (hkeeps
        (Workspace.leavesLists_openStackModal name w).1.toKeepsView heq)))
  | saveStack fields closeOnSuccess =>
      obtain ⟨e, -, hguard⟩ := Option.bind_eq_some_iff.mp h
      obtain ⟨-, heq⟩ := Option.ite_none_left_eq_some.mp hguard
      exact .inr (.inr (.inr (hkeeps (Workspace.leavesLists_saveStackFromModal fields
        closeOnSuccess none e w).1.toKeepsView heq)))
  | actStack fields action =>
      obtain ⟨e, -, hguard⟩ := Option.bind_eq_some_iff.mp h
      obtain ⟨-, heq⟩ := Option.ite_none_left_eq_some.mp hguard
      exact .inr (.inr (.inr (hkeeps (Workspace.leavesLists_saveStackFromModal fields false
        (some action) e w).1.toKeepsView heq)))
  | closeStack =>
      obtain ⟨e, -, hguard⟩ := Option.bind_eq_some_iff.mp h
      obtain ⟨-, heq⟩ := Option.ite_none_left_eq_some.mp hguard
      obtain rfl := Option.some.inj heq
      exact .inr (.inr (.inr ⟨rfl, rfl⟩))

/-- What an answer does to the view: nothing. -/
theorem resume_view {w : Workspace} {r : Workspace.Effect} {k : WorkspaceWait}
    {answer : WorkspaceAnswer} (h : w.resume k answer = some r) : Workspace.KeepsView w r.1 := by
  have hrefresh {kind : ListKind} {after : AfterRefresh}
      (heq : some (w.refresh kind after) = some r) : Workspace.KeepsView w r.1 :=
    Option.some.inj heq ▸ Workspace.keepsView_refresh kind after w
  have hstay {v : Workspace} {new : List WorkspaceWait} (heq : some (v, new) = some r)
      (hview : Workspace.KeepsView w v) : Workspace.KeepsView w r.1 :=
    Option.some.inj heq ▸ hview
  cases k with
  | list kind scope after =>
      obtain ⟨a, rfl, rfl, -⟩ := resume_list h
      exact Workspace.keepsView_finishRefresh kind scope after a w
  | containerAction scope =>
      cases answer with
      | container id =>
          obtain rfl := Option.some.inj h
          have hview := Workspace.keepsView_refresh .containers .nothing
            (w.setListing .containers ((w.listing .containers).updateRow ⟨id, scope, scope⟩))
          exact ⟨hview.onScreen, hview.mode⟩
      | done => exact hrefresh h
      | failed => exact hstay h ⟨rfl, rfl⟩
      | _ => cases h
  | stackJob fromEditor =>
      cases answer with
      | done => exact hrefresh h
      | failed =>
          refine hstay h ?_
          split_ifs <;> exact ⟨rfl, rfl⟩
      | _ => cases h
  | remove kind =>
      cases answer with
      | done => exact hrefresh h
      | failed => exact hstay h ⟨rfl, rfl⟩
      | _ => cases h
  | loadStack =>
      cases answer with
      | stack found => exact hstay h ⟨rfl, rfl⟩
      | failed => exact hstay h ⟨rfl, rfl⟩
      | _ => cases h
  | validate save =>
      cases answer with
      | done => exact hstay h ⟨rfl, rfl⟩
      | failed => exact hstay h ⟨rfl, rfl⟩
      | _ => cases h
  | save save =>
      cases answer with
      | done => exact hrefresh h
      | failed => exact hstay h ⟨rfl, rfl⟩
      | _ => cases h

/-- The workspace changes, and the sessions that are left are on screen. -/
theorem SessionsInv.withPage {ts : List SessionTicket} (h : SessionsInv s ts) {page : Workspace}
    (hshown : ∀ kind, s.asked kind ≠ none →
      page.onScreen = true ∧ page.containersViewMode = kind.mode) :
    SessionsInv { s with page := page } ts where
  sessions kind := (h.sessions kind).of_eq (by cases kind <;> rfl) rfl fun _ _ hx => hx
  older := h.older
  shown := hshown
  unloaded := h.unloaded
  closed i hi := (h.closed i hi).imp (fun ⟨kind, hkind⟩ => ⟨kind, by cases kind <;> exact hkind⟩) id
  terminal := h.terminal
  sources := h.sources
  keystrokes := h.keystrokes

/-- What is asked for after a function that opens nothing was asked for before. -/
theorem Reduces.asked (h : Reduces s t) (hsome : t.asked kind ≠ none) : s.asked kind ≠ none := by
  rcases h.sessions kind with ⟨-, hasked, -⟩ | ⟨-, hasked, -⟩
  · exact hasked ▸ hsome
  · exact absurd hasked hsome

/-- Both sessions have been closed. -/
theorem asked_of_reduces_closed
    (h : Reduces (s.closeContainersShellSession.closeContainersLogsSession false) t) :
    t.asked kind = none := by
  by_contra hsome
  refine h.asked hsome ?_
  cases kind <;> rfl

/-- A session that survives a change of the view mode is a shell in its own mode. -/
theorem asked_switchSessions {mode : ContainersViewMode}
    (hsome : (s.switchSessions mode).asked kind ≠ none) :
    mode = kind.mode ∧ s.asked kind ≠ none := by
  have hboth {t : SessionPage} (h : Reduces
      (s.closeContainersShellSession.closeContainersLogsSession false) t)
      (hne : t.asked kind ≠ none) : mode = kind.mode ∧ s.asked kind ≠ none :=
    absurd (asked_of_reduces_closed h) hne
  cases mode with
  | shell =>
      have hafter : Reduces (s.closeContainersLogsSession false) (s.switchSessions .shell) :=
        (reduces_setContainersLogsPaused false _).trans (reduces_renderSessionList .shell _ _)
      have hclosed := hafter.asked hsome
      cases kind with
      | shell => exact ⟨rfl, hclosed⟩
      | logs => exact absurd (asked_closeContainersLogsSession false s) hclosed
  | logs =>
      exact hboth ((reduces_setContainersLogsPaused false _).trans
        (reduces_renderSessionList .logs _ _)) hsome
  | table => exact hboth (.refl _) hsome
  | _ => exact hboth (reduces_setContainersLogsPaused false _) hsome

/-- The sessions that are left after an event of the workspace are on screen. -/
theorem SessionsInv.followed {ts : List SessionTicket} (h : SessionsInv s ts) {e : WorkspaceEvent}
    {r : Workspace.Effect} (hevent : s.page.handle e = some r) (kind : SessionKind)
    (hsome : (s.follow e).asked kind ≠ none) :
    r.1.onScreen = true ∧ r.1.containersViewMode = kind.mode := by
  obtain ⟨hscreen, hmode⟩ := h.shown kind ((reduces_follow e s).asked hsome)
  rcases handle_view hevent with ⟨mode, rfl, hsame, hnext⟩ | ⟨mode, rfl, hoff⟩ | rfl | hview
  · exact ⟨hsame.trans hscreen, hnext.trans (asked_switchSessions hsome).1⟩
  · exact absurd (hoff.symm.trans hscreen) Bool.false_ne_true
  · rw [follow, if_pos hscreen] at hsome
    exact absurd (asked_of_reduces_closed (reduces_setContainersLogsPaused false _)) hsome
  · exact ⟨hview.onScreen.trans hscreen, hview.mode.trans hmode⟩

/-- Requests of the workspace are no tickets. -/
theorem ticketsOf_page (new : List WorkspaceWait) : ticketsOf (new.map .page) = [] := by
  rw [ticketsOf, List.filterMap_map]
  exact List.filterMap_eq_nil_iff.mpr fun _ _ => rfl

section

variable {numberText : String → String} {normalizeLogLineTimestamp : List Char → String}

/-- **What an event leaves.** -/
theorem SessionsInv.handle {ts : List SessionTicket} {e : SessionPageEvent} {r : Effect}
    (h : SessionsInv s ts) (hevent : s.handle numberText normalizeLogLineTimestamp e = some r) :
    InOrder ts r := by
  cases e with
  | page e =>
      obtain ⟨⟨page, new⟩, hpage, rfl⟩ := Option.map_eq_some_iff.mp hevent
      rw [InOrder, ticketsOf_page, List.append_nil]
      exact (h.reduce (reduces_follow e s)).withPage (h.followed hpage)
  | openShell container =>
      obtain ⟨hshows, heq⟩ := Option.ite_none_right_eq_some.mp hevent
      exact Option.some.inj heq ▸ h.openContainersShell container hshows
  | openLogs container =>
      obtain ⟨hshows, heq⟩ := Option.ite_none_right_eq_some.mp hevent
      exact Option.some.inj heq ▸ h.openContainersLogs container false hshows
  | type data =>
      obtain ⟨-, heq⟩ := Option.ite_none_right_eq_some.mp hevent
      exact Option.some.inj heq ▸ (h.onData data).inOrder
  | opened i =>
      obtain ⟨⟨hconnecting, -⟩, heq⟩ := Option.ite_none_right_eq_some.mp hevent
      refine Option.some.inj heq ▸ (h.setReadyState fun hclosed => ?_).inOrder
      cases hconnecting.symm.trans hclosed
  | message i data =>
      obtain ⟨x, -, rfl⟩ := Option.map_eq_some_iff.mp hevent
      exact (h.message numberText normalizeLogLineTimestamp x.kind i data).inOrder
  | closed i =>
      obtain ⟨x, -, rfl⟩ := Option.map_eq_some_iff.mp hevent
      have hgone : SessionsInv (s.setReadyState i .closed) ts := h.setReadyState fun _ => rfl
      dsimp only
      split_ifs
      · exact (hgone.onLogsClose i).inOrder
      · exact hgone.inOrder
  | error i =>
      obtain ⟨x, -, rfl⟩ := Option.map_eq_some_iff.mp hevent
      split_ifs
      · exact (h.onLogsError i).inOrder
      · exact h.inOrder
  | pinLock => exact Option.some.inj hevent ▸ (h.reduce (reduces_pinGuardLock s)).inOrder
  | clearLogs =>
      exact Option.some.inj hevent ▸ (h.reduce (reduces_resetContainersLogsBuffer s)).inOrder
  | pauseLogs =>
      exact Option.some.inj hevent ▸ (h.reduce (reduces_setContainersLogsPaused _ s)).inOrder
  | toggleTimestamps name =>
      obtain ⟨hshows, heq⟩ := Option.ite_none_right_eq_some.mp hevent
      exact Option.some.inj heq ▸ h.toggleTimestamps name hshows

end

/-- The ticket that a continuation is for. -/
theorem ticketsOf_append (front back : List SessionWait) :
    ticketsOf (front ++ back) = ticketsOf front ++ ticketsOf back := List.filterMap_append ..

/-- **What an answer leaves.** -/
theorem SessionsInv.resume {front back : List SessionWait} {k : SessionWait}
    {answer : SessionAnswer} {r : Effect} (h : SessionsInv s (ticketsOf (front ++ k :: back)))
    (hanswer : s.resume k answer = some r) : InOrder (ticketsOf (front ++ back)) r := by
  cases k with
  | page k =>
      have hsame : ticketsOf (front ++ .page k :: back) = ticketsOf (front ++ back) := by
        rw [ticketsOf_append, ticketsOf_append]
        rfl
      rw [hsame] at h
      cases answer with
      | page a =>
          obtain ⟨⟨page, new⟩, hpage, rfl⟩ := Option.map_eq_some_iff.mp hanswer
          have hreduces := reduces_followAnswer k a s
          have hview := resume_view hpage
          rw [InOrder, ticketsOf_page, List.append_nil]
          refine (h.reduce hreduces).withPage fun kind hsome => ?_
          obtain ⟨hscreen, hmode⟩ := h.shown kind (hreduces.asked hsome)
          exact ⟨hview.onScreen.trans hscreen, hview.mode.trans hmode⟩
      | _ => cases hanswer
  | ticket t =>
      have hsplit : ticketsOf (front ++ .ticket t :: back) =
          ticketsOf front ++ t :: ticketsOf back := ticketsOf_append ..
      rw [hsplit] at h
      rw [ticketsOf_append]
      cases answer with
      | page a => cases hanswer
      | socket => exact Option.some.inj hanswer ▸ h.socketCreated.inOrder
      | failed locks =>
          exact Option.some.inj hanswer ▸ (h.drop.reduce (reduces_ticketFailed t locks s)).inOrder

end SessionPage

open EventLoop

/-- The page as an event loop. -/
def sessionLoop (numberText : String → String) (normalizeLogLineTimestamp : List Char → String) :
    EventLoop SessionPage SessionPageEvent SessionWait SessionAnswer where
  handle := SessionPage.handle numberText normalizeLogLineTimestamp
  resume := SessionPage.resume

/-- The page as it was delivered; `terminalLoaded` says whether the terminal library was. -/
def freshSessions (terminalLoaded : Bool) : SessionPage where
  page := freshWorkspace
  attempt := fun _ => 0
  selectedID := fun _ => ""
  asked := fun _ => none
  requests := 0
  sockets := []
  readyState := fun _ => .connecting
  terminalLoaded := terminalLoaded
  shellSocket := none
  dataListener := none
  terminal := none
  shellToasts := []
  logs := ⟨none, false, false, [], [], [], []⟩
  silentClose := false
  sources := []
  keystrokes := []

/-- A page with the requests that it waits for. -/
abbrev SessionConfig := EventLoop.Config SessionPage SessionWait

/-- The steps of the page. -/
abbrev SessionLabel := EventLoop.Label SessionPageEvent SessionWait SessionAnswer

variable {numberText : String → String} {normalizeLogLineTimestamp : List Char → String}
  {terminalLoaded : Bool}

/-- The invariant holds on a fresh page. -/
theorem sessionsInv_fresh : SessionPage.SessionsInv (freshSessions terminalLoaded) [] where
  sessions kind := .idle (by cases kind <;> rfl)
  older := nofun
  shown kind hsome := absurd rfl hsome
  unloaded _ := rfl
  closed i hi := absurd hi (Nat.not_lt_zero i)
  terminal := nofun
  sources := nofun
  keystrokes := nofun

/-- A step keeps the sessions in order. -/
theorem sessionsInv_step {p q : SessionConfig} {l : SessionLabel}
    (hp : p.state.SessionsInv (SessionPage.ticketsOf p.waiting))
    (h : (sessionLoop numberText normalizeLogLineTimestamp).Step p l q) :
    q.state.SessionsInv (SessionPage.ticketsOf q.waiting) := by
  cases h with
  | event hstep =>
      rw [SessionPage.ticketsOf_append]
      exact hp.handle hstep
  | answer hstep =>
      rw [SessionPage.ticketsOf_append]
      exact hp.resume hstep

/-- **The invariant holds after every run.** -/
theorem run_sessionsInv {es : List SessionLabel} {q : SessionConfig}
    (h : Run (sessionLoop numberText normalizeLogLineTimestamp).Step
      ⟨freshSessions terminalLoaded, []⟩ es q) :
    q.state.SessionsInv (SessionPage.ticketsOf q.waiting) :=
  h.state_invariant (fun q => q.state.SessionsInv (SessionPage.ticketsOf q.waiting))
    sessionsInv_fresh fun hp hstep => sessionsInv_step hp hstep

/-- The sessions are attached: the socket of a session is for the last open request that has not
been closed since; what the terminal and the log hold came from it; keystrokes went to the one of
their time; and every other socket is closed. -/
structure Attached (s : SessionPage) : Prop where
  socket : ∀ kind i, s.socket kind = some i →
    ∃ x, s.sockets[i]? = some x ∧ x.kind = kind ∧ s.asked kind = some x.request
  terminal : ∀ written ∈ s.terminal, ∀ piece ∈ written, s.socket .shell = some piece.1
  log : ∀ i ∈ s.sources, s.socket .logs = some i
  keystrokes : ∀ k ∈ s.keystrokes, ∃ x, s.sockets[k.socket]? = some x ∧ k.asked = some x.request
  closed : ∀ i, i < s.sockets.length → (∃ kind, s.socket kind = some i) ∨ s.readyState i = .closed

/-- **The sessions are attached**, after any events and answers, in any order. -/
theorem run_attached {es : List SessionLabel} {q : SessionConfig}
    (h : Run (sessionLoop numberText normalizeLogLineTimestamp).Step
      ⟨freshSessions terminalLoaded, []⟩ es q) : Attached q.state := by
  have hinv := run_sessionsInv h
  exact ⟨fun kind i hi => hinv.attached hi, hinv.terminal, hinv.sources, hinv.keystrokes,
    hinv.closed⟩

end Contiwatch
