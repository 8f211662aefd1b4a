import Contiwatch.Lib.EventLoop
import Contiwatch.StackModal
import Mathlib.Logic.Function.Basic
import Mathlib.Tactic.SplitIfs

/-!
# The Containers Workspace

The containers page of `web/static/app.js`. It shows one of five lists of the server that is
selected; each is kept while another one is shown, and is replaced when an answer comes. While a
list is being refreshed, further calls for it are dropped; `runScopedRefresh` starts over if another
server was selected meanwhile. Buttons in the rows and in the stack editor send requests.

The resources view has a list of containers of its own, `#containers-resources-list`. It is rendered
with the other one, or from the cache, and nothing clears it when there are no containers to render.

Texts that only describe a list or a request are left out, and so are the requests that belong to no
row (a pull, a prune). Calls that only refresh a list are the event `refresh`.

* `Workspace.refresh_cases` — what a refresh does.
-/

namespace Contiwatch

/-! ### Lists -/

/-- The lists of the workspace. -/
inductive ListKind
  | containers | stacks | images | networks | volumes
  deriving DecidableEq, Repr

/-- What the messages call a list. -/
def ListKind.label : ListKind → String
  | .containers => "containers"
  | .stacks => "stacks"
  | .images => "images"
  | .networks => "networks"
  | .volumes => "volumes"

/-- The values of `containersViewMode`. -/
inductive ContainersViewMode
  | table | shell | logs | resources | stacks | images | volumes | networks
  deriving DecidableEq, Repr

/-- The list that a view mode refreshes. All of them show it, but for the resources view. -/
def ContainersViewMode.kind : ContainersViewMode → ListKind
  | .stacks => .stacks
  | .images => .images
  | .networks => .networks
  | .volumes => .volumes
  | _ => .containers

/-- The list whose rows have buttons in a view mode. -/
def ContainersViewMode.buttons : ContainersViewMode → Option ListKind
  | .shell | .logs | .resources => none
  | mode => some mode.kind

/-- A row. Its data come from the server `source`. The buttons of a container have captured the
scope `bound`; those of the others read the selection. -/
structure WorkspaceRow where
  id : String
  source : String
  bound : String
  deriving DecidableEq, Repr

/-- A list of the page: as the page was delivered, cleared with a message, or loaded. -/
inductive Listing
  | blank
  | cleared (message : String)
  | loaded (source : String) (rows : List WorkspaceRow)
  deriving DecidableEq, Repr

/-- The answers to a request for a list. -/
inductive ListAnswer
  | rows (ids : List String)
  | errorPayload (ids : List String)
  | null
  | failed
  | aborted

/-- The containers of an answer. -/
def ListAnswer.ids : ListAnswer → List String
  | rows ids => ids
  | _ => []

namespace Listing

/-- The rows that are shown. -/
def rows : Listing → List WorkspaceRow
  | loaded _ rows => rows
  | _ => []

/-- `renderContainers`, `renderStacks` and so on, for the rows of an answer. -/
def render (kind : ListKind) (scope : String) (ids : List String) : Listing :=
  if ids = [] then cleared ("No " ++ kind.label ++ " found.")
  else loaded scope (ids.map fun id => ⟨id, scope, scope⟩)

/-- The list without an answer that it can use. -/
def noData (kind : ListKind) : Listing := cleared ("No " ++ kind.label ++ " data available.")

/-- What `loadContainers`, `loadStacks` and so on make of the list of the selected server. Only
`loadStacks` shows the rows that come with an error. -/
def answered (kind : ListKind) (scope : String) : ListAnswer → Listing → Listing
  | .rows ids, _ => render kind scope ids
  | .errorPayload ids, _ => if kind = .stacks then render kind scope ids else noData kind
  | .null, _ | .failed, _ => noData kind
  | .aborted, listing => listing

/-- `renderContainers` for the rows of the cache. -/
def redraw (scope : String) : Listing → Listing
  | loaded source rows =>
      if scope = "" then loaded source rows
      else loaded source (rows.map fun row => ⟨row.id, source, scope⟩)
  | listing => listing

/-- `renderContainersResourcesList` for the rows of the cache. -/
def ofCache : Listing → Listing
  | loaded source rows => loaded source rows
  | _ => cleared "No containers found."

/-- What `renderContainers` leaves of the list of the resources view. It stays if there are no
containers: then only the other lists are cleared. -/
def replacing : Listing → Listing → Listing
  | loaded source rows, _ => loaded source rows
  | _, old => old

/-- `updateContainerRow`. -/
def updateRow (row : WorkspaceRow) : Listing → Listing
  | loaded source rows => loaded source (rows.map fun old => if old.id = row.id then row else old)
  | listing => listing

/-- `updateContainerRow` with the data of the cache. -/
def rebind (id scope : String) : Listing → Listing
  | loaded source rows => updateRow ⟨id, source, scope⟩ (loaded source rows)
  | listing => listing

/-- The list is cleared with a message, or was loaded from a server. -/
def Shows (scope : String) : Listing → Prop
  | blank => False
  | cleared _ => True
  | loaded source _ => source = scope

instance (scope : String) : ∀ listing : Listing, Decidable (listing.Shows scope)
  | blank => .isFalse id
  | cleared _ => .isTrue trivial
  | loaded source _ => inferInstanceAs (Decidable (source = scope))

end Listing

/-! ### Requests -/

/-- The buttons of a container. -/
inductive ContainerAction
  | start | stop | restart | pause | unpause | kill | rm
  deriving DecidableEq, Repr

/-- The buttons of a stack. -/
inductive StackAction
  | up | down | redeploy | restart | start | stop | kill | rm
  deriving DecidableEq, Repr

/-- The action that the editor starts. -/
def ModalAction.stackAction : ModalAction → StackAction
  | .up => .up
  | .down => .down
  | .redeploy => .redeploy
  | .restart => .restart

/-- The requests of rows and of the editor that change something. -/
inductive Mutation
  | containerAction (containerID : String) (action : ContainerAction)
  | stackJob (name : String) (action : StackAction)
  | stackSave (name : String)
  | remove (kind : ListKind) (id : String)
  deriving DecidableEq, Repr

/-- A request that was sent, with the server that the row, or the content of the editor, came from.
A new stack comes from none. -/
structure SentRequest where
  mutation : Mutation
  scope : String
  source : Option String
  deriving DecidableEq, Repr

/-- The stack editor. `scope` is what `openStackModal` has read. -/
structure StackEditor where
  name : String
  scope : String
  loaded : Bool
  loading : Bool
  loadFailed : Bool
  saving : Bool
  acting : Bool
  deriving DecidableEq, Repr

namespace StackEditor

/-- The server that the content came from. -/
def source (e : StackEditor) : Option String := if e.loaded then some e.scope else none

/-- The buttons that close the editor are disabled. -/
def busy (e : StackEditor) : Bool := e.loading || e.saving || e.acting

/-- The buttons that save or start an action are disabled. -/
def locked (e : StackEditor) : Bool := e.busy || e.loadFailed

/-- What `runStackActionFromModal` and `saveStackFromModal` leave when they return. -/
def idle (e : StackEditor) : StackEditor := { e with saving := false, acting := false }

end StackEditor

/-- The fields of the editor that its checks read. -/
structure EditorFields where
  name : String
  compose : String

/-- What `saveStackFromModal` has read, with the action that waits for it. -/
structure EditorSave where
  scope : String
  name : String
  source : Option String
  closeOnSuccess : Bool
  action : Option ModalAction

/-- What waits for a refresh. -/
inductive AfterRefresh
  | nothing
  | saved (save : EditorSave)
  | acted

/-- What the page may wait for. -/
inductive WorkspaceWait
  | list (kind : ListKind) (scope : String) (after : AfterRefresh)
  | containerAction (scope : String)
  | stackJob (fromEditor : Bool)
  | remove (kind : ListKind)
  | loadStack
  | validate (save : EditorSave)
  | save (save : EditorSave)

/-- The answers. `done` is a success; that of a container's action may bring the container. -/
inductive WorkspaceAnswer
  | list (answer : ListAnswer)
  | failed
  | done
  | container (id : String)
  | stack (found : Bool)

/-- What the user does, the server list that arrives, and the calls that refresh a list. `redraw` is
a click on a sort button or beside a confirmation, or the answer with the resources;
`selectResources` a click on a container in the list of the resources view. -/
inductive WorkspaceEvent
  | selectServer (scope : String)
  | serverList (scopes : List String)
  | switchView (mode : ContainersViewMode)
  | enter (mode : ContainersViewMode)
  | leave
  | refresh (kind : ListKind)
  | redraw (byState : Bool)
  | selectResources (id : String)
  | pressContainer (row : WorkspaceRow) (action : ContainerAction)
  | pressStack (row : WorkspaceRow) (action : StackAction)
  | pressRemove (kind : ListKind) (row : WorkspaceRow)
  | openStack (name : String)
  | saveStack (fields : EditorFields) (closeOnSuccess : Bool)
  | actStack (fields : EditorFields) (action : ModalAction)
  | closeStack

/-- The page. `resources` is the list of the resources view, `networksAborted` says whether the
request for the networks that is in flight has been aborted, `sortsByState` whether
`containersSortMode` starts with `state:`. -/
structure Workspace where
  containersSelectedScope : String
  containersViewMode : ContainersViewMode
  onScreen : Bool
  sortsByState : Bool
  inFlight : ListKind → Bool
  listing : ListKind → Listing
  resources : Listing
  networksAborted : Bool
  editor : Option StackEditor
  sent : List SentRequest

namespace Workspace

/-- The state after a function, with the requests that it has made. -/
abbrev Effect := Workspace × List WorkspaceWait

/-- One function after another. -/
def Effect.andThen (r : Effect) (f : Workspace → Effect) : Effect :=
  ((f r.1).1, r.2 ++ (f r.1).2)

/-- The list of a kind becomes another one. -/
def setListing (kind : ListKind) (listing : Listing) (w : Workspace) : Workspace :=
  { w with listing := Function.update w.listing kind listing }

/-- The list that is on screen. -/
def shown (w : Workspace) : Listing :=
  if w.containersViewMode = .resources then w.resources else w.listing w.containersViewMode.kind

/-- What rendering a list does to the list of the resources view: `renderContainers` renders it too,
if it is on. -/
def renderResources (kind : ListKind) (w : Workspace) : Workspace :=
  { w with
    resources :=
      if kind = .containers ∧ w.containersViewMode = .resources then
        (w.listing .containers).replacing w.resources
      else w.resources }

/-- The list of a kind is replaced after an answer. -/
def showAnswer (kind : ListKind) (scope : String) (answer : ListAnswer) (w : Workspace) :
    Workspace :=
  (w.setListing kind (Listing.answered kind scope answer (w.listing kind))).renderResources kind

/-- `runScopedRefresh` sets its flag; a request for the networks has a controller of its own. -/
def startRefresh (kind : ListKind) (w : Workspace) : Workspace :=
  { w with
    inFlight := Function.update w.inFlight kind true
    networksAborted := w.networksAborted && kind ≠ .networks }

/-- `runScopedRefresh` resets its flag. -/
def endRefresh (kind : ListKind) (w : Workspace) : Workspace :=
  { w with inFlight := Function.update w.inFlight kind false }

/-- A list that is set is that list. -/
@[simp] theorem setListing_listing_self (kind : ListKind) (listing : Listing) (w : Workspace) :
    (w.setListing kind listing).listing kind = listing := Function.update_self ..

/-- The other lists stay. -/
theorem setListing_listing_of_ne {kind kind' : ListKind} (h : kind' ≠ kind) (listing : Listing)
    (w : Workspace) : (w.setListing kind listing).listing kind' = w.listing kind' :=
  Function.update_of_ne h ..

/-- A refresh that starts is in flight. -/
@[simp] theorem startRefresh_inFlight_self (kind : ListKind) (w : Workspace) :
    (w.startRefresh kind).inFlight kind = true := Function.update_self ..

/-- Those of the other lists are as they were. -/
theorem startRefresh_inFlight_of_ne {kind kind' : ListKind} (h : kind' ≠ kind) (w : Workspace) :
    (w.startRefresh kind).inFlight kind' = w.inFlight kind' := Function.update_of_ne h ..

/-- A refresh that ends is no longer. -/
@[simp] theorem endRefresh_inFlight_self (kind : ListKind) (w : Workspace) :
    (w.endRefresh kind).inFlight kind = false := Function.update_self ..

/-- Those of the other lists are as they were. -/
theorem endRefresh_inFlight_of_ne {kind kind' : ListKind} (h : kind' ≠ kind) (w : Workspace) :
    (w.endRefresh kind).inFlight kind' = w.inFlight kind' := Function.update_of_ne h ..

/-- The editor, if it is open, changes. -/
def mapEditor (f : StackEditor → StackEditor) (w : Workspace) : Workspace :=
  { w with editor := w.editor.map f }

/-- A request is sent. -/
def send (mutation : Mutation) (scope : String) (source : Option String) (w : Workspace) :
    Workspace :=
  { w with sent := w.sent ++ [⟨mutation, scope, source⟩] }

/-- The server that the content of the editor came from. -/
def editorSource (w : Workspace) : Option String := w.editor.bind StackEditor.source

/-! ### Functions of the page -/

/-- `runStackAction`, for the editor. -/
def runEditorAction (name : String) (action : ModalAction) (w : Workspace) : Effect :=
  if w.containersSelectedScope = "" then (w.mapEditor .idle, [])
  else (w.send (.stackJob name action.stackAction) w.containersSelectedScope w.editorSource,
    [.stackJob true])

/-- What comes after a refresh: the end of `saveStackFromModal`, with the action that waits for it,
or the end of `runStackActionFromModal`. -/
def afterRefresh : AfterRefresh → Workspace → Effect
  | .nothing, w => (w, [])
  | .acted, w => (w.mapEditor .idle, [])
  | .saved save, w =>
      match save.action with
      | some action =>
          runEditorAction save.name action (w.mapEditor fun e => { e with saving := false })
      | none =>
          (if save.closeOnSuccess then { w with editor := none } else w.mapEditor .idle, [])

/-- `refreshContainers`, `refreshStacks` and so on: `runScopedRefresh` up to its request, and what
comes after it if there is none. -/
def refresh (kind : ListKind) (after : AfterRefresh) (w : Workspace) : Effect :=
  if w.inFlight kind then afterRefresh after w
  else if w.containersSelectedScope = "" then
    afterRefresh after
      (w.setListing kind (.cleared "No servers configured. Add one in Servers."))
  else (w.startRefresh kind, [.list kind w.containersSelectedScope after])

/-- A refresh is dropped, is over at once because there is no server, or makes its request. -/
theorem refresh_cases (kind : ListKind) (after : AfterRefresh) (w : Workspace) :
    (w.inFlight kind = true ∧ refresh kind after w = afterRefresh after w) ∨
      (w.containersSelectedScope = "" ∧ refresh kind after w = afterRefresh after
        (w.setListing kind (.cleared "No servers configured. Add one in Servers."))) ∨
      (w.inFlight kind = false ∧ w.containersSelectedScope ≠ "" ∧ refresh kind after w =
        (w.startRefresh kind, [.list kind w.containersSelectedScope after])) := by
  rw [refresh]
  split_ifs with hflight hnone
  · exact .inl ⟨hflight, rfl⟩
  · exact .inr (.inl ⟨hnone, rfl⟩)
  · exact .inr (.inr ⟨Bool.eq_false_of_not_eq_true hflight, hnone, rfl⟩)

/-- The rest of `runScopedRefresh`, once its answer has come. -/
def finishRefresh (kind : ListKind) (scope : String) (after : AfterRefresh) (answer : ListAnswer)
    (w : Workspace) : Effect :=
  let answered :=
    if w.containersSelectedScope = scope then w.showAnswer kind scope answer else w
  let free := answered.endRefresh kind
  if free.containersSelectedScope = scope then afterRefresh after free
  else (refresh kind .nothing free).andThen (afterRefresh after)

/-- The answer for the selected server is shown. -/
theorem finishRefresh_selected {kind : ListKind} {scope : String} {w : Workspace}
    (after : AfterRefresh) (answer : ListAnswer) (h : w.containersSelectedScope = scope) :
    finishRefresh kind scope after answer w =
      afterRefresh after ((w.showAnswer kind scope answer).endRefresh kind) := by
  rw [finishRefresh, if_pos h]
  exact if_pos h

/-- The answer for another one is dropped and the list asked for again. -/
theorem finishRefresh_other {kind : ListKind} {scope : String} {w : Workspace}
    (after : AfterRefresh) (answer : ListAnswer) (h : w.containersSelectedScope ≠ scope) :
    finishRefresh kind scope after answer w =
      (refresh kind .nothing (w.endRefresh kind)).andThen (afterRefresh after) := by
  rw [finishRefresh, if_neg h]
  exact if_neg h

/-- `refreshSelectedServerView`. -/
def refreshSelectedServerView (w : Workspace) : Effect :=
  refresh w.containersViewMode.kind .nothing w

/-- `clearContainersViewForServerSwitch`. -/
def clearContainersViewForServerSwitch (w : Workspace) : Workspace :=
  w.setListing w.containersViewMode.kind (.cleared "Loading…")

/-- A server is picked in the menu. -/
def pickServer (scope : String) (w : Workspace) : Effect :=
  let picked := { w with containersSelectedScope := scope }
  refreshSelectedServerView
    (if w.containersSelectedScope = scope then picked
    else picked.clearContainersViewForServerSwitch)

/-- The server that `updateContainersServerOptions` selects. -/
def nextScope (scopes : List String) (w : Workspace) : String :=
  if w.containersSelectedScope ∈ scopes then w.containersSelectedScope else scopes.headD ""

/-- `updateContainersServerOptions`. -/
def updateContainersServerOptions (scopes : List String) (w : Workspace) : Effect :=
  let next := { w with containersSelectedScope := w.nextScope scopes }
  if w.onScreen then refreshSelectedServerView next else (next, [])

/-- The view mode is another one; the list of the resources view is rendered when it opens. -/
def showMode (mode : ContainersViewMode) (w : Workspace) : Workspace :=
  { w with
    containersViewMode := mode
    resources := if mode = .resources then (w.listing .containers).ofCache else w.resources }

/-- `setContainersViewMode`. -/
def setContainersViewMode (mode : ContainersViewMode) (w : Workspace) : Effect :=
  (refresh mode.kind .nothing (w.showMode mode)).andThen fun w =>
    (if mode ≠ .networks ∧ w.inFlight .networks then { w with networksAborted := true } else w, [])

/-- `setView`, for the workspace. -/
def enterView (mode : ContainersViewMode) (w : Workspace) : Effect :=
  (setContainersViewMode mode { w with onScreen := true }).andThen fun w =>
    if w.containersViewMode = .table then refresh .containers .nothing w else (w, [])

/-- `renderContainers` for the rows of the cache. Without a server it is not called. -/
def redrawContainers (w : Workspace) : Workspace :=
  let redrawn := (w.listing .containers).redraw w.containersSelectedScope
  { w.setListing .containers redrawn with
    resources :=
      if w.containersSelectedScope ≠ "" ∧ w.containersViewMode = .resources then
        redrawn.replacing w.resources
      else w.resources }

/-- `toggleContainersResourcesSelection`. -/
def toggleContainersResourcesSelection (w : Workspace) : Workspace :=
  { w with resources := (w.listing .containers).ofCache }

/-- `setContainerOptimisticState`. -/
def setContainerOptimisticState (id scope : String) (w : Workspace) : Workspace :=
  let rebound := w.setListing .containers ((w.listing .containers).rebind id scope)
  if w.sortsByState then rebound.redrawContainers else rebound

/-- What the button of a container does before its request. -/
def pressContainerButton (row : WorkspaceRow) (action : ContainerAction) (w : Workspace) :
    Workspace :=
  if action = .restart then w.setContainerOptimisticState row.id row.bound else w

/-- `runContainerAction` up to its request. -/
def runContainerAction (row : WorkspaceRow) (action : ContainerAction) (w : Workspace) : Effect :=
  if row.bound = "" ∨ row.id = "" then (w, [])
  else (w.send (.containerAction row.id action) row.bound (some row.source),
    [.containerAction row.bound])

/-- `runStackAction`, for a row. -/
def runStackAction (row : WorkspaceRow) (action : StackAction) (w : Workspace) : Effect :=
  if row.id = "" ∨ w.containersSelectedScope = "" then (w, [])
  else (w.send (.stackJob row.id action) w.containersSelectedScope (some row.source),
    [.stackJob false])

/-- `runImageRemove`, `runNetworkRemove` and `runVolumeRemove`. -/
def runRemove (kind : ListKind) (row : WorkspaceRow) (w : Workspace) : Effect :=
  if w.containersSelectedScope = "" ∨ row.id = "" then (w, [])
  else (w.send (.remove kind row.id) w.containersSelectedScope (some row.source), [.remove kind])

/-- `openStackModal`. -/
def openStackModal (name : String) (w : Workspace) : Effect :=
  if w.containersSelectedScope = "" then (w, [])
  else
    ({ w with editor := some ⟨name, w.containersSelectedScope, false, name ≠ "", false, false,
        false⟩ },
      if name = "" then [] else [.loadStack])

/-- `saveStackFromModal` up to its first request; its first check is that of the buttons. -/
def saveStackFromModal (fields : EditorFields) (closeOnSuccess : Bool)
    (action : Option ModalAction) (e : StackEditor) (w : Workspace) : Effect :=
  let name := if e.name = "" then Js.trim fields.name else e.name
  if w.containersSelectedScope = "" ∨ !isValidStackName name ∨
      normalizeCompose fields.compose = "" then (w, [])
  else
    ({ w with editor := some { e with saving := true, acting := action.isSome } },
      [.validate ⟨w.containersSelectedScope, name, e.source, closeOnSuccess, action⟩])

/-! ### Steps -/

/-- A button of a row can be pressed. -/
def Offers (w : Workspace) (kind : ListKind) (row : WorkspaceRow) : Prop :=
  w.onScreen = true ∧ w.containersViewMode.buttons = some kind ∧ row ∈ (w.listing kind).rows

instance (w : Workspace) (kind : ListKind) (row : WorkspaceRow) : Decidable (w.Offers kind row) :=
  inferInstanceAs (Decidable (_ ∧ _ ∧ _))

/-- What events do. -/
def handle (w : Workspace) : WorkspaceEvent → Option Effect
  | .selectServer scope => if w.onScreen then some (w.pickServer scope) else none
  | .serverList scopes => some (w.updateContainersServerOptions scopes)
  | .switchView mode => some (w.setContainersViewMode mode)
  | .enter mode => if w.onScreen then none else some (w.enterView mode)
  | .leave => some ({ w with onScreen := false }, [])
  | .refresh kind => some (w.refresh kind .nothing)
  | .redraw byState => some ({ w.redrawContainers with sortsByState := byState }, [])
  | .selectResources id =>
      if w.onScreen ∧ w.containersViewMode = .resources ∧ id ∈ w.resources.rows.map (·.id) then
        some (w.toggleContainersResourcesSelection, [])
      else none
  | .pressContainer row action =>
      if w.Offers .containers row then
        some ((w.pressContainerButton row action).runContainerAction row action)
      else none
  | .pressStack row action =>
      if w.Offers .stacks row then some (w.runStackAction row action) else none
  | .pressRemove kind row =>
      if w.Offers kind row ∧ kind ≠ .containers ∧ kind ≠ .stacks then some (w.runRemove kind row)
      else none
  | .openStack name => if w.editor.isNone then some (w.openStackModal name) else none
  | .saveStack fields closeOnSuccess =>
      w.editor.bind fun e =>
        if e.locked then none else some (w.saveStackFromModal fields closeOnSuccess none e)
  | .actStack fields action =>
      w.editor.bind fun e =>
        if e.locked then none else some (w.saveStackFromModal fields false (some action) e)
  | .closeStack =>
      w.editor.bind fun e => if e.busy then none else some ({ w with editor := none }, [])

/-- What answers do. Only the request for the networks can be aborted. -/
def resume (w : Workspace) : WorkspaceWait → WorkspaceAnswer → Option Effect
  | .list kind scope after, .list answer =>
      match answer with
      | .aborted =>
          if kind = .networks ∧ w.networksAborted then
            some (w.finishRefresh kind scope after .aborted)
          else none
      | _ => some (w.finishRefresh kind scope after answer)
  | .containerAction scope, .container id =>
      some (refresh .containers .nothing
        (w.setListing .containers ((w.listing .containers).updateRow ⟨id, scope, scope⟩)))
  | .containerAction _, .done => some (w.refresh .containers .nothing)
  | .containerAction _, .failed => some (w, [])
  | .stackJob fromEditor, .done =>
      some (w.refresh .stacks (if fromEditor then .acted else .nothing))
  | .stackJob fromEditor, .failed => some (if fromEditor then w.mapEditor .idle else w, [])
  | .remove kind, .done => some (w.refresh kind .nothing)
  | .remove _, .failed => some (w, [])
  | .loadStack, .stack found =>
      some (w.mapEditor fun e => { e with loading := false, loaded := e.loaded || found }, [])
  | .loadStack, .failed =>
      some (w.mapEditor fun e => { e with loading := false, loadFailed := true }, [])
  | .validate save, .done =>
      some (w.send (.stackSave save.name) save.scope save.source, [.save save])
  | .validate _, .failed => some (w.mapEditor .idle, [])
  | .save save, .done => some (w.refresh .stacks (.saved save))
  | .save _, .failed => some (w.mapEditor .idle, [])
  | _, _ => none

end Workspace

/-- The page as an event loop. -/
def workspaceLoop : EventLoop Workspace WorkspaceEvent WorkspaceWait WorkspaceAnswer where
  handle := Workspace.handle
  resume := Workspace.resume

/-- The page as it was delivered. -/
def freshWorkspace : Workspace where
  containersSelectedScope := ""
  containersViewMode := .table
  onScreen := false
  sortsByState := false
  inFlight := fun _ => false
  listing := fun _ => .blank
  resources := .blank
  networksAborted := false
  editor := none
  sent := []

/-- A page with the requests that it waits for. -/
abbrev WorkspaceConfig := EventLoop.Config Workspace WorkspaceWait

/-- The steps of the page. -/
abbrev WorkspaceLabel := EventLoop.Label WorkspaceEvent WorkspaceWait WorkspaceAnswer

end Contiwatch
