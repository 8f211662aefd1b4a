import Contiwatch.Workspace
import Mathlib.Tactic.SplitIfs

/-!
# The Server of a Request

The rows of the containers page and the content of the stack editor come from one server each, and
the requests that they send should go to it. A row of the containers has captured its server when it
was rendered. The buttons of the other rows, and those of the editor, read the selection when they
are pressed, and the selection may be another one by then.

## Main results

* `ScopesInv.step` — what a step keeps: nothing that can be pressed is for another server than its
  own, and the editor waits for one answer at most.
* `run_addressed` — runs in which all requests go to the right server: no step shows rows of another
  server than the one that is selected, or selects another one behind the editor.
* `volume_removed_elsewhere` — a volume of one server is removed on another one.
-/

namespace Contiwatch

/-! ### Where rows come from -/

/-- No server is selected, or the one that something came from. -/
def Meets (scope source : String) : Prop := scope = "" ∨ source = scope

instance (scope source : String) : Decidable (Meets scope source) :=
  inferInstanceAs (Decidable (_ ∨ _))

/-- The request goes to the server that its row, or the content of the editor, came from. -/
def SentRequest.Right (request : SentRequest) : Prop :=
  ∀ source ∈ request.source, request.scope = source

/-- A save goes to the server that the content came from. -/
def EditorSave.Right (save : EditorSave) : Prop := ∀ source ∈ save.source, save.scope = source

/-- The rows came from this server. -/
def Listing.Of (scope : String) (listing : Listing) : Prop :=
  ∀ row ∈ listing.rows, Meets scope row.source

instance (scope : String) (listing : Listing) : Decidable (listing.Of scope) :=
  inferInstanceAs (Decidable (∀ row ∈ listing.rows, _))

/-- The cache that is rendered again came from this server. -/
def Listing.CacheOf (scope : String) : Listing → Prop
  | loaded source _ => Meets scope source
  | _ => True

instance (scope : String) : ∀ listing : Listing, Decidable (listing.CacheOf scope)
  | .blank | .cleared _ => .isTrue trivial
  | .loaded source _ => inferInstanceAs (Decidable (Meets scope source))

/-- The content of the editor came from this server, or is on its way from there. -/
def StackEditor.Of (scope : String) (e : StackEditor) : Prop :=
  (e.loaded || e.loading) = true → Meets scope e.scope

instance (scope : String) (e : StackEditor) : Decidable (e.Of scope) :=
  inferInstanceAs (Decidable (_ → _))

namespace Workspace

/-- The editor, if it is open, is for a stack of this server, or for a new stack. -/
def EditorOf (w : Workspace) (scope : String) : Prop := ∀ e ∈ w.editor, e.Of scope

instance (w : Workspace) (scope : String) : Decidable (w.EditorOf scope) :=
  inferInstanceAs (Decidable (∀ e ∈ w.editor, _))

/-- The rows of a view mode came from this server, if their buttons read the selection. -/
def TableOf (w : Workspace) (mode : ContainersViewMode) (scope : String) : Prop :=
  mode.kind ≠ .containers → (w.listing mode.kind).Of scope

instance (w : Workspace) (mode : ContainersViewMode) (scope : String) :
    Decidable (w.TableOf mode scope) := inferInstanceAs (Decidable (_ → _))

/-- The step brings no rows of another server on screen than the one that is selected, and renders
none for another one; and it selects no other server behind the editor. -/
def Apart (w : Workspace) : WorkspaceEvent → Prop
  | .selectServer scope => w.EditorOf scope
  | .serverList scopes => w.EditorOf (w.nextScope scopes) ∧
      (w.onScreen = true → w.TableOf w.containersViewMode (w.nextScope scopes))
  | .switchView mode => w.onScreen = true → w.TableOf mode w.containersSelectedScope
  | .enter mode => w.TableOf mode w.containersSelectedScope
  | .redraw _ => (w.listing .containers).CacheOf w.containersSelectedScope
  | .pressContainer row .restart => (w.listing .containers).CacheOf row.bound ∧
      (w.sortsByState = true → (w.listing .containers).CacheOf w.containersSelectedScope)
  | _ => True

instance (w : Workspace) : ∀ e : WorkspaceEvent, Decidable (w.Apart e)
  | .selectServer scope => inferInstanceAs (Decidable (w.EditorOf scope))
  | .serverList scopes => inferInstanceAs (Decidable (w.EditorOf (w.nextScope scopes) ∧ _))
  | .switchView mode =>
      inferInstanceAs (Decidable (_ → w.TableOf mode w.containersSelectedScope))
  | .enter mode => inferInstanceAs (Decidable (w.TableOf mode w.containersSelectedScope))
  | .redraw _ =>
      inferInstanceAs (Decidable ((w.listing .containers).CacheOf w.containersSelectedScope))
  | .pressContainer row .restart =>
      inferInstanceAs (Decidable ((w.listing .containers).CacheOf row.bound ∧ (_ → _)))
  | .pressContainer _ .start | .pressContainer _ .stop | .pressContainer _ .pause
  | .pressContainer _ .unpause | .pressContainer _ .kill | .pressContainer _ .rm
  | .leave | .refresh _ | .selectResources _ | .pressStack .. | .pressRemove .. | .openStack _
  | .saveStack .. | .actStack .. | .closeStack => .isTrue trivial

/-- Nothing that can be pressed is for another server than the one that it came from. -/
structure Scoped (w : Workspace) : Prop where
  sent : ∀ request ∈ w.sent, request.Right
  bound : ∀ row ∈ (w.listing .containers).rows, Meets row.bound row.source
  shown : w.onScreen = true → w.TableOf w.containersViewMode w.containersSelectedScope
  editor : w.EditorOf w.containersSelectedScope

end Workspace

/-! ### What the editor waits for -/

/-- What comes after a refresh is due to the editor, which shows that it is busy. -/
def AfterRefresh.WorksFor : AfterRefresh → StackEditor → Prop
  | .nothing, _ => False
  | .saved request, e => e.saving = true ∧ (request.action.isSome = true → e.acting = true)
  | .acted, e => e.acting = true

/-- What the page waits for is due to a save or an action of the editor. -/
def WorkspaceWait.WorksFor : WorkspaceWait → StackEditor → Prop
  | .validate request, e => request.Right ∧ AfterRefresh.WorksFor (.saved request) e
  | .save request, e => AfterRefresh.WorksFor (.saved request) e
  | .stackJob fromEditor, e => fromEditor = true ∧ e.acting = true
  | .list _ _ after, e => after.WorksFor e
  | _, _ => False

/-- The page waits for something that the editor has asked for. -/
def WorkspaceWait.ofEditor : WorkspaceWait → Bool
  | .validate _ | .save _ | .loadStack | .list _ _ (.saved _) | .list _ _ .acted => true
  | .stackJob fromEditor => fromEditor
  | _ => false

/-- What the page waits for on behalf of the editor. -/
def ofEditor (waiting : List WorkspaceWait) : List WorkspaceWait :=
  waiting.filter (·.ofEditor)

/-- The editor waits for nothing, for its content, or for the next answer of a save or an action. -/
inductive EditorAwaits : Option StackEditor → List WorkspaceWait → Prop
  | closed : EditorAwaits none []
  | idle {e : StackEditor} (hloading : e.loading = false) : EditorAwaits (some e) []
  | content {e : StackEditor} (hloading : e.loading = true) : EditorAwaits (some e) [.loadStack]
  | work {e : StackEditor} {k : WorkspaceWait} (hloading : e.loading = false)
      (hwork : k.WorksFor e) : EditorAwaits (some e) [k]

@[simp] theorem ofEditor_nil : ofEditor [] = [] := rfl

/-- What is for the editor in two lists, one after the other. -/
@[simp] theorem ofEditor_append (front back : List WorkspaceWait) :
    ofEditor (front ++ back) = ofEditor front ++ ofEditor back := List.filter_append ..

/-- What is for the editor, by the first of a list. -/
theorem ofEditor_cons (k : WorkspaceWait) (waiting : List WorkspaceWait) :
    ofEditor (k :: waiting) = if k.ofEditor then k :: ofEditor waiting else ofEditor waiting :=
  List.filter_cons

/-- What is due to an editor is for the editor. -/
theorem WorkspaceWait.WorksFor.ofEditor {k : WorkspaceWait} {e : StackEditor}
    (h : k.WorksFor e) : k.ofEditor = true := by
  cases k with
  | list kind scope after =>
      cases after with
      | nothing => exact h.elim
      | saved save => rfl
      | acted => rfl
  | stackJob fromEditor => exact h.1
  | validate save => rfl
  | save save => rfl
  | containerAction scope => exact h.elim
  | remove kind => exact h.elim
  | loadStack => exact h.elim

/-- An editor that works is busy. -/
theorem WorkspaceWait.WorksFor.busy {k : WorkspaceWait} {e : StackEditor} (h : k.WorksFor e) :
    e.busy = true := by
  have hafter : ∀ after : AfterRefresh, after.WorksFor e → e.busy = true := by
    intro after hafter
    cases after with
    | nothing => exact hafter.elim
    | saved save => simp [StackEditor.busy, hafter.1]
    | acted => simp [StackEditor.busy, show e.acting = true from hafter]
  cases k with
  | list kind scope after => exact hafter after h
  | stackJob fromEditor => simp [StackEditor.busy, h.2]
  | validate save => exact hafter (.saved save) h.2
  | save save => exact hafter (.saved save) h
  | containerAction scope => exact h.elim
  | remove kind => exact h.elim
  | loadStack => exact h.elim

namespace EditorAwaits

variable {editor : Option StackEditor} {e : StackEditor} {k : WorkspaceWait}
  {ws front back : List WorkspaceWait}

/-- The editor has no request in flight while it is closed or not busy. -/
theorem eq_nil (h : EditorAwaits editor ws) (hbusy : ∀ e ∈ editor, e.busy = false) : ws = [] := by
  cases h with
  | closed => rfl
  | idle => rfl
  | content hloading =>
      have hidle := hbusy _ rfl
      simp [StackEditor.busy, hloading] at hidle
  | work hloading hwork => exact absurd (hwork.busy.symm.trans (hbusy _ rfl)) (by decide)

/-- The answer that comes is the only one that the editor waits for. -/
theorem answered (h : EditorAwaits editor (ofEditor (front ++ k :: back)))
    (hk : k.ofEditor = true) :
    ofEditor (front ++ back) = [] ∧ EditorAwaits editor [k] := by
  rw [ofEditor_append, ofEditor_cons, if_pos hk] at h
  have hone : ofEditor front ++ k :: ofEditor back = [k] := by
    generalize hws : ofEditor front ++ k :: ofEditor back = ws at h
    have hmem : k ∈ ws := by simp [← hws]
    cases h with
    | closed | idle => cases hmem
    | content | work => rw [List.mem_singleton.mp hmem]
  obtain ⟨hfront, hback⟩ : ofEditor front = [] ∧ ofEditor back = [] := by
    have hlength := congrArg List.length hone
    simp only [List.length_append, List.length_cons, List.length_nil] at hlength
    exact ⟨List.length_eq_zero_iff.mp (by omega), List.length_eq_zero_iff.mp (by omega)⟩
  rw [hone] at h
  exact ⟨by rw [ofEditor_append, hfront, hback, List.append_nil], h⟩

/-- The content is awaited only while it is loading. -/
theorem loading (h : EditorAwaits editor [.loadStack]) :
    ∃ e, editor = some e ∧ e.loading = true := by
  cases h with
  | content hloading => exact ⟨_, rfl, hloading⟩
  | work _ hwork => exact hwork.elim

/-- Another answer is awaited by an editor that works. -/
theorem works (h : EditorAwaits editor [k]) (hk : k ≠ .loadStack) :
    ∃ e, editor = some e ∧ e.loading = false ∧ k.WorksFor e := by
  cases h with
  | content => exact absurd rfl hk
  | work hloading hwork => exact ⟨_, rfl, hloading, hwork⟩

end EditorAwaits

namespace Workspace

variable {w : Workspace} {r : Effect} {e : StackEditor} {k : WorkspaceWait} {kind : ListKind}
  {scope : String}

/-- The editor sends to the server that is selected. -/
theorem Scoped.editorSource (h : w.Scoped) (hnone : w.containersSelectedScope ≠ "")
    (he : e ∈ w.editor) : ∀ source ∈ e.source, w.containersSelectedScope = source := by
  intro source hsource
  rw [StackEditor.source] at hsource
  split_ifs at hsource with hloaded
  · obtain rfl := Option.some.inj hsource
    exact ((h.editor e he (by rw [hloaded]; rfl)).resolve_left hnone).symm
  · cases hsource

/-- What a function leaves is what the editor waits for then. -/
def Awaits (r : Effect) : Prop := EditorAwaits r.1.editor (ofEditor r.2)

/-- A function leaves the editor. -/
def LeavesEditor (w : Workspace) (r : Effect) : Prop :=
  r.1.editor = w.editor ∧ ofEditor r.2 = []

/-- What comes after a refresh for the editor. -/
theorem awaits_afterRefresh {after : AfterRefresh} (heditor : w.editor = some e)
    (hloading : e.loading = false) (hwork : after.WorksFor e) : Awaits (afterRefresh after w) := by
  have hidle : Awaits (w.mapEditor .idle, []) := by
    rw [Awaits, mapEditor, heditor]
    exact .idle hloading
  cases after with
  | nothing => exact hwork.elim
  | acted => exact hidle
  | saved save =>
      obtain ⟨-, hacting⟩ := hwork
      rcases haction : save.action with _ | action
      · simp only [afterRefresh, haction]
        split_ifs
        · exact .closed
        · exact hidle
      · simp only [afterRefresh, haction, runEditorAction]
        split_ifs
        · rw [Awaits, mapEditor, mapEditor, heditor]
          exact .idle hloading
        · rw [Awaits, send, mapEditor, heditor]
          exact .work hloading ⟨rfl, hacting (by rw [haction]; rfl)⟩

/-- A refresh for the editor. -/
theorem awaits_refresh {after : AfterRefresh} (kind : ListKind) (heditor : w.editor = some e)
    (hloading : e.loading = false) (hwork : after.WorksFor e) :
    Awaits (refresh kind after w) := by
  rcases refresh_cases kind after w with ⟨-, heq⟩ | ⟨-, heq⟩ | ⟨-, -, heq⟩
  · rw [heq]
    exact awaits_afterRefresh heditor hloading hwork
  · rw [heq]
    exact awaits_afterRefresh heditor hloading hwork
  · have hk : (WorkspaceWait.list kind w.containersSelectedScope after).WorksFor e := hwork
    rw [heq, Awaits, ofEditor_cons, if_pos hk.ofEditor, startRefresh, heditor]
    exact .work hloading hk

/-- A refresh that nothing follows leaves the editor. -/
theorem leavesEditor_refresh (kind : ListKind) (w : Workspace) :
    LeavesEditor w (refresh kind .nothing w) := by
  rcases refresh_cases kind .nothing w with ⟨-, heq⟩ | ⟨-, heq⟩ | ⟨-, -, heq⟩ <;>
    rw [heq] <;> exact ⟨rfl, rfl⟩

/-- Two functions that leave the editor leave it one after the other. -/
theorem LeavesEditor.andThen {f : Workspace → Effect} (h : LeavesEditor w r)
    (hf : LeavesEditor r.1 (f r.1)) : LeavesEditor w (r.andThen f) := by
  refine ⟨hf.1.trans h.1, ?_⟩
  rw [Effect.andThen, ofEditor_append, h.2, hf.2, List.append_nil]

/-- A refresh that was not for the editor. -/
theorem leavesEditor_finishRefresh (kind : ListKind) (scope : String) (answer : ListAnswer)
    (w : Workspace) : LeavesEditor w (finishRefresh kind scope .nothing answer w) := by
  rcases eq_or_ne w.containersSelectedScope scope with hselected | hother
  · rw [finishRefresh_selected .nothing answer hselected]
    exact ⟨rfl, rfl⟩
  · rw [finishRefresh_other .nothing answer hother]
    exact (leavesEditor_refresh kind _).andThen ⟨rfl, rfl⟩

/-- The end of a refresh that was for the editor. -/
theorem awaits_finishRefresh {after : AfterRefresh} (kind : ListKind) (scope : String)
    (answer : ListAnswer) (heditor : w.editor = some e) (hloading : e.loading = false)
    (hwork : after.WorksFor e) : Awaits (finishRefresh kind scope after answer w) := by
  rcases eq_or_ne w.containersSelectedScope scope with hselected | hother
  · rw [finishRefresh_selected after answer hselected]
    exact awaits_afterRefresh heditor hloading hwork
  · obtain ⟨hsame, hnone⟩ := leavesEditor_refresh kind (w.endRefresh kind)
    have hafter := awaits_afterRefresh (hsame.trans heditor) hloading hwork
    rw [finishRefresh_other after answer hother, Awaits, Effect.andThen, ofEditor_append, hnone]
    exact hafter

/-- A change of the view leaves the editor. -/
theorem leavesEditor_setContainersViewMode (mode : ContainersViewMode) (w : Workspace) :
    LeavesEditor w (w.setContainersViewMode mode) := by
  have hrefresh := leavesEditor_refresh mode.kind (w.showMode mode)
  refine LeavesEditor.andThen ⟨hrefresh.1, hrefresh.2⟩ ?_
  split_ifs <;> exact ⟨rfl, rfl⟩

/-- So does coming to the view. -/
theorem leavesEditor_enterView (mode : ContainersViewMode) (w : Workspace) :
    LeavesEditor w (w.enterView mode) := by
  have hmode := leavesEditor_setContainersViewMode mode { w with onScreen := true }
  refine LeavesEditor.andThen ⟨hmode.1, hmode.2⟩ ?_
  split_ifs
  · exact leavesEditor_refresh .containers _
  · exact ⟨rfl, rfl⟩

/-- So does picking a server. -/
theorem leavesEditor_pickServer (scope : String) (w : Workspace) :
    LeavesEditor w (w.pickServer scope) := by
  rw [pickServer]
  split_ifs <;>
    exact ⟨(leavesEditor_refresh _ _).1.trans rfl, (leavesEditor_refresh _ _).2⟩

/-- So does a change of the servers that can be picked. -/
theorem leavesEditor_updateContainersServerOptions (scopes : List String) (w : Workspace) :
    LeavesEditor w (w.updateContainersServerOptions scopes) := by
  rw [updateContainersServerOptions]
  split_ifs
  · exact ⟨(leavesEditor_refresh _ _).1.trans rfl, (leavesEditor_refresh _ _).2⟩
  · exact ⟨rfl, rfl⟩

/-- So does an action on a container. -/
theorem leavesEditor_runContainerAction (row : WorkspaceRow) (action : ContainerAction)
    (w : Workspace) :
    LeavesEditor w ((w.pressContainerButton row action).runContainerAction row action) := by
  have hpressed : (w.pressContainerButton row action).editor = w.editor := by
    rw [pressContainerButton, setContainerOptimisticState]
    split_ifs <;> rfl
  rw [runContainerAction]
  split_ifs <;> exact ⟨hpressed, rfl⟩

/-- So does an action on a stack. -/
theorem leavesEditor_runStackAction (row : WorkspaceRow) (action : StackAction) (w : Workspace) :
    LeavesEditor w (w.runStackAction row action) := by
  rw [runStackAction]
  split_ifs <;> exact ⟨rfl, rfl⟩

/-- So does removing an item. -/
theorem leavesEditor_runRemove (kind : ListKind) (row : WorkspaceRow) (w : Workspace) :
    LeavesEditor w (w.runRemove kind row) := by
  rw [runRemove]
  split_ifs <;> exact ⟨rfl, rfl⟩

/-- The editor asks for its first answer. -/
theorem awaits_openStackModal (name : String) (hclosed : w.editor = none) :
    Awaits (w.openStackModal name) := by
  rw [openStackModal]
  split_ifs with hnone hname
  · rw [Awaits, hclosed]
    exact .closed
  · exact .idle (decide_eq_false (not_not_intro hname))
  · exact .content (decide_eq_true hname)

/-- The editor awaits the save that it has asked for. -/
theorem awaits_saveStackFromModal (fields : EditorFields) (closeOnSuccess : Bool)
    (action : Option ModalAction) (h : w.Scoped) (heditor : w.editor = some e)
    (hloading : e.loading = false) :
    Awaits (w.saveStackFromModal fields closeOnSuccess action e) := by
  have hrefused : Awaits (w, []) := by
    rw [Awaits, heditor]
    exact .idle hloading
  rw [saveStackFromModal]
  split_ifs with hname hchecks hchecks
  · exact hrefused
  · exact .work hloading ⟨h.editorSource (fun hnone => hchecks (.inl hnone)) heditor, rfl, id⟩
  · exact hrefused
  · exact .work hloading ⟨h.editorSource (fun hnone => hchecks (.inl hnone)) heditor, rfl, id⟩

/-- **What an event does to the editor**: nothing, or it was not busy and waits for what was asked
for. -/
theorem handle_editor {event : WorkspaceEvent} (hscoped : w.Scoped)
    (h : w.handle event = some r) :
    LeavesEditor w r ∨ ((∀ e ∈ w.editor, e.busy = false) ∧ Awaits r) := by
  have hidle {e : StackEditor} (heditor : w.editor = some e) (hlocked : ¬ e.locked = true) :
      e.loading = false ∧ ∀ e ∈ w.editor, e.busy = false := by
    simp only [StackEditor.locked, StackEditor.busy, Bool.or_eq_true, not_or,
      Bool.not_eq_true] at hlocked
    refine ⟨hlocked.1.1.1, fun e' he' => ?_⟩
    obtain rfl := Option.some.inj (heditor.symm.trans he')
    simp [StackEditor.busy, hlocked.1]
  cases event with
  | selectServer scope =>
      obtain ⟨-, heq⟩ := Option.ite_none_right_eq_some.mp h
      exact .inl (Option.some.inj heq ▸ leavesEditor_pickServer scope w)
  | serverList scopes =>
      exact .inl (Option.some.inj h ▸ leavesEditor_updateContainersServerOptions scopes w)
  | switchView mode => exact .inl (Option.some.inj h ▸ leavesEditor_setContainersViewMode mode w)
  | enter mode =>
      obtain ⟨-, heq⟩ := Option.ite_none_left_eq_some.mp h
      exact .inl (Option.some.inj heq ▸ leavesEditor_enterView mode w)
  | leave => exact .inl (Option.some.inj h ▸ ⟨rfl, rfl⟩)
  | refresh kind => exact .inl (Option.some.inj h ▸ leavesEditor_refresh kind w)
  | redraw byState => exact .inl (Option.some.inj h ▸ ⟨rfl, rfl⟩)
  | selectResources id =>
      obtain ⟨-, heq⟩ := Option.ite_none_right_eq_some.mp h
      exact .inl (Option.some.inj heq ▸ ⟨rfl, rfl⟩)
  | pressContainer row action =>
      obtain ⟨-, heq⟩ := Option.ite_none_right_eq_some.mp h
      exact .inl (Option.some.inj heq ▸ leavesEditor_runContainerAction row action w)
  | pressStack row action =>
      obtain ⟨-, heq⟩ := Option.ite_none_right_eq_some.mp h
      exact .inl (Option.some.inj heq ▸ leavesEditor_runStackAction row action w)
  | pressRemove kind row =>
      obtain ⟨-, heq⟩ := Option.ite_none_right_eq_some.mp h
      exact .inl (Option.some.inj heq ▸ leavesEditor_runRemove kind row w)
  | openStack name =>
      obtain ⟨hclosed, heq⟩ := Option.ite_none_right_eq_some.mp h
      have hnone := Option.isNone_iff_eq_none.mp hclosed
      refine .inr ⟨fun e he => ?_, Option.some.inj heq ▸ awaits_openStackModal name hnone⟩
      rw [hnone] at he
      cases he
  | saveStack fields closeOnSuccess =>
      obtain ⟨e, heditor, hguard⟩ := Option.bind_eq_some_iff.mp h
      obtain ⟨hlocked, heq⟩ := Option.ite_none_left_eq_some.mp hguard
      obtain ⟨hloading, hbusy⟩ := hidle heditor hlocked
      exact .inr ⟨hbusy, Option.some.inj heq ▸
        awaits_saveStackFromModal fields closeOnSuccess none hscoped heditor hloading⟩
  | actStack fields action =>
      obtain ⟨e, heditor, hguard⟩ := Option.bind_eq_some_iff.mp h
      obtain ⟨hlocked, heq⟩ := Option.ite_none_left_eq_some.mp hguard
      obtain ⟨hloading, hbusy⟩ := hidle heditor hlocked
      exact .inr ⟨hbusy, Option.some.inj heq ▸
        awaits_saveStackFromModal fields false (some action) hscoped heditor hloading⟩
  | closeStack =>
      obtain ⟨e, heditor, hguard⟩ := Option.bind_eq_some_iff.mp h
      obtain ⟨hbusy, heq⟩ := Option.ite_none_left_eq_some.mp hguard
      refine .inr ⟨fun e' he' => ?_, Option.some.inj heq ▸ .closed⟩
      obtain rfl := Option.some.inj (heditor.symm.trans he')
      exact Bool.eq_false_of_not_eq_true hbusy

/-- **What an answer does to the editor** if it is not for it: nothing. -/
theorem resume_other {answer : WorkspaceAnswer} (hk : k.ofEditor = false)
    (h : w.resume k answer = some r) : LeavesEditor w r := by
  cases k with
  | list kind scope after =>
      cases after with
      | nothing =>
          cases answer with
          | list a =>
              have hfinish : w.finishRefresh kind scope .nothing a = r := by
                cases a with
                | aborted => exact Option.some.inj (Option.ite_none_right_eq_some.mp h).2
                | _ => exact Option.some.inj h
              exact hfinish ▸ leavesEditor_finishRefresh kind scope a w
          | _ => cases h
      | saved save => cases hk
      | acted => cases hk
  | containerAction scope =>
      cases answer with
      | container id => exact Option.some.inj h ▸ leavesEditor_refresh .containers _
      | done => exact Option.some.inj h ▸ leavesEditor_refresh .containers w
      | failed => exact Option.some.inj h ▸ ⟨rfl, rfl⟩
      | _ => cases h
  | stackJob fromEditor =>
      obtain rfl : fromEditor = false := hk
      cases answer with
      | done => exact Option.some.inj h ▸ leavesEditor_refresh .stacks w
      | failed => exact Option.some.inj h ▸ ⟨rfl, rfl⟩
      | _ => cases h
  | remove kind =>
      cases answer with
      | done => exact Option.some.inj h ▸ leavesEditor_refresh kind w
      | failed => exact Option.some.inj h ▸ ⟨rfl, rfl⟩
      | _ => cases h
  | loadStack => cases hk
  | validate save => cases hk
  | save save => cases hk

/-- **What an answer for the editor does.** -/
theorem resume_awaits {answer : WorkspaceAnswer} (hawaits : EditorAwaits w.editor [k])
    (h : w.resume k answer = some r) : Awaits r := by
  have hidle {e : StackEditor} (heditor : w.editor = some e) (hloading : e.loading = false) :
      Awaits (w.mapEditor .idle, []) := by
    rw [Awaits, mapEditor, heditor]
    exact .idle hloading
  cases k with
  | loadStack =>
      obtain ⟨e, heditor, -⟩ := hawaits.loading
      cases answer with
      | stack found =>
          obtain rfl := Option.some.inj h
          rw [Awaits, mapEditor, heditor]
          exact .idle rfl
      | failed =>
          obtain rfl := Option.some.inj h
          rw [Awaits, mapEditor, heditor]
          exact .idle rfl
      | _ => cases h
  | list kind scope after =>
      obtain ⟨e, heditor, hloading, hwork⟩ := hawaits.works nofun
      cases answer with
      | list a =>
          have hfinish : w.finishRefresh kind scope after a = r := by
            cases a with
            | aborted => exact Option.some.inj (Option.ite_none_right_eq_some.mp h).2
            | _ => exact Option.some.inj h
          exact hfinish ▸ awaits_finishRefresh kind scope a heditor hloading hwork
      | _ => cases h
  | containerAction scope =>
      obtain ⟨e, -, -, hwork⟩ := hawaits.works nofun
      exact hwork.elim
  | stackJob fromEditor =>
      obtain ⟨e, heditor, hloading, rfl, hacting⟩ := hawaits.works nofun
      cases answer with
      | done => exact Option.some.inj h ▸ awaits_refresh .stacks heditor hloading hacting
      | failed => exact Option.some.inj h ▸ hidle heditor hloading
      | _ => cases h
  | remove kind =>
      obtain ⟨e, -, -, hwork⟩ := hawaits.works nofun
      exact hwork.elim
  | validate save =>
      obtain ⟨e, heditor, hloading, hwork⟩ := hawaits.works nofun
      cases answer with
      | done =>
          obtain rfl := Option.some.inj h
          rw [Awaits, send, heditor]
          exact .work hloading hwork.2
      | failed => exact Option.some.inj h ▸ hidle heditor hloading
      | _ => cases h
  | save save =>
      obtain ⟨e, heditor, hloading, hwork⟩ := hawaits.works nofun
      cases answer with
      | done => exact Option.some.inj h ▸ awaits_refresh .stacks heditor hloading hwork
      | failed => exact Option.some.inj h ▸ hidle heditor hloading
      | _ => cases h

/-! ### Functions -/

/-- A list is replaced by rows of the server that is selected, or by none. -/
theorem Scoped.setListing {listing : Listing} (h : w.Scoped)
    (hrows : ∀ row ∈ listing.rows, Meets row.bound row.source ∧
      Meets w.containersSelectedScope row.source) :
    (w.setListing kind listing).Scoped where
  sent := h.sent
  bound := by
    rcases eq_or_ne ListKind.containers kind with rfl | hne
    · rw [setListing_listing_self]
      exact fun row hrow => (hrows row hrow).1
    · rw [setListing_listing_of_ne hne]
      exact h.bound
  shown hscreen hkind := by
    change Listing.Of w.containersSelectedScope
      ((w.setListing kind listing).listing w.containersViewMode.kind)
    rcases eq_or_ne w.containersViewMode.kind kind with heq | hne
    · rw [heq, setListing_listing_self]
      exact fun row hrow => (hrows row hrow).2
    · rw [setListing_listing_of_ne hne]
      exact h.shown hscreen hkind
  editor := h.editor

/-- The containers are replaced by rows with the servers that they came from. -/
theorem Scoped.setContainers {listing : Listing} (h : w.Scoped)
    (hrows : ∀ row ∈ listing.rows, Meets row.bound row.source) :
    (w.setListing .containers listing).Scoped where
  sent := h.sent
  bound := by
    rw [setListing_listing_self]
    exact hrows
  shown hscreen hkind := by
    have hother : w.containersViewMode.kind ≠ .containers := hkind
    change Listing.Of w.containersSelectedScope
      ((w.setListing .containers listing).listing w.containersViewMode.kind)
    rw [setListing_listing_of_ne hother]
    exact h.shown hscreen hother
  editor := h.editor

/-- A list that is cleared has nothing to press. -/
theorem Scoped.cleared (h : w.Scoped) (message : String) :
    (w.setListing kind (.cleared message)).Scoped :=
  h.setListing fun _ hrow => absurd hrow List.not_mem_nil

/-- The editor becomes one that is for no other server. -/
theorem Scoped.mapEditor {f : StackEditor → StackEditor} (h : w.Scoped)
    (hf : ∀ e ∈ w.editor, e.Of w.containersSelectedScope → (f e).Of w.containersSelectedScope) :
    (w.mapEditor f).Scoped where
  sent := h.sent
  bound := h.bound
  shown := h.shown
  editor e he := by
    obtain ⟨e₀, he₀, rfl⟩ := Option.map_eq_some_iff.mp he
    exact hf e₀ he₀ (h.editor e₀ he₀)

/-- An editor that is no longer busy keeps its server. -/
theorem Scoped.idle (h : w.Scoped) : (w.mapEditor .idle).Scoped := h.mapEditor fun _ _ he => he

/-- Without an editor there is less to press. -/
theorem Scoped.closed (h : w.Scoped) : ({ w with editor := none } : Workspace).Scoped :=
  ⟨h.sent, h.bound, h.shown, nofun⟩

/-- A request to the right server keeps the rest. -/
theorem Scoped.send {mutation : Mutation} {source : Option String} (h : w.Scoped)
    (hright : ∀ s ∈ source, scope = s) : (w.send mutation scope source).Scoped where
  sent request hrequest := by
    rcases List.mem_append.mp hrequest with hold | hnew
    · exact h.sent request hold
    · obtain rfl := List.mem_singleton.mp hnew
      exact hright
  bound := h.bound
  shown := h.shown
  editor := h.editor

/-- What follows a refresh is for the right server. -/
theorem scoped_afterRefresh {after : AfterRefresh} (h : w.Scoped) :
    (afterRefresh after w).1.Scoped := by
  cases after with
  | nothing => exact h
  | acted => exact h.idle
  | saved save =>
      rcases haction : save.action with _ | action
      · simp only [afterRefresh, haction]
        split_ifs
        · exact h.closed
        · exact h.idle
      · have hsaved : (w.mapEditor fun e => { e with saving := false }).Scoped :=
          h.mapEditor fun _ _ he => he
        simp only [afterRefresh, haction, runEditorAction]
        split_ifs with hnone
        · exact hsaved.idle
        · refine hsaved.send fun source hsource => ?_
          obtain ⟨e, he, hsource⟩ := Option.bind_eq_some_iff.mp hsource
          exact hsaved.editorSource hnone he source hsource

/-- So is what a refresh leaves. -/
theorem scoped_refresh {after : AfterRefresh} (h : w.Scoped) :
    (refresh kind after w).1.Scoped := by
  rcases refresh_cases kind after w with ⟨-, heq⟩ | ⟨-, heq⟩ | ⟨-, -, heq⟩
  · rw [heq]
    exact scoped_afterRefresh h
  · rw [heq]
    exact scoped_afterRefresh (h.cleared _)
  · rw [heq]
    exact ⟨h.sent, h.bound, h.shown, h.editor⟩

/-- The rows of an answer are those of the server that was asked. -/
theorem rows_answered {answer : ListAnswer} {listing : Listing} (h : answer ≠ .aborted) :
    ∀ row ∈ (Listing.answered kind scope answer listing).rows,
      row.bound = scope ∧ row.source = scope := by
  have hrender (ids : List String) : ∀ row ∈ (Listing.render kind scope ids).rows,
      row.bound = scope ∧ row.source = scope := by
    intro row hrow
    rw [Listing.render] at hrow
    split_ifs at hrow
    · cases hrow
    · obtain ⟨id, -, rfl⟩ := List.mem_map.mp hrow
      exact ⟨rfl, rfl⟩
  cases answer with
  | rows ids => exact hrender ids
  | errorPayload ids =>
      rw [Listing.answered]
      split_ifs
      · exact hrender ids
      · exact fun row hrow => absurd hrow List.not_mem_nil
  | null => exact fun row hrow => absurd hrow List.not_mem_nil
  | failed => exact fun row hrow => absurd hrow List.not_mem_nil
  | aborted => exact absurd rfl h

/-- So is what the end of a refresh leaves, with the rows that came. -/
theorem scoped_finishRefresh {after : AfterRefresh} {answer : ListAnswer} (h : w.Scoped) :
    (finishRefresh kind scope after answer w).1.Scoped := by
  rcases eq_or_ne w.containersSelectedScope scope with hselected | hother
  · have hset :
        (w.setListing kind (Listing.answered kind scope answer (w.listing kind))).Scoped := by
      by_cases haborted : answer = .aborted
      · rw [haborted, Listing.answered, Workspace.setListing, Function.update_eq_self]
        exact h
      · refine h.setListing fun row hrow => ?_
        obtain ⟨hbound, hsource⟩ := rows_answered haborted row hrow
        exact ⟨.inr (hsource.trans hbound.symm), .inr (hsource.trans hselected.symm)⟩
    rw [finishRefresh_selected after answer hselected]
    exact scoped_afterRefresh ⟨hset.sent, hset.bound, hset.shown, hset.editor⟩
  · have hfree : (w.endRefresh kind).Scoped := ⟨h.sent, h.bound, h.shown, h.editor⟩
    rw [finishRefresh_other after answer hother]
    exact scoped_afterRefresh (scoped_refresh hfree)

/-- So is what picking a server leaves, if the editor is for that server. -/
theorem scoped_pickServer (h : w.Scoped) (heditor : w.EditorOf scope) :
    (w.pickServer scope).1.Scoped := by
  rw [pickServer]
  split_ifs with hsame
  · subst hsame
    exact scoped_refresh ⟨h.sent, h.bound, h.shown, heditor⟩
  · refine scoped_refresh ⟨h.sent, ?_, fun _ _ => ?_, heditor⟩
    · rcases eq_or_ne ListKind.containers w.containersViewMode.kind with heq | hne
      · rw [clearContainersViewForServerSwitch, ← heq, setListing_listing_self]
        exact fun row hrow => absurd hrow List.not_mem_nil
      · rw [clearContainersViewForServerSwitch, setListing_listing_of_ne hne]
        exact h.bound
    · -- the rows on screen were dropped
      change Listing.Of scope
        ((setListing w.containersViewMode.kind (.cleared "Loading…") _).listing
          w.containersViewMode.kind)
      rw [setListing_listing_self]
      exact fun row hrow => absurd hrow List.not_mem_nil

/-- So is what other servers to pick from leave, if the editor and the table on screen are for the
next one. -/
theorem scoped_updateContainersServerOptions {scopes : List String} (h : w.Scoped)
    (heditor : w.EditorOf (w.nextScope scopes))
    (hshown : w.onScreen = true → w.TableOf w.containersViewMode (w.nextScope scopes)) :
    (w.updateContainersServerOptions scopes).1.Scoped := by
  rw [updateContainersServerOptions]
  split_ifs
  · exact scoped_refresh ⟨h.sent, h.bound, hshown, heditor⟩
  · exact ⟨h.sent, h.bound, hshown, heditor⟩

/-- So is what a change of the view leaves, if the table that it shows is for the server. -/
theorem scoped_setContainersViewMode {mode : ContainersViewMode}
    (h : (w.showMode mode).Scoped) :
    (w.setContainersViewMode mode).1.Scoped := by
  have hrefresh : (refresh mode.kind .nothing (w.showMode mode)).1.Scoped := scoped_refresh h
  rw [setContainersViewMode, Effect.andThen]
  simp only
  split_ifs
  · exact ⟨hrefresh.sent, hrefresh.bound, hrefresh.shown, hrefresh.editor⟩
  · exact hrefresh

/-- So is what coming to the view leaves, under the same condition. -/
theorem scoped_enterView {mode : ContainersViewMode} (h : w.Scoped)
    (htable : w.TableOf mode w.containersSelectedScope) : (w.enterView mode).1.Scoped := by
  have hmode : (setContainersViewMode mode { w with onScreen := true }).1.Scoped :=
    scoped_setContainersViewMode ⟨h.sent, h.bound, fun _ => htable, h.editor⟩
  rw [enterView, Effect.andThen]
  simp only
  split_ifs
  · exact scoped_refresh hmode
  · exact hmode

/-! ### Containers -/

/-- Rows that are drawn again from the cache of their server are bound to it. -/
theorem bound_redraw {listing : Listing} (hcache : listing.CacheOf scope)
    (h : ∀ row ∈ listing.rows, Meets row.bound row.source) :
    ∀ row ∈ (listing.redraw scope).rows, Meets row.bound row.source := by
  cases listing with
  | blank => exact h
  | cleared message => exact h
  | loaded source rows =>
      rw [Listing.redraw]
      split_ifs
      · exact h
      · intro row hrow
        obtain ⟨old, -, rfl⟩ := List.mem_map.mp hrow
        exact hcache

/-- So are the rows when one of them is replaced by a row bound to its server. -/
theorem bound_updateRow {listing : Listing} (new : WorkspaceRow)
    (hnew : Meets new.bound new.source)
    (h : ∀ row ∈ listing.rows, Meets row.bound row.source) :
    ∀ row ∈ (listing.updateRow new).rows, Meets row.bound row.source := by
  cases listing with
  | blank => exact h
  | cleared message => exact h
  | loaded source rows =>
      intro row hrow
      obtain ⟨old, hold, rfl⟩ := List.mem_map.mp hrow
      split_ifs
      · exact hnew
      · exact h old hold

/-- So are the rows when one of them is bound to the server of the cache. -/
theorem bound_rebind {listing : Listing} (id : String) (hcache : listing.CacheOf scope)
    (h : ∀ row ∈ listing.rows, Meets row.bound row.source) :
    ∀ row ∈ (listing.rebind id scope).rows, Meets row.bound row.source := by
  cases listing with
  | blank => exact h
  | cleared message => exact h
  | loaded source rows => exact bound_updateRow ⟨id, source, scope⟩ hcache h

/-- Binding a row again leaves the server of the cache. -/
theorem cacheOf_rebind {listing : Listing} {id scope' : String} (h : listing.CacheOf scope) :
    (listing.rebind id scope').CacheOf scope := by
  cases listing <;> exact h

/-- Containers that are drawn again from the cache of the selected server are for it. -/
theorem scoped_redrawContainers (h : w.Scoped)
    (hcache : (w.listing .containers).CacheOf w.containersSelectedScope) :
    w.redrawContainers.Scoped := by
  have hredrawn := h.setContainers (bound_redraw hcache h.bound)
  exact ⟨hredrawn.sent, hredrawn.bound, hredrawn.shown, hredrawn.editor⟩

/-- So are they with a state that is shown in advance. -/
theorem scoped_setContainerOptimisticState {id : String} (h : w.Scoped)
    (hcache : (w.listing .containers).CacheOf scope)
    (hsorted : w.sortsByState = true →
      (w.listing .containers).CacheOf w.containersSelectedScope) :
    (w.setContainerOptimisticState id scope).Scoped := by
  have hrebound := h.setContainers (bound_rebind id hcache h.bound)
  rw [setContainerOptimisticState]
  split_ifs with hsorts
  · refine scoped_redrawContainers hrebound ?_
    rw [setListing_listing_self]
    exact cacheOf_rebind (hsorted hsorts)
  · exact hrebound

/-- An action on a container goes to the server that its row came from. -/
theorem scoped_runContainerAction {row : WorkspaceRow} {action : ContainerAction} (h : w.Scoped)
    (hrow : Meets row.bound row.source) : (w.runContainerAction row action).1.Scoped := by
  rw [runContainerAction]
  split_ifs with hchecks
  · exact h
  · refine h.send fun source hsource => ?_
    obtain rfl := Option.some.inj hsource
    exact (hrow.resolve_left fun hnone => hchecks (.inl hnone)).symm

/-- Pressing its button keeps the servers apart if the step does. -/
theorem scoped_pressContainerButton {row : WorkspaceRow} {action : ContainerAction}
    (h : w.Scoped) (hapart : w.Apart (.pressContainer row action)) :
    (w.pressContainerButton row action).Scoped := by
  rw [pressContainerButton]
  split_ifs with haction
  · subst haction
    exact scoped_setContainerOptimisticState h hapart.1 hapart.2
  · exact h

/-! ### Other rows -/

/-- The row of a button that reads the selection came from the server that is selected. -/
theorem Scoped.offers {row : WorkspaceRow} (h : w.Scoped) (hoffers : w.Offers kind row)
    (hkind : kind ≠ .containers) : Meets w.containersSelectedScope row.source := by
  obtain ⟨hscreen, hbuttons, hrow⟩ := hoffers
  have hmode : w.containersViewMode.kind = kind := by
    cases hview : w.containersViewMode <;> rw [hview] at hbuttons <;>
      first | exact Option.some.inj hbuttons | cases hbuttons
  refine h.shown hscreen (by rwa [hmode]) row ?_
  rwa [hmode]

/-- An action on a stack goes to the selected server, from which its row has come. -/
theorem scoped_runStackAction {row : WorkspaceRow} {action : StackAction} (h : w.Scoped)
    (hrow : Meets w.containersSelectedScope row.source) :
    (w.runStackAction row action).1.Scoped := by
  rw [runStackAction]
  split_ifs with hchecks
  · exact h
  · refine h.send fun source hsource => ?_
    obtain rfl := Option.some.inj hsource
    exact (hrow.resolve_left fun hnone => hchecks (.inr hnone)).symm

/-- So does removing an item. -/
theorem scoped_runRemove {row : WorkspaceRow} (h : w.Scoped)
    (hrow : Meets w.containersSelectedScope row.source) : (w.runRemove kind row).1.Scoped := by
  rw [runRemove]
  split_ifs with hchecks
  · exact h
  · refine h.send fun source hsource => ?_
    obtain rfl := Option.some.inj hsource
    exact (hrow.resolve_left fun hnone => hchecks (.inl hnone)).symm

/-! ### The editor -/

/-- Opening the dialog asks the selected server for the content. -/
theorem scoped_openStackModal {name : String} (h : w.Scoped) :
    (w.openStackModal name).1.Scoped := by
  rw [openStackModal]
  split_ifs
  · exact h
  all_goals
    refine ⟨h.sent, h.bound, h.shown, fun e he _ => ?_⟩
    obtain rfl := Option.some.inj he
    exact .inr rfl

/-- A save goes to the server of the editor. -/
theorem scoped_saveStackFromModal {fields : EditorFields} {closeOnSuccess : Bool}
    {action : Option ModalAction} (h : w.Scoped) (he : e ∈ w.editor) :
    (w.saveStackFromModal fields closeOnSuccess action e).1.Scoped := by
  have hworks : ∀ e' ∈ some { e with saving := true, acting := action.isSome },
      e'.Of w.containersSelectedScope := by
    intro e' he'
    obtain rfl := Option.some.inj he'
    exact h.editor e he
  rw [saveStackFromModal]
  split_ifs
  · exact h
  · exact ⟨h.sent, h.bound, h.shown, hworks⟩
  · exact h
  · exact ⟨h.sent, h.bound, h.shown, hworks⟩

/-! ### Steps -/

/-- **What an event does**, if it keeps the servers apart. -/
theorem Scoped.handle {event : WorkspaceEvent} (h : w.Scoped) (hapart : w.Apart event)
    (hevent : w.handle event = some r) : r.1.Scoped := by
  cases event with
  | selectServer scope =>
      obtain ⟨-, heq⟩ := Option.ite_none_right_eq_some.mp hevent
      exact Option.some.inj heq ▸ scoped_pickServer h hapart
  | serverList scopes =>
      exact Option.some.inj hevent ▸ scoped_updateContainersServerOptions h hapart.1 hapart.2
  | switchView mode =>
      exact Option.some.inj hevent ▸
        scoped_setContainersViewMode ⟨h.sent, h.bound, hapart, h.editor⟩
  | enter mode =>
      obtain ⟨-, heq⟩ := Option.ite_none_left_eq_some.mp hevent
      exact Option.some.inj heq ▸ scoped_enterView h hapart
  | leave => exact Option.some.inj hevent ▸ ⟨h.sent, h.bound, nofun, h.editor⟩
  | refresh kind => exact Option.some.inj hevent ▸ scoped_refresh h
  | redraw byState =>
      have hredraw := scoped_redrawContainers h hapart
      exact Option.some.inj hevent ▸
        ⟨hredraw.sent, hredraw.bound, hredraw.shown, hredraw.editor⟩
  | selectResources id =>
      obtain ⟨-, heq⟩ := Option.ite_none_right_eq_some.mp hevent
      exact Option.some.inj heq ▸ ⟨h.sent, h.bound, h.shown, h.editor⟩
  | pressContainer row action =>
      obtain ⟨hoffers, heq⟩ := Option.ite_none_right_eq_some.mp hevent
      exact Option.some.inj heq ▸ scoped_runContainerAction
        (scoped_pressContainerButton h hapart) (h.bound row hoffers.2.2)
  | pressStack row action =>
      obtain ⟨hoffers, heq⟩ := Option.ite_none_right_eq_some.mp hevent
      exact Option.some.inj heq ▸ scoped_runStackAction h (h.offers hoffers nofun)
  | pressRemove kind row =>
      obtain ⟨⟨hoffers, hkind, -⟩, heq⟩ := Option.ite_none_right_eq_some.mp hevent
      exact Option.some.inj heq ▸ scoped_runRemove h (h.offers hoffers hkind)
  | openStack name =>
      obtain ⟨-, heq⟩ := Option.ite_none_right_eq_some.mp hevent
      exact Option.some.inj heq ▸ scoped_openStackModal h
  | saveStack fields closeOnSuccess =>
      obtain ⟨e, heditor, hguard⟩ := Option.bind_eq_some_iff.mp hevent
      obtain ⟨-, heq⟩ := Option.ite_none_left_eq_some.mp hguard
      exact Option.some.inj heq ▸ scoped_saveStackFromModal h heditor
  | actStack fields action =>
      obtain ⟨e, heditor, hguard⟩ := Option.bind_eq_some_iff.mp hevent
      obtain ⟨-, heq⟩ := Option.ite_none_left_eq_some.mp hguard
      exact Option.some.inj heq ▸ scoped_saveStackFromModal h heditor
  | closeStack =>
      obtain ⟨e, -, hguard⟩ := Option.bind_eq_some_iff.mp hevent
      obtain ⟨-, heq⟩ := Option.ite_none_left_eq_some.mp hguard
      exact Option.some.inj heq ▸ h.closed

/-- **What an answer does**: the content of the editor came from the server that it is for. -/
theorem Scoped.resume {answer : WorkspaceAnswer} (h : w.Scoped)
    (hawaits : k.ofEditor = true → EditorAwaits w.editor [k])
    (hanswer : w.resume k answer = some r) : r.1.Scoped := by
  cases k with
  | list kind scope after =>
      cases answer with
      | list a =>
          have hfinish : w.finishRefresh kind scope after a = r := by
            cases a with
            | aborted => exact Option.some.inj (Option.ite_none_right_eq_some.mp hanswer).2
            | _ => exact Option.some.inj hanswer
          exact hfinish ▸ scoped_finishRefresh h
      | _ => cases hanswer
  | containerAction scope =>
      cases answer with
      | container id =>
          exact Option.some.inj hanswer ▸
            scoped_refresh (h.setContainers (bound_updateRow ⟨id, scope, scope⟩ (.inr rfl) h.bound))
      | done => exact Option.some.inj hanswer ▸ scoped_refresh h
      | failed => exact Option.some.inj hanswer ▸ h
      | _ => cases hanswer
  | stackJob fromEditor =>
      cases answer with
      | done => exact Option.some.inj hanswer ▸ scoped_refresh h
      | failed =>
          obtain rfl := Option.some.inj hanswer
          simp only
          split_ifs
          · exact h.idle
          · exact h
      | _ => cases hanswer
  | remove kind =>
      cases answer with
      | done => exact Option.some.inj hanswer ▸ scoped_refresh h
      | failed => exact Option.some.inj hanswer ▸ h
      | _ => cases hanswer
  | loadStack =>
      obtain ⟨e, heditor, hloading⟩ := (hawaits rfl).loading
      have hof : Meets w.containersSelectedScope e.scope :=
        h.editor e heditor (by rw [hloading, Bool.or_true])
      have hmap {f : StackEditor → StackEditor} (hscope : (f e).scope = e.scope) :
          (w.mapEditor f).Scoped := by
        refine h.mapEditor fun e' he' _ _ => ?_
        obtain rfl := Option.some.inj (heditor.symm.trans he')
        rw [hscope]
        exact hof
      cases answer with
      | stack found => exact Option.some.inj hanswer ▸ hmap rfl
      | failed => exact Option.some.inj hanswer ▸ hmap rfl
      | _ => cases hanswer
  | validate save =>
      obtain ⟨e, -, -, hright, -⟩ := (hawaits rfl).works nofun
      cases answer with
      | done => exact Option.some.inj hanswer ▸ h.send hright
      | failed => exact Option.some.inj hanswer ▸ h.idle
      | _ => cases hanswer
  | save save =>
      cases answer with
      | done => exact Option.some.inj hanswer ▸ scoped_refresh h
      | failed => exact Option.some.inj hanswer ▸ h.idle
      | _ => cases hanswer

/-- An event keeps the servers apart. -/
def KeptApart (w : Workspace) : WorkspaceLabel → Prop
  | .event e => w.Apart e
  | .answer _ _ => True

instance (w : Workspace) : ∀ l : WorkspaceLabel, Decidable (w.KeptApart l)
  | .event e => inferInstanceAs (Decidable (w.Apart e))
  | .answer _ _ => .isTrue trivial

end Workspace

open EventLoop

/-- Nothing that can be pressed is for another server than its own, and the editor waits for one
answer at most. -/
structure ScopesInv (q : WorkspaceConfig) : Prop where
  state : q.state.Scoped
  awaits : EditorAwaits q.state.editor (ofEditor q.waiting)

/-- **The invariant is kept by every step that keeps the servers apart.** -/
theorem ScopesInv.step {p q : WorkspaceConfig} {l : WorkspaceLabel} (hp : ScopesInv p)
    (h : workspaceLoop.Step p l q) (hapart : p.state.KeptApart l) : ScopesInv q := by
  obtain ⟨hscoped, hawaits⟩ := hp
  cases h with
  | @event w v event waiting new hstep =>
      refine ⟨hscoped.handle hapart hstep, ?_⟩
      rw [ofEditor_append]
      rcases Workspace.handle_editor hscoped hstep with ⟨hsame, hnone⟩ | ⟨hbusy, hnext⟩
      · rw [hsame, hnone, List.append_nil]
        exact hawaits
      · rw [hawaits.eq_nil hbusy]
        exact hnext
  | @answer w v k answer front back new hstep =>
      have hone (hk : k.ofEditor = true) : EditorAwaits w.editor [k] := (hawaits.answered hk).2
      refine ⟨hscoped.resume hone hstep, ?_⟩
      rw [ofEditor_append]
      cases hk : k.ofEditor with
      | false =>
          obtain ⟨hsame, hnone⟩ := Workspace.resume_other hk hstep
          simp only [ofEditor_append, ofEditor_cons, hk] at hawaits
          rw [hsame, hnone, List.append_nil, ofEditor_append]
          exact hawaits
      | true =>
          rw [(hawaits.answered hk).1]
          exact Workspace.resume_awaits (hone hk) hstep

/-- **Requests go to the server that they are about.** If no step shows rows of another server than
the one that is selected, and none selects another one behind the editor, then every request that
was sent went to the server that its row, or the content of the editor, came from. -/
theorem run_addressed {es : List WorkspaceLabel} {q : WorkspaceConfig}
    (h : Run (fun p l q => workspaceLoop.Step p l q ∧ p.state.KeptApart l)
      ⟨freshWorkspace, []⟩ es q) :
    ∀ request ∈ q.state.sent, ∀ source ∈ request.source, request.scope = source := by
  have hfresh : ScopesInv ⟨freshWorkspace, []⟩ :=
    ⟨⟨nofun, nofun, fun h => absurd h Bool.false_ne_true, nofun⟩, EditorAwaits.closed⟩
  exact (h.state_invariant ScopesInv hfresh fun hp hstep => hp.step hstep.1 hstep.2).state.sent

/-! ### Runs -/

/-- The volumes of a server are shown. -/
def showVolumes : List (Input WorkspaceEvent WorkspaceAnswer) :=
  [.event (.serverList ["local:a", "local:b"]), .event (.enter .volumes),
    .answer 0 (.list (.rows ["data"]))]

/-- The button of the volume that is shown. -/
def removeVolume : Input WorkspaceEvent WorkspaceAnswer :=
  .event (.pressRemove .volumes ⟨"data", "local:a", "local:a"⟩)

/-- A volume is removed from the server that it came from. -/
theorem run_addressed_volume : ∃ es q,
    Run (fun p l q => workspaceLoop.Step p l q ∧ p.state.KeptApart l)
      ⟨freshWorkspace, []⟩ es q ∧
    ∃ request ∈ q.state.sent, request.source = some "local:a" ∧ request.scope = "local:a" := by
  have hexec : (workspaceLoop.exec (fun w l => w.KeptApart l) ⟨freshWorkspace, []⟩
      (showVolumes ++ [removeVolume])).map (fun q => q.state.sent) =
      some [⟨.remove .volumes "data", "local:a", some "local:a"⟩] := by
    decide
  obtain ⟨q, hrun, hsent⟩ := Option.map_eq_some_iff.mp hexec
  obtain ⟨es, hsteps⟩ := run_of_exec hrun
  have happly : Run (fun p l q => workspaceLoop.Step p l q ∧ p.state.KeptApart l)
      ⟨freshWorkspace, []⟩ es q := hsteps.mono fun h => ⟨h.1, of_decide_eq_true h.2⟩
  have hmem : ⟨.remove .volumes "data", "local:a", some "local:a"⟩ ∈ q.state.sent := by
    rw [hsent]
    exact List.mem_singleton_self _
  exact ⟨es, q, happly, _, hmem, rfl, run_addressed happly _ hmem _ rfl⟩

/-- **A volume is removed on another server.** It is still on screen when the volumes are opened
again; another server was selected in between, and its volumes are yet to come. -/
theorem volume_removed_elsewhere : ∃ es q,
    Run workspaceLoop.Step ⟨freshWorkspace, []⟩ es q ∧
      ¬ ∀ request ∈ q.state.sent, ∀ source ∈ request.source, request.scope = source := by
  have hexec : (workspaceLoop.exec (fun _ _ => true) ⟨freshWorkspace, []⟩
      (showVolumes ++ [.event (.switchView .table), .event (.selectServer "local:b"),
        .event (.switchView .volumes), removeVolume])).map (fun q => q.state.sent) =
      some [⟨.remove .volumes "data", "local:b", some "local:a"⟩] := by
    decide
  obtain ⟨q, hrun, hsent⟩ := Option.map_eq_some_iff.mp hexec
  obtain ⟨es, hsteps⟩ := run_of_exec hrun
  refine ⟨es, q, hsteps.mono And.left, fun hright => ?_⟩
  have hsame := hright ⟨.remove .volumes "data", "local:b", some "local:a"⟩
    (by rw [hsent]; exact List.mem_singleton_self _) "local:a" rfl
  exact absurd hsame (by decide)

end Contiwatch
