import Contiwatch.ContainerSessions

/-!
# Sessions and the Selected Server

Selecting another server leaves the shell and the logs open. They are closed when the containers of
that server are rendered and theirs is missing, in `renderContainersShellList` and
`renderContainersLogsList` of `web/static/app.js`. `clearContainersTable`, which shows an empty list
or one that could not be loaded, closes nothing.

## Main results

* `run_workspace` — the page without its sessions is the workspace.
* `run_inServer_iff` — the runs in which every session that is still open belongs to the selected
  server, whenever its containers are not being loaded.
* `session_outlives_server` — a shell that stays open, and takes what is typed, on a server that is
  no longer selected.
-/

namespace Contiwatch

/-! ### The containers of the workspace -/

/-- The server that a loaded list came from, and the ids in it. -/
def Listing.contents : Listing → Option (String × List String)
  | loaded source rows => some (source, rows.map (·.id))
  | _ => none

namespace Listing

/-- Drawing a list again changes none of its contents. -/
theorem contents_redraw (scope : String) (listing : Listing) :
    (listing.redraw scope).contents = listing.contents := by
  cases listing with
  | blank | cleared message => rfl
  | loaded source rows =>
      rw [redraw]
      split_ifs
      · rfl
      · simp [contents]

/-- Updating a row changes no identifier and no scope. -/
theorem contents_updateRow (row : WorkspaceRow) (listing : Listing) :
    (listing.updateRow row).contents = listing.contents := by
  cases listing with
  | blank | cleared message => rfl
  | loaded source rows =>
      have hid : ∀ old : WorkspaceRow, (if old.id = row.id then row else old).id = old.id := by
        intro old
        split_ifs with h
        · exact h.symm
        · rfl
      simp [updateRow, contents, hid]

/-- Binding a row again changes none of the contents. -/
theorem contents_rebind (id scope : String) (listing : Listing) :
    (listing.rebind id scope).contents = listing.contents := by
  cases listing with
  | blank | cleared message => rfl
  | loaded source rows => exact contents_updateRow ⟨id, source, scope⟩ (loaded source rows)

/-- The containers that are rendered. -/
theorem contents_render {kind : ListKind} {scope : String} {ids : List String} (h : ids ≠ []) :
    (render kind scope ids).contents = some (scope, ids) := by
  rw [render, if_neg h, contents, List.map_map]
  exact congrArg (fun ids => some (scope, ids)) (List.map_id ids)

/-- The containers that an answer leaves are those that it brings. -/
theorem contents_answered {scope source : String} {answer : ListAnswer} {listing : Listing}
    {ids : List String} (hnot : answer ≠ .aborted)
    (h : (answered .containers scope answer listing).contents = some (source, ids)) :
    answer = .rows ids := by
  cases answer with
  | rows ids' =>
      rcases eq_or_ne ids' [] with rfl | hne
      · cases h
      · obtain ⟨-, rfl⟩ := Prod.mk.inj (Option.some.inj ((contents_render hne).symm.trans h))
        rfl
  | errorPayload ids' | null | failed => cases h
  | aborted => exact absurd rfl hnot

end Listing

/-- The answer has containers. -/
def ListAnswer.hasContainers : ListAnswer → Bool
  | rows ids => ids.any (· ≠ "")
  | _ => false

namespace Workspace

/-- A server is selected, and its list has a container. -/
def Lists (w : Workspace) (id : String) : Prop :=
  w.containersSelectedScope ≠ "" ∧ ∃ ids,
    (w.listing .containers).contents = some (w.containersSelectedScope, ids) ∧ id ∈ ids

/-- A function leaves the server and its containers. -/
structure KeepsRows (w v : Workspace) : Prop where
  scope : v.containersSelectedScope = w.containersSelectedScope
  inFlight : v.inFlight .containers = w.inFlight .containers
  contents : (v.listing .containers).contents = (w.listing .containers).contents

/-- A function leaves the server and its containers, or the containers are being loaded then, or
there is no server that they could be loaded from. -/
def LoadsRows (w v : Workspace) : Prop :=
  KeepsRows w v ∨ v.inFlight .containers = true ∨
    (w.containersSelectedScope = "" ∧ w.inFlight .containers = false ∧
      v.containersSelectedScope = "")

variable {u v w : Workspace} {kind : ListKind} {r : Effect}

/-- Two changes that keep the rows keep them together. -/
theorem KeepsRows.trans (h : KeepsRows u v) (h' : KeepsRows v w) : KeepsRows u w :=
  ⟨h'.scope.trans h.scope, h'.inFlight.trans h.inFlight, h'.contents.trans h.contents⟩

/-- What is listed after a change that keeps the rows was listed before. -/
theorem KeepsRows.lists (h : KeepsRows w v) {id : String} (hlists : w.Lists id) : v.Lists id := by
  rw [Lists, h.scope, h.contents]
  exact hlists

/-- A list becomes another one with the same contents. -/
theorem keepsRows_setListing {listing : Listing}
    (h : kind = .containers → listing.contents = (w.listing .containers).contents) :
    KeepsRows w (w.setListing kind listing) := by
  refine ⟨rfl, rfl, ?_⟩
  rcases eq_or_ne kind .containers with rfl | hne
  · rw [setListing_listing_self]
    exact h rfl
  · rw [setListing_listing_of_ne hne.symm]

/-- Drawing the containers again keeps the rows. -/
theorem keepsRows_redrawContainers (w : Workspace) : KeepsRows w w.redrawContainers := by
  have hredrawn : KeepsRows w (w.setListing .containers
      ((w.listing .containers).redraw w.containersSelectedScope)) :=
    keepsRows_setListing fun _ => Listing.contents_redraw ..
  exact ⟨hredrawn.scope, hredrawn.inFlight, hredrawn.contents⟩

/-- The answer to a request for another list leaves the containers. -/
theorem keepsRows_showAnswer (hne : kind ≠ .containers) (scope : String) (answer : ListAnswer)
    (w : Workspace) : KeepsRows w (w.showAnswer kind scope answer) := by
  have hanswered : KeepsRows w (w.setListing kind
      (Listing.answered kind scope answer (w.listing kind))) :=
    keepsRows_setListing fun h => absurd h hne
  exact ⟨hanswered.scope, hanswered.inFlight, hanswered.contents⟩

/-- A state that is shown in advance keeps the rows. -/
theorem keepsRows_setContainerOptimisticState (id scope : String) (w : Workspace) :
    KeepsRows w (w.setContainerOptimisticState id scope) := by
  have hrebound : KeepsRows w
      (w.setListing .containers ((w.listing .containers).rebind id scope)) :=
    keepsRows_setListing fun _ => Listing.contents_rebind ..
  rw [setContainerOptimisticState]
  split_ifs
  · exact hrebound.trans (keepsRows_redrawContainers _)
  · exact hrebound

/-- What follows a refresh keeps the rows. -/
theorem keepsRows_afterRefresh (after : AfterRefresh) (w : Workspace) :
    KeepsRows w (afterRefresh after w).1 := by
  cases after with
  | nothing | acted => exact ⟨rfl, rfl, rfl⟩
  | saved save =>
      rcases haction : save.action with _ | action
      · simp only [afterRefresh, haction]
        split_ifs <;> exact ⟨rfl, rfl, rfl⟩
      · simp only [afterRefresh, haction, runEditorAction]
        split_ifs <;> exact ⟨rfl, rfl, rfl⟩

/-- A refresh of another list leaves the containers. -/
theorem keepsRows_refresh (hne : kind ≠ .containers) (after : AfterRefresh) (w : Workspace) :
    KeepsRows w (refresh kind after w).1 := by
  rcases refresh_cases kind after w with ⟨-, heq⟩ | ⟨-, heq⟩ | ⟨-, -, heq⟩
  · rw [heq]
    exact keepsRows_afterRefresh after w
  · rw [heq]
    exact (keepsRows_setListing fun h => absurd h hne).trans (keepsRows_afterRefresh after _)
  · rw [heq]
    exact ⟨rfl, startRefresh_inFlight_of_ne hne.symm w, rfl⟩

/-- A refresh of the containers, while a server is selected, loads them. -/
theorem inFlight_refresh (after : AfterRefresh) (h : w.containersSelectedScope ≠ "") :
    (refresh .containers after w).1.inFlight .containers = true := by
  rcases refresh_cases .containers after w with ⟨hflight, heq⟩ | ⟨hnone, -⟩ | ⟨-, -, heq⟩
  · rw [heq]
    exact (keepsRows_afterRefresh after w).inFlight.trans hflight
  · exact absurd hnone h
  · rw [heq]
    exact startRefresh_inFlight_self ..

/-- While no server is selected, none is selected afterwards, and nothing is loaded. -/
theorem refresh_noServer (after : AfterRefresh) (h : w.containersSelectedScope = "") :
    (refresh .containers after w).1.containersSelectedScope = "" ∧
      (refresh .containers after w).1.inFlight .containers = w.inFlight .containers := by
  rcases refresh_cases .containers after w with ⟨-, heq⟩ | ⟨-, heq⟩ | ⟨-, hsome, -⟩
  · rw [heq]
    have hkeeps := keepsRows_afterRefresh after w
    exact ⟨hkeeps.scope.trans h, hkeeps.inFlight⟩
  · rw [heq]
    have hkeeps := keepsRows_afterRefresh after
      (w.setListing .containers (.cleared "No servers configured. Add one in Servers."))
    exact ⟨hkeeps.scope.trans h, hkeeps.inFlight⟩
  · exact absurd h hsome

/-- The start of a refresh loads no rows of another server. -/
theorem loadsRows_refresh (kind : ListKind) (after : AfterRefresh) (w : Workspace) :
    LoadsRows w (refresh kind after w).1 := by
  rcases eq_or_ne kind .containers with rfl | hne
  · by_cases hnone : w.containersSelectedScope = ""
    · obtain ⟨hscope, hinFlight⟩ := refresh_noServer after hnone
      cases hflight : w.inFlight .containers with
      | true => exact .inr (.inl (hinFlight.trans hflight))
      | false => exact .inr (.inr ⟨hnone, hflight, hscope⟩)
    · exact .inr (.inl (inFlight_refresh after hnone))
  · exact .inl (keepsRows_refresh hne after w)

/-- A change that keeps the rows, before one that loads rows. -/
theorem KeepsRows.loads (h : KeepsRows u v) (h' : LoadsRows v w) : LoadsRows u w := by
  rcases h' with hkeeps | hflight | ⟨hnone, hidle, hscope⟩
  · exact .inl (h.trans hkeeps)
  · exact .inr (.inl hflight)
  · exact .inr (.inr ⟨h.scope ▸ hnone, h.inFlight ▸ hidle, hscope⟩)

/-- A change that keeps the rows, after one that loads rows. -/
theorem LoadsRows.keep (h : LoadsRows u v) (h' : KeepsRows v w) : LoadsRows u w := by
  rcases h with hkeeps | hflight | ⟨hnone, hidle, hscope⟩
  · exact .inl (hkeeps.trans h')
  · exact .inr (.inl (h'.inFlight.trans hflight))
  · exact .inr (.inr ⟨hnone, hidle, h'.scope.trans hscope⟩)

/-- Pressing the button of a container keeps the rows. -/
theorem keepsRows_pressContainer (row : WorkspaceRow) (action : ContainerAction) (w : Workspace) :
    KeepsRows w ((w.pressContainerButton row action).runContainerAction row action).1 := by
  have hpressed : KeepsRows w (w.pressContainerButton row action) := by
    rw [pressContainerButton]
    split_ifs
    · exact keepsRows_setContainerOptimisticState row.id row.bound w
    · exact ⟨rfl, rfl, rfl⟩
  refine hpressed.trans ?_
  rw [runContainerAction]
  split_ifs <;> exact ⟨rfl, rfl, rfl⟩

/-- Saving a stack from its dialog keeps the rows. -/
theorem keepsRows_saveStackFromModal (fields : EditorFields) (closeOnSuccess : Bool)
    (action : Option ModalAction) (e : StackEditor) (w : Workspace) :
    KeepsRows w (w.saveStackFromModal fields closeOnSuccess action e).1 := by
  rw [saveStackFromModal]
  split_ifs <;> exact ⟨rfl, rfl, rfl⟩

/-- A stack action keeps the rows. -/
theorem keepsRows_runStackAction (row : WorkspaceRow) (action : StackAction) (w : Workspace) :
    KeepsRows w (w.runStackAction row action).1 := by
  rw [runStackAction]
  split_ifs <;> exact ⟨rfl, rfl, rfl⟩

/-- Removing an item keeps the rows until the lists are refreshed. -/
theorem keepsRows_runRemove (row : WorkspaceRow) (w : Workspace) :
    KeepsRows w (w.runRemove kind row).1 := by
  rw [runRemove]
  split_ifs <;> exact ⟨rfl, rfl, rfl⟩

/-- Opening the dialog of a stack keeps the rows. -/
theorem keepsRows_openStackModal (name : String) (w : Workspace) :
    KeepsRows w (w.openStackModal name).1 := by
  rw [openStackModal]
  split_ifs <;> exact ⟨rfl, rfl, rfl⟩

/-- The events that may refresh a list. -/
def refreshes : WorkspaceEvent → Bool
  | .selectServer _ | .serverList _ | .switchView _ | .enter _ | .refresh _ => true
  | _ => false

/-- **What the other events do**: the containers stay, and no list is asked for. -/
theorem handle_quiet {e : WorkspaceEvent} (hquiet : refreshes e = false)
    (h : w.handle e = some r) : KeepsRows w r.1 ∧ ∀ kind, listRequests kind r.2 = 0 := by
  have hleaves {r' : Effect} (heq : some r' = some r) (hkeeps : KeepsRows w r'.1)
      (hr : LeavesLists w r') : KeepsRows w r.1 ∧ ∀ kind, listRequests kind r.2 = 0 :=
    Option.some.inj heq ▸ ⟨hkeeps, hr.2⟩
  have hnone {v : Workspace} (heq : some (v, []) = some r) (hkeeps : KeepsRows w v) :
      KeepsRows w r.1 ∧ ∀ kind, listRequests kind r.2 = 0 :=
    Option.some.inj heq ▸ ⟨hkeeps, fun _ => rfl⟩
  cases e with
  | selectServer scope | serverList scopes | switchView mode | enter mode | refresh kind =>
      cases hquiet
  | leave => exact hnone h ⟨rfl, rfl, rfl⟩
  | redraw byState =>
      have hredraw := keepsRows_redrawContainers w
      exact hnone h ⟨hredraw.scope, hredraw.inFlight, hredraw.contents⟩
  | selectResources id =>
      obtain ⟨-, heq⟩ := Option.ite_none_right_eq_some.mp h
      exact hnone heq ⟨rfl, rfl, rfl⟩
  | pressContainer row action =>
      obtain ⟨-, heq⟩ := Option.ite_none_right_eq_some.mp h
      exact hleaves heq (keepsRows_pressContainer row action w)
        (leavesLists_pressContainer row action w)
  | pressStack row action =>
      obtain ⟨-, heq⟩ := Option.ite_none_right_eq_some.mp h
      exact hleaves heq (keepsRows_runStackAction row action w)
        (leavesLists_runStackAction row action w)
  | pressRemove kind row =>
      obtain ⟨-, heq⟩ := Option.ite_none_right_eq_some.mp h
      exact hleaves heq (keepsRows_runRemove row w) (leavesLists_runRemove row w)
  | openStack name =>
      obtain ⟨-, heq⟩ := Option.ite_none_right_eq_some.mp h
      exact hleaves heq (keepsRows_openStackModal name w) (leavesLists_openStackModal name w)
  | saveStack fields closeOnSuccess =>
      obtain ⟨e, -, hguard⟩ := Option.bind_eq_some_iff.mp h
      obtain ⟨-, heq⟩ := Option.ite_none_left_eq_some.mp hguard
      exact hleaves heq (keepsRows_saveStackFromModal fields closeOnSuccess none e w)
        (leavesLists_saveStackFromModal fields closeOnSuccess none e w)
  | actStack fields action =>
      obtain ⟨e, -, hguard⟩ := Option.bind_eq_some_iff.mp h
      obtain ⟨-, heq⟩ := Option.ite_none_left_eq_some.mp hguard
      exact hleaves heq (keepsRows_saveStackFromModal fields false (some action) e w)
        (leavesLists_saveStackFromModal fields false (some action) e w)
  | closeStack =>
      obtain ⟨e, -, hguard⟩ := Option.bind_eq_some_iff.mp h
      obtain ⟨-, heq⟩ := Option.ite_none_left_eq_some.mp hguard
      exact hnone heq ⟨rfl, rfl, rfl⟩

/-- What events do to the containers, but for those that select a server, or show the workspace. -/
theorem loadsRows_handle {e : WorkspaceEvent} (h : w.handle e = some r)
    (hselect : ∀ scope, e ≠ .selectServer scope) (hlist : ∀ scopes, e ≠ .serverList scopes)
    (henter : ∀ mode, e ≠ .enter mode) : LoadsRows w r.1 := by
  cases e with
  | selectServer scope => exact absurd rfl (hselect scope)
  | serverList scopes => exact absurd rfl (hlist scopes)
  | enter mode => exact absurd rfl (henter mode)
  | switchView mode =>
      obtain rfl := Option.some.inj h
      have hmode : KeepsRows w (w.showMode mode) := ⟨rfl, rfl, rfl⟩
      refine (hmode.loads (loadsRows_refresh mode.kind .nothing _)).keep ?_
      rw [setContainersViewMode, Effect.andThen]
      dsimp only
      split_ifs <;> exact ⟨rfl, rfl, rfl⟩
  | refresh kind => exact Option.some.inj h ▸ loadsRows_refresh kind .nothing w
  | _ => exact .inl (handle_quiet rfl h).1

/-- What other answers do to the containers than those to a request for them. -/
theorem loadsRows_resume {k : WorkspaceWait} {answer : WorkspaceAnswer}
    (hother : k.requests .containers = false) (h : w.resume k answer = some r) :
    LoadsRows w r.1 := by
  have hkeeps {r' : Effect} (heq : some r' = some r) (hr : KeepsRows w r'.1) : LoadsRows w r.1 :=
    Option.some.inj heq ▸ .inl hr
  have hrefresh {kind : ListKind} {after : AfterRefresh}
      (heq : some (w.refresh kind after) = some r) : LoadsRows w r.1 :=
    Option.some.inj heq ▸ loadsRows_refresh kind after w
  cases k with
  | list kind scope after =>
      have hne : kind ≠ .containers := of_decide_eq_false hother
      obtain ⟨a, -, rfl, -⟩ := resume_list h
      have hended (v : Workspace) : KeepsRows v (v.endRefresh kind) :=
        ⟨rfl, endRefresh_inFlight_of_ne hne.symm v, rfl⟩
      by_cases hscope : w.containersSelectedScope = scope
      · rw [finishRefresh_selected after a hscope]
        exact .inl (((keepsRows_showAnswer hne scope a w).trans (hended _)).trans
          (keepsRows_afterRefresh after _))
      · rw [finishRefresh_other after a hscope]
        exact .inl (((hended w).trans (keepsRows_refresh hne .nothing _)).trans
          (keepsRows_afterRefresh after _))
  | containerAction scope =>
      cases answer with
      | container id =>
          obtain rfl := Option.some.inj h
          have hrow : KeepsRows w (w.setListing .containers
              ((w.listing .containers).updateRow ⟨id, scope, scope⟩)) :=
            keepsRows_setListing fun _ => Listing.contents_updateRow ..
          exact hrow.loads (loadsRows_refresh .containers .nothing _)
      | done => exact hrefresh h
      | failed => exact hkeeps h ⟨rfl, rfl, rfl⟩
      | _ => cases h
  | stackJob fromEditor =>
      cases answer with
      | done => exact hrefresh h
      | failed =>
          refine hkeeps h ?_
          split_ifs <;> exact ⟨rfl, rfl, rfl⟩
      | _ => cases h
  | remove kind =>
      cases answer with
      | done => exact hrefresh h
      | failed => exact hkeeps h ⟨rfl, rfl, rfl⟩
      | _ => cases h
  | loadStack =>
      cases answer with
      | stack found => exact hkeeps h ⟨rfl, rfl, rfl⟩
      | failed => exact hkeeps h ⟨rfl, rfl, rfl⟩
      | _ => cases h
  | validate save =>
      cases answer with
      | done | failed => exact hkeeps h ⟨rfl, rfl, rfl⟩
      | _ => cases h
  | save save =>
      cases answer with
      | done => exact hrefresh h
      | failed => exact hkeeps h ⟨rfl, rfl, rfl⟩
      | _ => cases h

/-- What `refreshSelectedServerView` does while the containers are on screen: they are being loaded
then, or no server is selected, and a list is cleared. -/
theorem refreshSelectedServerView_cases (hmode : w.containersViewMode.kind = .containers) :
    (w.containersSelectedScope ≠ "" ∧
        (refreshSelectedServerView w).1.inFlight .containers = true) ∨
      (w.containersSelectedScope = "" ∧
        (refreshSelectedServerView w).1.containersSelectedScope = "" ∧
        (refreshSelectedServerView w).1.inFlight .containers = w.inFlight .containers) := by
  rw [refreshSelectedServerView, hmode]
  by_cases hnone : w.containersSelectedScope = ""
  · exact .inr ⟨hnone, refresh_noServer .nothing hnone⟩
  · exact .inl ⟨hnone, inFlight_refresh .nothing hnone⟩

/-! ### Requests for lists -/

/-- A function asks a server for each list that it asks for. -/
def AsksServer (r : Effect) : Prop :=
  ∀ kind scope after, .list kind scope after ∈ r.2 → scope ≠ ""

/-- A function that asks for no list asks no server. -/
theorem asksServer_of_none (h : ∀ kind, listRequests kind r.2 = 0) : AsksServer r :=
  fun kind scope after hmem => absurd hmem (listRequests_eq_zero_iff.mp (h kind) scope after)

/-- Two functions that ask servers do so one after the other, too. -/
theorem AsksServer.andThen {f : Workspace → Effect} (h : AsksServer r) (hf : AsksServer (f r.1)) :
    AsksServer (r.andThen f) := fun kind scope after hmem =>
  (List.mem_append.mp hmem).elim (h kind scope after) (hf kind scope after)

/-- What follows a refresh asks servers. -/
theorem asksServer_afterRefresh (after : AfterRefresh) (w : Workspace) :
    AsksServer (afterRefresh after w) := by
  refine asksServer_of_none fun kind => ?_
  have htracks := tracks_afterRefresh after w kind
  rw [(keepsLists_afterRefresh after w).inFlight] at htracks
  omega

/-- So does a refresh. -/
theorem asksServer_refresh (kind : ListKind) (after : AfterRefresh) (w : Workspace) :
    AsksServer (refresh kind after w) := by
  rcases refresh_cases kind after w with ⟨-, heq⟩ | ⟨-, heq⟩ | ⟨-, hsome, heq⟩
  · rw [heq]
    exact asksServer_afterRefresh after w
  · rw [heq]
    exact asksServer_afterRefresh after _
  · rw [heq]
    rintro kind' scope after' hmem
    cases List.mem_singleton.mp hmem
    exact hsome

/-- So does the end of a refresh. -/
theorem asksServer_finishRefresh (kind : ListKind) (scope : String) (after : AfterRefresh)
    (answer : ListAnswer) (w : Workspace) :
    AsksServer (finishRefresh kind scope after answer w) := by
  by_cases hscope : w.containersSelectedScope = scope
  · rw [finishRefresh_selected after answer hscope]
    exact asksServer_afterRefresh after _
  · rw [finishRefresh_other after answer hscope]
    exact (asksServer_refresh kind .nothing _).andThen (asksServer_afterRefresh after _)

/-- So does a change of the view. -/
theorem asksServer_setContainersViewMode (mode : ContainersViewMode) (w : Workspace) :
    AsksServer (setContainersViewMode mode w) :=
  (asksServer_refresh mode.kind .nothing _).andThen (asksServer_of_none fun _ => rfl)

/-- So does every event of the workspace. -/
theorem asksServer_handle {e : WorkspaceEvent} (h : w.handle e = some r) : AsksServer r := by
  cases e with
  | selectServer scope =>
      obtain ⟨-, heq⟩ := Option.ite_none_right_eq_some.mp h
      exact Option.some.inj heq ▸ asksServer_refresh _ .nothing _
  | serverList scopes =>
      obtain rfl := Option.some.inj h
      rw [updateContainersServerOptions]
      split_ifs
      · exact asksServer_refresh _ .nothing _
      · exact asksServer_of_none fun _ => rfl
  | switchView mode => exact Option.some.inj h ▸ asksServer_setContainersViewMode mode w
  | enter mode =>
      obtain ⟨-, heq⟩ := Option.ite_none_left_eq_some.mp h
      obtain rfl := Option.some.inj heq
      refine (asksServer_setContainersViewMode mode _).andThen ?_
      split_ifs
      · exact asksServer_refresh .containers .nothing _
      · exact asksServer_of_none fun _ => rfl
  | refresh kind => exact Option.some.inj h ▸ asksServer_refresh kind .nothing w
  | _ => exact asksServer_of_none (handle_quiet rfl h).2

/-- And so does every answer. -/
theorem asksServer_resume {k : WorkspaceWait} {answer : WorkspaceAnswer}
    (h : w.resume k answer = some r) : AsksServer r := by
  have hrefresh {kind : ListKind} {after : AfterRefresh} {v : Workspace}
      (heq : some (v.refresh kind after) = some r) : AsksServer r :=
    Option.some.inj heq ▸ asksServer_refresh kind after v
  have hnone {v : Workspace} {new : List WorkspaceWait} (heq : some (v, new) = some r)
      (hnew : ∀ kind, listRequests kind new = 0) : AsksServer r :=
    Option.some.inj heq ▸ asksServer_of_none hnew
  cases k with
  | list kind scope after =>
      obtain ⟨a, -, rfl, -⟩ := resume_list h
      exact asksServer_finishRefresh kind scope after a w
  | containerAction scope | stackJob fromEditor | remove kind | save save =>
      cases answer with
      | container id | done => first | exact hrefresh h | cases h
      | failed => exact hnone h fun _ => rfl
      | _ => cases h
  | loadStack | validate save =>
      cases answer with
      | stack found | done | failed => first | exact hnone h fun _ => rfl | cases h
      | _ => cases h

end Workspace

/-! ### The sessions that are open -/

namespace SessionPage

variable {s t u : SessionPage} {kind : SessionKind} {ts us vs : List SessionTicket}
  {x : SessionSocket} {ids : List String} {r : Effect}

/-- The socket of a session that is open, or the one that it waits for. A session that waits for a
container that is no longer selected will not take it. -/
inductive OpenTo (s : SessionPage) (ts : List SessionTicket) (kind : SessionKind) :
    SessionSocket → Prop
  | opening {ticket : SessionTicket} (hpending : ticket ∈ s.pending kind ts)
      (hselected : s.selectedID kind = ticket.containerID) : OpenTo s ts kind ticket.socket
  | attached {i : ℕ} {x : SessionSocket} (hsocket : s.socket kind = some i)
      (hx : s.sockets[i]? = some x) : OpenTo s ts kind x

/-- A session that is open, or waits for its socket, has been asked for. -/
theorem OpenTo.asked (h : OpenTo s ts kind x) (hinv : SessionsInv s ts) : s.asked kind ≠ none := by
  intro hnone
  obtain ⟨hnil, hsocket⟩ := (hinv.sessions kind).eq_nil hnone
  cases h with
  | opening hpending => exact List.not_mem_nil (hnil ▸ hpending)
  | attached hsome => cases hsocket.symm.trans hsome

/-- The sessions depend on few fields, and on the tickets. -/
theorem OpenTo.of_eq (h : OpenTo t us kind x) (hattempt : t.attempt kind = s.attempt kind)
    (hsocket : t.socket kind = s.socket kind) (hsockets : t.sockets = s.sockets)
    (hselected : t.selectedID kind = s.selectedID kind) (hts : ∀ ticket ∈ us, ticket ∈ ts) :
    OpenTo s ts kind x := by
  cases h with
  | opening hpending hid =>
      obtain ⟨hmem, hlive⟩ := List.mem_filter.mp hpending
      rw [hattempt] at hlive
      exact .opening (List.mem_filter.mpr ⟨hts _ hmem, hlive⟩) (hselected.symm.trans hid)
  | attached hsome hx => exact .attached (hsocket.symm.trans hsome) (hsockets ▸ hx)

/-- Where a function leads, with the tickets before and after: a session that is open then was open
before, with the same selection, or is opened for the selected server. -/
def Carries (s : SessionPage) (ts : List SessionTicket) (t : SessionPage)
    (us : List SessionTicket) : Prop :=
  ∀ kind x, OpenTo t us kind x →
    (OpenTo s ts kind x ∧ t.selectedID kind = s.selectedID kind) ∨
      (x.scope = s.page.containersSelectedScope ∧ x.containerID ≠ "" ∧
        t.selectedID kind = x.containerID)

/-- Sessions that are carried over two changes of one page are carried over both. -/
theorem Carries.trans (h : Carries s ts t us) (h' : Carries t us u vs) (hpage : t.page = s.page) :
    Carries s ts u vs := by
  intro kind x hx
  rcases h' kind x hx with ⟨hmid, hsame'⟩ | ⟨hscope, hid, hselected⟩
  · rw [hsame']
    exact h kind x hmid
  · exact .inr ⟨hpage ▸ hscope, hid, hselected⟩

/-- A function that leaves the sessions and the selections. -/
structure SameSessions (s t : SessionPage) : Prop where
  page : t.page = s.page
  attempt : t.attempt = s.attempt
  socket : t.socket = s.socket
  sockets : t.sockets = s.sockets
  selectedID : t.selectedID = s.selectedID

/-- A change that leaves the sessions alone carries them. -/
theorem SameSessions.carries (h : SameSessions s t) (ts : List SessionTicket) :
    Carries s ts t ts := by
  intro kind x hx
  have hsame := congrFun h.selectedID kind
  exact .inl ⟨hx.of_eq (congrFun h.attempt kind) (congrFun h.socket kind) h.sockets hsame
    fun _ => id, hsame⟩

/-! ### Closing -/

/-- What functions do that open nothing: a session that is not closed keeps its selection. -/
structure Closes (s t : SessionPage) : Prop extends Reduces s t where
  selectedID : ∀ kind, t.asked kind ≠ none → t.selectedID kind = s.selectedID kind

/-- Two changes that only close sessions only close sessions together. -/
theorem Closes.trans (h : Closes s t) (h' : Closes t u) : Closes s u where
  toReduces := h.toReduces.trans h'.toReduces
  selectedID kind hsome :=
    (h'.selectedID kind hsome).trans (h.selectedID kind (h'.toReduces.asked hsome))

/-- No change closes no session. -/
theorem Closes.refl (s : SessionPage) : Closes s s := ⟨.refl s, fun _ _ => rfl⟩

/-- A session that is open then was open before, with the same selection. -/
theorem Closes.opens (h : Closes s t) (hinv : SessionsInv s ts) (hx : OpenTo t ts kind x) :
    OpenTo s ts kind x ∧ t.selectedID kind = s.selectedID kind := by
  have hasked := hx.asked (hinv.reduce h.toReduces)
  have hsame := h.selectedID kind hasked
  rcases h.sessions kind with ⟨hattempt, -, hsocket⟩ | ⟨-, hnone, -⟩
  · exact ⟨hx.of_eq hattempt hsocket h.sockets hsame fun _ => id, hsame⟩
  · exact absurd hnone hasked

/-- A change that only closes sessions carries those that stay. -/
theorem Closes.carries (h : Closes s t) (hinv : SessionsInv s ts) : Carries s ts t ts :=
  fun _ _ hx => .inl (h.opens hinv hx)

/-- Closing the shell only closes sessions. -/
theorem closes_closeContainersShellSession (s : SessionPage) :
    Closes s s.closeContainersShellSession :=
  ⟨reduces_closeContainersShellSession s, fun _ _ => rfl⟩

/-- So does closing the logs. -/
theorem closes_closeContainersLogsSession (silent : Bool) (s : SessionPage) :
    Closes s (s.closeContainersLogsSession silent) :=
  ⟨reduces_closeContainersLogsSession silent s, fun _ _ => rfl⟩

/-- A pause of the logs touches no session. -/
theorem closes_setContainersLogsPaused (paused : Bool) (s : SessionPage) :
    Closes s (s.setContainersLogsPaused paused) := by
  refine ⟨reduces_setContainersLogsPaused paused s, fun kind _ => ?_⟩
  rw [setContainersLogsPaused]
  split_ifs <;> rfl

/-- The lock of the page only closes sessions. -/
theorem closes_pinGuardLock (s : SessionPage) : Closes s s.pinGuardLock :=
  (closes_closeContainersShellSession s).trans (closes_closeContainersLogsSession true _)

/-- A session that has been closed is not asked for. -/
theorem asked_closeSession (kind : SessionKind) (s : SessionPage) :
    (closeSession kind s).asked kind = none := by
  cases kind <;> rfl

/-- Closing a session leaves the selected container. -/
theorem selectedID_closeSession (kind : SessionKind) (s : SessionPage) :
    (closeSession kind s).selectedID = s.selectedID := by
  cases kind <;> rfl

/-- A list leaves the selection for the other list. -/
theorem selectedID_renderSessionList_of_ne {kind' : SessionKind} (hne : kind' ≠ kind)
    (ids : List String) (s : SessionPage) :
    (renderSessionList kind ids s).selectedID kind' = s.selectedID kind' := by
  rw [renderSessionList]
  split_ifs
  · rfl
  · rw [selectedID_closeSession]
    exact Function.update_of_ne hne ..

/-- **What a list leaves open**: a list with containers has the one that is selected. -/
theorem renderSessionList_cases (kind : SessionKind) (ids : List String) (s : SessionPage) :
    ((renderSessionList kind ids s) = s ∧
        (ids.filter (· ≠ "") = [] ∨ s.selectedID kind = "" ∨ s.selectedID kind ∈ ids)) ∨
      (renderSessionList kind ids s).asked kind = none := by
  rw [renderSessionList]
  split_ifs with hstays
  · exact .inl ⟨rfl, hstays⟩
  · exact .inr (asked_closeSession kind _)

/-- Rendering the list of a session only closes sessions. -/
theorem closes_renderSessionList (kind : SessionKind) (ids : List String) (s : SessionPage) :
    Closes s (renderSessionList kind ids s) := by
  refine ⟨reduces_renderSessionList kind ids s, fun kind' hsome => ?_⟩
  rcases eq_or_ne kind' kind with rfl | hne
  · rcases renderSessionList_cases kind' ids s with ⟨hsame, -⟩ | hnone
    · rw [hsame]
    · exact absurd hnone hsome
  · exact selectedID_renderSessionList_of_ne hne ids s

/-- So does rendering both lists. -/
theorem closes_renderLists (ids : List String) (s : SessionPage) :
    Closes s (s.renderLists ids) := by
  rw [renderLists]
  split
  · exact closes_renderSessionList .shell ids s
  · exact closes_renderSessionList .logs ids s
  · exact .refl s

/-- So does closing both sessions. -/
theorem closes_closeBoth (s : SessionPage) :
    Closes s ((s.closeContainersShellSession.closeContainersLogsSession
      false).setContainersLogsPaused false) :=
  ((closes_closeContainersShellSession s).trans
    (closes_closeContainersLogsSession false _)).trans (closes_setContainersLogsPaused false _)

/-- So does a switch to another view. -/
theorem closes_switchSessions (mode : ContainersViewMode) (s : SessionPage) :
    Closes s (s.switchSessions mode) := by
  cases mode with
  | shell =>
      exact ((closes_closeContainersLogsSession false s).trans
        (closes_setContainersLogsPaused false _)).trans (closes_renderSessionList .shell _ _)
  | logs => exact (closes_closeBoth s).trans (closes_renderSessionList .logs _ _)
  | table =>
      exact (closes_closeContainersShellSession s).trans
        (closes_closeContainersLogsSession false _)
  | _ => exact closes_closeBoth s

/-- An event of the workspace, but for that which shows it. -/
theorem closes_follow {e : WorkspaceEvent} (henter : ∀ mode, e ≠ .enter mode) (s : SessionPage) :
    Closes s (s.follow e) := by
  cases e with
  | switchView mode => exact closes_switchSessions mode s
  | enter mode => exact absurd rfl (henter mode)
  | leave =>
      rw [follow]
      split_ifs
      · exact closes_closeBoth s
      · exact .refl s
  | redraw byState =>
      rw [follow]
      split_ifs
      · exact .refl s
      · exact closes_renderLists _ s
  | _ => exact .refl s

/-- What follows an answer only closes sessions. -/
theorem closes_followAnswer (k : WorkspaceWait) (answer : WorkspaceAnswer) (s : SessionPage) :
    Closes s (s.followAnswer k answer) := by
  unfold followAnswer
  split
  · split_ifs
    · exact closes_renderLists _ s
    · exact .refl s
  · exact .refl s

/-- So does a ticket that was refused. -/
theorem closes_ticketFailed (ticket : SessionTicket) (locks : Bool) (s : SessionPage) :
    Closes s (s.ticketFailed ticket locks) := by
  have hlock := closes_pinGuardLock s
  rw [ticketFailed]
  split_ifs
  · exact hlock.trans (closes_closeContainersShellSession _)
  · exact hlock
  · exact closes_closeContainersShellSession s
  · exact .refl s

/-! ### Opening -/

/-- What functions of the sessions do: the workspace and its requests stay. -/
structure Inside (s : SessionPage) (ts us : List SessionTicket) (r : Effect) : Prop where
  page : r.1.page = s.page
  requests : ∀ k, .page k ∉ r.2
  carries : Carries s ts r.1 (us ++ ticketsOf r.2)

/-- A function that only closes sessions leaves the workspace and its requests. -/
theorem Closes.inside (h : Closes s t) (hinv : SessionsInv s ts) : Inside s ts ts (t, []) where
  page := h.page
  requests := nofun
  carries := (List.append_nil ts).symm ▸ h.carries hinv

/-- So does one that leaves the sessions alone. -/
theorem SameSessions.inside (h : SameSessions s t) (ts : List SessionTicket) :
    Inside s ts ts (t, []) where
  page := h.page
  requests := nofun
  carries := (List.append_nil ts).symm ▸ h.carries ts

/-- **A session is opened for the selected server.** -/
theorem carries_ask {id : String} (hid : id ≠ "") (s : SessionPage) (ts : List SessionTicket) :
    Carries s ts (ask kind id s).1 (ts ++ ticketsOf (ask kind id s).2) := by
  intro kind' x hx
  cases hx with
  | opening hpending hselected =>
      obtain ⟨hmem, hlive⟩ := List.mem_filter.mp hpending
      rcases List.mem_append.mp hmem with hold | hnew
      · exact .inl ⟨.opening (List.mem_filter.mpr ⟨hold, hlive⟩) hselected, rfl⟩
      · obtain rfl := List.mem_singleton.mp hnew
        exact .inr ⟨rfl, hid, hselected⟩
  | attached hsocket hx => exact .inl ⟨.attached (by cases kind' <;> exact hsocket) hx, rfl⟩

/-- Asking for a ticket leaves the workspace and its requests. -/
theorem inside_ask {id : String} (hid : id ≠ "") (hcarries : Carries s ts t ts)
    (hpage : t.page = s.page) : Inside s ts ts (ask kind id t) where
  page := hpage
  requests := by
    intro k hk
    cases List.mem_singleton.mp hk
  carries := hcarries.trans (carries_ask hid t ts) hpage

/-- So does opening a shell. -/
theorem inside_openContainersShell (container : SessionContainer) (hinv : SessionsInv s ts) :
    Inside s ts ts (s.openContainersShell container) := by
  have hchosen : Reduces s
      ((s.select .shell container.id).renderContainersShellList s.cacheIDs) :=
    (reduces_select .shell container.id s).trans (reduces_renderSessionList .shell _ _)
  have hlogs : ((s.select .shell container.id).renderContainersShellList s.cacheIDs).selectedID
      .logs = s.selectedID .logs :=
    selectedID_renderSessionList_of_ne (by decide) _ _
  -- the selection changes, but no shell is left
  have hcloses {t : SessionPage} (hred : Reduces s t) (hnone : t.asked .shell = none)
      (hsame : t.selectedID .logs = s.selectedID .logs) : Closes s t := by
    refine ⟨hred, fun kind hsome => ?_⟩
    cases kind with
    | shell => exact absurd hnone hsome
    | logs => exact hsame
  have hclosed := hcloses (hchosen.trans (reduces_closeContainersShellSession _)) rfl hlogs
  rw [openContainersShell]
  dsimp only
  split_ifs with hid hrunning hloaded
  · exact (Closes.refl s).inside hinv
  · exact hclosed.inside hinv
  · have hnone : s.asked .shell = none := by
      refine hinv.unloaded ?_
      rw [← hchosen.terminalLoaded]
      rwa [Bool.not_eq_true'] at hloaded
    refine (hcloses hchosen ?_ hlogs).inside hinv
    by_contra hsome
    exact hchosen.asked hsome hnone
  · have hterminal (t : SessionPage) : SameSessions t { t with terminal := some [] } :=
      ⟨rfl, rfl, rfl, rfl, rfl⟩
    exact inside_ask hid ((hclosed.carries hinv).trans ((hterminal _).carries ts) hclosed.page)
      hclosed.page

/-- A note in the log leaves the sessions alone. -/
theorem sameSessions_appendNote (text : String) (s : SessionPage) :
    SameSessions s (s.appendNote text) :=
  ⟨rfl, rfl, (keeps_appendNote text s).socket, rfl, rfl⟩

/-- So does opening the logs. -/
theorem inside_openContainersLogs (container : SessionContainer) (silentClose : Bool)
    (hinv : SessionsInv s ts) : Inside s ts ts (s.openContainersLogs container silentClose) := by
  have hred : Reduces s
      ((((s.select .logs container.id).renderContainersLogsList
        s.cacheIDs).setContainersLogsPaused false).closeContainersLogsSession silentClose) :=
    (((reduces_select .logs container.id s).trans (reduces_renderSessionList .logs _ _)).trans
      (reduces_setContainersLogsPaused false _)).trans (reduces_closeContainersLogsSession _ _)
  have hclosed : Closes s
      ((((s.select .logs container.id).renderContainersLogsList
        s.cacheIDs).setContainersLogsPaused false).closeContainersLogsSession silentClose) := by
    refine ⟨hred, fun kind hsome => ?_⟩
    cases kind with
    | logs => exact absurd rfl hsome
    | shell =>
        have hafter := (closes_setContainersLogsPaused false _).trans
          (closes_closeContainersLogsSession silentClose
            (((s.select .logs container.id).renderContainersLogsList
              s.cacheIDs).setContainersLogsPaused false))
        exact (hafter.selectedID .shell hsome).trans
          (selectedID_renderSessionList_of_ne (by decide) _ _)
  rw [openContainersLogs]
  split_ifs with hid
  · exact (Closes.refl s).inside hinv
  · exact inside_ask hid ((hclosed.carries hinv).trans
      ((sameSessions_appendNote _ _).carries ts) hclosed.page) hclosed.page

/-- So does showing the times, which opens the logs again. -/
theorem inside_toggleTimestamps (name : String) (hinv : SessionsInv s ts) :
    Inside s ts ts (s.toggleTimestamps name) := by
  have htoggled : Closes s { s with logs := { s.logs with timestamps := !s.logs.timestamps } } :=
    ⟨reduces_of_eq rfl rfl rfl rfl rfl (funext fun kind => by cases kind <;> rfl) rfl rfl rfl
      (.inr rfl), fun _ _ => rfl⟩
  have hgoesOn := htoggled.trans (closes_setContainersLogsPaused false _)
  rw [toggleTimestamps]
  split_ifs
  · exact htoggled.inside hinv
  · have hopened := inside_openContainersLogs
      ⟨s.selectedID .logs, name, ""⟩ true (hinv.reduce hgoesOn.toReduces)
    exact ⟨hopened.page.trans hgoesOn.page, hopened.requests,
      (hgoesOn.carries hinv).trans hopened.carries hgoesOn.page⟩

/-- A socket that was there before one was added. -/
theorem SessionsInv.getElem?_of_append (hinv : SessionsInv s ts) {i : ℕ} {y : SessionSocket}
    (hsocket : s.socket kind = some i) (hx : (s.sockets ++ [y])[i]? = some x) :
    s.sockets[i]? = some x := by
  obtain ⟨z, hz, -⟩ := hinv.attached hsocket
  exact hz.trans ((Slots.append_of_some hz).symm.trans hx)

/-- A ticket has come, and its socket is created. -/
theorem inside_socketCreated {ticket : SessionTicket} {front back : List SessionTicket}
    (hinv : SessionsInv s (front ++ ticket :: back)) :
    Inside s (front ++ ticket :: back) (front ++ back) (s.socketCreated ticket, []) := by
  have hsub := ((List.sublist_cons_self ticket back).append_left front).subset
  have hwaiting {t : SessionPage} {kind : SessionKind} {other : SessionTicket}
      (hattempt : t.attempt = s.attempt) (hpending : other ∈ t.pending kind (front ++ back)) :
      other ∈ s.pending kind (front ++ ticket :: back) := by
    obtain ⟨hmem, hlive⟩ := List.mem_filter.mp hpending
    rw [hattempt] at hlive
    exact List.mem_filter.mpr ⟨hsub hmem, hlive⟩
  rw [socketCreated]
  split_ifs with haccepts
  · have hfields : ((s.addSocket ticket.socket .connecting).attach ticket.kind
        s.sockets.length).page = s.page ∧
        ((s.addSocket ticket.socket .connecting).attach ticket.kind
          s.sockets.length).attempt = s.attempt ∧
        ((s.addSocket ticket.socket .connecting).attach ticket.kind
          s.sockets.length).selectedID = s.selectedID ∧
        ((s.addSocket ticket.socket .connecting).attach ticket.kind
          s.sockets.length).sockets = s.sockets ++ [ticket.socket] := by
      cases ticket.kind <;> exact ⟨rfl, rfl, rfl, rfl⟩
    obtain ⟨hpage, hattempt, hselected, hsockets⟩ := hfields
    refine ⟨hpage, fun _ => List.not_mem_nil, fun kind x hx => .inl ⟨?_, congrFun hselected kind⟩⟩
    rw [ticketsOf, List.filterMap_nil, List.append_nil] at hx
    cases hx with
    | opening hpending hid =>
        exact .opening (hwaiting hattempt hpending) ((congrFun hselected kind).symm.trans hid)
    | @attached i x hsocket hx =>
        rw [hsockets] at hx
        rcases eq_or_ne kind ticket.kind with rfl | hne
        · obtain rfl := Option.some.inj ((socket_attach_self ..).symm.trans hsocket)
          obtain rfl := Option.some.inj ((Slots.append_self ..).symm.trans hx)
          refine .opening (List.mem_filter.mpr ⟨?_, ?_⟩) haccepts.2.1
          · exact List.mem_append_right _ List.mem_cons_self
          · exact decide_eq_true ⟨rfl, haccepts.1.symm⟩
        · have hold : s.socket kind = some i :=
            (socket_attach_of_ne hne _ (s.addSocket ticket.socket .connecting)).symm.trans hsocket
          exact .attached hold (hinv.getElem?_of_append hold hx)
  · refine ⟨rfl, fun _ => List.not_mem_nil, fun kind x hx => .inl ⟨?_, rfl⟩⟩
    rw [ticketsOf, List.filterMap_nil, List.append_nil] at hx
    cases hx with
    | opening hpending hid => exact .opening (hwaiting rfl hpending) hid
    | attached hsocket hx => exact .attached hsocket (hinv.getElem?_of_append hsocket hx)

/-! ### Sockets -/

section

variable {numberText : String → String} {normalizeLogLineTimestamp : List Char → String}

/-- A message leaves the sessions alone. -/
theorem sameSessions_onMessage (kind : SessionKind) (ws : ℕ) (data : SocketData)
    (s : SessionPage) :
    SameSessions s (s.onMessage numberText normalizeLogLineTimestamp kind ws data) := by
  cases kind with
  | shell =>
      rw [onMessage, onShellMessage]
      by_cases hws : s.shellSocket = some ws
      · rw [if_neg (not_not_intro hws)]
        cases data with
        | text text =>
            dsimp only
            split
            · exact ⟨rfl, rfl, rfl, rfl, rfl⟩
            · split_ifs <;> exact ⟨rfl, rfl, rfl, rfl, rfl⟩
        | binary bytes =>
            dsimp only
            split_ifs <;> exact ⟨rfl, rfl, rfl, rfl, rfl⟩
      · rw [if_pos hws]
        exact ⟨rfl, rfl, rfl, rfl, rfl⟩
  | logs =>
      cases data with
      | binary bytes => exact ⟨rfl, rfl, rfl, rfl, rfl⟩
      | text text =>
          refine ⟨rfl, rfl, funext fun kind => ?_, rfl, rfl⟩
          cases kind with
          | shell => rfl
          | logs => exact socket_onLogsMessage numberText normalizeLogLineTimestamp ws text s.logs

/-- So does the end of the logs. -/
theorem sameSessions_onLogsClose (ws : ℕ) (s : SessionPage) :
    SameSessions s (s.onLogsClose ws) := by
  rw [onLogsClose]
  split_ifs
  · exact ⟨rfl, rfl, rfl, rfl, rfl⟩
  · exact ⟨rfl, rfl, rfl, rfl, rfl⟩
  · exact sameSessions_appendNote _ s

/-- So does an error of the logs. -/
theorem sameSessions_onLogsError (ws : ℕ) (s : SessionPage) :
    SameSessions s (s.onLogsError ws) := by
  rw [onLogsError]
  split_ifs
  · exact ⟨rfl, rfl, rfl, rfl, rfl⟩
  · exact sameSessions_appendNote _ s

/-- So does what is typed. -/
theorem sameSessions_onData (data : String) (s : SessionPage) : SameSessions s (s.onData data) := by
  rw [onData]
  split
  · split_ifs <;> exact ⟨rfl, rfl, rfl, rfl, rfl⟩
  · exact ⟨rfl, rfl, rfl, rfl, rfl⟩

/-- **What the events of the sessions do.** -/
theorem inside_handle {e : SessionPageEvent} (hinv : SessionsInv s ts)
    (hother : ∀ e', e ≠ .page e') (h : s.handle numberText normalizeLogLineTimestamp e = some r) :
    Inside s ts ts r := by
  have hsame {t : SessionPage} (heq : some (t, []) = some r) (ht : SameSessions s t) :
      Inside s ts ts r := Option.some.inj heq ▸ ht.inside ts
  have hcloses {t : SessionPage} (heq : some (t, []) = some r) (ht : Closes s t) :
      Inside s ts ts r := Option.some.inj heq ▸ ht.inside hinv
  cases e with
  | page e => exact absurd rfl (hother e)
  | openShell container =>
      obtain ⟨-, heq⟩ := Option.ite_none_right_eq_some.mp h
      exact Option.some.inj heq ▸ inside_openContainersShell container hinv
  | openLogs container =>
      obtain ⟨-, heq⟩ := Option.ite_none_right_eq_some.mp h
      exact Option.some.inj heq ▸ inside_openContainersLogs container false hinv
  | type data =>
      obtain ⟨-, heq⟩ := Option.ite_none_right_eq_some.mp h
      exact hsame heq (sameSessions_onData data s)
  | opened i =>
      obtain ⟨-, heq⟩ := Option.ite_none_right_eq_some.mp h
      exact hsame heq ⟨rfl, rfl, rfl, rfl, rfl⟩
  | message i data =>
      obtain ⟨y, -, rfl⟩ := Option.map_eq_some_iff.mp h
      exact hsame rfl (sameSessions_onMessage y.kind i data s)
  | closed i =>
      obtain ⟨y, -, rfl⟩ := Option.map_eq_some_iff.mp h
      have hclose := sameSessions_onLogsClose i (s.setReadyState i .closed)
      refine hsame rfl ?_
      split_ifs
      · exact ⟨hclose.page, hclose.attempt, hclose.socket, hclose.sockets, hclose.selectedID⟩
      · exact ⟨rfl, rfl, rfl, rfl, rfl⟩
  | error i =>
      obtain ⟨y, -, rfl⟩ := Option.map_eq_some_iff.mp h
      refine hsame rfl ?_
      split_ifs
      · exact sameSessions_onLogsError i s
      · exact ⟨rfl, rfl, rfl, rfl, rfl⟩
  | pinLock => exact hcloses h (closes_pinGuardLock s)
  | clearLogs =>
      exact hsame h ⟨rfl, rfl, funext fun kind => by cases kind <;> rfl, rfl, rfl⟩
  | pauseLogs => exact hcloses h (closes_setContainersLogsPaused _ s)
  | toggleTimestamps name =>
      obtain ⟨-, heq⟩ := Option.ite_none_right_eq_some.mp h
      exact Option.some.inj heq ▸ inside_toggleTimestamps name hinv

end

/-- **What the answer to a ticket does.** -/
theorem inside_resume {ticket : SessionTicket} {answer : SessionAnswer}
    {front back : List SessionTicket} (hinv : SessionsInv s (front ++ ticket :: back))
    (h : s.resume (.ticket ticket) answer = some r) :
    Inside s (front ++ ticket :: back) (front ++ back) r := by
  cases answer with
  | page a => cases h
  | socket => exact Option.some.inj h ▸ inside_socketCreated hinv
  | failed locks =>
      have hfailed := (closes_ticketFailed ticket locks s).inside hinv.drop
      refine Option.some.inj h ▸ ⟨hfailed.page, hfailed.requests, fun kind x hx => ?_⟩
      refine (hfailed.carries kind x hx).imp (fun ⟨hopen, hsame⟩ => ⟨?_, hsame⟩) id
      exact hopen.of_eq rfl rfl rfl rfl
        fun _ hother => ((List.sublist_cons_self ticket back).append_left front).subset hother

end SessionPage

open EventLoop SessionPage

/-! ### The workspace -/

/-- The requests of the workspace among what the page waits for. -/
def pagesOf (waiting : List SessionWait) : List WorkspaceWait :=
  waiting.filterMap fun k =>
    match k with
    | .page k => some k
    | .ticket _ => none

/-- The page without its sessions. -/
def workspaceOf (q : SessionConfig) : WorkspaceConfig := ⟨q.state.page, pagesOf q.waiting⟩

/-- The requests of the workspace in two lists, one after the other. -/
theorem pagesOf_append (front back : List SessionWait) :
    pagesOf (front ++ back) = pagesOf front ++ pagesOf back := List.filterMap_append ..

/-- A request of the workspace is one that the page waits for. -/
theorem mem_pagesOf {k : WorkspaceWait} {waiting : List SessionWait} :
    k ∈ pagesOf waiting ↔ .page k ∈ waiting := by
  rw [pagesOf, List.mem_filterMap]
  constructor
  · rintro ⟨k', hmem, hk⟩
    cases k' with
    | page k' => exact Option.some.inj hk ▸ hmem
    | ticket t => cases hk
  · exact fun hmem => ⟨.page k, hmem, rfl⟩

/-- All of the requests of the workspace are its requests. -/
theorem pagesOf_map_page (new : List WorkspaceWait) : pagesOf (new.map .page) = new := by
  rw [pagesOf, List.filterMap_map]
  exact List.filterMap_some

/-- Without a request of the workspace there are none. -/
theorem pagesOf_eq_nil {new : List SessionWait} (h : ∀ k, .page k ∉ new) : pagesOf new = [] :=
  List.eq_nil_iff_forall_not_mem.mpr fun k hk => h k (mem_pagesOf.mp hk)

variable {numberText : String → String} {normalizeLogLineTimestamp : List Char → String}
  {terminalLoaded : Bool} {p q : SessionConfig} {l : SessionLabel}

/-- The steps of the workspace. -/
def ofWorkspace : SessionLabel → Bool
  | .event (.page _) | .answer (.page _) _ => true
  | _ => false

/-- **What a step does.** The workspace handles an event, or resumes with an answer, and the
sessions follow; or the sessions do something, and leave the workspace. -/
theorem step_cases (hinv : p.state.SessionsInv (ticketsOf p.waiting))
    (h : (sessionLoop numberText normalizeLogLineTimestamp).Step p l q) :
    (∃ e r, l = .event (.page e) ∧ p.state.page.handle e = some r ∧
        q = ⟨{ p.state.follow e with page := r.1 }, p.waiting ++ r.2.map .page⟩) ∨
      (∃ front k back a r, l = .answer (.page k) (.page a) ∧
        p.waiting = front ++ .page k :: back ∧ p.state.page.resume k a = some r ∧
        q = ⟨{ p.state.followAnswer k a with page := r.1 },
          front ++ back ++ r.2.map .page⟩) ∨
      (ofWorkspace l = false ∧ workspaceOf q = workspaceOf p ∧
        Carries p.state (ticketsOf p.waiting) q.state (ticketsOf q.waiting)) := by
  cases h with
  | @event s t e waiting new hstep =>
      by_cases hpage : ∃ e', e = .page e'
      · obtain ⟨e', rfl⟩ := hpage
        obtain ⟨r, hevent, heq⟩ := Option.map_eq_some_iff.mp hstep
        obtain ⟨rfl, rfl⟩ := Prod.mk.inj heq
        exact .inl ⟨e', r, rfl, hevent, rfl⟩
      · have hinside := inside_handle hinv (not_exists.mp hpage) hstep
        refine .inr (.inr ⟨?_, ?_, ?_⟩)
        · cases e with
          | page e' => exact absurd ⟨e', rfl⟩ hpage
          | _ => rfl
        · rw [workspaceOf, workspaceOf, pagesOf_append, pagesOf_eq_nil hinside.requests,
            List.append_nil]
          exact congrArg (EventLoop.Config.mk · _) hinside.page
        · rw [ticketsOf_append]
          exact hinside.carries
  | @answer s t k answer front back new hstep =>
      cases k with
      | page k =>
          cases answer with
          | page a =>
              obtain ⟨r, hanswer, heq⟩ := Option.map_eq_some_iff.mp hstep
              obtain ⟨rfl, rfl⟩ := Prod.mk.inj heq
              exact .inr (.inl ⟨front, k, back, a, r, rfl, rfl, hanswer, rfl⟩)
          | _ => cases hstep
      | ticket ticket =>
          simp only [ticketsOf_append] at hinv
          have hinside := inside_resume hinv hstep
          refine .inr (.inr ⟨rfl, ?_, ?_⟩)
          · rw [workspaceOf, workspaceOf, pagesOf_append, pagesOf_append, pagesOf_append,
              pagesOf_eq_nil hinside.requests, List.append_nil]
            exact congrArg (EventLoop.Config.mk · _) hinside.page
          · simp only [ticketsOf_append]
            exact hinside.carries

/-- **A step is one of the workspace, or leaves it.** -/
theorem step_workspace (hinv : p.state.SessionsInv (ticketsOf p.waiting))
    (h : (sessionLoop numberText normalizeLogLineTimestamp).Step p l q) :
    (∃ l', workspaceLoop.Step (workspaceOf p) l' (workspaceOf q)) ∨
      workspaceOf q = workspaceOf p := by
  rcases step_cases hinv h with ⟨e, r, -, hevent, rfl⟩ |
    ⟨front, k, back, a, r, -, hwaiting, hanswer, rfl⟩ | ⟨-, hsame, -⟩
  · refine .inl ⟨.event e, ?_⟩
    rw [workspaceOf, workspaceOf, pagesOf_append, pagesOf_map_page]
    exact .event hevent
  · refine .inl ⟨.answer k a, ?_⟩
    rw [workspaceOf, workspaceOf, hwaiting, pagesOf_append, pagesOf_append, pagesOf_append,
      pagesOf_map_page]
    exact .answer hanswer
  · exact .inr hsame

/-- **The page without its sessions is the workspace**, after any events and answers. -/
theorem run_workspace {es : List SessionLabel}
    (h : Run (sessionLoop numberText normalizeLogLineTimestamp).Step
      ⟨freshSessions terminalLoaded, []⟩ es q) :
    ∃ es', Run workspaceLoop.Step ⟨freshWorkspace, []⟩ es' (workspaceOf q) := by
  induction h with
  | nil => exact ⟨[], .nil⟩
  | snoc hrun hstep ih =>
      obtain ⟨es', hworkspace⟩ := ih
      rcases step_workspace (run_sessionsInv hrun) hstep with ⟨l', hstep'⟩ | hsame
      · exact ⟨_, hworkspace.snoc hstep'⟩
      · exact ⟨es', hsame ▸ hworkspace⟩

/-- The requests for lists that wait are for a server. -/
def Asked (q : WorkspaceConfig) : Prop :=
  ∀ kind scope after, .list kind scope after ∈ q.waiting → scope ≠ ""

/-- The requests for lists that wait stay requests for a server. -/
theorem Asked.step {p q : WorkspaceConfig} {l : WorkspaceLabel} (hp : Asked p)
    (h : workspaceLoop.Step p l q) : Asked q := by
  intro kind scope after hmem
  cases h with
  | event hstep =>
      exact (List.mem_append.mp hmem).elim (hp kind scope after)
        (Workspace.asksServer_handle hstep kind scope after)
  | @answer _ _ k _ front back _ hstep =>
      rcases List.mem_append.mp hmem with hold | hnew
      · exact hp kind scope after
          (((List.sublist_cons_self k back).append_left front).subset hold)
      · exact Workspace.asksServer_resume hstep kind scope after hnew

/-! ### Sessions on the selected server -/

/-- A session of a kind is open, or is being opened. -/
def Opens (q : SessionConfig) (kind : SessionKind) (x : SessionSocket) : Prop :=
  q.state.OpenTo (ticketsOf q.waiting) kind x

/-- A session is for the selected server, or that server has its container, too. -/
def Belongs (w : Workspace) (x : SessionSocket) : Prop :=
  x.scope = w.containersSelectedScope ∨ w.Lists x.containerID

/-- While the containers are not being loaded, every session that is open belongs to the selected
server. -/
def InServer (q : SessionConfig) : Prop :=
  (∀ scope after, .page (.list .containers scope after) ∉ q.waiting) →
    ∀ kind x, Opens q kind x → Belongs q.state.page x

/-- Every session that is open is for a server. -/
def OnlyAt (q : SessionConfig) (scope : String) : Prop := ∀ kind x, Opens q kind x → x.scope = scope

/-- While a session is open for another server than the selected one, the list that comes has
containers, so that it is rendered; and the last server is not taken away from a session. -/
def Renders (p : SessionConfig) : SessionLabel → Prop
  | .event (.page (.selectServer scope)) =>
      scope = "" → p.state.page.inFlight .containers = false → OnlyAt p ""
  | .event (.page (.serverList scopes)) =>
      p.state.page.nextScope scopes = "" → p.state.page.inFlight .containers = false → OnlyAt p ""
  | .answer (.page (.list .containers scope _)) (.page (.list answer)) =>
      if p.state.page.containersSelectedScope = scope then
        answer.hasContainers = true ∨ OnlyAt p scope
      else p.state.page.containersSelectedScope = "" → OnlyAt p ""
  | _ => True

/-- The sessions are in order and know their containers, and so is the workspace. -/
structure ServersInv (q : SessionConfig) : Prop where
  sessions : q.state.SessionsInv (ticketsOf q.waiting)
  tracked : Tracked (workspaceOf q)
  asked : Asked (workspaceOf q)
  selected : ∀ kind x, Opens q kind x →
    x.containerID ≠ "" ∧ q.state.selectedID kind = x.containerID

/-- Every session that is open belongs to the selected server, or the containers of that are being
loaded. -/
def Placed (q : SessionConfig) : Prop :=
  ∀ kind x, Opens q kind x →
    q.state.page.inFlight .containers = true ∨ Belongs q.state.page x

/-- Where the invariant holds, the sessions are in the server exactly if they are placed. -/
theorem ServersInv.inServer_iff (hinv : ServersInv q) : InServer q ↔ Placed q := by
  have hflight : (∀ scope after, .page (.list .containers scope after) ∉ q.waiting) ↔
      ¬ q.state.page.inFlight .containers = true := by
    have htracked : listRequests .containers (pagesOf q.waiting) =
        (q.state.page.inFlight .containers).toNat := hinv.tracked .containers
    simp only [← mem_pagesOf]
    rw [← listRequests_eq_zero_iff, htracked]
    cases q.state.page.inFlight .containers <;> decide
  rw [InServer, Placed, hflight]
  constructor
  · intro h kind x hx
    exact or_iff_not_imp_left.mpr fun hidle => h hidle kind x hx
  · intro h hidle kind x hx
    exact (h kind x hx).resolve_left hidle

/-- A session that is open is on screen. -/
theorem ServersInv.shown (hinv : ServersInv q) {kind : SessionKind} {x : SessionSocket}
    (hx : Opens q kind x) : q.state.Shows kind :=
  hinv.sessions.shown kind (hx.asked hinv.sessions)

/-- The sessions after a step of the workspace. -/
theorem opens_page {page : Workspace} {new : List WorkspaceWait} {t : SessionPage}
    {waiting : List SessionWait} {kind : SessionKind} {x : SessionSocket} :
    Opens ⟨{ t with page := page }, waiting ++ new.map .page⟩ kind x ↔
      t.OpenTo (ticketsOf waiting) kind x := by
  rw [Opens, ticketsOf_append, ticketsOf_page, List.append_nil]
  constructor
  · intro h
    exact h.of_eq rfl (by cases kind <;> rfl) rfl rfl fun _ => id
  · intro h
    exact h.of_eq rfl (by cases kind <;> rfl) rfl rfl fun _ => id

/-- **What an event of the workspace leaves open.** -/
theorem ServersInv.opens_event {s : SessionPage} {waiting : List SessionWait} {e : WorkspaceEvent}
    {r : Workspace.Effect} (hinv : ServersInv ⟨s, waiting⟩) (hevent : s.page.handle e = some r)
    {kind : SessionKind} {x : SessionSocket}
    (hx : Opens ⟨{ s.follow e with page := r.1 }, waiting ++ r.2.map .page⟩ kind x) :
    Opens ⟨s, waiting⟩ kind x ∧ (s.follow e).selectedID kind = s.selectedID kind := by
  have hafter := opens_page.mp hx
  by_cases henter : ∃ mode, e = .enter mode
  · -- no session is open while the workspace is not on screen
    obtain ⟨mode, rfl⟩ := henter
    have hred := reduces_follow (.enter mode) s
    have hshown := hinv.sessions.shown kind
      (hred.asked (hafter.asked (hinv.sessions.reduce hred)))
    obtain ⟨hscreen, -⟩ := Option.ite_none_left_eq_some.mp hevent
    exact absurd hshown.1 hscreen
  · exact (closes_follow (not_exists.mp henter) s).opens hinv.sessions hafter

section

variable {s : SessionPage} {front back : List SessionWait} {k : WorkspaceWait}
  {a : WorkspaceAnswer} {r : Workspace.Effect} {kind : SessionKind} {x : SessionSocket}

/-- An answer to the workspace takes no ticket. -/
theorem ticketsOf_answered (k : WorkspaceWait) (front back : List SessionWait) :
    ticketsOf (front ++ .page k :: back) = ticketsOf (front ++ back) := by
  rw [ticketsOf_append, ticketsOf_append]
  rfl

/-- **What an answer to the workspace leaves open.** -/
theorem ServersInv.opens_answer (hinv : ServersInv ⟨s, front ++ .page k :: back⟩)
    (hx : Opens ⟨{ s.followAnswer k a with page := r.1 }, front ++ back ++ r.2.map .page⟩ kind x) :
    Opens ⟨s, front ++ .page k :: back⟩ kind x ∧
      (s.followAnswer k a).selectedID kind = s.selectedID kind := by
  have hsessions := hinv.sessions
  rw [Opens, ticketsOf_answered]
  rw [ticketsOf_answered] at hsessions
  exact (closes_followAnswer k a s).opens hsessions (opens_page.mp hx)

/-- Such a session has not been closed by the answer. -/
theorem ServersInv.asked_followAnswer (hinv : ServersInv ⟨s, front ++ .page k :: back⟩)
    (hx : Opens ⟨{ s.followAnswer k a with page := r.1 }, front ++ back ++ r.2.map .page⟩ kind x) :
    (s.followAnswer k a).asked kind ≠ none := by
  have hsessions := hinv.sessions
  rw [ticketsOf_answered] at hsessions
  exact (opens_page.mp hx).asked (hsessions.reduce (reduces_followAnswer k a s))

end

/-- **Where a step leads.** -/
theorem ServersInv.carries (hinv : ServersInv p)
    (h : (sessionLoop numberText normalizeLogLineTimestamp).Step p l q) :
    Carries p.state (ticketsOf p.waiting) q.state (ticketsOf q.waiting) := by
  obtain ⟨s, waiting⟩ := p
  rcases step_cases hinv.sessions h with ⟨e, r, -, hevent, rfl⟩ |
    ⟨front, k, back, a, r, -, hwaiting, -, rfl⟩ | ⟨-, -, hcarries⟩
  · exact fun kind x hx => .inl (hinv.opens_event hevent hx)
  · obtain rfl : waiting = _ := hwaiting
    exact fun kind x hx => .inl (hinv.opens_answer hx)
  · exact hcarries

/-- **The invariant is kept by every step.** -/
theorem ServersInv.step (hinv : ServersInv p)
    (h : (sessionLoop numberText normalizeLogLineTimestamp).Step p l q) : ServersInv q where
  sessions := sessionsInv_step hinv.sessions h
  tracked := by
    rcases step_workspace hinv.sessions h with ⟨l', hstep⟩ | hsame
    · exact hinv.tracked.step hstep
    · exact hsame ▸ hinv.tracked
  asked := by
    rcases step_workspace hinv.sessions h with ⟨l', hstep⟩ | hsame
    · exact hinv.asked.step hstep
    · exact hsame ▸ hinv.asked
  selected kind x hx := by
    rcases hinv.carries h kind x hx with ⟨hold, hsame⟩ | ⟨-, hid, hselected⟩
    · obtain ⟨hid, hselected⟩ := hinv.selected kind x hold
      exact ⟨hid, hsame.trans hselected⟩
    · exact ⟨hid, hselected⟩

/-! ### Steps -/

/-- The sessions leave the workspace. -/
theorem Placed.inside (hplaced : Placed p) (hpage : q.state.page = p.state.page)
    (hcarries : Carries p.state (ticketsOf p.waiting) q.state (ticketsOf q.waiting)) :
    Placed q := by
  intro kind x hx
  rw [hpage]
  rcases hcarries kind x hx with ⟨hold, -⟩ | ⟨hscope, -⟩
  · exact hplaced kind x hold
  · exact .inr (.inl hscope)

/-- The workspace leaves the server and its containers, or loads them. -/
theorem Placed.loads (hplaced : Placed p) (hopens : ∀ kind x, Opens q kind x → Opens p kind x)
    (hloads : p.state.page.LoadsRows q.state.page) : Placed q := by
  intro kind x hx
  have hold := hplaced kind x (hopens kind x hx)
  rcases hloads with hkeeps | hflight | ⟨hnone, hidle, hscope⟩
  · rw [hkeeps.inFlight]
    refine hold.imp id (Or.imp (fun hsame => ?_) hkeeps.lists)
    rw [hsame, hkeeps.scope]
  · exact .inl hflight
  · rcases hold with hflight | hsame | hlists
    · exact absurd (hflight.symm.trans hidle) (by decide)
    · exact .inr (.inl (by rw [hsame, hnone, hscope]))
    · exact absurd hnone hlists.1

/-- A server is selected, and its list is loaded. -/
theorem placed_select_iff {w : Workspace} (hopens : ∀ kind x, Opens q kind x ↔ Opens p kind x)
    (hmode : ∀ kind x, Opens p kind x → w.containersViewMode.kind = .containers)
    (hpage : ∀ kind x, Opens p kind x → q.state.page = (w.refreshSelectedServerView).1)
    (hflight : w.inFlight .containers = p.state.page.inFlight .containers) :
    Placed q ↔ (w.containersSelectedScope = "" →
      p.state.page.inFlight .containers = false → OnlyAt p "") := by
  constructor
  · intro hplaced hnone hidle kind x hx
    rcases Workspace.refreshSelectedServerView_cases (hmode kind x hx) with
      ⟨hsome, -⟩ | ⟨-, hscope, hsame⟩
    · exact absurd hnone hsome
    · rcases hplaced kind x ((hopens kind x).mpr hx) with hloading | hscope' | hlists
      · rw [hpage kind x hx, hsame, hflight, hidle] at hloading
        exact absurd hloading Bool.false_ne_true
      · rwa [hpage kind x hx, hscope] at hscope'
      · rw [hpage kind x hx] at hlists
        exact absurd hscope hlists.1
  · intro hrenders kind x hx
    have hold := (hopens kind x).mp hx
    rw [hpage kind x hold]
    rcases Workspace.refreshSelectedServerView_cases (hmode kind x hold) with
      ⟨-, hloading⟩ | ⟨hnone, hscope, hsame⟩
    · exact .inl hloading
    · rw [hsame, hflight]
      cases hidle : p.state.page.inFlight .containers with
      | true => exact .inl rfl
      | false => exact .inr (.inl ((hrenders hnone hidle kind x hold).trans hscope.symm))

/-- The views of the sessions show the list of containers. -/
theorem kind_mode (kind : SessionKind) : kind.mode.kind = .containers := by
  cases kind <;> rfl

/-- **An event of the workspace** keeps the sessions in their place just if it does not take the
last server away from one. -/
theorem placed_event_iff {s : SessionPage} {waiting : List SessionWait} {e : WorkspaceEvent}
    {r : Workspace.Effect} (hinv : ServersInv ⟨s, waiting⟩) (hplaced : Placed ⟨s, waiting⟩)
    (hevent : s.page.handle e = some r) :
    Placed ⟨{ s.follow e with page := r.1 }, waiting ++ r.2.map .page⟩ ↔
      Renders ⟨s, waiting⟩ (.event (.page e)) := by
  have hmode (kind : SessionKind) (x : SessionSocket) (hx : Opens ⟨s, waiting⟩ kind x) :
      s.page.containersViewMode.kind = .containers := by
    rw [(hinv.shown hx).2]
    exact kind_mode kind
  have hloads (hselect : ∀ scope, e ≠ .selectServer scope)
      (hlist : ∀ scopes, e ≠ .serverList scopes) :
      Placed ⟨{ s.follow e with page := r.1 }, waiting ++ r.2.map .page⟩ := by
    by_cases henter : ∃ mode, e = .enter mode
    · intro kind x hx
      obtain ⟨mode, rfl⟩ := henter
      obtain ⟨hscreen, -⟩ := Option.ite_none_left_eq_some.mp hevent
      exact absurd (hinv.shown (hinv.opens_event hevent hx).1).1 hscreen
    · exact hplaced.loads (fun kind x hx => (hinv.opens_event hevent hx).1)
        (Workspace.loadsRows_handle hevent hselect hlist (not_exists.mp henter))
  cases e with
  | selectServer scope =>
      obtain ⟨-, heq⟩ := Option.ite_none_right_eq_some.mp hevent
      obtain rfl := Option.some.inj heq
      by_cases hsame : s.page.containersSelectedScope = scope
      · refine placed_select_iff (w := { s.page with containersSelectedScope := scope })
          (fun kind x => opens_page) hmode (fun kind x hx => ?_) rfl
        exact congrArg (fun w => (Workspace.refreshSelectedServerView w).1) (if_pos hsame)
      · refine placed_select_iff (w := Workspace.clearContainersViewForServerSwitch
          { s.page with containersSelectedScope := scope })
          (fun kind x => opens_page) hmode (fun kind x hx => ?_) rfl
        exact congrArg (fun w => (Workspace.refreshSelectedServerView w).1) (if_neg hsame)
  | serverList scopes =>
      obtain rfl := Option.some.inj hevent
      refine placed_select_iff (w := { s.page with
        containersSelectedScope := s.page.nextScope scopes })
        (fun kind x => opens_page) hmode (fun kind x hx => ?_) rfl
      exact congrArg Prod.fst (if_pos (hinv.shown hx).1)
  | _ => exact iff_of_true (hloads nofun nofun) trivial

/-- A list is rendered for the session that is on screen. -/
theorem renderLists_shown {s : SessionPage} {kind : SessionKind}
    (h : s.page.containersViewMode = kind.mode) (ids : List String) :
    s.renderLists ids = renderSessionList kind ids s := by
  rw [renderLists, h]
  cases kind <;> rfl

/-- A list without containers closes nothing. -/
theorem renderLists_none {ids : List String} (h : ids.filter (· ≠ "") = []) (s : SessionPage) :
    s.renderLists ids = s := by
  rw [renderLists]
  split
  · exact if_pos (.inl h)
  · exact if_pos (.inl h)
  · rfl

/-- An answer has containers exactly if one of its rows has an identifier. -/
theorem hasContainers_rows {ids : List String} :
    (ListAnswer.rows ids).hasContainers = true ↔ ids.filter (· ≠ "") ≠ [] := by
  simp [ListAnswer.hasContainers, List.filter_eq_nil_iff]

/-- An answer without containers closes nothing. -/
theorem followAnswer_none {scope : String} {after : AfterRefresh} {a : ListAnswer}
    (h : a.hasContainers ≠ true) (s : SessionPage) :
    s.followAnswer (.list .containers scope after) (.list a) = s := by
  cases a with
  | rows ids =>
      change (if _ then _ else _) = s
      rw [renderLists_none (not_not.mp fun hne => h (hasContainers_rows.mpr hne)), ite_self]
  | _ => rfl

section

variable {s : SessionPage} {front back : List SessionWait} {scope : String} {after : AfterRefresh}
  {a : ListAnswer}

/-- The sessions that no answer has closed. -/
theorem opens_unchanged {k : WorkspaceWait} {page : Workspace} {new : List WorkspaceWait}
    {t : SessionPage} (hsame : t = s) {kind : SessionKind} {x : SessionSocket} :
    Opens ⟨{ t with page := page }, front ++ back ++ new.map .page⟩ kind x ↔
      Opens ⟨s, front ++ .page k :: back⟩ kind x := by
  rw [opens_page, hsame, Opens, ticketsOf_answered]

/-- **The containers of the selected server come.** -/
theorem placed_selected_iff
    (hinv : ServersInv ⟨s, front ++ .page (.list .containers scope after) :: back⟩)
    (hscope : s.page.containersSelectedScope = scope) (hnot : a ≠ .aborted) :
    Placed ⟨{ s.followAnswer (.list .containers scope after) (.list a) with
        page := (s.page.finishRefresh .containers scope after a).1 },
        front ++ back ++ (s.page.finishRefresh .containers scope after a).2.map .page⟩ ↔
      a.hasContainers = true ∨
        OnlyAt ⟨s, front ++ .page (.list .containers scope after) :: back⟩ scope := by
  have hkeeps := Workspace.keepsRows_afterRefresh after
    ((s.page.showAnswer .containers scope a).endRefresh .containers)
  rw [← Workspace.finishRefresh_selected after a hscope] at hkeeps
  have hsame : (s.page.finishRefresh .containers scope after a).1.containersSelectedScope = scope :=
    hkeeps.scope.trans hscope
  have hidle : (s.page.finishRefresh .containers scope after a).1.inFlight .containers = false :=
    hkeeps.inFlight.trans (Workspace.endRefresh_inFlight_self ..)
  have hcontents : ((s.page.finishRefresh .containers scope after a).1.listing
      .containers).contents =
      (Listing.answered .containers scope a (s.page.listing .containers)).contents :=
    hkeeps.contents.trans
      (congrArg Listing.contents (Workspace.setListing_listing_self .containers _ s.page))
  constructor
  · intro hplaced
    refine or_iff_not_imp_left.mpr fun hnone kind x hx => ?_
    rcases hplaced kind x ((opens_unchanged (followAnswer_none hnone s)).mpr hx) with
      hloading | hbelongs | ⟨-, ids, hids, hmem⟩
    · exact absurd (hidle.symm.trans hloading) Bool.false_ne_true
    · exact hbelongs.trans hsame
    · -- a list without containers cannot have that of the session
      obtain rfl := Listing.contents_answered hnot (hcontents.symm.trans hids)
      have hempty := List.filter_eq_nil_iff.mp
        (not_not.mp fun hne => hnone (hasContainers_rows.mpr hne)) _ hmem
      simp [(hinv.selected kind x hx).1] at hempty
  · rintro hrenders kind x hx
    refine .inr ?_
    obtain ⟨hold, hselection⟩ := hinv.opens_answer hx
    rcases hrenders with hhas | honly
    · obtain ⟨ids, rfl⟩ : ∃ ids, a = .rows ids := by
        cases a with
        | rows ids => exact ⟨ids, rfl⟩
        | _ => cases hhas
      have hne := hasContainers_rows.mp hhas
      obtain ⟨hid, hselected⟩ := hinv.selected kind x hold
      have hfollow : s.followAnswer (.list .containers scope after) (.list (.rows ids)) =
          renderSessionList kind ids s :=
        (if_pos hscope).trans (renderLists_shown (hinv.shown hold).2 ids)
      have hasked := hinv.asked_followAnswer hx
      rw [hfollow] at hasked
      rcases renderSessionList_cases kind ids s with ⟨-, hnone | hnone | hmem⟩ | hnone
      · exact absurd hnone hne
      · exact absurd (hselected.symm.trans hnone) hid
      · have hids : ids ≠ [] := List.ne_nil_of_mem hmem
        refine .inr ⟨?_, ids, ?_, hselected ▸ hmem⟩
        · rw [hsame]
          exact hinv.asked .containers scope after
            (mem_pagesOf.mpr (List.mem_append_right _ List.mem_cons_self))
        · rw [hsame, hcontents]
          exact Listing.contents_render hids
      · exact absurd hnone hasked
    · exact .inl ((honly kind x hold).trans hsame.symm)

/-- **The containers of a server come that is no longer selected.** -/
theorem placed_other_iff (hscope : s.page.containersSelectedScope ≠ scope) :
    Placed ⟨{ s.followAnswer (.list .containers scope after) (.list a) with
        page := (s.page.finishRefresh .containers scope after a).1 },
        front ++ back ++ (s.page.finishRefresh .containers scope after a).2.map .page⟩ ↔
      (s.page.containersSelectedScope = "" →
        OnlyAt ⟨s, front ++ .page (.list .containers scope after) :: back⟩ "") := by
  have hfollow : s.followAnswer (.list .containers scope after) (.list a) = s := by
    cases a with
    | rows ids => exact if_neg hscope
    | _ => rfl
  have hkeeps := Workspace.keepsRows_afterRefresh after
    (Workspace.refresh .containers .nothing (s.page.endRefresh .containers)).1
  have hpage : (s.page.finishRefresh .containers scope after a).1 =
      (Workspace.afterRefresh after
        (Workspace.refresh .containers .nothing (s.page.endRefresh .containers)).1).1 := by
    rw [Workspace.finishRefresh_other after a hscope]
    rfl
  rw [← hpage] at hkeeps
  by_cases hnone : s.page.containersSelectedScope = ""
  · obtain ⟨hsame, hflight⟩ :=
      Workspace.refresh_noServer (w := s.page.endRefresh .containers) .nothing hnone
    have hidle : (s.page.finishRefresh .containers scope after a).1.inFlight .containers = false :=
      (hkeeps.inFlight.trans hflight).trans (Workspace.endRefresh_inFlight_self ..)
    constructor
    · rintro hplaced - kind x hx
      rcases hplaced kind x ((opens_unchanged hfollow).mpr hx) with hloading | hbelongs | hlists
      · exact absurd (hidle.symm.trans hloading) Bool.false_ne_true
      · exact (hbelongs.trans hkeeps.scope).trans hsame
      · exact absurd (hkeeps.scope.trans hsame) hlists.1
    · intro hrenders kind x hx
      have honly := hrenders hnone kind x ((opens_unchanged hfollow).mp hx)
      exact .inr (.inl (honly.trans (hkeeps.scope.trans hsame).symm))
  · refine iff_of_true (fun _ _ _ => .inl ?_) fun h => absurd h hnone
    exact hkeeps.inFlight.trans (Workspace.inFlight_refresh .nothing hnone)

end

/-- **An answer to the workspace** keeps the sessions in their place just if the containers that
come while one is open for another server are rendered. -/
theorem placed_answer_iff {s : SessionPage} {front back : List SessionWait} {k : WorkspaceWait}
    {answer : WorkspaceAnswer} {r : Workspace.Effect}
    (hinv : ServersInv ⟨s, front ++ .page k :: back⟩)
    (hplaced : Placed ⟨s, front ++ .page k :: back⟩) (hanswer : s.page.resume k answer = some r) :
    Placed ⟨{ s.followAnswer k answer with page := r.1 }, front ++ back ++ r.2.map .page⟩ ↔
      Renders ⟨s, front ++ .page k :: back⟩ (.answer (.page k) (.page answer)) := by
  have hother (hk : k.requests .containers = false) :
      Placed ⟨{ s.followAnswer k answer with page := r.1 }, front ++ back ++ r.2.map .page⟩ :=
    hplaced.loads (fun kind x hx => (hinv.opens_answer hx).1)
      (Workspace.loadsRows_resume hk hanswer)
  cases k with
  | list kind scope after =>
      cases kind with
      | containers =>
          obtain ⟨a, rfl, rfl, habort⟩ := resume_list hanswer
          have hnot : a ≠ .aborted := fun haborted => nomatch habort haborted
          rw [Renders]
          split_ifs with hscope
          · exact placed_selected_iff hinv hscope hnot
          · exact placed_other_iff hscope
      | _ => exact iff_of_true (hother rfl) trivial
  | _ => exact iff_of_true (hother rfl) trivial

/-- The other steps take no list. -/
theorem renders_of_not_workspace (h : ofWorkspace l = false) : Renders p l := by
  cases l with
  | event e =>
      cases e with
      | page e => cases h
      | _ => trivial
  | answer k a =>
      cases k with
      | page k => cases h
      | ticket t => trivial

/-- **What a step does** to the place of the sessions. -/
theorem placed_step_iff (hinv : ServersInv p) (hplaced : Placed p)
    (h : (sessionLoop numberText normalizeLogLineTimestamp).Step p l q) :
    Placed q ↔ Renders p l := by
  obtain ⟨s, waiting⟩ := p
  rcases step_cases hinv.sessions h with ⟨e, r, rfl, hevent, rfl⟩ |
    ⟨front, k, back, a, r, rfl, hwaiting, hanswer, rfl⟩ | ⟨hl, hsame, hcarries⟩
  · exact placed_event_iff hinv hplaced hevent
  · obtain rfl : waiting = _ := hwaiting
    exact placed_answer_iff hinv hplaced hanswer
  · exact iff_of_true (hplaced.inside (congrArg EventLoop.Config.state hsame) hcarries)
      (renders_of_not_workspace hl)

/-- The invariant holds on a fresh page. -/
theorem serversInv_fresh : ServersInv ⟨freshSessions terminalLoaded, []⟩ where
  sessions := sessionsInv_fresh
  tracked := fun _ => rfl
  asked := nofun
  selected _ _ hx := absurd rfl (hx.asked sessionsInv_fresh)

/-- A fresh page has no session to place. -/
theorem placed_fresh : Placed ⟨freshSessions terminalLoaded, []⟩ :=
  fun _ _ hx => absurd rfl (hx.asked sessionsInv_fresh)

/-- **Sessions and the selected server.** The sessions are attached, after any events and answers,
in any order. And the runs in which every session that is open belongs to the selected server,
whenever its containers are not being loaded, are those in which the containers that come while one
is open for another server are rendered. -/
theorem run_inServer_iff {es : List SessionLabel} :
    (Run (sessionLoop numberText normalizeLogLineTimestamp).Step
      ⟨freshSessions terminalLoaded, []⟩ es q → Attached q.state) ∧
    (Run (fun p l r => (sessionLoop numberText normalizeLogLineTimestamp).Step p l r ∧ InServer r)
        ⟨freshSessions terminalLoaded, []⟩ es q ↔
      Run (fun p l r => (sessionLoop numberText normalizeLogLineTimestamp).Step p l r ∧ Renders p l)
        ⟨freshSessions terminalLoaded, []⟩ es q) := by
  refine ⟨run_attached, Run.congr (fun p => ServersInv p ∧ Placed p)
    ⟨serversInv_fresh, placed_fresh⟩ ?_ ?_⟩
  · rintro p l r ⟨hinv, -⟩ ⟨hstep, hserver⟩
    have hinv' := hinv.step hstep
    exact ⟨hinv', hinv'.inServer_iff.mp hserver⟩
  · rintro p l r ⟨hinv, hplaced⟩
    refine and_congr_right fun hstep => ?_
    rw [(hinv.step hstep).inServer_iff]
    exact placed_step_iff hinv hplaced hstep

/-! ### A run -/

/-- A shell is opened on one server. Another one without containers is selected, and something is
typed. -/
def typeElsewhere : List (Input SessionPageEvent SessionAnswer) :=
  [.event (.page (.serverList ["local:a", "local:b"])), .event (.page (.enter .table)),
    .answer 0 (.page (.list (.rows ["web"]))), .event (.page (.switchView .shell)),
    .answer 0 (.page (.list (.rows ["web"]))), .event (.openShell ⟨"web", "web", "running"⟩),
    .answer 0 .socket, .event (.opened 0), .event (.page (.selectServer "local:b")),
    .answer 0 (.page (.list (.rows []))), .event (.type "ls")]

set_option synthInstance.maxSize 1000 in
/-- **A session may outlive its server**: an empty list closes nothing, and what is typed goes to
the server that was selected before. -/
theorem session_outlives_server : ∃ es q,
    Run (sessionLoop id String.ofList).Step ⟨freshSessions true, []⟩ es q ∧
      q.state.page.containersSelectedScope = "local:b" ∧
      q.state.sockets = [⟨.shell, "local:a", "web", 0⟩] ∧
      q.state.keystrokes = [⟨"ls", 0, some 0⟩] ∧ ¬ InServer q := by
  have hexec : ((sessionLoop id String.ofList).exec (fun _ _ => true)
      ⟨freshSessions true, []⟩ typeElsewhere).map
      (fun q => (q.state.page.containersSelectedScope, q.state.sockets, q.state.keystrokes,
        q.state.shellSocket, listRequests .containers (pagesOf q.waiting),
        (q.state.page.listing .containers).contents.isNone)) =
      some ("local:b", [⟨.shell, "local:a", "web", 0⟩], [⟨"ls", 0, some 0⟩], some 0, 0, true) := by
    decide +kernel
  obtain ⟨q, hrun, hvalues⟩ := Option.map_eq_some_iff.mp hexec
  simp only [Prod.mk.injEq] at hvalues
  obtain ⟨hscope, hsockets, hkeystrokes, hsocket, hnone, hlisting⟩ := hvalues
  obtain ⟨es, hsteps⟩ := run_of_exec hrun
  refine ⟨es, q, hsteps.mono And.left, hscope, hsockets, hkeystrokes, fun hserver => ?_⟩
  have hbelongs := hserver
    (fun scope after hmem => listRequests_eq_zero_iff.mp hnone scope after (mem_pagesOf.mpr hmem))
    .shell ⟨.shell, "local:a", "web", 0⟩ (.attached hsocket (congrArg (·[0]?) hsockets))
  rcases hbelongs with hsame | ⟨-, ids, hids, -⟩
  · exact absurd (hsame.trans hscope) (by decide)
  · rw [hids] at hlisting
    cases hlisting

end Contiwatch
