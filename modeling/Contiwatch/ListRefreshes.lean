import Contiwatch.Workspace
import Mathlib.Tactic.SplitIfs

/-!
# Refreshes of the Lists

What `runScopedRefresh` promises: requests of one kind do not overlap, and the list on screen is
never that of a server that was selected before.

## Main results

* `run_requests` — at most one request for each list is in flight.
* `run_listed_iff` — the runs in which the list on screen is that of the selected server, whenever
  it is not being refreshed.
* `aborted_answer_lost` — a request that was aborted and that answers only after the networks are on
  screen again leaves the list of another server there.
* `resources_list_stays` — a server without containers leaves those of another one in the resources
  view.
-/

namespace Contiwatch

/-- A request for a list. -/
def WorkspaceWait.requests (kind : ListKind) : WorkspaceWait → Bool
  | .list kind' _ _ => kind' = kind
  | _ => false

namespace Listing

/-- A list that is drawn again shows the server that it showed. -/
theorem shows_redraw (scope scope' : String) (listing : Listing) :
    (listing.redraw scope').Shows scope ↔ listing.Shows scope := by
  cases listing with
  | blank | cleared message => rfl
  | loaded source rows =>
      rw [redraw]
      split_ifs <;> rfl

/-- So does a list with a row replaced. -/
theorem shows_updateRow (scope : String) (row : WorkspaceRow) (listing : Listing) :
    (listing.updateRow row).Shows scope ↔ listing.Shows scope := by
  cases listing <;> rfl

/-- The list that `renderContainers` leaves is that of a server if both lists were. -/
theorem Shows.replacing {scope : String} {listing old : Listing} (h : listing.Shows scope)
    (hold : old.Shows scope) : (listing.replacing old).Shows scope := by
  cases listing with
  | blank | cleared message => exact hold
  | loaded source rows => exact h

/-- So does the list of its cache. -/
theorem Shows.ofCache {scope : String} {listing : Listing} (h : listing.Shows scope) :
    listing.ofCache.Shows scope := by
  cases listing with
  | blank | cleared message => trivial
  | loaded source rows => exact h

/-- So does a list with a row bound again. -/
theorem shows_rebind (scope id scope' : String) (listing : Listing) :
    (listing.rebind id scope').Shows scope ↔ listing.Shows scope := by
  cases listing <;> rfl

end Listing

/-- The number of requests for a list that are in flight. -/
def listRequests (kind : ListKind) (waiting : List WorkspaceWait) : ℕ :=
  waiting.countP (·.requests kind)

namespace Workspace

/-- A list is being refreshed, or it is cleared with a message or that of the selected server. -/
def Settled (w : Workspace) (kind : ListKind) : Prop :=
  w.inFlight kind = true ∨ (w.listing kind).Shows w.containersSelectedScope

/-- The same for the list of the resources view. -/
def ResourcesSettled (w : Workspace) : Prop :=
  w.inFlight .containers = true ∨ w.resources.Shows w.containersSelectedScope

/-- The flags of `runScopedRefresh` follow the requests that a function makes. -/
def Tracks (w : Workspace) (r : Effect) : Prop :=
  ∀ kind, (w.inFlight kind).toNat + listRequests kind r.2 = (r.1.inFlight kind).toNat

/-- A function leaves the view. -/
structure KeepsView (w v : Workspace) : Prop where
  onScreen : v.onScreen = w.onScreen
  mode : v.containersViewMode = w.containersViewMode

/-- A function leaves the view, and what the lists are. -/
structure KeepsLists (w v : Workspace) : Prop extends KeepsView w v where
  scope : v.containersSelectedScope = w.containersSelectedScope
  inFlight : v.inFlight = w.inFlight
  shows : ∀ kind scope, (v.listing kind).Shows scope ↔ (w.listing kind).Shows scope
  resources : w.Settled .containers → w.ResourcesSettled → v.ResourcesSettled

variable {u v w : Workspace} {r : Effect} {kind : ListKind} {after : AfterRefresh}

/-- Two functions that leave the view leave it together. -/
theorem KeepsView.trans (h : KeepsView u v) (h' : KeepsView v w) : KeepsView u w :=
  ⟨h'.onScreen.trans h.onScreen, h'.mode.trans h.mode⟩

/-- A list is settled after a function that leaves it exactly if it was before. -/
theorem KeepsLists.settled_iff (h : KeepsLists w v) (kind : ListKind) :
    v.Settled kind ↔ w.Settled kind := by
  rw [Settled, Settled, h.inFlight, h.shows, h.scope]

/-- A function that leaves the server, the requests and the lists. -/
theorem keepsLists_of_eq (hview : KeepsView w v)
    (hscope : v.containersSelectedScope = w.containersSelectedScope)
    (hinFlight : v.inFlight = w.inFlight) (hlisting : v.listing = w.listing)
    (hresources : v.resources = w.resources) : KeepsLists w v where
  toKeepsView := hview
  scope := hscope
  inFlight := hinFlight
  shows _ _ := by rw [hlisting]
  resources _ hsettled := by rwa [ResourcesSettled, hscope, hinFlight, hresources]

/-- A function that leaves the flags and makes no request for a list. -/
theorem tracks_of_eq {new : List WorkspaceWait} (h : v.inFlight = w.inFlight)
    (hnew : ∀ kind, listRequests kind new = 0) : Tracks w (v, new) := by
  intro kind
  rw [hnew kind, h, Nat.add_zero]

/-- Two functions whose requests the flags follow, one after the other. -/
theorem Tracks.andThen {f : Workspace → Effect} (h : Tracks w r) (hf : Tracks r.1 (f r.1)) :
    Tracks w (r.andThen f) := by
  intro kind
  have hfirst := h kind
  have hsecond := hf kind
  simp only [Effect.andThen, listRequests, List.countP_append] at *
  rw [← hsecond, ← hfirst, Nat.add_assoc]

/-! ### Refreshes -/

/-- The flags follow what comes after a refresh. -/
theorem tracks_afterRefresh (after : AfterRefresh) (w : Workspace) :
    Tracks w (afterRefresh after w) := by
  cases after with
  | nothing | acted => exact tracks_of_eq rfl fun _ => rfl
  | saved save =>
      rcases haction : save.action with _ | action
      · simp only [afterRefresh, haction]
        split_ifs <;> exact tracks_of_eq rfl fun _ => rfl
      · simp only [afterRefresh, haction, runEditorAction]
        split_ifs <;> exact tracks_of_eq rfl fun _ => rfl

/-- What comes after a refresh leaves the lists. -/
theorem keepsLists_afterRefresh (after : AfterRefresh) (w : Workspace) :
    KeepsLists w (afterRefresh after w).1 := by
  cases after with
  | nothing | acted => exact keepsLists_of_eq ⟨rfl, rfl⟩ rfl rfl rfl rfl
  | saved save =>
      rcases haction : save.action with _ | action
      · simp only [afterRefresh, haction]
        split_ifs <;> exact keepsLists_of_eq ⟨rfl, rfl⟩ rfl rfl rfl rfl
      · simp only [afterRefresh, haction, runEditorAction]
        split_ifs <;> exact keepsLists_of_eq ⟨rfl, rfl⟩ rfl rfl rfl rfl

/-- The flags follow a refresh. -/
theorem tracks_refresh (kind : ListKind) (after : AfterRefresh) (w : Workspace) :
    Tracks w (refresh kind after w) := by
  rcases refresh_cases kind after w with ⟨-, heq⟩ | ⟨-, heq⟩ | ⟨hflight, -, heq⟩
  · rw [heq]
    exact tracks_afterRefresh after w
  · rw [heq]
    exact tracks_afterRefresh after (w.setListing kind _)
  · rw [heq]
    intro kind'
    rcases eq_or_ne kind' kind with rfl | hne
    · simp [hflight, listRequests, WorkspaceWait.requests]
    · simp [startRefresh_inFlight_of_ne hne, listRequests, WorkspaceWait.requests, hne.symm]

/-- A refresh leaves the view. -/
theorem keepsView_refresh (kind : ListKind) (after : AfterRefresh) (w : Workspace) :
    KeepsView w (refresh kind after w).1 := by
  rcases refresh_cases kind after w with ⟨-, heq⟩ | ⟨-, heq⟩ | ⟨-, -, heq⟩
  · rw [heq]
    exact (keepsLists_afterRefresh after w).toKeepsView
  · have hlists := keepsLists_afterRefresh after
      (w.setListing kind (.cleared "No servers configured. Add one in Servers."))
    rw [heq]
    exact ⟨hlists.onScreen, hlists.mode⟩
  · rw [heq]
    exact ⟨rfl, rfl⟩

/-- A list that is replaced leaves the others. -/
theorem settled_setListing_of_ne {kind' : ListKind} (hne : kind' ≠ kind) (listing : Listing) :
    (w.setListing kind listing).Settled kind' ↔ w.Settled kind' := by
  rw [Settled, setListing_listing_of_ne hne]
  rfl

/-- The end of a refresh leaves the other lists. -/
theorem settled_endRefresh_of_ne {kind' : ListKind} (hne : kind' ≠ kind) :
    (w.endRefresh kind).Settled kind' ↔ w.Settled kind' := by
  rw [Settled, endRefresh_inFlight_of_ne hne]
  rfl

/-- A refresh leaves the other lists. -/
theorem settled_refresh_of_ne {kind' : ListKind} (hne : kind' ≠ kind) :
    (refresh kind after w).1.Settled kind' ↔ w.Settled kind' := by
  rcases refresh_cases kind after w with ⟨-, heq⟩ | ⟨-, heq⟩ | ⟨-, -, heq⟩
  · rw [heq, (keepsLists_afterRefresh after w).settled_iff]
  · rw [heq, (keepsLists_afterRefresh after _).settled_iff, settled_setListing_of_ne hne]
  · rw [heq, Settled, startRefresh_inFlight_of_ne hne]
    rfl

/-- **A refresh settles its list**: it is being refreshed from then on, or it is cleared. -/
theorem settled_refresh (kind : ListKind) (after : AfterRefresh) (w : Workspace) :
    (refresh kind after w).1.Settled kind := by
  rcases refresh_cases kind after w with ⟨hflight, heq⟩ | ⟨-, heq⟩ | ⟨-, -, heq⟩
  · rw [heq, (keepsLists_afterRefresh after w).settled_iff]
    exact .inl hflight
  · rw [heq, (keepsLists_afterRefresh after _).settled_iff, Settled, setListing_listing_self]
    exact .inr trivial
  · rw [heq]
    exact .inl (startRefresh_inFlight_self kind w)

/-- A refresh leaves what is settled. -/
theorem Settled.refresh {kind' : ListKind} (h : w.Settled kind') :
    (refresh kind after w).1.Settled kind' := by
  rcases eq_or_ne kind' kind with rfl | hne
  · exact settled_refresh kind' after w
  · exact (settled_refresh_of_ne hne).mpr h

/-! ### The list of the resources view -/

/-- While the resources view is on screen, its list is settled. -/
def ResourcesCurrent (w : Workspace) : Prop :=
  w.onScreen = true → w.containersViewMode = .resources → w.ResourcesSettled

/-- A refresh of the containers of a server asks for nothing. -/
def Unasked (w : Workspace) (scope : String) : Prop :=
  scope = "" ∧ w.inFlight .containers = false

/-- A function leaves the list of the resources view, and goes on with what is asked for. -/
structure KeepsResources (w v : Workspace) : Prop extends KeepsView w v where
  scope : v.containersSelectedScope = w.containersSelectedScope
  resources : v.resources = w.resources
  inFlight : w.inFlight .containers = true → v.inFlight .containers = true

/-- A function that leaves the list of the resources view leaves it settled. -/
theorem ResourcesCurrent.of_keepsResources (h : w.ResourcesCurrent) (hkeeps : KeepsResources w v) :
    v.ResourcesCurrent := by
  intro hscreen hmode
  rw [hkeeps.onScreen] at hscreen
  rw [hkeeps.mode] at hmode
  rw [ResourcesSettled, hkeeps.resources, hkeeps.scope]
  exact (h hscreen hmode).imp_left hkeeps.inFlight

/-- What comes after a refresh leaves that list. -/
theorem keepsResources_afterRefresh (after : AfterRefresh) (w : Workspace) :
    KeepsResources w (afterRefresh after w).1 := by
  have hlists := keepsLists_afterRefresh after w
  refine ⟨hlists.toKeepsView, hlists.scope, ?_, fun h => hlists.inFlight ▸ h⟩
  cases after with
  | nothing | acted => rfl
  | saved save =>
      rcases haction : save.action with _ | action
      · simp only [afterRefresh, haction]
        split_ifs <;> rfl
      · simp only [afterRefresh, haction, runEditorAction]
        split_ifs <;> rfl

/-- So does a refresh. -/
theorem keepsResources_refresh (kind : ListKind) (after : AfterRefresh) (w : Workspace) :
    KeepsResources w (refresh kind after w).1 := by
  rcases refresh_cases kind after w with ⟨-, heq⟩ | ⟨-, heq⟩ | ⟨-, -, heq⟩
  · rw [heq]
    exact keepsResources_afterRefresh after w
  · have hkeeps := keepsResources_afterRefresh after
      (w.setListing kind (.cleared "No servers configured. Add one in Servers."))
    rw [heq]
    exact ⟨⟨hkeeps.onScreen, hkeeps.mode⟩, hkeeps.scope, hkeeps.resources, hkeeps.inFlight⟩
  · rw [heq]
    refine ⟨⟨rfl, rfl⟩, rfl, rfl, fun hflight => ?_⟩
    by_cases hkind : .containers = kind
    · subst hkind
      exact startRefresh_inFlight_self .containers w
    · exact (startRefresh_inFlight_of_ne hkind w).trans hflight

/-- A refresh of the containers settles the list of the resources view, if there is a server. -/
theorem resourcesSettled_refresh_iff :
    (refresh .containers after w).1.ResourcesSettled ↔
      (w.Unasked w.containersSelectedScope → w.resources.Shows w.containersSelectedScope) := by
  have hkeeps := keepsResources_refresh .containers after w
  rw [ResourcesSettled, hkeeps.resources, hkeeps.scope]
  rcases refresh_cases .containers after w with ⟨hflight, -⟩ | ⟨hnone, heq⟩ | ⟨-, hsome, heq⟩
  · exact iff_of_true (.inl (hkeeps.inFlight hflight)) fun h =>
      absurd (h.2.symm.trans hflight) Bool.false_ne_true
  · rw [heq, (keepsLists_afterRefresh after _).inFlight]
    refine ⟨fun h hunasked => h.resolve_left fun hflight => ?_, fun h => ?_⟩
    · exact absurd (hunasked.2.symm.trans hflight) Bool.false_ne_true
    · cases hflight : w.inFlight .containers with
      | true => exact .inl hflight
      | false => exact .inr (h ⟨hnone, hflight⟩)
  · rw [heq]
    exact iff_of_true (.inl (startRefresh_inFlight_self .containers w)) fun h => absurd h.1 hsome

/-- A refresh leaves the list of the resources view settled. -/
theorem ResourcesCurrent.refresh (h : w.ResourcesCurrent) :
    (refresh kind after w).1.ResourcesCurrent :=
  h.of_keepsResources (keepsResources_refresh kind after w)

/-! ### Answers -/

/-- An answer that is no abort shows the list of its server, or clears the list. -/
theorem shows_answered {answer : ListAnswer} {scope : String} {listing : Listing}
    (h : answer ≠ .aborted) : (Listing.answered kind scope answer listing).Shows scope := by
  have hrender (ids : List String) : (Listing.render kind scope ids).Shows scope := by
    rw [Listing.render]
    split_ifs
    · trivial
    · exact Eq.refl scope
  cases answer with
  | rows ids => exact hrender ids
  | errorPayload ids =>
      rw [Listing.answered]
      split_ifs
      · exact hrender ids
      · trivial
  | null | failed => trivial
  | aborted => exact absurd rfl h

/-- The list of the resources view after an answer that is no abort. -/
theorem shows_replacing_answered_iff {answer : ListAnswer} {scope : String} {listing old : Listing}
    (h : answer ≠ .aborted) :
    ((Listing.answered .containers scope answer listing).replacing old).Shows scope ↔
      (answer.ids = [] → old.Shows scope) := by
  cases answer with
  | rows ids =>
      rw [Listing.answered, Listing.render, ListAnswer.ids]
      split_ifs with hids
      · exact ⟨fun hshows _ => hshows, fun hshows => hshows hids⟩
      · exact iff_of_true rfl fun hnone => absurd hnone hids
  | errorPayload ids =>
      rw [Listing.answered, if_neg (by decide)]
      exact ⟨fun hshows _ => hshows, fun hshows => hshows rfl⟩
  | null | failed => exact ⟨fun hshows _ => hshows, fun hshows => hshows rfl⟩
  | aborted => exact absurd rfl h

/-- The flags after an answer follow the requests made because of it. -/
theorem tracks_finishRefresh (kind : ListKind) (scope : String) (after : AfterRefresh)
    (answer : ListAnswer) (w : Workspace) :
    Tracks (w.endRefresh kind) (finishRefresh kind scope after answer w) := by
  rcases eq_or_ne w.containersSelectedScope scope with hselected | hother
  · rw [finishRefresh_selected after answer hselected]
    exact tracks_afterRefresh after ((w.showAnswer kind scope answer).endRefresh kind)
  · rw [finishRefresh_other after answer hother]
    exact (tracks_refresh kind .nothing _).andThen (tracks_afterRefresh after _)

/-- The end of a refresh leaves the view. -/
theorem keepsView_finishRefresh (kind : ListKind) (scope : String) (after : AfterRefresh)
    (answer : ListAnswer) (w : Workspace) :
    KeepsView w (finishRefresh kind scope after answer w).1 := by
  rcases eq_or_ne w.containersSelectedScope scope with hselected | hother
  · have hlists := keepsLists_afterRefresh after
      ((w.showAnswer kind scope answer).endRefresh kind)
    rw [finishRefresh_selected after answer hselected]
    exact ⟨hlists.onScreen, hlists.mode⟩
  · have hview := (keepsView_refresh kind .nothing (w.endRefresh kind)).trans
      (keepsLists_afterRefresh after _).toKeepsView
    rw [finishRefresh_other after answer hother]
    exact ⟨hview.onScreen, hview.mode⟩

/-- An answer leaves the other lists. -/
theorem settled_finishRefresh_of_ne {kind' : ListKind} {scope : String} {answer : ListAnswer}
    (hne : kind' ≠ kind) :
    (finishRefresh kind scope after answer w).1.Settled kind' ↔ w.Settled kind' := by
  rcases eq_or_ne w.containersSelectedScope scope with hselected | hother
  · rw [finishRefresh_selected after answer hselected,
      (keepsLists_afterRefresh after _).settled_iff, settled_endRefresh_of_ne hne]
    exact settled_setListing_of_ne (w := w) hne (Listing.answered kind scope answer
      (w.listing kind))
  · rw [finishRefresh_other after answer hother, Effect.andThen,
      (keepsLists_afterRefresh after _).settled_iff, settled_refresh_of_ne hne,
      settled_endRefresh_of_ne hne]

/-- **An answer settles its list**, unless it is an abort: that leaves the list as it is, and starts
over only if another server was selected meanwhile. -/
theorem settled_finishRefresh_iff {scope : String} {answer : ListAnswer} :
    (finishRefresh kind scope after answer w).1.Settled kind ↔
      (answer = .aborted → w.containersSelectedScope = scope →
        (w.listing kind).Shows w.containersSelectedScope) := by
  rcases eq_or_ne w.containersSelectedScope scope with rfl | hother
  · rw [finishRefresh_selected after answer rfl, (keepsLists_afterRefresh after _).settled_iff,
      Settled, endRefresh_inFlight_self]
    have hlisting : ((w.showAnswer kind w.containersSelectedScope answer).endRefresh kind).listing
        kind = Listing.answered kind w.containersSelectedScope answer (w.listing kind) :=
      setListing_listing_self ..
    rw [hlisting]
    by_cases haborted : answer = .aborted
    · subst haborted
      exact ⟨fun h _ _ => h.resolve_left Bool.false_ne_true, fun h => .inr (h rfl rfl)⟩
    · exact ⟨fun _ h => absurd h haborted, fun _ => .inr (shows_answered haborted)⟩
  · rw [finishRefresh_other after answer hother, Effect.andThen,
      (keepsLists_afterRefresh after _).settled_iff]
    exact ⟨fun _ _ h => absurd h hother, fun _ => settled_refresh kind .nothing _⟩

/-! ### Events -/

/-- While the workspace is on screen, the list that it shows is settled. -/
def Current (w : Workspace) : Prop := w.onScreen = true → w.Settled w.containersViewMode.kind

/-- A function that leaves the lists leaves the one on screen settled. -/
theorem Current.of_keepsLists (h : w.Current) (hkeeps : KeepsLists w v) : v.Current := by
  intro hscreen
  rw [hkeeps.mode, hkeeps.settled_iff]
  exact h (hkeeps.onScreen ▸ hscreen)

/-- So does a refresh. -/
theorem Current.refresh (h : w.Current) : (refresh kind after w).1.Current := by
  have hview := keepsView_refresh kind after w
  intro hscreen
  rw [hview.mode]
  exact (h (hview.onScreen ▸ hscreen)).refresh

/-- A refresh of the list that is shown settles it. -/
theorem current_refreshSelectedServerView (w : Workspace) :
    w.refreshSelectedServerView.1.Current := by
  intro _
  rw [refreshSelectedServerView, (keepsView_refresh _ _ w).mode]
  exact settled_refresh _ _ w

/-- A change of the view settles the list that it shows. -/
theorem current_setContainersViewMode (mode : ContainersViewMode) (w : Workspace) :
    (w.setContainersViewMode mode).1.Current := by
  have hrefresh : (Workspace.refresh mode.kind .nothing (w.showMode mode)).1.Current :=
    current_refreshSelectedServerView (w.showMode mode)
  rw [setContainersViewMode, Effect.andThen]
  simp only
  split_ifs
  · exact hrefresh
  · exact hrefresh

/-- The view mode after a change of the view. -/
theorem mode_setContainersViewMode (mode : ContainersViewMode) (w : Workspace) :
    (w.setContainersViewMode mode).1.containersViewMode = mode := by
  have hview := keepsView_refresh mode.kind .nothing (w.showMode mode)
  rw [setContainersViewMode, Effect.andThen]
  simp only
  split_ifs <;> exact hview.mode

/-- The flags follow a change of the view. -/
theorem tracks_setContainersViewMode (mode : ContainersViewMode) (w : Workspace) :
    Tracks w (w.setContainersViewMode mode) := by
  have hrefresh : Tracks w (Workspace.refresh mode.kind .nothing (w.showMode mode)) :=
    tracks_refresh mode.kind .nothing (w.showMode mode)
  refine hrefresh.andThen ?_
  split_ifs <;> exact tracks_of_eq rfl fun _ => rfl

/-- A containers list that stays that of the same server. -/
theorem keepsLists_containers {listing : Listing}
    (h : ∀ scope, listing.Shows scope ↔ (w.listing .containers).Shows scope) :
    KeepsLists w (w.setListing .containers listing) := by
  refine ⟨⟨rfl, rfl⟩, rfl, rfl, fun kind scope => ?_, fun _ hsettled => hsettled⟩
  rcases eq_or_ne kind .containers with rfl | hne
  · rw [setListing_listing_self]
    exact h scope
  · rw [setListing_listing_of_ne hne]

/-- Two functions that leave the lists leave them together. -/
theorem KeepsLists.trans (h : KeepsLists u v) (h' : KeepsLists v w) : KeepsLists u w :=
  ⟨h.toKeepsView.trans h'.toKeepsView, h'.scope.trans h.scope, h'.inFlight.trans h.inFlight,
    fun kind scope => (h'.shows kind scope).trans (h.shows kind scope),
    fun hsettled hold => h'.resources ((h.settled_iff _).mpr hsettled) (h.resources hsettled hold)⟩

/-- Drawing the containers again leaves the lists. -/
theorem keepsLists_redrawContainers (w : Workspace) : KeepsLists w w.redrawContainers := by
  have hredrawn : KeepsLists w (w.setListing .containers
      ((w.listing .containers).redraw w.containersSelectedScope)) :=
    keepsLists_containers fun scope => Listing.shows_redraw scope _ _
  refine ⟨⟨rfl, rfl⟩, rfl, rfl, hredrawn.shows, fun hsettled hresources => ?_⟩
  rcases hsettled with hflight | hshows
  · exact .inl hflight
  rcases hresources with hflight | hold
  · exact .inl hflight
  -- the list of the resources view stays, or is that of the containers
  refine .inr ?_
  rw [redrawContainers]
  dsimp only
  split_ifs
  · exact ((Listing.shows_redraw ..).mpr hshows).replacing hold
  · exact hold

/-- So does a state that is shown in advance. -/
theorem keepsLists_setContainerOptimisticState (id scope : String) (w : Workspace) :
    KeepsLists w (w.setContainerOptimisticState id scope) := by
  have hrebound : KeepsLists w
      (w.setListing .containers ((w.listing .containers).rebind id scope)) :=
    keepsLists_containers fun _ => Listing.shows_rebind ..
  rw [setContainerOptimisticState]
  split_ifs
  · exact hrebound.trans (keepsLists_redrawContainers _)
  · exact hrebound

/-- What a function does that is no refresh: the lists stay, and no request is for one. -/
def LeavesLists (w : Workspace) (r : Effect) : Prop :=
  KeepsLists w r.1 ∧ ∀ kind, listRequests kind r.2 = 0

/-- The flags follow a function that asks for no list. -/
theorem LeavesLists.tracks (h : LeavesLists w r) : Tracks w r := by
  obtain ⟨v, new⟩ := r
  exact tracks_of_eq h.1.inFlight h.2

/-- An action on a container asks for no list. -/
theorem leavesLists_runContainerAction (row : WorkspaceRow) (action : ContainerAction)
    (w : Workspace) : LeavesLists w (w.runContainerAction row action) := by
  rw [runContainerAction]
  split_ifs <;> exact ⟨keepsLists_of_eq ⟨rfl, rfl⟩ rfl rfl rfl rfl, fun _ => rfl⟩

/-- Nor does pressing its button. -/
theorem leavesLists_pressContainer (row : WorkspaceRow) (action : ContainerAction)
    (w : Workspace) :
    LeavesLists w ((w.pressContainerButton row action).runContainerAction row action) := by
  obtain ⟨hsent, hnone⟩ :=
    leavesLists_runContainerAction row action (w.pressContainerButton row action)
  refine ⟨KeepsLists.trans ?_ hsent, hnone⟩
  rw [pressContainerButton]
  split_ifs
  · exact keepsLists_setContainerOptimisticState row.id row.bound w
  · exact keepsLists_of_eq ⟨rfl, rfl⟩ rfl rfl rfl rfl

/-- Nor does an action on a stack. -/
theorem leavesLists_runStackAction (row : WorkspaceRow) (action : StackAction) (w : Workspace) :
    LeavesLists w (w.runStackAction row action) := by
  rw [runStackAction]
  split_ifs <;> exact ⟨keepsLists_of_eq ⟨rfl, rfl⟩ rfl rfl rfl rfl, fun _ => rfl⟩

/-- Nor does removing an item. -/
theorem leavesLists_runRemove (row : WorkspaceRow) (w : Workspace) :
    LeavesLists w (w.runRemove kind row) := by
  rw [runRemove]
  split_ifs <;> exact ⟨keepsLists_of_eq ⟨rfl, rfl⟩ rfl rfl rfl rfl, fun _ => rfl⟩

/-- Nor does opening the dialog of a stack. -/
theorem leavesLists_openStackModal (name : String) (w : Workspace) :
    LeavesLists w (w.openStackModal name) := by
  rw [openStackModal]
  split_ifs <;> exact ⟨keepsLists_of_eq ⟨rfl, rfl⟩ rfl rfl rfl rfl, fun _ => rfl⟩

/-- Nor does saving it. -/
theorem leavesLists_saveStackFromModal (fields : EditorFields) (closeOnSuccess : Bool)
    (action : Option ModalAction) (e : StackEditor) (w : Workspace) :
    LeavesLists w (w.saveStackFromModal fields closeOnSuccess action e) := by
  rw [saveStackFromModal]
  split_ifs <;> exact ⟨keepsLists_of_eq ⟨rfl, rfl⟩ rfl rfl rfl rfl, fun _ => rfl⟩

/-! ### Steps -/

/-- Where nothing will replace the list of the resources view, it is right already: there is no
server to ask when one is selected or the view is opened, or the answer brings no containers. -/
def ResourcesInTime (w : Workspace) : WorkspaceLabel → Prop
  | .event (.selectServer scope) =>
      w.containersViewMode = .resources → w.Unasked scope → w.resources.Shows scope
  | .event (.serverList scopes) =>
      w.onScreen = true → w.containersViewMode = .resources → w.Unasked (w.nextScope scopes) →
        w.resources.Shows (w.nextScope scopes)
  | .event (.switchView mode) =>
      w.onScreen = true → mode = .resources → w.Unasked w.containersSelectedScope →
        (w.listing .containers).ofCache.Shows w.containersSelectedScope
  | .event (.enter mode) =>
      mode = .resources → w.Unasked w.containersSelectedScope →
        (w.listing .containers).ofCache.Shows w.containersSelectedScope
  | .answer (.list .containers scope _) (.list answer) =>
      w.onScreen = true → w.containersViewMode = .resources →
        (w.containersSelectedScope = scope → answer.ids = [] → w.resources.Shows scope) ∧
        (w.containersSelectedScope ≠ scope → w.containersSelectedScope = "" → w.resources.Shows "")
  | _ => True

/-- A refresh of what is on screen settles the list of the resources view, if there is a server to
ask. -/
theorem resourcesCurrent_refreshSelectedServerView_iff (w : Workspace) :
    w.refreshSelectedServerView.1.ResourcesCurrent ↔
      (w.onScreen = true → w.containersViewMode = .resources →
        w.Unasked w.containersSelectedScope → w.resources.Shows w.containersSelectedScope) := by
  have hview := keepsView_refresh w.containersViewMode.kind .nothing w
  rw [refreshSelectedServerView, ResourcesCurrent, hview.onScreen, hview.mode]
  refine forall_congr' fun _ => forall_congr' fun hmode => ?_
  rw [hmode]
  exact resourcesSettled_refresh_iff

/-- A change to the resources view settles its list exactly if a refresh will replace it, or the
containers in the cache are those of the selected server. -/
theorem resourcesCurrent_setContainersViewMode_iff (mode : ContainersViewMode) (w : Workspace) :
    (w.setContainersViewMode mode).1.ResourcesCurrent ↔
      (w.onScreen = true → mode = .resources → w.Unasked w.containersSelectedScope →
        (w.listing .containers).ofCache.Shows w.containersSelectedScope) := by
  have hrefresh := resourcesCurrent_refreshSelectedServerView_iff (w.showMode mode)
  have hmode : (w.setContainersViewMode mode).1.ResourcesCurrent ↔
      (w.showMode mode).refreshSelectedServerView.1.ResourcesCurrent := by
    rw [setContainersViewMode, Effect.andThen]
    simp only
    split_ifs <;> rfl
  rw [hmode, hrefresh]
  refine forall_congr' fun _ => forall_congr' fun hresources => ?_
  have hshown : (w.showMode mode).resources = (w.listing .containers).ofCache := if_pos hresources
  rw [hshown]
  rfl

/-- The answer to a request for another list leaves that of the resources view. -/
theorem keepsResources_finishRefresh {scope : String} {answer : ListAnswer}
    (hne : kind ≠ .containers) :
    KeepsResources w (finishRefresh kind scope after answer w).1 := by
  have hview := keepsView_finishRefresh kind scope after answer w
  have hflight (hfree : w.inFlight .containers = true) :
      (w.endRefresh kind).inFlight .containers = true :=
    (endRefresh_inFlight_of_ne hne.symm w).trans hfree
  rcases eq_or_ne w.containersSelectedScope scope with hselected | hother
  · have hafter :=
      keepsResources_afterRefresh after ((w.showAnswer kind scope answer).endRefresh kind)
    rw [finishRefresh_selected after answer hselected] at hview ⊢
    exact ⟨hview, hafter.scope, hafter.resources.trans (if_neg fun h => hne h.1),
      fun h => hafter.inFlight (hflight h)⟩
  · have hagain := keepsResources_refresh kind .nothing (w.endRefresh kind)
    have hafter := keepsResources_afterRefresh after (refresh kind .nothing (w.endRefresh kind)).1
    rw [finishRefresh_other after answer hother] at hview ⊢
    exact ⟨hview, hafter.scope.trans hagain.scope, hafter.resources.trans hagain.resources,
      fun h => hafter.inFlight (hagain.inFlight (hflight h))⟩

/-- An answer settles the list of the resources view if it brings containers. -/
theorem resourcesSettled_finishRefresh_iff {scope : String} {answer : ListAnswer}
    (hmode : w.containersViewMode = .resources) (habort : answer ≠ .aborted) :
    (finishRefresh .containers scope after answer w).1.ResourcesSettled ↔
      (w.containersSelectedScope = scope → answer.ids = [] → w.resources.Shows scope) ∧
        (w.containersSelectedScope ≠ scope → w.containersSelectedScope = "" →
          w.resources.Shows "") := by
  rcases eq_or_ne w.containersSelectedScope scope with hselected | hother
  · have hafter := keepsResources_afterRefresh after
      ((w.showAnswer .containers scope answer).endRefresh .containers)
    have hlists := keepsLists_afterRefresh after
      ((w.showAnswer .containers scope answer).endRefresh .containers)
    have hshown : ((w.showAnswer .containers scope answer).endRefresh .containers).resources =
        (Listing.answered .containers scope answer (w.listing .containers)).replacing w.resources :=
      (if_pos ⟨rfl, hmode⟩).trans
        (congrArg (Listing.replacing · w.resources) (setListing_listing_self ..))
    rw [finishRefresh_selected after answer hselected, ResourcesSettled, hafter.resources,
      hlists.inFlight, hlists.scope, endRefresh_inFlight_self, hshown]
    have hscope : ((w.showAnswer .containers scope answer).endRefresh
      .containers).containersSelectedScope = scope := hselected
    rw [hscope, shows_replacing_answered_iff habort]
    exact ⟨fun h => ⟨fun _ => h.resolve_left Bool.false_ne_true, fun h => absurd hselected h⟩,
      fun h => .inr (h.1 hselected)⟩
  · have hafter := keepsResources_afterRefresh after
      (refresh .containers .nothing (w.endRefresh .containers)).1
    have hlists := keepsLists_afterRefresh after
      (refresh .containers .nothing (w.endRefresh .containers)).1
    have hagain : (finishRefresh .containers scope after answer w).1.ResourcesSettled ↔
        (refresh .containers .nothing (w.endRefresh .containers)).1.ResourcesSettled := by
      rw [finishRefresh_other after answer hother, Effect.andThen, ResourcesSettled,
        hafter.resources, hlists.inFlight, hlists.scope]
      rfl
    rw [hagain, resourcesSettled_refresh_iff]
    have hfree := endRefresh_inFlight_self .containers w
    refine ⟨fun h => ⟨fun hselected => absurd hselected hother, fun _ hnone => ?_⟩,
      fun h hunasked => ?_⟩
    · have hright := h ⟨hnone, hfree⟩
      exact hnone ▸ hright
    · have hnone : w.containersSelectedScope = "" := hunasked.1
      have hright := h.2 hother hnone
      exact hnone.symm ▸ hright

/-- What a function does: the flags follow the requests, the list that the view mode refreshes is
settled on screen, and that of the resources view is under a condition. -/
structure Settles (w : Workspace) (r : Effect) (cond : Prop) : Prop where
  tracks : Tracks w r
  current : w.Current → r.1.Current
  resources : w.Current → w.ResourcesCurrent → (r.1.ResourcesCurrent ↔ cond)

/-- What leaves the lists settles nothing else. -/
theorem LeavesLists.settles (h : LeavesLists w r) : Settles w r True := by
  refine ⟨h.tracks, fun hcurrent => hcurrent.of_keepsLists h.1, fun hcurrent hresources =>
    iff_of_true (fun hscreen hmode => ?_) trivial⟩
  rw [h.1.onScreen] at hscreen
  rw [h.1.mode] at hmode
  have hsettled := hcurrent hscreen
  rw [hmode] at hsettled
  exact h.1.resources hsettled (hresources hscreen hmode)

/-- A refresh settles its list. -/
theorem settles_refresh (kind : ListKind) (after : AfterRefresh) (w : Workspace) :
    Settles w (refresh kind after w) True :=
  ⟨tracks_refresh kind after w, Current.refresh, fun _ hresources =>
    iff_of_true hresources.refresh trivial⟩

/-- Another server settles the list of the view. -/
theorem settles_pickServer (scope : String) (hscreen : w.onScreen = true) :
    Settles w (pickServer scope w) (ResourcesInTime w (.event (.selectServer scope))) := by
  refine ⟨?_, fun _ => current_refreshSelectedServerView _, fun _ _ => ?_⟩
  · rw [pickServer]
    split_ifs
    · exact tracks_refresh _ .nothing { w with containersSelectedScope := scope }
    · exact tracks_refresh _ .nothing
        (clearContainersViewForServerSwitch { w with containersSelectedScope := scope })
  · rw [pickServer, resourcesCurrent_refreshSelectedServerView_iff]
    split_ifs <;> exact ⟨fun hright => hright hscreen, fun hright _ => hright⟩

/-- So does entering the workspace. -/
theorem settles_enterView (mode : ContainersViewMode) (w : Workspace) :
    Settles w (enterView mode w) (ResourcesInTime w (.event (.enter mode))) := by
  refine ⟨?_, fun _ => ?_, fun _ _ => ?_⟩
  · refine (tracks_setContainersViewMode mode { w with onScreen := true }).andThen ?_
    split_ifs
    · exact tracks_refresh .containers .nothing _
    · exact tracks_of_eq rfl fun _ => rfl
  · have hmode := current_setContainersViewMode mode { w with onScreen := true }
    rw [enterView, Effect.andThen]
    simp only
    split_ifs
    · exact hmode.refresh
    · exact hmode
  · have hmode := resourcesCurrent_setContainersViewMode_iff mode { w with onScreen := true }
    have hcond : (({ w with onScreen := true } : Workspace).setContainersViewMode
        mode).1.ResourcesCurrent ↔ ResourcesInTime w (.event (.enter mode)) :=
      hmode.trans ⟨fun hright => hright rfl, fun hright _ => hright⟩
    rw [enterView, Effect.andThen]
    simp only
    split_ifs with htable
    · -- the table is on screen
      have hmode' := mode_setContainersViewMode mode { w with onScreen := true }
      have hne : mode ≠ .resources := by
        rw [← hmode', htable]
        decide
      exact iff_of_true (ResourcesCurrent.refresh fun _ hres => absurd (hmode' ▸ hres) hne)
        fun hres => absurd hres hne
    · exact hcond

/-- **What an event does.** -/
theorem handle_settles {e : WorkspaceEvent} (h : w.handle e = some r) :
    Settles w r (ResourcesInTime w (.event e)) := by
  have hleaves {r' : Effect} (hr : LeavesLists w r') (heq : some r' = some r) :
      Settles w r True := by
    obtain rfl := Option.some.inj heq
    exact hr.settles
  cases e with
  | selectServer scope =>
      obtain ⟨hscreen, heq⟩ := Option.ite_none_right_eq_some.mp h
      obtain rfl := Option.some.inj heq
      exact settles_pickServer scope hscreen
  | serverList scopes =>
      obtain rfl := Option.some.inj h
      rw [updateContainersServerOptions]
      split_ifs with hscreen
      · exact ⟨tracks_refresh _ .nothing { w with containersSelectedScope := w.nextScope scopes },
          fun _ => current_refreshSelectedServerView _,
          fun _ _ => resourcesCurrent_refreshSelectedServerView_iff _⟩
      · exact ⟨tracks_of_eq rfl fun _ => rfl, fun _ hshown => absurd hshown hscreen,
          fun _ _ => iff_of_true (fun hshown => absurd hshown hscreen)
            fun hshown => absurd hshown hscreen⟩
  | switchView mode =>
      obtain rfl := Option.some.inj h
      exact ⟨tracks_setContainersViewMode mode w, fun _ => current_setContainersViewMode mode w,
        fun _ _ => resourcesCurrent_setContainersViewMode_iff mode w⟩
  | enter mode =>
      obtain ⟨-, heq⟩ := Option.ite_none_left_eq_some.mp h
      obtain rfl := Option.some.inj heq
      exact settles_enterView mode w
  | leave =>
      obtain rfl := Option.some.inj h
      exact ⟨tracks_of_eq rfl fun _ => rfl, fun _ hshown => absurd hshown Bool.false_ne_true,
        fun _ _ => iff_of_true (fun hshown => absurd hshown Bool.false_ne_true) trivial⟩
  | refresh kind =>
      obtain rfl := Option.some.inj h
      exact settles_refresh kind .nothing w
  | redraw byState =>
      have hredraw := keepsLists_redrawContainers w
      exact hleaves ⟨⟨⟨hredraw.onScreen, hredraw.mode⟩, hredraw.scope, hredraw.inFlight,
        hredraw.shows, hredraw.resources⟩, fun _ => rfl⟩ h
  | selectResources id =>
      obtain ⟨-, heq⟩ := Option.ite_none_right_eq_some.mp h
      exact hleaves ⟨⟨⟨rfl, rfl⟩, rfl, rfl, fun _ _ => Iff.rfl,
        fun hsettled _ => hsettled.elim .inl fun hshows => .inr hshows.ofCache⟩, fun _ => rfl⟩ heq
  | pressContainer row action =>
      obtain ⟨-, heq⟩ := Option.ite_none_right_eq_some.mp h
      exact hleaves (leavesLists_pressContainer row action w) heq
  | pressStack row action =>
      obtain ⟨-, heq⟩ := Option.ite_none_right_eq_some.mp h
      exact hleaves (leavesLists_runStackAction row action w) heq
  | pressRemove kind row =>
      obtain ⟨-, heq⟩ := Option.ite_none_right_eq_some.mp h
      exact hleaves (leavesLists_runRemove row w) heq
  | openStack name =>
      obtain ⟨-, heq⟩ := Option.ite_none_right_eq_some.mp h
      exact hleaves (leavesLists_openStackModal name w) heq
  | saveStack fields closeOnSuccess =>
      obtain ⟨e, -, hguard⟩ := Option.bind_eq_some_iff.mp h
      obtain ⟨-, heq⟩ := Option.ite_none_left_eq_some.mp hguard
      exact hleaves (leavesLists_saveStackFromModal fields closeOnSuccess none e w) heq
  | actStack fields action =>
      obtain ⟨e, -, hguard⟩ := Option.bind_eq_some_iff.mp h
      obtain ⟨-, heq⟩ := Option.ite_none_left_eq_some.mp hguard
      exact hleaves (leavesLists_saveStackFromModal fields false (some action) e w) heq
  | closeStack =>
      obtain ⟨e, -, hguard⟩ := Option.bind_eq_some_iff.mp h
      obtain ⟨-, heq⟩ := Option.ite_none_left_eq_some.mp hguard
      exact hleaves ⟨keepsLists_of_eq ⟨rfl, rfl⟩ rfl rfl rfl rfl, fun _ => rfl⟩ heq

/-- **What an answer to another request does.** -/
theorem resume_settles {k : WorkspaceWait} {answer : WorkspaceAnswer}
    (hother : ∀ kind, k.requests kind = false) (h : w.resume k answer = some r) :
    Settles w r True := by
  have hleaves {r' : Effect} (hr : LeavesLists w r') (heq : some r' = some r) :
      Settles w r True := by
    obtain rfl := Option.some.inj heq
    exact hr.settles
  have hrefresh {kind : ListKind} {after : AfterRefresh}
      (heq : some (w.refresh kind after) = some r) : Settles w r True := by
    obtain rfl := Option.some.inj heq
    exact settles_refresh kind after w
  have hstay {v : Workspace} {new : List WorkspaceWait} (heq : some (v, new) = some r)
      (hv : KeepsLists w v) (hnew : ∀ kind, listRequests kind new = 0) :
      Settles w r True := hleaves ⟨hv, hnew⟩ heq
  cases k with
  | list kind scope after => simp [WorkspaceWait.requests] at hother
  | containerAction scope =>
      cases answer with
      | container id =>
          obtain rfl := Option.some.inj h
          have hlists : KeepsLists w (w.setListing .containers
              ((w.listing .containers).updateRow ⟨id, scope, scope⟩)) :=
            keepsLists_containers fun _ => Listing.shows_updateRow ..
          exact ⟨tracks_refresh .containers .nothing (w.setListing .containers _),
            fun hcurrent => (hcurrent.of_keepsLists hlists).refresh,
            fun _ hresources => iff_of_true (ResourcesCurrent.refresh hresources) trivial⟩
      | done => exact hrefresh h
      | failed => exact hstay h (keepsLists_of_eq ⟨rfl, rfl⟩ rfl rfl rfl rfl) fun _ => rfl
      | _ => cases h
  | stackJob fromEditor =>
      cases answer with
      | done => exact hrefresh h
      | failed =>
          refine hstay h ?_ fun _ => rfl
          split_ifs <;> exact keepsLists_of_eq ⟨rfl, rfl⟩ rfl rfl rfl rfl
      | _ => cases h
  | remove kind =>
      cases answer with
      | done => exact hrefresh h
      | failed => exact hstay h (keepsLists_of_eq ⟨rfl, rfl⟩ rfl rfl rfl rfl) fun _ => rfl
      | _ => cases h
  | loadStack =>
      cases answer with
      | stack found => exact hstay h (keepsLists_of_eq ⟨rfl, rfl⟩ rfl rfl rfl rfl) fun _ => rfl
      | failed => exact hstay h (keepsLists_of_eq ⟨rfl, rfl⟩ rfl rfl rfl rfl) fun _ => rfl
      | _ => cases h
  | validate save =>
      cases answer with
      | done | failed => exact hstay h (keepsLists_of_eq ⟨rfl, rfl⟩ rfl rfl rfl rfl) fun _ => rfl
      | _ => cases h
  | save save =>
      cases answer with
      | done => exact hrefresh h
      | failed => exact hstay h (keepsLists_of_eq ⟨rfl, rfl⟩ rfl rfl rfl rfl) fun _ => rfl
      | _ => cases h

end Workspace

open EventLoop

/-- Each list is being refreshed while a request for it is in flight, and there is only one. -/
def Tracked (q : WorkspaceConfig) : Prop :=
  ∀ kind, listRequests kind q.waiting = (q.state.inFlight kind).toNat

/-- While the workspace is on screen and no request for the list that it shows is in flight, that
list is cleared with a message, or was loaded from the server that is selected. -/
def Listed (q : WorkspaceConfig) : Prop :=
  q.state.onScreen = true →
    (∀ scope after, .list q.state.containersViewMode.kind scope after ∉ q.waiting) →
      q.state.shown.Shows q.state.containersSelectedScope

/-- An abort is answered while the networks are not on screen, or another server has been selected
since, or they show what they should already. -/
def AbortedInTime (w : Workspace) : WorkspaceLabel → Prop
  | .answer (.list .networks scope _) (.list .aborted) =>
      w.onScreen = true → w.containersViewMode = .networks → w.containersSelectedScope = scope →
        (w.listing .networks).Shows w.containersSelectedScope
  | _ => True

/-- No request for a list is in flight. -/
theorem listRequests_eq_zero_iff {kind : ListKind} {waiting : List WorkspaceWait} :
    listRequests kind waiting = 0 ↔ ∀ scope after, .list kind scope after ∉ waiting := by
  rw [listRequests, List.countP_eq_zero]
  constructor
  · intro h scope after hmem
    exact h _ hmem (decide_eq_true rfl)
  · intro h k hk hrequests
    cases k with
    | list kind' scope after =>
        obtain rfl : kind' = kind := of_decide_eq_true hrequests
        exact h scope after hk
    | _ => cases hrequests

/-- What is on screen is the list that the view mode refreshes, or that of the resources view. -/
theorem Tracked.listed_iff {q : WorkspaceConfig} (h : Tracked q) :
    Listed q ↔ (q.state.containersViewMode ≠ .resources → q.state.Current) ∧
      q.state.ResourcesCurrent := by
  have hflight : (∀ scope after, .list q.state.containersViewMode.kind scope after ∉ q.waiting) ↔
      ¬ q.state.inFlight q.state.containersViewMode.kind = true := by
    rw [← listRequests_eq_zero_iff, h]
    cases q.state.inFlight q.state.containersViewMode.kind <;> decide
  rw [Listed, hflight, Workspace.shown, Workspace.Current, Workspace.Settled,
    Workspace.ResourcesCurrent, Workspace.ResourcesSettled]
  by_cases hmode : q.state.containersViewMode = .resources
  · rw [if_pos hmode, hmode]
    exact ⟨fun hlisted => ⟨fun hne => absurd rfl hne,
        fun hscreen _ => or_iff_not_imp_left.mpr (hlisted hscreen)⟩,
      fun hboth hscreen => or_iff_not_imp_left.mp (hboth.2 hscreen rfl)⟩
  · rw [if_neg hmode]
    exact ⟨fun hlisted => ⟨fun _ hscreen => or_iff_not_imp_left.mpr (hlisted hscreen),
        fun _ hres => absurd hres hmode⟩,
      fun hboth hscreen => or_iff_not_imp_left.mp (hboth.1 hmode hscreen)⟩

/-- The flags follow the requests that wait. -/
theorem Tracked.append {w : Workspace} {r : Workspace.Effect} {waiting : List WorkspaceWait}
    (h : Tracked ⟨w, waiting⟩) (hr : w.Tracks r) : Tracked ⟨r.1, waiting ++ r.2⟩ := by
  intro kind
  have hwaiting := h kind
  have hnew := hr kind
  simp only [listRequests, List.countP_append] at *
  rw [hwaiting, hnew]

/-- The request for a list that is answered was the only one. -/
theorem Tracked.answered {w : Workspace} {front back : List WorkspaceWait} {kind : ListKind}
    {scope : String} {after : AfterRefresh}
    (h : Tracked ⟨w, front ++ .list kind scope after :: back⟩) :
    Tracked ⟨w.endRefresh kind, front ++ back⟩ := by
  intro kind'
  have hall := h kind'
  rcases eq_or_ne kind' kind with rfl | hne
  · have hle : (w.inFlight kind').toNat ≤ 1 := Bool.toNat_le _
    simp only [listRequests, List.countP_append, List.countP_cons, WorkspaceWait.requests,
      decide_true, if_true, Workspace.endRefresh_inFlight_self, Bool.toNat_false] at hall ⊢
    omega
  · simp only [listRequests, List.countP_append, List.countP_cons, WorkspaceWait.requests,
      decide_eq_true_eq, hne.symm, if_false, Workspace.endRefresh_inFlight_of_ne hne] at hall ⊢
    exact hall

/-- Another request that is answered leaves those for the lists. -/
theorem Tracked.answered_other {w : Workspace} {front back : List WorkspaceWait}
    {k : WorkspaceWait} (hother : ∀ kind, k.requests kind = false)
    (h : Tracked ⟨w, front ++ k :: back⟩) : Tracked ⟨w, front ++ back⟩ := by
  intro kind
  have hall := h kind
  simpa [listRequests, hother kind] using hall

/-- The answers to a request for a list. -/
theorem resume_list {w : Workspace} {r : Workspace.Effect} {kind : ListKind} {scope : String}
    {after : AfterRefresh} {answer : WorkspaceAnswer}
    (h : w.resume (.list kind scope after) answer = some r) :
    ∃ a, answer = .list a ∧ r = w.finishRefresh kind scope after a ∧
      (a = .aborted → kind = .networks) := by
  cases answer with
  | list a =>
      cases a with
      | aborted =>
          obtain ⟨⟨hkind, -⟩, heq⟩ := Option.ite_none_right_eq_some.mp h
          exact ⟨_, rfl, (Option.some.inj heq).symm, fun _ => hkind⟩
      | _ => exact ⟨_, rfl, (Option.some.inj h).symm, nofun⟩
  | _ => cases h

/-- The list on screen is settled after an answer just if it is no abort that comes too late. -/
theorem current_finishRefresh_iff {w : Workspace} {kind : ListKind} {scope : String}
    {after : AfterRefresh} {a : ListAnswer} (hcurrent : w.Current)
    (habort : a = .aborted → kind = .networks) :
    (w.finishRefresh kind scope after a).1.Current ↔
      AbortedInTime w (.answer (.list kind scope after) (.list a)) := by
  have hview := Workspace.keepsView_finishRefresh kind scope after a w
  rw [Workspace.Current, hview.onScreen, hview.mode]
  rcases eq_or_ne w.containersViewMode.kind kind with hkind | hne
  · rw [hkind, Workspace.settled_finishRefresh_iff]
    by_cases haborted : a = .aborted
    · subst haborted
      obtain rfl := habort rfl
      have hmode : w.containersViewMode = .networks := by
        cases hmode : w.containersViewMode <;> rw [hmode] at hkind <;> first | rfl | cases hkind
      exact ⟨fun h hscreen _ hscope => h hscreen rfl hscope,
        fun h hscreen _ hscope => h hscreen hmode hscope⟩
    · refine ⟨fun _ => ?_, fun _ _ h => absurd h haborted⟩
      cases kind <;> cases a <;> trivial
  · rw [Workspace.settled_finishRefresh_of_ne hne]
    refine ⟨fun _ => ?_, fun _ => hcurrent⟩
    cases a with
    | aborted =>
        obtain rfl := habort rfl
        intro _ hmode
        exact absurd (congrArg ContainersViewMode.kind hmode) hne
    | _ => cases kind <;> trivial

/-- A step keeps the flags and the requests together. -/
theorem Tracked.step {p q : WorkspaceConfig} {l : WorkspaceLabel} (htracked : Tracked p)
    (h : workspaceLoop.Step p l q) : Tracked q := by
  cases h with
  | event hstep => exact htracked.append (Workspace.handle_settles hstep).tracks
  | @answer w v k answer front back new hstep =>
      cases k with
      | list kind scope after =>
          obtain ⟨a, -, heq, -⟩ := resume_list hstep
          have hanswered := htracked.answered.append
            (Workspace.tracks_finishRefresh kind scope after a w)
          rwa [← heq] at hanswered
      | _ =>
          exact (htracked.answered_other fun _ => rfl).append
            (Workspace.resume_settles (fun _ => rfl) hstep).tracks

/-- **What a step does** to the list on screen: it is settled just if no abort is answered too
late. -/
theorem current_step_iff {p q : WorkspaceConfig} {l : WorkspaceLabel}
    (h : workspaceLoop.Step p l q) (hcurrent : p.state.Current) :
    q.state.Current ↔ AbortedInTime p.state l := by
  cases h with
  | event hstep =>
      exact ⟨fun _ => trivial, fun _ => (Workspace.handle_settles hstep).current hcurrent⟩
  | @answer w v k answer front back new hstep =>
      cases k with
      | list kind scope after =>
          obtain ⟨a, rfl, heq, habort⟩ := resume_list hstep
          have hiff := @current_finishRefresh_iff w kind scope after a hcurrent habort
          rwa [← heq] at hiff
      | _ =>
          exact ⟨fun _ => trivial,
            fun _ => (Workspace.resume_settles (fun _ => rfl) hstep).current hcurrent⟩

/-- **What a step does** to the list of the resources view. -/
theorem resourcesCurrent_step_iff {p q : WorkspaceConfig} {l : WorkspaceLabel}
    (h : workspaceLoop.Step p l q) (hcurrent : p.state.Current)
    (hresources : p.state.ResourcesCurrent) :
    q.state.ResourcesCurrent ↔ Workspace.ResourcesInTime p.state l := by
  cases h with
  | event hstep => exact (Workspace.handle_settles hstep).resources hcurrent hresources
  | @answer w v k answer front back new hstep =>
      cases k with
      | list kind scope after =>
          obtain ⟨a, rfl, heq, habort⟩ := resume_list hstep
          have hview := Workspace.keepsView_finishRefresh kind scope after a w
          rw [← heq] at hview
          by_cases hkind : kind = .containers
          · subst hkind
            have hnot : a ≠ .aborted := fun h => by cases habort h
            refine (forall_congr' fun hscreen => forall_congr' fun hmode => ?_).trans
              (imp_congr (by rw [hview.onScreen]) (imp_congr (by rw [hview.mode]) Iff.rfl))
            rw [hview.mode] at hmode
            have hiff := @Workspace.resourcesSettled_finishRefresh_iff w after scope a hmode hnot
            rwa [← heq] at hiff
          · have hkeeps := @Workspace.keepsResources_finishRefresh w kind after scope a hkind
            rw [← heq] at hkeeps
            refine iff_of_true (hresources.of_keepsResources hkeeps) ?_
            cases kind with
            | containers => exact absurd rfl hkind
            | _ => trivial
      | _ =>
          have hsettles := Workspace.resume_settles (fun _ => rfl) hstep
          exact (hsettles.resources hcurrent hresources).trans (iff_of_true trivial trivial)

/-- An abort is answered in time if the resources view is on screen after it. -/
theorem abortedInTime_of_resources {p q : WorkspaceConfig} {l : WorkspaceLabel}
    (h : workspaceLoop.Step p l q) (hmode : q.state.containersViewMode = .resources) :
    AbortedInTime p.state l := by
  cases h with
  | event hstep => trivial
  | @answer w v k answer front back new hstep =>
      cases k with
      | list kind scope after =>
          obtain ⟨a, rfl, heq, habort⟩ := resume_list hstep
          cases a with
          | aborted =>
              obtain rfl := habort rfl
              have hview := Workspace.keepsView_finishRefresh .networks scope after .aborted w
              rw [← heq] at hview
              intro _ hnetworks
              rw [hview.mode, hnetworks] at hmode
              cases hmode
          | _ => cases kind <;> trivial
      | _ => trivial

/-- **What a step leaves on screen** is the list of the selected server, just if no abort is
answered too late and the list of the resources view is replaced, or right already. -/
theorem listed_step_iff {p q : WorkspaceConfig} {l : WorkspaceLabel} (htracked : Tracked p)
    (h : workspaceLoop.Step p l q) (hcurrent : p.state.Current)
    (hresources : p.state.ResourcesCurrent) :
    Listed q ↔ AbortedInTime p.state l ∧ Workspace.ResourcesInTime p.state l := by
  rw [(htracked.step h).listed_iff, current_step_iff h hcurrent,
    resourcesCurrent_step_iff h hcurrent hresources]
  refine and_congr_left fun _ => ⟨fun habort => ?_, fun habort _ => habort⟩
  by_cases hmode : q.state.containersViewMode = .resources
  · exact abortedInTime_of_resources h hmode
  · exact habort hmode

/-- After any events and answers, in any order, the flags follow the requests. -/
theorem run_tracked {es : List WorkspaceLabel} {q : WorkspaceConfig}
    (h : Run workspaceLoop.Step ⟨freshWorkspace, []⟩ es q) : Tracked q :=
  h.state_invariant Tracked (fun _ => rfl) fun htracked hstep => htracked.step hstep

/-- **At most one request for each list is in flight**, after any events and answers in any
order. -/
theorem run_requests {es : List WorkspaceLabel} {q : WorkspaceConfig}
    (h : Run workspaceLoop.Step ⟨freshWorkspace, []⟩ es q) (kind : ListKind) :
    listRequests kind q.waiting ≤ 1 := by
  rw [run_tracked h kind]
  exact Bool.toNat_le _

/-- **The list on screen.** At most one request for each list is in flight, after any events and
answers in any order. And the runs in which the list on screen is that of the selected server,
whenever no request for it is in flight, are those in which no abort is answered too late, and in
which the list of the resources view is right already wherever nothing will replace it. -/
theorem run_listed_iff {es : List WorkspaceLabel} {q : WorkspaceConfig} :
    (Run workspaceLoop.Step ⟨freshWorkspace, []⟩ es q →
      ∀ kind, listRequests kind q.waiting ≤ 1) ∧
    (Run (fun p l r => workspaceLoop.Step p l r ∧ Listed r) ⟨freshWorkspace, []⟩ es q ↔
      Run (fun p l r => workspaceLoop.Step p l r ∧ AbortedInTime p.state l ∧
        Workspace.ResourcesInTime p.state l) ⟨freshWorkspace, []⟩ es q) := by
  refine ⟨run_requests, Run.congr
    (fun p => Tracked p ∧ p.state.Current ∧ p.state.ResourcesCurrent)
    ⟨fun _ => rfl, fun h => absurd h Bool.false_ne_true, fun h => absurd h Bool.false_ne_true⟩
    ?_ ?_⟩
  · rintro p l r ⟨htracked, hcurrent, hresources⟩ ⟨hstep, hlisted⟩
    obtain ⟨habort, hright⟩ := (listed_step_iff htracked hstep hcurrent hresources).mp hlisted
    exact ⟨htracked.step hstep, (current_step_iff hstep hcurrent).mpr habort,
      (resourcesCurrent_step_iff hstep hcurrent hresources).mpr hright⟩
  · rintro p l r ⟨htracked, hcurrent, hresources⟩
    exact and_congr_right fun hstep => listed_step_iff htracked hstep hcurrent hresources

/-! ### Two runs -/

/-- A run that leaves the list of another server on screen. -/
theorem not_listed_of_exec {inputs : List (Input WorkspaceEvent WorkspaceAnswer)}
    {mode : ContainersViewMode} {scope source : String} {rows : List WorkspaceRow}
    (hexec : (workspaceLoop.exec (fun _ _ => true) ⟨freshWorkspace, []⟩ inputs).map
      (fun q => (q.state.onScreen, q.state.containersViewMode, q.state.containersSelectedScope,
        listRequests q.state.containersViewMode.kind q.waiting, q.state.shown)) =
      some (true, mode, scope, 0, .loaded source rows)) (hne : source ≠ scope) :
    ∃ es q, Run workspaceLoop.Step ⟨freshWorkspace, []⟩ es q ∧ ¬ Listed q := by
  obtain ⟨q, hrun, hvalues⟩ := Option.map_eq_some_iff.mp hexec
  simp only [Prod.mk.injEq] at hvalues
  obtain ⟨hscreen, -, hscope, hnone, hshown⟩ := hvalues
  obtain ⟨es, hsteps⟩ := run_of_exec hrun
  refine ⟨es, q, hsteps.mono And.left, fun hlisted => ?_⟩
  have hshows := hlisted hscreen (listRequests_eq_zero_iff.mp hnone)
  rw [hshown, hscope] at hshows
  exact hne hshows

/-- The networks of one server are shown. Another server is selected in the table, and the networks
are opened, left and opened again before the abort of the request is answered. -/
def reopenNetworks : List (Input WorkspaceEvent WorkspaceAnswer) :=
  [.event (.serverList ["local:a", "local:b"]), .event (.enter .networks),
    .answer 0 (.list (.rows ["bridge"])), .event (.switchView .table),
    .event (.selectServer "local:b"), .event (.switchView .networks), .event (.switchView .table),
    .event (.switchView .networks), .answer 1 (.list .aborted)]

/-- **A request that was aborted may be answered too late**: the networks are on screen again, their
refresh was dropped, and they stay those of the other server. -/
theorem aborted_answer_lost : ∃ es q,
    Run workspaceLoop.Step ⟨freshWorkspace, []⟩ es q ∧ ¬ Listed q := by
  refine @not_listed_of_exec reopenNetworks .networks "local:b" "local:a"
    [⟨"bridge", "local:a", "local:a"⟩] ?_ (by decide)
  decide

/-- The resources view shows the containers of a server, and another one is picked that has none. -/
def pickEmptyServer : List (Input WorkspaceEvent WorkspaceAnswer) :=
  [.event (.serverList ["local:a", "local:b"]), .event (.enter .resources),
    .answer 0 (.list (.rows ["web"])), .event (.selectServer "local:b"),
    .answer 0 (.list (.rows []))]

/-- **Nothing clears the list of the resources view**: an answer without containers leaves those of
the server before. -/
theorem resources_list_stays : ∃ es q,
    Run workspaceLoop.Step ⟨freshWorkspace, []⟩ es q ∧ ¬ Listed q := by
  refine @not_listed_of_exec pickEmptyServer .resources "local:b" "local:a"
    [⟨"web", "local:a", "local:a"⟩] ?_ (by decide)
  decide

end Contiwatch
