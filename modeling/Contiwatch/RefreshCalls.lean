import Contiwatch.ListRefreshes

/-!
# Calls That Refresh a List

After an action, a prune or a removal the page calls `refreshContainers`, `refreshVolumes` and so
on, and goes on when the promise of the call resolves. `runScopedRefresh` returns at once from a
call that meets a request in flight, and sends nothing for it.

Times are counted in steps of the page, and a request keeps the time at which it was sent. While the
selected server stays the same, what a list shows is that of an answer. The list of the resources
view has a time of its own: an answer without containers leaves it.

## Main results

* `requesting_or_idle` — what is known of a list after any calls and answers.
* `run_refreshed_iff` — when the promise of a call resolves, the list shows what was asked for at
  the call or later, or such a request is in flight, exactly if no call meets a request in flight,
  and every answer in the resources view brings containers.
* `refresh_can_be_lost` — the list of the time before a removal stays.
-/

namespace Contiwatch

open EventLoop

/-! ### Times -/

/-- The page with the number of its steps. `shownFrom` is when the request was sent whose answer a
list shows, `resourcesFrom` the same for the list of the resources view. -/
structure TimedWorkspace where
  page : Workspace
  now : ℕ
  shownFrom : ListKind → Option ℕ
  resourcesFrom : Option ℕ

/-- What the page waits for, with the time of the request. -/
abbrev TimedWait := WorkspaceWait × ℕ

namespace TimedWorkspace

/-- The time of what the list of the resources view shows, after an event that may render it from
the cache. -/
def resourcesRendered (s : TimedWorkspace) : WorkspaceEvent → Option ℕ
  | .switchView .resources | .enter .resources | .selectResources _ => s.shownFrom .containers
  | .redraw _ =>
      if s.page.containersSelectedScope ≠ "" ∧ s.page.containersViewMode = .resources ∧
          (s.page.listing .containers).rows ≠ [] then s.shownFrom .containers
      else s.resourcesFrom
  | _ => s.resourcesFrom

/-- An event, and the requests that are sent for it. -/
def handle (s : TimedWorkspace) (e : WorkspaceEvent) : Option (TimedWorkspace × List TimedWait) :=
  (s.page.handle e).map fun (page, new) =>
    ({ s with page := page, now := s.now + 1, resourcesFrom := s.resourcesRendered e },
      new.map (·, s.now))

/-- The times of what the lists show, but that of the resources view, after the answer to a request
that was sent at `sentAt`. -/
def shownAfter (s : TimedWorkspace) (sentAt : ℕ) :
    WorkspaceWait → WorkspaceAnswer → ListKind → Option ℕ
  | .list _ _ _, .list .aborted => s.shownFrom
  | .list kind scope _, .list _ =>
      if s.page.containersSelectedScope = scope then
        Function.update s.shownFrom kind (some sentAt)
      else s.shownFrom
  | _, _ => s.shownFrom

/-- The time of what the list of the resources view shows then: it is rendered with the containers
of an answer, if it is on and there are some. -/
def resourcesAfter (s : TimedWorkspace) (sentAt : ℕ) :
    WorkspaceWait → WorkspaceAnswer → Option ℕ
  | .list .containers scope _, .list answer =>
      if s.page.containersSelectedScope = scope ∧ s.page.containersViewMode = .resources ∧
          answer.ids ≠ [] then some sentAt
      else s.resourcesFrom
  | _, _ => s.resourcesFrom

/-- When the request was sent whose answer is shown: the resources view shows its own list of the
containers. -/
def listFrom (s : TimedWorkspace) (kind : ListKind) : Option ℕ :=
  if kind = .containers ∧ s.page.containersViewMode = .resources then s.resourcesFrom
  else s.shownFrom kind

/-- An answer. -/
def resume (s : TimedWorkspace) (k : TimedWait) (answer : WorkspaceAnswer) :
    Option (TimedWorkspace × List TimedWait) :=
  (s.page.resume k.1 answer).map fun (page, new) =>
    ({ page := page, now := s.now + 1, shownFrom := s.shownAfter k.2 k.1 answer,
        resourcesFrom := s.resourcesAfter k.2 k.1 answer },
      new.map (·, s.now))

end TimedWorkspace

/-- The page with times, as an event loop. -/
def timedLoop : EventLoop TimedWorkspace WorkspaceEvent TimedWait WorkspaceAnswer where
  handle := TimedWorkspace.handle
  resume := TimedWorkspace.resume

/-- A page with the requests that it waits for. -/
abbrev TimedConfig := EventLoop.Config TimedWorkspace TimedWait

/-- The steps of the page. -/
abbrev TimedLabel := EventLoop.Label WorkspaceEvent TimedWait WorkspaceAnswer

/-- The calls that refresh a list, and the answers to its requests. -/
def OfList (kind : ListKind) : TimedLabel → Prop
  | .event (.refresh kind') => kind' = kind
  | .answer (.list kind' _ _, _) _ => kind' = kind
  | _ => False

/-- A step of one list. -/
def ListStep (kind : ListKind) (p : TimedConfig) (l : TimedLabel) (q : TimedConfig) : Prop :=
  timedLoop.Step p l q ∧ OfList kind l

/-- The time of a call of which the promise resolves in a step: of one that returns at once, and of
one whose answer has come. -/
def resolvedCall (s : TimedWorkspace) : TimedLabel → Option ℕ
  | .event (.refresh kind) =>
      if s.page.inFlight kind = true ∨ s.page.containersSelectedScope = "" then some s.now else none
  | .answer (.list _ _ _, sentAt) _ => some sentAt
  | _ => none

/-- The list shows the answer to a request that was sent at the time or later, or such a request is
in flight. -/
def Fresh (kind : ListKind) (time : ℕ) (q : TimedConfig) : Prop :=
  (∃ sentAt, q.state.listFrom kind = some sentAt ∧ time ≤ sentAt) ∨
    ∃ scope after sentAt, (.list kind scope after, sentAt) ∈ q.waiting ∧ time ≤ sentAt

/-- A call whose promise resolves leaves a fresh list. -/
def Refreshed (kind : ListKind) (p : TimedConfig) (l : TimedLabel) (q : TimedConfig) : Prop :=
  ∀ time, resolvedCall p.state l = some time → Fresh kind time q

/-- A call is made while no request for its list is in flight. -/
def MeetsNone (w : Workspace) : TimedLabel → Prop
  | .event (.refresh kind) => w.inFlight kind = false
  | _ => True

/-- An answer to a request for the containers brings some, if the resources view is on. -/
def BringsContainers (w : Workspace) : TimedLabel → Prop
  | .answer (.list .containers _ _, _) (.list answer) =>
      w.containersViewMode = .resources → answer.ids ≠ []
  | _ => True

/-- A page from which the calls start. -/
def startTimed (w : Workspace) : TimedConfig := ⟨⟨w, 0, fun _ => none, none⟩, []⟩

/-! ### One list -/

/-- What a list is while nothing is asked for, and while a request waits that is newer than what is
shown. -/
inductive ListState (kind : ListKind) (scope : String) : TimedConfig → Prop
  | idle {s : TimedWorkspace} (hscope : s.page.containersSelectedScope = scope)
      (hflight : s.page.inFlight kind = false)
      (hshown : ∀ sentAt, s.listFrom kind = some sentAt → sentAt < s.now) :
      ListState kind scope ⟨s, []⟩
  | requesting {s : TimedWorkspace} {sentAt : ℕ}
      (hscope : s.page.containersSelectedScope = scope) (hflight : s.page.inFlight kind = true)
      (habort : kind = .networks → s.page.networksAborted = false) (hsent : sentAt < s.now)
      (hshown : ∀ before, s.listFrom kind = some before → before < sentAt) :
      ListState kind scope ⟨s, [(.list kind scope .nothing, sentAt)]⟩

section

variable {kind : ListKind} {scope : String} {p q : TimedConfig} {l : TimedLabel}

/-- A call while nothing is asked for sends a request; one that meets a request changes nothing. -/
theorem refresh_step (hscope : scope ≠ "") {s : TimedWorkspace}
    {r : TimedWorkspace × List TimedWait} (hselected : s.page.containersSelectedScope = scope)
    (h : s.handle (.refresh kind) = some r) :
    (s.page.inFlight kind = true ∧ r = ({ s with now := s.now + 1 }, [])) ∨
      (s.page.inFlight kind = false ∧
        r = ({ s with page := s.page.startRefresh kind, now := s.now + 1 },
          [(.list kind scope .nothing, s.now)])) := by
  obtain ⟨⟨page, new⟩, hpage, rfl⟩ := Option.map_eq_some_iff.mp h
  have heq : s.page.refresh kind .nothing = (page, new) := Option.some.inj hpage
  rcases Workspace.refresh_cases kind .nothing s.page with
    ⟨hflight, hdrop⟩ | ⟨hnone, -⟩ | ⟨hflight, -, hsend⟩
  · obtain ⟨rfl, rfl⟩ := Prod.mk.inj (hdrop.symm.trans heq)
    exact Or.inl ⟨hflight, rfl⟩
  · exact absurd (hselected.symm.trans hnone) hscope
  · obtain ⟨rfl, rfl⟩ := Prod.mk.inj (hsend.symm.trans heq)
    refine Or.inr ⟨hflight, ?_⟩
    rw [hselected]
    rfl

/-- When the request was sent whose answer is shown after the answer to another one. -/
theorem listFrom_answered {s t : TimedWorkspace} {sentAt : ℕ} {a : ListAnswer}
    (hselected : s.page.containersSelectedScope = scope) (hnot : a ≠ .aborted)
    (hmode : t.page.containersViewMode = s.page.containersViewMode)
    (hshown : t.shownFrom = s.shownAfter sentAt (.list kind scope .nothing) (.list a))
    (hresources : t.resourcesFrom =
      s.resourcesAfter sentAt (.list kind scope .nothing) (.list a)) :
    BringsContainers s.page (.answer (.list kind scope .nothing, sentAt) (.list a)) ∧
        t.listFrom kind = some sentAt ∨
      ¬ BringsContainers s.page (.answer (.list kind scope .nothing, sentAt) (.list a)) ∧
        t.listFrom kind = s.listFrom kind := by
  rw [TimedWorkspace.listFrom, TimedWorkspace.listFrom, hmode]
  by_cases hview : kind = .containers ∧ s.page.containersViewMode = .resources
  · -- only an answer with containers is rendered
    obtain ⟨rfl, hview⟩ := hview
    rw [if_pos ⟨rfl, hview⟩, if_pos ⟨rfl, hview⟩, hresources, TimedWorkspace.resourcesAfter]
    by_cases hids : a.ids = []
    · exact Or.inr ⟨fun hbrings => hbrings hview hids, if_neg fun h => h.2.2 hids⟩
    · exact Or.inl ⟨fun _ => hids, if_pos ⟨hselected, hview, hids⟩⟩
  · rw [if_neg hview, hshown]
    refine Or.inl ⟨?_, ?_⟩
    · cases kind with
      | containers => exact fun hresourcesView => absurd ⟨rfl, hresourcesView⟩ hview
      | _ => trivial
    · have hupdated : s.shownAfter sentAt (.list kind scope .nothing) (.list a) =
          Function.update s.shownFrom kind (some sentAt) := by
        cases a with
        | aborted => exact absurd rfl hnot
        | _ => exact if_pos hselected
      rw [hupdated, Function.update_self]

/-- The answer to a request for the list of the selected server is shown, but for one without
containers in the resources view, and the request is over. -/
theorem answer_step {s : TimedWorkspace} {sentAt : ℕ} {answer : WorkspaceAnswer}
    {r : TimedWorkspace × List TimedWait} (hselected : s.page.containersSelectedScope = scope)
    (habort : kind = .networks → s.page.networksAborted = false)
    (h : s.resume (.list kind scope .nothing, sentAt) answer = some r) :
    r.2 = [] ∧ r.1.now = s.now + 1 ∧ r.1.page.containersSelectedScope = scope ∧
      r.1.page.inFlight kind = false ∧
      (BringsContainers s.page (.answer (.list kind scope .nothing, sentAt) answer) ∧
          r.1.listFrom kind = some sentAt ∨
        ¬ BringsContainers s.page (.answer (.list kind scope .nothing, sentAt) answer) ∧
          r.1.listFrom kind = s.listFrom kind) := by
  obtain ⟨⟨page, new⟩, hpage, rfl⟩ := Option.map_eq_some_iff.mp h
  have hanswer : ∃ a, answer = .list a ∧ a ≠ .aborted ∧
      s.page.finishRefresh kind scope .nothing a = (page, new) := by
    cases answer with
    | list a =>
        cases a with
        | aborted =>
            obtain ⟨⟨hkind, haborted⟩, -⟩ := Option.ite_none_right_eq_some.mp hpage
            rw [habort hkind] at haborted
            cases haborted
        | _ => exact ⟨_, rfl, nofun, Option.some.inj hpage⟩
    | _ => cases hpage
  obtain ⟨a, rfl, hnot, hfinish⟩ := hanswer
  rw [Workspace.finishRefresh_selected .nothing a hselected] at hfinish
  obtain ⟨rfl, rfl⟩ := Prod.mk.inj hfinish
  exact ⟨rfl, rfl, hselected, Workspace.endRefresh_inFlight_self kind _,
    listFrom_answered hselected hnot rfl rfl rfl⟩

/-- **What a step does.** The list stays idle or requesting, and the calls of which the promise
resolves leave a fresh list exactly if no request is met and containers are brought where they are
needed. -/
theorem ListState.step (hscope : scope ≠ "") (hp : ListState kind scope p)
    (h : ListStep kind p l q) :
    ListState kind scope q ∧
      (Refreshed kind p l q ↔ MeetsNone p.state.page l ∧ BringsContainers p.state.page l) := by
  obtain ⟨hstep, hof⟩ := h
  cases hp with
  | @idle s hselected hflight hshown =>
      obtain ⟨e, rfl, hevent⟩ := step_idle hstep
      cases e with
      | refresh kind' =>
          obtain rfl : kind' = kind := hof
          rcases refresh_step hscope hselected hevent with ⟨htrue, -⟩ | ⟨-, hr⟩
          · exact absurd (hflight.symm.trans htrue) Bool.false_ne_true
          obtain ⟨t, waiting⟩ := q
          obtain ⟨rfl, rfl⟩ := Prod.mk.inj hr
          refine ⟨.requesting hselected (Workspace.startRefresh_inFlight_self kind' _) ?_
            (Nat.lt_succ_self _) hshown, iff_of_true ?_ ⟨hflight, trivial⟩⟩
          · rintro rfl
            exact Bool.and_false _
          · intro time htime
            rw [resolvedCall, if_neg (by simp [hflight, hselected, hscope])] at htime
            cases htime
      | _ => exact hof.elim
  | @requesting s sentAt hselected hflight habort hsent hshown =>
      rcases step_single hstep with ⟨e, new, rfl, hevent, hwaiting⟩ | ⟨answer, rfl, hanswer⟩
      · cases e with
        | refresh kind' =>
            obtain rfl : kind' = kind := hof
            rcases refresh_step hscope hselected hevent with ⟨-, hr⟩ | ⟨hfalse, -⟩
            · obtain ⟨t, waiting⟩ := q
              obtain ⟨rfl, rfl⟩ := Prod.mk.inj hr
              obtain rfl : waiting = _ := hwaiting
              refine ⟨.requesting hselected hflight habort (Nat.lt_succ_of_lt hsent) hshown,
                iff_of_false (fun hfresh => ?_)
                  fun h => absurd (h.1.symm.trans hflight) Bool.false_ne_true⟩
              -- what is shown and what is in flight are both older than the call
              rcases hfresh s.now (if_pos (Or.inl hflight)) with
                ⟨u, hu, hle⟩ | ⟨scope', after, u, hmem, hle⟩
              · exact absurd ((hshown u hu).trans hsent) (Nat.not_lt.mpr hle)
              · obtain ⟨-, rfl⟩ := Prod.mk.inj (List.mem_singleton.mp hmem)
                exact absurd hsent (Nat.not_lt.mpr hle)
            · exact absurd (hfalse.symm.trans hflight) Bool.false_ne_true
        | _ => exact hof.elim
      · obtain ⟨hnil, hnow, hselected', hflight', hshown'⟩ := answer_step hselected habort hanswer
        obtain ⟨t, waiting⟩ := q
        obtain rfl : waiting = [] := hnil
        have hlater {u : ℕ} (hu : u ≤ sentAt) : u < t.now :=
          hnow ▸ Nat.lt_succ_of_lt (hu.trans_lt hsent)
        rcases hshown' with ⟨hbrings, hshown'⟩ | ⟨hnone, hshown'⟩
        · refine ⟨.idle hselected' hflight' fun u hu => ?_, iff_of_true ?_ ⟨trivial, hbrings⟩⟩
          · obtain rfl := Option.some.inj (hshown'.symm.trans hu)
            exact hlater le_rfl
          · intro time htime
            obtain rfl := Option.some.inj htime
            exact Or.inl ⟨sentAt, hshown', Nat.le_refl _⟩
        · refine ⟨.idle hselected' hflight' fun u hu => ?_,
            iff_of_false (fun hfresh => ?_) fun h => hnone h.2⟩
          · exact hlater (hshown u (hshown'.symm.trans hu)).le
          · -- the list of the resources view is as old as before
            rcases hfresh sentAt rfl with ⟨u, hu, hle⟩ | ⟨_, _, _, hmem, -⟩
            · exact absurd (hshown u (hshown'.symm.trans hu)) (Nat.not_lt.mpr hle)
            · exact absurd hmem List.not_mem_nil

/-- A list without a call in flight starts in its state. -/
theorem listState_start {w : Workspace} (hselected : w.containersSelectedScope = scope)
    (hflight : w.inFlight kind = false) : ListState kind scope (startTimed w) := by
  have hnothing : (startTimed w).state.listFrom kind = none := ite_self none
  refine .idle hselected hflight fun sentAt hsent => ?_
  have hnever : none = some sentAt := hnothing.symm.trans hsent
  cases hnever

/-- After any calls and answers a list is idle, or one request for it waits that is newer than what
is shown. -/
theorem requesting_or_idle (hscope : scope ≠ "") {w : Workspace} {es : List TimedLabel}
    (hselected : w.containersSelectedScope = scope) (hflight : w.inFlight kind = false)
    (h : Run (ListStep kind) (startTimed w) es q) : ListState kind scope q :=
  h.state_invariant (ListState kind scope) (listState_start hselected hflight)
    fun hp hstep => (hp.step hscope hstep).1

/-- **Refresh calls.** The runs of the calls for a list and of their answers in which every call
whose promise resolves leaves a list that was asked for at the call or later, or such a request in
flight, are those in which no call meets a request in flight, and no answer in the resources view is
without containers. -/
theorem run_refreshed_iff (hscope : scope ≠ "") {w : Workspace} {es : List TimedLabel}
    (hselected : w.containersSelectedScope = scope) (hflight : w.inFlight kind = false) :
    Run (fun p l r => ListStep kind p l r ∧ Refreshed kind p l r) (startTimed w) es q ↔
      Run (fun p l r => ListStep kind p l r ∧ MeetsNone p.state.page l ∧
        BringsContainers p.state.page l) (startTimed w) es q :=
  Run.congr (ListState kind scope) (listState_start hselected hflight)
    (fun hp hstep => (hp.step hscope hstep.1).1)
    fun hp => and_congr_right fun hstep => (hp.step hscope hstep).2

end

/-! ### Calls in turn, and one that is lost -/

/-- A call for the containers that meets no request, or an answer that brings some. -/
def inTurn (s : TimedWorkspace) : TimedLabel → Bool
  | .event (.refresh .containers) => !s.page.inFlight .containers
  | .answer (.list .containers _ _, _) (.list answer) => !answer.ids.isEmpty
  | _ => false

/-- What `inTurn` lets through meets the conditions. -/
theorem inTurn_spec {s : TimedWorkspace} {l : TimedLabel} (h : inTurn s l = true) :
    OfList .containers l ∧ MeetsNone s.page l ∧ BringsContainers s.page l := by
  rw [inTurn.eq_def] at h
  split at h
  · have hflight := Bool.not_eq_true' _ |>.mp h
    exact ⟨rfl, hflight, trivial⟩
  · exact ⟨rfl, trivial, fun _ => by simpa using h⟩
  · cases h

/-- A page with a server, before the containers are asked for in the resources view. -/
def resourcesPage : Workspace :=
  { freshWorkspace with containersSelectedScope := "local:a", containersViewMode := .resources }

/-- The containers are asked for twice, one call after the other. -/
def refreshTwice : List (Input WorkspaceEvent WorkspaceAnswer) :=
  [.event (.refresh .containers), .answer 0 (.list (.rows ["web"])),
    .event (.refresh .containers), .answer 0 (.list (.rows ["web", "db"]))]

/-- Calls in turn leave what the last of them has asked for. -/
theorem refreshed_alone : ∃ es q,
    Run (fun p l r => ListStep .containers p l r ∧ Refreshed .containers p l r)
      (startTimed resourcesPage) es q ∧ q.state.listFrom .containers = some 2 ∧
      q.state.page.resources.rows.map (·.id) = ["web", "db"] := by
  have hexec : (timedLoop.exec inTurn (startTimed resourcesPage) refreshTwice).map
      (fun q => (q.state.listFrom .containers, q.state.page.resources.rows.map (·.id))) =
      some (some 2, ["web", "db"]) := by
    decide
  obtain ⟨q, hrun, hvalues⟩ := Option.map_eq_some_iff.mp hexec
  obtain ⟨hfrom, hrows⟩ := Prod.mk.inj hvalues
  obtain ⟨es, hsteps⟩ := run_of_exec hrun
  refine ⟨es, q, (run_refreshed_iff (by decide) rfl rfl).mpr (hsteps.mono fun h => ?_), hfrom,
    hrows⟩
  exact ⟨⟨h.1, (inTurn_spec h.2).1⟩, (inTurn_spec h.2).2⟩

/-- A page with a server, before the volumes are asked for. -/
def volumesPage : Workspace := { freshWorkspace with containersSelectedScope := "local:a" }

/-- The page while it waits for the volumes. -/
def volumesAsked : TimedConfig :=
  ⟨⟨volumesPage.startRefresh .volumes, 1, fun _ => none, none⟩,
    [(.list .volumes "local:a" .nothing, 0)]⟩

/-- The first call. -/
theorem volumesAsked_step :
    ListStep .volumes (startTimed volumesPage) (.event (.refresh .volumes)) volumesAsked :=
  ⟨.event rfl, rfl⟩

/-- The volumes are asked for, one of them is removed, and the call after that finds the request
still in flight: its promise resolves, and nothing is asked for after the removal. -/
theorem refresh_can_be_lost :
    ¬ ∀ (kind : ListKind) (scope : String) (w : Workspace) (es : List TimedLabel)
        (p q : TimedConfig) (l : TimedLabel), scope ≠ "" → w.containersSelectedScope = scope →
      w.inFlight kind = false → Run (ListStep kind) (startTimed w) es p → ListStep kind p l q →
        Refreshed kind p l q := by
  intro h
  have hdropped : ListStep .volumes volumesAsked (.event (.refresh .volumes))
      ⟨{ volumesAsked.state with now := 2 }, volumesAsked.waiting⟩ :=
    ⟨@Step.event _ _ _ _ timedLoop volumesAsked.state _ _ _ [] rfl, rfl⟩
  have hfresh := h .volumes "local:a" volumesPage _ _ _ _ (by decide) rfl rfl
    (Run.single volumesAsked_step) hdropped 1 rfl
  rcases hfresh with ⟨sentAt, hshown, -⟩ | ⟨scope, after, sentAt, hmem, hle⟩
  · cases hshown
  · obtain ⟨-, rfl⟩ := Prod.mk.inj (List.mem_singleton.mp hmem)
    exact absurd hle (by decide)

end Contiwatch
