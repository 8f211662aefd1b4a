import Contiwatch.StackActions
import Contiwatch.StackJobRuns

/-!
# Actions on One Stack

Two stack actions on one server and one Compose project should not run at the same time. The job
manager compares the text of the scope and of the name, while the action is carried out on the
server that the scope resolves to and on the project that the name is made into; and the
synchronous endpoint asks nobody.

## Main results

* `run_exclusive_iff` — actions on one target exclude each other exactly in the runs in which an
  action is accepted only while all actions in progress on its target came through the job manager
  under the same scope and name, and a synchronous action only while there is none.
* `actions_can_overlap` — one stack under two spellings of its scope.
-/

namespace Contiwatch

open GoStrings JobSystem

section

variable (fold : Char → Char)

/-- Where Docker Compose works for a request: the host of an agent, a server reached through a
socket, or an agent. Names of servers are compared without regard to case. -/
inductive TargetServer
  | agentHost
  | onHost (name : List Char)
  | remote (name : List Char)
  deriving DecidableEq, Repr

/-- A server and a Compose project. -/
structure Target where
  server : TargetServer
  project : String
  deriving DecidableEq, Repr

/-- The server that `executeStackAction` finds, as `runComposeFromPayload`,
`buildRemoteStackActionRequest` and `runComposeFromStorage` do. -/
def targetServer (cfg : Config) : Option (ServerType × String) → Option TargetServer
  | none => some .agentHost
  | some (.onHost, name) =>
      (findLocalServer fold cfg.localServers name).map fun _ => .onHost (name.toList.map fold)
  | some (.remote, name) =>
      (findRemoteServer fold cfg.remoteServers name).bind fun remote =>
        if remote.url = "" then none else some (.remote (name.toList.map fold))

/-- The target of a request. -/
def targetOf (payload : ParsedStackActionRequest) (cfg : Config) : Option Target :=
  (targetServer fold cfg payload.server).map fun server =>
    { server := server, project := composeProjectName payload.request.name }

/-- An accepted request: the job that carries it out, if there is one, the configuration that was
read for it, the calls of Docker Compose that are still to be made on this instance, and whether
one of them is being made. -/
structure AcceptedAction where
  via : Option ℕ
  payload : ParsedStackActionRequest
  cfg : Config
  todo : List String
  composing : Bool
  done : Bool

/-- The request when it is accepted. On an agent, Docker Compose is not called here. -/
def AcceptedAction.new (via : Option ℕ) (payload : ParsedStackActionRequest) (cfg : Config) :
    AcceptedAction where
  via := via
  payload := payload
  cfg := cfg
  todo :=
    if payload.server.map Prod.fst = some .remote then [] else composeSteps payload.request.action
  composing := false
  done := false

/-- Two requests have the same target. -/
def SameTarget (a b : AcceptedAction) : Prop :=
  ∃ target, targetOf fold a.payload a.cfg = some target ∧
    targetOf fold b.payload b.cfg = some target

/-- Targets are the same either way. -/
theorem SameTarget.symm {fold : Char → Char} {a b : AcceptedAction} (h : SameTarget fold a b) :
    SameTarget fold b a := by
  obtain ⟨target, ha, hb⟩ := h
  exact ⟨target, hb, ha⟩

/-- The stack actions of an instance. `pending` is the request for which the start request is made
that holds the lock of the manager. -/
structure StackServer where
  manager : JobSystem
  pending : Option (ParsedStackActionRequest × Config)
  actions : List AcceptedAction

namespace StackServer

/-- An instance without actions. -/
def new (start : ℕ) : StackServer where
  manager := .new start
  pending := none
  actions := []

/-- What happens to stack actions. -/
inductive Event
  /-- A step of the manager. -/
  | manager (e : JobSystem.Event)
  /-- `POST /api/stacks/jobs` gets the lock of the manager. -/
  | startRequest (payload : ParsedStackActionRequest) (cfg : Config)
  /-- The job is created. -/
  | accept (id : String)
  /-- `POST /api/stacks/action`. -/
  | acceptSync (payload : ParsedStackActionRequest) (cfg : Config)
  | composeStarts (i : ℕ)
  | composeEnds (i : ℕ) (ok : Bool)
  | returns (i : ℕ)

/-- The steps of the manager that belong to no other step: neither the start of a request, nor the
creation of a job, nor the end of its action. -/
def ownStep : JobSystem.Event → Bool
  | .lock _ | .created _ | .ran _ _ => false
  | _ => true

variable (lower : Char → Char) (agentMode : Bool)

/-- The steps of stack actions, in any order. -/
inductive Step : StackServer → Event → StackServer → Prop
  | manager {s : StackServer} {e : JobSystem.Event} {m : JobSystem} (hown : ownStep e = true)
      (h : JobSystem.Step s.manager e m) : Step s (.manager e) { s with manager := m }
  | startRequest {s : StackServer} {body : StackActionRequest} {payload : ParsedStackActionRequest}
      {cfg : Config} {m : JobSystem}
      (hdecode : decodeStackActionRequest lower agentMode body = .ok payload)
      (h : JobSystem.Step s.manager (.lock (jobSpec agentMode payload)) m) :
      Step s (.startRequest payload cfg) { s with manager := m, pending := some (payload, cfg) }
  | accept {s : StackServer} {payload : ParsedStackActionRequest} {cfg : Config} {id : String}
      {m : JobSystem} (hpending : s.pending = some (payload, cfg))
      (h : JobSystem.Step s.manager (.created id) m) :
      Step s (.accept id)
        { s with
          manager := m
          actions := s.actions ++ [.new (some s.manager.heap.length) payload cfg] }
  | acceptSync {s : StackServer} {body : StackActionRequest} {payload : ParsedStackActionRequest}
      {cfg : Config} (hdecode : decodeStackActionRequest lower agentMode body = .ok payload) :
      Step s (.acceptSync payload cfg) { s with actions := s.actions ++ [.new none payload cfg] }
  | composeStarts {s : StackServer} {i : ℕ} {a : AcceptedAction} (ha : s.actions[i]? = some a)
      (hdone : a.done = false) (hcomposing : a.composing = false) (htodo : a.todo ≠ [])
      (hfound : (targetOf fold a.payload a.cfg).isSome = true) :
      Step s (.composeStarts i) { s with actions := s.actions.set i { a with composing := true } }
  | composeEnds {s : StackServer} {i : ℕ} {a : AcceptedAction} {ok : Bool}
      (ha : s.actions[i]? = some a) (hcomposing : a.composing = true) :
      Step s (.composeEnds i ok)
        { s with
          actions := s.actions.set i { a with
            composing := false
            todo := if ok then a.todo.tail else [] } }
  | returnsJob {s : StackServer} {i r : ℕ} {a : AcceptedAction} {err : Option String}
      {m : JobSystem} (ha : s.actions[i]? = some a) (hdone : a.done = false)
      (hcomposing : a.composing = false) (hvia : a.via = some r)
      (h : JobSystem.Step s.manager (.ran r err) m) :
      Step s (.returns i)
        { s with manager := m, actions := s.actions.set i { a with done := true } }
  | returnsSync {s : StackServer} {i : ℕ} {a : AcceptedAction} (ha : s.actions[i]? = some a)
      (hdone : a.done = false) (hcomposing : a.composing = false) (hvia : a.via = none) :
      Step s (.returns i) { s with actions := s.actions.set i { a with done := true } }

/-- Actions on one target exclude each other: at most one of them is in progress, and at most one
of them has Docker Compose running. -/
def Exclusive (s : StackServer) : Prop :=
  ∀ (i j : ℕ) (a b : AcceptedAction), s.actions[i]? = some a → s.actions[j]? = some b →
    SameTarget fold a b →
    (a.done = false → b.done = false → i = j) ∧ (a.composing = true → b.composing = true → i = j)

/-- A job is created only while all actions in progress on its target came through the manager
under the same scope and name; a synchronous action is accepted only while there is none. -/
def OneSpelling (s : StackServer) : Event → Prop
  | .accept _ => ∀ payload cfg, s.pending = some (payload, cfg) → ∀ a ∈ s.actions, a.done = false →
      SameTarget fold a (.new none payload cfg) →
      a.via.isSome = true ∧ a.payload.request.scope = payload.request.scope ∧
        a.payload.request.name = payload.request.name
  | .acceptSync payload cfg => ∀ a ∈ s.actions, a.done = false →
      ¬ SameTarget fold a (.new none payload cfg)
  | _ => True

/-! ### Actions and jobs -/

/-- The specification of a start request. -/
def specOf : StartPhase → StackJobSpec
  | .pruning spec _ _ => spec
  | .checking spec _ => spec
  | .naming spec => spec

/-- What a step of the manager does to a job: its key stays, and its goroutine stays in `run` unless
`run` returns. -/
theorem jobStays {m m' : JobSystem} {e : JobSystem.Event} (h : JobSystem.Step m e m') {r : ℕ}
    {th : JobThread} (hth : m.heap[r]? = some th) :
    ∃ th', m'.heap[r]? = some th' ∧ th'.job.key = th.job.key ∧
      (th.body = .running → (∀ err, e ≠ .ran r err) → th'.body = .running) := by
  cases h with
  | advance hnow => exact ⟨th, hth, rfl, fun hbody _ => hbody⟩
  | start h =>
      rcases h.heap with heq | ⟨new, heq⟩
      · exact ⟨th, heq ▸ hth, rfl, fun hbody _ => hbody⟩
      · exact ⟨th, heq ▸ Slots.append_of_some hth, rfl, fun hbody _ => hbody⟩
  | @thread k thk thk' e hk h =>
      by_cases hr : r = k
      · subst hr
        obtain rfl := Option.some.inj (hth.symm.trans hk)
        refine ⟨thk', Slots.set_self hth thk', ?_⟩
        cases h with
        | ran hbody => exact ⟨rfl, fun _ hran => absurd rfl (hran _)⟩
        | stopped hbody =>
            exact ⟨rfl, fun hrunning _ => absurd (hrunning.symm.trans hbody) (by simp)⟩
        | finish hbody =>
            refine ⟨(finish_status ..).2.2.2, fun hrunning _ => ?_⟩
            exact absurd (hrunning.symm.trans hbody) (by simp)
        | expire htimer hdue => exact ⟨rfl, fun hrunning _ => hrunning⟩
        | setRemoteExtender hbody | disableExtension hbody =>
            exact ⟨rfl, fun hrunning _ => hrunning⟩
      · exact ⟨th, (Slots.set_ne hr thk').trans hth, rfl, fun hbody _ => hbody⟩
  | extend h =>
      cases h with
      | @extend n k thk hext hk =>
          by_cases hr : r = k
          · subst hr
            obtain rfl := Option.some.inj (hth.symm.trans hk)
            exact ⟨_, Slots.set_self hth _, rfl, fun hbody _ => hbody⟩
          · exact ⟨th, (Slots.set_ne hr _).trans hth, rfl, fun hbody _ => hbody⟩
      | _ => exact ⟨th, hth, rfl, fun hbody _ => hbody⟩

/-- A start request that holds the lock goes on, or has just got it. -/
theorem specOf_step {m m' : JobSystem} {e : JobSystem.Event} (h : JobSystem.Step m e m')
    {phase : StartPhase} (hphase : m'.starting = some phase) :
    (∃ phase₀, m.starting = some phase₀ ∧ specOf phase₀ = specOf phase) ∨
      e = .lock (specOf phase) := by
  cases h with
  | start h =>
      cases h with
      | lock hfree hrange =>
          obtain rfl := Option.some.inj hphase
          exact .inr rfl
      | keep hstart hjob hexpired | delete hstart hjob hexpired | rescan hstart hrange
      | check hstart hjob hother | allClear hstart =>
          obtain rfl := Option.some.inj hphase
          exact .inl ⟨_, hstart, rfl⟩
      | conflict hstart hjob hsame | idFails hstart | created hstart hfresh => cases hphase
  | advance hnow | thread hthread h => exact .inl ⟨phase, hphase, rfl⟩
  | extend h => cases h <;> exact .inl ⟨phase, hphase, rfl⟩

/-- A start request gets the lock or creates its job by a step of its own. -/
theorem startStep_of_step {m m' : JobSystem} {e : JobSystem.Event} (h : JobSystem.Step m e m')
    (he : (∃ spec, e = .lock spec) ∨ ∃ id, e = .created id) : StartStep m e m' := by
  cases h with
  | start h => exact h
  | advance hnow => simp at he
  | thread hthread h => cases h <;> simp at he
  | extend h => cases h <;> simp at he

/-- Actions belong to jobs of their key whose goroutines are at work; the start request that holds
the lock is for the pending request; and Docker Compose runs for actions in progress only. -/
structure ActionsInv (s : StackServer) : Prop where
  manager : JobsInv s.manager
  job : ∀ (i r : ℕ) (a : AcceptedAction), s.actions[i]? = some a → a.via = some r →
    ∃ th, s.manager.heap[r]? = some th ∧ th.job.key = (jobSpec agentMode a.payload).key ∧
      (a.done = false → th.body = .running)
  pending : ∀ phase, s.manager.starting = some phase → ∃ payload cfg,
    s.pending = some (payload, cfg) ∧ specOf phase = jobSpec agentMode payload
  composing : ∀ (i : ℕ) (a : AcceptedAction), s.actions[i]? = some a → a.composing = true →
    a.done = false
  apart : ∀ (i j r : ℕ) (a b : AcceptedAction), s.actions[i]? = some a → s.actions[j]? = some b →
    a.via = some r → b.via = some r → i = j

/-- The manager starts within the invariant. -/
theorem actionsInv_new (start : ℕ) : ActionsInv agentMode (new start) where
  manager := jobsInv_new start
  job := fun i r a ha => absurd ha (by simp [new])
  pending := fun phase hphase => absurd hphase (by simp [new, JobSystem.new])
  composing := fun i a ha => absurd ha (by simp [new])
  apart := fun i j r a b ha => absurd ha (by simp [new])

variable {agentMode} {s t : StackServer} {e : Event}

/-- A step of the manager, other than the start of a request, by which no action in progress
returns. -/
theorem ActionsInv.managerStep (h : ActionsInv agentMode s) {e : JobSystem.Event} {m : JobSystem}
    (hstep : JobSystem.Step s.manager e m) (hlock : ∀ spec, e ≠ .lock spec)
    (hran : ∀ (r : ℕ) (err : Option String), e = .ran r err → ∀ (i : ℕ) (a : AcceptedAction),
      s.actions[i]? = some a → a.via = some r → a.done = true) :
    ActionsInv agentMode { s with manager := m } where
  manager := h.manager.step hstep
  job i r a ha hvia := by
    obtain ⟨th, hth, hkey, hbody⟩ := h.job i r a ha hvia
    obtain ⟨th', hth', hkey', hbody'⟩ := jobStays hstep hth
    refine ⟨th', hth', hkey'.trans hkey, fun hdone => hbody' (hbody hdone) fun err heq => ?_⟩
    exact absurd (hran r err heq i a ha hvia) (by simp [hdone])
  pending phase hphase := by
    rcases specOf_step hstep hphase with ⟨phase₀, hphase₀, hspec⟩ | heq
    · obtain ⟨payload, cfg, hpending, hspec₀⟩ := h.pending phase₀ hphase₀
      exact ⟨payload, cfg, hpending, hspec.symm.trans hspec₀⟩
    · exact absurd heq (hlock _)
  composing := h.composing
  apart := h.apart

/-- An action changes, but not its request nor its job. -/
theorem ActionsInv.set (h : ActionsInv agentMode s) {i : ℕ} {a a' : AcceptedAction}
    (ha : s.actions[i]? = some a) (hvia : a'.via = a.via) (hpayload : a'.payload = a.payload)
    (hdone : a'.done = false → a.done = false)
    (hcomposing : a'.composing = true → a'.done = false) :
    ActionsInv agentMode { s with actions := s.actions.set i a' } where
  manager := h.manager
  pending := h.pending
  job j r b hb hr := by
    rcases Slots.of_set ha hb with ⟨rfl, rfl⟩ | ⟨-, hb⟩
    · obtain ⟨th, hth, hkey, hbody⟩ := h.job j r a ha (hvia ▸ hr)
      exact ⟨th, hth, hpayload ▸ hkey, fun hd => hbody (hdone hd)⟩
    · exact h.job j r b hb hr
  composing j b hb hc := by
    rcases Slots.of_set ha hb with ⟨rfl, rfl⟩ | ⟨-, hb⟩
    · exact hcomposing hc
    · exact h.composing j b hb hc
  apart j k r b c hb hc hr hr' := by
    have hold : ∀ {n : ℕ} {d : AcceptedAction}, (s.actions.set i a')[n]? = some d → d.via = some r →
        ∃ d₀, s.actions[n]? = some d₀ ∧ d₀.via = some r := by
      intro n d hd hdr
      rcases Slots.of_set ha hd with ⟨rfl, rfl⟩ | ⟨-, hd⟩
      · exact ⟨a, ha, hvia ▸ hdr⟩
      · exact ⟨d, hd, hdr⟩
    obtain ⟨b₀, hb₀, hr₀⟩ := hold hb hr
    obtain ⟨c₀, hc₀, hr₀'⟩ := hold hc hr'
    exact h.apart j k r b₀ c₀ hb₀ hc₀ hr₀ hr₀'

/-- A request is accepted: its job, if it has one, is new and has its key. -/
theorem ActionsInv.append (h : ActionsInv agentMode s) {via : Option ℕ}
    {payload : ParsedStackActionRequest} {cfg : Config}
    (hjob : ∀ r, via = some r → ∃ th, s.manager.heap[r]? = some th ∧
      th.job.key = (jobSpec agentMode payload).key ∧ th.body = .running)
    (hnew : ∀ (i r : ℕ) (a : AcceptedAction), s.actions[i]? = some a → a.via = some r →
      via ≠ some r) :
    ActionsInv agentMode { s with actions := s.actions ++ [.new via payload cfg] } where
  manager := h.manager
  pending := h.pending
  job i r a ha hr := by
    rcases Slots.of_append ha with ⟨-, rfl⟩ | ha
    · obtain ⟨th, hth, hkey, hbody⟩ := hjob r hr
      exact ⟨th, hth, hkey, fun _ => hbody⟩
    · exact h.job i r a ha hr
  composing i a ha hc := by
    rcases Slots.of_append ha with ⟨-, rfl⟩ | ha
    · rfl
    · exact h.composing i a ha hc
  apart i j r a b ha hb hr hr' := by
    rcases Slots.of_append ha with ⟨rfl, rfl⟩ | ha <;>
      rcases Slots.of_append hb with ⟨rfl, rfl⟩ | hb
    · rfl
    · exact absurd hr (hnew j r b hb hr')
    · exact absurd hr' (hnew i r a ha hr)
    · exact h.apart i j r a b ha hb hr hr'

/-- The request that is accepted with a new job, and the key that the manager has checked. -/
theorem ActionsInv.naming (h : ActionsInv agentMode s) {id : String} {m : JobSystem}
    {payload : ParsedStackActionRequest} {cfg : Config} (hpending : s.pending = some (payload, cfg))
    (hstep : JobSystem.Step s.manager (.created id) m) :
    s.manager.starting = some (.naming (jobSpec agentMode payload)) ∧ m.starting = none ∧
      m.heap = s.manager.heap ++
        [⟨newStackJob s.manager.clock id (jobSpec agentMode payload), .running⟩] := by
  cases startStep_of_step hstep (.inr ⟨id, rfl⟩) with
  | @created spec _ hphase hfresh =>
      obtain ⟨payload', cfg', hpending', hspec⟩ := h.pending _ hphase
      obtain ⟨rfl, rfl⟩ := Prod.mk.inj (Option.some.inj (hpending.symm.trans hpending'))
      obtain rfl : spec = jobSpec agentMode payload := hspec
      exact ⟨hphase, rfl, rfl⟩

/-- Every step keeps it. -/
theorem ActionsInv.step (h : ActionsInv agentMode s) (hstep : Step fold lower agentMode s e t) :
    ActionsInv agentMode t := by
  cases hstep with
  | @manager e m hown hm =>
      refine h.managerStep hm ?_ ?_
      · rintro spec rfl
        cases hown
      · rintro r err rfl
        cases hown
  | @startRequest body payload cfg m hdecode hm =>
      refine ⟨h.manager.step hm, ?_, ?_, h.composing, h.apart⟩
      · intro i r a ha hvia
        obtain ⟨th, hth, hkey, hbody⟩ := h.job i r a ha hvia
        obtain ⟨th', hth', hkey', hbody'⟩ := jobStays hm hth
        refine ⟨th', hth', hkey'.trans hkey, fun hdone => hbody' (hbody hdone) fun err heq => ?_⟩
        cases heq
      · intro phase hphase
        cases startStep_of_step hm (.inl ⟨_, rfl⟩) with
        | lock hfree hrange =>
            obtain rfl := Option.some.inj hphase
            exact ⟨payload, cfg, rfl, rfl⟩
  | @accept payload cfg id m hpending hm =>
      obtain ⟨-, -, hheap⟩ := h.naming hpending hm
      have hmanager : ActionsInv agentMode { s with manager := m } :=
        h.managerStep hm (fun spec heq => by cases heq) (fun r err heq => by cases heq)
      refine hmanager.append ?_ ?_
      · rintro r hr
        obtain rfl := Option.some.inj hr
        exact ⟨_, by rw [hheap]; exact Slots.append_self _ _, rfl, rfl⟩
      · rintro i r a ha hr heq
        obtain rfl := Option.some.inj heq
        obtain ⟨th, hth, -⟩ := h.job i _ a ha hr
        exact Slots.ne_length hth rfl
  | acceptSync hdecode =>
      exact h.append (fun r hr => by cases hr) fun i r a ha hr heq => by cases heq
  | composeStarts ha hdone hcomposing htodo hfound =>
      exact h.set ha rfl rfl id fun _ => hdone
  | composeEnds ha hcomposing => exact h.set ha rfl rfl id fun hc => by cases hc
  | @returnsJob i r a err m ha hdone hcomposing hvia hm =>
      have hset :
          ActionsInv agentMode { s with actions := s.actions.set i { a with done := true } } :=
        h.set ha rfl rfl (fun hd => by cases hd) fun hc => absurd hc (by simp [hcomposing])
      refine hset.managerStep hm (fun spec heq => by cases heq) ?_
      rintro r' err' heq j b hb hr'
      obtain ⟨rfl, -⟩ := JobSystem.Event.ran.inj heq
      rcases Slots.of_set ha hb with ⟨-, rfl⟩ | ⟨hj, hb⟩
      · rfl
      · exact absurd (h.apart j i r b a hb ha hr' hvia) hj
  | returnsSync ha hdone hcomposing hvia =>
      exact h.set ha rfl rfl (fun hd => by cases hd) fun hc => absurd hc (by simp [hcomposing])

/-! ### Exclusion -/

variable {fold lower}

/-- Exclusion is kept when actions only come to their end, or let Docker Compose run while they are
in progress. -/
theorem Exclusive.set (h : Exclusive fold s) (hinv : ActionsInv agentMode s) {i : ℕ}
    {a a' : AcceptedAction} {m : JobSystem} (ha : s.actions[i]? = some a)
    (hpayload : a'.payload = a.payload) (hcfg : a'.cfg = a.cfg)
    (hdone : a'.done = false → a.done = false) (hcomposing : a'.composing = true → a.done = false) :
    Exclusive fold { s with manager := m, actions := s.actions.set i a' } := by
  -- each action was in progress before if it is now, or if Docker Compose runs for it now
  have hold : ∀ {n : ℕ} {d : AcceptedAction}, (s.actions.set i a')[n]? = some d →
      ∃ d₀, s.actions[n]? = some d₀ ∧ d.payload = d₀.payload ∧ d.cfg = d₀.cfg ∧
        (d.done = false → d₀.done = false) ∧ (d.composing = true → d₀.done = false) := by
    intro n d hd
    rcases Slots.of_set ha hd with ⟨rfl, rfl⟩ | ⟨-, hd⟩
    · exact ⟨a, ha, hpayload, hcfg, hdone, hcomposing⟩
    · exact ⟨d, hd, rfl, rfl, id, hinv.composing n d hd⟩
  intro j k b c hb hc hsame
  obtain ⟨b₀, hb₀, hpb, hcb, hdb, hkb⟩ := hold hb
  obtain ⟨c₀, hc₀, hpc, hcc, hdc, hkc⟩ := hold hc
  rw [SameTarget, hpb, hcb, hpc, hcc] at hsame
  obtain ⟨hprogress, -⟩ := h j k b₀ c₀ hb₀ hc₀ hsame
  exact ⟨fun h₁ h₂ => hprogress (hdb h₁) (hdc h₂), fun h₁ h₂ => hprogress (hkb h₁) (hkc h₂)⟩

/-- A request that is accepted keeps exclusion exactly if no action on its target is in progress. -/
theorem exclusive_append_iff (h : Exclusive fold s) {m : JobSystem} {via : Option ℕ}
    {payload : ParsedStackActionRequest} {cfg : Config} :
    Exclusive fold { s with manager := m, actions := s.actions ++ [.new via payload cfg] } ↔
      ∀ a ∈ s.actions, a.done = false → ¬ SameTarget fold a (.new none payload cfg) := by
  constructor
  · intro hexcl a ha hdone hsame
    obtain ⟨i, hi⟩ := List.mem_iff_getElem?.mp ha
    have hboth := (hexcl i s.actions.length a (.new via payload cfg) (Slots.append_of_some hi)
      (Slots.append_self _ _) hsame).1 hdone rfl
    exact Slots.ne_length hi hboth
  · intro hnone i j a b ha hb hsame
    rcases Slots.of_append ha with ⟨rfl, rfl⟩ | ha <;>
      rcases Slots.of_append hb with ⟨rfl, rfl⟩ | hb
    · exact ⟨fun _ _ => rfl, fun _ _ => rfl⟩
    · refine ⟨fun _ hdone => ?_, fun hc => nomatch hc⟩
      exact absurd hsame.symm (hnone b (List.mem_of_getElem? hb) hdone)
    · refine ⟨fun hdone _ => ?_, fun _ hc => nomatch hc⟩
      exact absurd hsame (hnone a (List.mem_of_getElem? ha) hdone)
    · exact h i j a b ha hb hsame

/-- What one step does to exclusion. -/
theorem exclusive_step_iff (hinv : ActionsInv agentMode s) (h : Exclusive fold s)
    (hstep : Step fold lower agentMode s e t) : Exclusive fold t ↔ OneSpelling fold s e := by
  cases hstep with
  | manager hown hm => exact iff_of_true h trivial
  | startRequest hdecode hm => exact iff_of_true h trivial
  | @accept payload cfg id m hpending hm =>
      obtain ⟨hstarting, -, -⟩ := hinv.naming hpending hm
      rw [exclusive_append_iff h]
      constructor
      · intro hnone payload' cfg' hpending' a ha hdone hsame
        obtain ⟨rfl, rfl⟩ := Prod.mk.inj (Option.some.inj (hpending.symm.trans hpending'))
        exact absurd hsame (hnone a ha hdone)
      · intro hone a ha hdone hsame
        obtain ⟨hvia, hscope, hname⟩ := hone payload cfg hpending a ha hdone hsame
        obtain ⟨r, hr⟩ := Option.isSome_iff_exists.mp hvia
        obtain ⟨i, hi⟩ := List.mem_iff_getElem?.mp ha
        obtain ⟨th, hth, hkey, hbody⟩ := hinv.job i r a hi hr
        have hrunning : th.job.status = .running := by
          by_contra hstatus
          exact absurd ((hinv.manager.done r th hth).mpr hstatus) (by simp [hbody hdone])
        -- the manager has found no running job of this key
        have hchecked := hinv.manager.starting
        rw [hstarting] at hchecked
        exact hchecked r th hth hrunning (by rw [hkey, jobSpec, jobSpec, hscope, hname])
  | acceptSync hdecode => exact exclusive_append_iff (m := s.manager) h
  | composeStarts ha hdone hcomposing htodo hfound =>
      exact iff_of_true (h.set hinv (m := s.manager) ha rfl rfl id fun _ => hdone) trivial
  | composeEnds ha hcomposing =>
      exact iff_of_true (h.set hinv (m := s.manager) ha rfl rfl id fun hc => nomatch hc) trivial
  | returnsJob ha hdone hcomposing hvia hm =>
      exact iff_of_true (h.set hinv ha rfl rfl (fun _ => hdone) fun _ => hdone) trivial
  | returnsSync ha hdone hcomposing hvia =>
      exact iff_of_true (h.set hinv (m := s.manager) ha rfl rfl (fun _ => hdone) fun _ => hdone)
        trivial

/-- **Exclusion over runs.** The runs in which actions on one target always exclude each other are
exactly the runs in which a request is accepted only under one spelling at a time. -/
theorem run_exclusive_iff {start : ℕ} {es : List Event} {q : StackServer} :
    Run (fun s e t => Step fold lower agentMode s e t ∧ Exclusive fold t) (new start) es q ↔
      Run (fun s e t => Step fold lower agentMode s e t ∧ OneSpelling fold s e) (new start) es
        q := by
  refine Run.congr (fun s => ActionsInv agentMode s ∧ Exclusive fold s)
    ⟨actionsInv_new agentMode start, fun i j a b ha => absurd ha (by simp [new])⟩ ?_ ?_
  · rintro s e t ⟨hinv, -⟩ ⟨hstep, hexcl⟩
    exact ⟨hinv.step fold lower hstep, hexcl⟩
  · rintro s e t ⟨hinv, hexcl⟩
    exact and_congr_right fun hstep => exclusive_step_iff hinv hexcl hstep

/-! ### Two spellings -/

/-- A request to bring up the stack `web` on the server that a scope names. -/
def upRequest (scope : String) : StackActionRequest where
  scope := scope
  name := "web"
  action := "up"
  composeYml := ""
  env := []
  useEnv := false

/-- The request after it was read, for the server `host`. -/
def upOnHost (scope : String) : ParsedStackActionRequest :=
  { request := upRequest scope, server := some (.onHost, "host") }

/-- The first sample request is decoded as it is written. -/
theorem decode_upRequest :
    decodeStackActionRequest Char.toLower false (upRequest "local:host") =
      .ok (upOnHost "local:host") := by
  decide

/-- So is the second, with the blank in its scope. -/
theorem decode_upRequest_blank :
    decodeStackActionRequest Char.toLower false (upRequest "local: host") =
      .ok (upOnHost "local: host") := by
  decide

/-- A configuration with the server `host`. -/
def hostConfig : Config where
  globalPolicy := policySkip
  updateStoppedContainers := false
  pruneDanglingImages := false
  localServers := [⟨"host", "/var/run/docker.sock", false⟩]
  remoteServers := []

/-- An instance on which `POST /api/stacks/jobs` was accepted for the scope `local:host`. -/
def firstAccepted : StackServer where
  manager := withFirstJob 1 (jobSpec false (upOnHost "local:host")) "a1"
  pending := some (upOnHost "local:host", hostConfig)
  actions := [.new (some 0) (upOnHost "local:host") hostConfig]

/-- The first is accepted. -/
theorem run_firstAccepted :
    ∃ es, Run (Step Char.toLower Char.toLower false) (new 1) es firstAccepted := by
  have hempty : GoMap.IsRange (∅ : GoMap String ℕ) [] :=
    GoMap.isRange_of_keys_eq rfl List.nodup_nil
  let spec := jobSpec false (upOnHost "local:host")
  let pending := some (upOnHost "local:host", hostConfig)
  let s₁ : StackServer :=
    ⟨{ JobSystem.new 1 with starting := some (.pruning spec 1 []) }, pending, []⟩
  let s₂ : StackServer :=
    ⟨{ JobSystem.new 1 with starting := some (.checking spec []) }, pending, []⟩
  let s₃ : StackServer := ⟨{ JobSystem.new 1 with starting := some (.naming spec) }, pending, []⟩
  have h₁ : Step Char.toLower Char.toLower false (new 1)
      (.startRequest (upOnHost "local:host") hostConfig) s₁ :=
    .startRequest decode_upRequest (.start (.lock rfl hempty))
  have h₂ : Step Char.toLower Char.toLower false s₁ (.manager .rescan) s₂ :=
    .manager rfl (.start (.rescan rfl hempty))
  have h₃ : Step Char.toLower Char.toLower false s₂ (.manager .allClear) s₃ :=
    .manager rfl (.start (.allClear rfl))
  have h₄ : Step Char.toLower Char.toLower false s₃ (.accept "a1") firstAccepted :=
    .accept rfl (.start (.created rfl List.not_mem_nil))
  exact ⟨_, (((Run.single h₁).snoc h₂).snoc h₃).snoc h₄⟩

/-- The instance while a start request for the scope `local: host` holds the lock. -/
def secondStarts (phase : StartPhase) : StackServer :=
  { firstAccepted with
    manager := { firstAccepted.manager with starting := some phase }
    pending := some (upOnHost "local: host", hostConfig) }

/-- The instance after this request was accepted too. -/
def secondAccepted : StackServer :=
  let m := firstAccepted.manager
  { manager := { m with
      heap := m.heap ++ [⟨newStackJob 1 "b2" (jobSpec false (upOnHost "local: host")), .running⟩]
      jobs := m.jobs.insert "b2" 1
      drawn := ["b2", "a1"] }
    pending := some (upOnHost "local: host", hostConfig)
    actions := firstAccepted.actions ++ [.new (some 1) (upOnHost "local: host") hostConfig] }

/-- So is the second, while the first runs. -/
theorem run_secondAccepted :
    ∃ es, Run (Step Char.toLower Char.toLower false) firstAccepted es secondAccepted := by
  let spec := jobSpec false (upOnHost "local: host")
  let j := newStackJob 1 "a1" (jobSpec false (upOnHost "local:host"))
  have hrange : GoMap.IsRange firstAccepted.manager.jobs ["a1"] :=
    GoMap.isRange_of_keys_eq rfl (List.nodup_singleton "a1")
  have hget : ∀ phase, (secondStarts phase).manager.get "a1" = some j := fun phase => rfl
  have hlock : Step Char.toLower Char.toLower false firstAccepted
      (.startRequest (upOnHost "local: host") hostConfig) (secondStarts (.pruning spec 1 ["a1"])) :=
    .startRequest decode_upRequest_blank (.start (.lock rfl hrange))
  have hprune : Step Char.toLower Char.toLower false (secondStarts (.pruning spec 1 ["a1"]))
      (.manager (.prune "a1")) (secondStarts (.pruning spec 1 [])) :=
    .manager rfl (.start (.keep rfl (hget _) rfl))
  have hrescan : Step Char.toLower Char.toLower false (secondStarts (.pruning spec 1 []))
      (.manager .rescan) (secondStarts (.checking spec ["a1"])) :=
    .manager rfl (.start (.rescan rfl hrange))
  have hcheck : Step Char.toLower Char.toLower false (secondStarts (.checking spec ["a1"]))
      (.manager (.check "a1")) (secondStarts (.checking spec [])) :=
    .manager rfl (.start (.check rfl (hget _) (by decide)))
  have hclear : Step Char.toLower Char.toLower false (secondStarts (.checking spec []))
      (.manager .allClear) (secondStarts (.naming spec)) :=
    .manager rfl (.start (.allClear rfl))
  have haccept : Step Char.toLower Char.toLower false (secondStarts (.naming spec)) (.accept "b2")
      secondAccepted :=
    .accept rfl (.start (.created rfl (by decide)))
  exact ⟨_, (((((Run.single hlock).snoc hprune).snoc hrescan).snoc hcheck).snoc hclear).snoc
    haccept⟩

/-- **Actions can overlap.** The stack `web` on the server `host` is brought up under the scopes
`local:host` and `local: host`: both requests are accepted, and Docker Compose runs for both. -/
theorem actions_can_overlap :
    ∃ es q a b, Run (Step Char.toLower Char.toLower false) (new 1) es q ∧ q.actions = [a, b] ∧
      SameTarget Char.toLower a b ∧ a.composing = true ∧ b.composing = true ∧
      ¬ Exclusive Char.toLower q := by
  obtain ⟨es, hfirst⟩ := run_firstAccepted
  obtain ⟨fs, hsecond⟩ := run_secondAccepted
  let a := AcceptedAction.new (some 0) (upOnHost "local:host") hostConfig
  let b := AcceptedAction.new (some 1) (upOnHost "local: host") hostConfig
  let s₁ : StackServer := { secondAccepted with actions := [{ a with composing := true }, b] }
  let s₂ : StackServer := { secondAccepted with
    actions := [{ a with composing := true }, { b with composing := true }] }
  have hcompose₁ : Step Char.toLower Char.toLower false secondAccepted (.composeStarts 0) s₁ :=
    .composeStarts rfl rfl rfl (by decide) (by decide)
  have hcompose₂ : Step Char.toLower Char.toLower false s₁ (.composeStarts 1) s₂ :=
    .composeStarts rfl rfl rfl (by decide) (by decide)
  have hsame : SameTarget Char.toLower { a with composing := true } { b with composing := true } :=
    ⟨⟨.onHost "host".toList, "web"⟩, by decide, by decide⟩
  refine ⟨_, s₂, _, _, ((hfirst.append hsecond).snoc hcompose₁).snoc hcompose₂, rfl, hsame, rfl,
    rfl, fun hexcl => ?_⟩
  exact absurd ((hexcl 0 1 _ _ rfl rfl hsame).1 rfl rfl) (by decide)

end StackServer

end

end Contiwatch
