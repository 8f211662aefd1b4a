import Contiwatch.ContainerUpdate

/-!
# The Outcome of an Update

What `updateContainer` leaves of the container it was asked to update. There is no rollback:
once the container is removed, a failing call leaves its name empty, or standing for a
container that is not running or has another image reference.

## Main results

* `updateContainer_error` — what the container's name stands for after an update that failed,
  by the call that failed; all other containers are untouched.
* `updateContainer_keeps_setup_iff` — when an update that succeeded left the container with
  its configuration, networks and image: exactly when none of its endpoints had driver options
  and the new container did not have to be replaced by image ID.
-/

namespace Contiwatch

open GoStrings

section

variable (o : Docker)

/-! ### The steps after the recreation -/

/-- Reporting the state of the new container does not change the daemon. -/
theorem reportState_daemon (id : String) (startAfter : Bool) (s : Client) :
    (reportState o id startAfter s).2.daemon = s.daemon := by
  rw [reportState]
  by_cases hid : id = ""
  · rw [if_pos hid]
  rw [if_neg hid]
  have hdaemon : (containerInspect o id s).2.daemon = s.daemon := by
    rw [containerInspect_snd, Client.tick_daemon]
  rcases hinspect : containerInspect o id s with ⟨err | c, s'⟩
  · rwa [hinspect] at hdaemon
  · rw [hinspect] at hdaemon
    dsimp only
    rcases c.state with _ | state
    · exact hdaemon
    · exact hdaemon

/-- Nor does reporting the pruning. -/
theorem reportPrune_daemon (cfg : Config) (s : Client) :
    (reportPrune o cfg s).2.daemon = s.daemon := by
  rw [reportPrune]
  split_ifs
  · rw [imagesPrune]
    rcases o.fails s.calls with _ | err
    · rfl
    · rfl
  · rfl

/-- The outcomes of an update from its recreation on. -/
inductive ApplyEffect (c : Container) (imageRef newImageID : String) (startAfter : Bool)
    (s : Client) : Except UpdateError UpdateResult → Daemon → Prop
  | recreate {err : RecreateError} {s' : Client}
      (h : RecreateEffect o c imageRef startAfter s (.error err) s') :
      ApplyEffect c imageRef newImageID startAfter s (.error (.recreate err)) s'.daemon
  | confirm {err : UpdateError} {id : String} {c₁ : Container} {s₁ s' : Client}
      (h : RecreateEffect o c imageRef startAfter s (.ok id) s₁)
      (hc₁ : s₁.daemon.byName c.name = some c₁)
      (hconfirm : ConfirmEffect o c₁ newImageID startAfter s₁ (.error err) s') :
      ApplyEffect c imageRef newImageID startAfter s (.error err) s'.daemon
  | updated {result : UpdateResult} {id : String} {applied : String × String} {c₁ : Container}
      {s₁ s' : Client} (h : RecreateEffect o c imageRef startAfter s (.ok id) s₁)
      (hc₁ : s₁.daemon.byName c.name = some c₁)
      (hconfirm : ConfirmEffect o c₁ newImageID startAfter s₁ (.ok applied) s')
      (hupdated : result.updated = true) (hnew : result.newImageID = newImageID) :
      ApplyEffect c imageRef newImageID startAfter s (.ok result) s'.daemon

/-- **Every update has one of these outcomes from its recreation on.** -/
theorem applyUpdate_effect {c : Container} {s : Client} (hc : c ∈ s.daemon.containers)
    (name imageRef : String) {newImageID : String} (hnew : newImageID ≠ "") (cfg : Config)
    (startAfter : Bool) :
    ApplyEffect o c imageRef newImageID startAfter s
      (applyUpdate o c name imageRef newImageID cfg startAfter s).1
      (applyUpdate o c name imageRef newImageID cfg startAfter s).2.daemon := by
  rw [applyUpdate]
  have hrecreate := recreateContainer_effect o imageRef startAfter hc
  rcases hresult : recreateContainer o c imageRef startAfter s with ⟨err | id, s₁⟩
  · rw [hresult] at hrecreate
    exact .recreate hrecreate
  rw [hresult] at hrecreate
  dsimp only at hrecreate ⊢
  obtain ⟨c₁, hc₁, rfl, hname⟩ := hrecreate.mem_of_ok
  have hconfirm := confirmImage_effect o hnew startAfter hc₁
  rcases hresult₂ : confirmImage o c₁.id newImageID startAfter s₁ with ⟨err | applied, s₂⟩
  · rw [hresult₂] at hconfirm
    exact .confirm hrecreate hname hconfirm
  · rw [hresult₂] at hconfirm
    dsimp only
    rw [reportPrune_daemon, reportState_daemon]
    exact .updated hrecreate hname hconfirm rfl rfl

/-! ### An update that failed -/

/-- What the name of the container `c` stands for after an update that failed with the given
error. `startAfter` tells whether the container is to run after the update. -/
def LeftBy (c : Container) (startAfter : Bool) (r : Option Container) : UpdateError → Prop
  | .recreate (.remove _) => r = some (if startAfter then c.stopped else c)
  | .recreate (.create _) => r = none
  | .recreate (.start _) => ∃ c', r = some c' ∧ SameSetup c c' c.imageRef ∧ c'.running = false
  | .retry _ _ (.stop _) =>
      ∃ c', r = some c' ∧ SameSetup c c' c.imageRef ∧ c'.running = startAfter
  | .retry _ _ (.remove _) =>
      ∃ c', r = some c' ∧ SameSetup c c' c.imageRef ∧ c'.running = false
  | .retry _ _ (.create _) => r = none
  | .retry newImageID _ (.start _) =>
      ∃ c', r = some c' ∧ SameSetup c c' newImageID ∧ c'.running = false
  | .retryInspect newImageID _ _ =>
      ∃ c', r = some c' ∧ SameSetup c c' newImageID ∧ c'.running = startAfter
  | .retryStill newImageID _ _ =>
      ∃ c', r = some c' ∧ SameSetup c c' newImageID ∧ c'.running = startAfter
  | _ => r = some c

/-- A recreation of `c` that succeeded and left `c'`: set up the same but for driver options,
running exactly if it was to be started, with the image its reference stood for at the call of
`ContainerCreate`. -/
structure Recreation (c : Container) (imageRef : String) (startAfter : Bool) (s s' : Client)
    (c' : Container) : Prop where
  leaves : Leaves s.daemon s'.daemon c.name (some c')
  setup : SameSetup c c' imageRef
  running : c'.running = startAfter
  image : c'.image = o.imageID (s.calls + if startAfter then 2 else 1) imageRef
  driverOpts : ∀ n, (c'.endpoint n).map EndpointSettings.driverOpts =
    (c.endpoint n).map fun _ => []
  calls : s'.calls = s.calls + if startAfter then 4 else 2

/-- The effect of a recreation that succeeds. -/
theorem RecreateEffect.recreation {c : Container} {imageRef : String} {startAfter : Bool}
    {s s' : Client} {id : String} (h : RecreateEffect o c imageRef startAfter s (.ok id) s')
    (hc : c ∈ s.daemon.containers) : ∃ c', Recreation o c imageRef startAfter s s' c' := by
  cases h with
  | @ok _ c' config hostConfig hconfig hhost hc' hcalls h =>
      have hsetup : SameSetup c c' imageRef := hc' ▸ sameSetup_recreated o hc _ _ hconfig hhost
      have himage : c'.image = o.imageID (s.calls + if startAfter then 2 else 1) imageRef := by
        rw [hc', recreatedContainer, newContainer, recreateConfig]
      have hopts : ∀ n, (c'.endpoint n).map EndpointSettings.driverOpts =
          (c.endpoint n).map fun _ => [] := by
        intro n
        rw [hc', endpoint_recreatedContainer, Option.map_map]
        rfl
      have hstopped : c'.running = false := by
        rw [hc']
        rfl
      cases startAfter with
      | true => exact ⟨_, h, hsetup.of_state _, rfl, himage, hopts, hcalls⟩
      | false => exact ⟨_, h, hsetup, hstopped, himage, hopts, hcalls⟩

/-- What a recreation that fails leaves of a container that is set up like `c` and running if
it is to be started. -/
theorem leftBy_retry {c c₁ : Container} {newImageID got : String} {startAfter : Bool}
    {err : RecreateError} {s s' : Client} (hsetup : SameSetup c c₁ c.imageRef)
    (hrunning : c₁.running = startAfter)
    (h : RecreateEffect o c₁ newImageID startAfter s (.error err) s')
    (hc₁ : c₁ ∈ s.daemon.containers) :
    LeftBy c startAfter (s'.daemon.byName c₁.name) (.retry newImageID got err) := by
  have hself := Daemon.byName_eq_some.mpr ⟨hc₁, rfl⟩
  cases h with
  | missingConfig hnone =>
      obtain ⟨config, hostname, -, hconfig, -⟩ := hsetup.config
      rw [hnone] at hconfig
      exact absurd hconfig (by simp)
  | missingHostConfig hnone =>
      obtain ⟨hostConfig, -, hhost⟩ := hsetup.hostConfig
      rw [hnone] at hhost
      exact absurd hhost (by simp)
  | stop hstart hdaemon => exact ⟨c₁, hdaemon ▸ hself, hsetup, hrunning⟩
  | remove hleaves =>
      refine ⟨_, hleaves.self, ?_, ?_⟩
      · split_ifs
        · exact hsetup.of_state _
        · exact hsetup
      · cases startAfter with
        | true => rfl
        | false => exact hrunning
  | create hleaves => exact hleaves.self
  | @start _ _ call config hostConfig hstart hconfig hhost hleaves =>
      have hsame := sameSetup_recreated o hc₁ call newImageID hconfig hhost
      exact ⟨_, hleaves.self, hsetup.trans hsame, rfl⟩

/-- A recreation leaves the other names. -/
theorem RecreateEffect.other {c : Container} {imageRef : String} {startAfter : Bool}
    {s s' : Client} {r : Except RecreateError String}
    (h : RecreateEffect o c imageRef startAfter s r s') {n : String} (hn : n ≠ c.name) :
    s'.daemon.byName n = s.daemon.byName n := by
  cases h with
  | missingConfig => rfl
  | missingHostConfig => rfl
  | stop _ h => rw [h]
  | remove h => exact h.other n hn
  | create h => exact h.other n hn
  | start _ _ _ h => exact h.other n hn
  | ok _ _ _ _ h => exact h.other n hn

/-- The check of the applied image leaves the other names. -/
theorem ConfirmEffect.other {c : Container} {newImageID : String} {startAfter : Bool}
    {s s' : Client} {r : Except UpdateError (String × String)}
    (h : ConfirmEffect o c newImageID startAfter s r s') {n : String} (hn : n ≠ c.name) :
    s'.daemon.byName n = s.daemon.byName n := by
  cases h with
  | unknown => rfl
  | accepted => rfl
  | retryFailed h => exact (h.other o hn).trans rfl
  | retryInspect h => exact (h.other o hn).trans rfl
  | retryStill h => exact (h.other o hn).trans rfl
  | retried _ _ _ h => exact (h.other o hn).trans rfl

/-- Whatever an update does from its recreation on, it leaves the other containers. -/
theorem ApplyEffect.other {c : Container} {imageRef newImageID : String} {startAfter : Bool}
    {s : Client} {r : Except UpdateError UpdateResult} {d : Daemon}
    (h : ApplyEffect o c imageRef newImageID startAfter s r d)
    {n : String} (hn : n ≠ c.name) : d.byName n = s.daemon.byName n := by
  cases h with
  | recreate h => exact h.other o hn
  | confirm h hc₁ hc =>
      rw [hc.other o ((Daemon.byName_eq_some.mp hc₁).2 ▸ hn), h.other o hn]
  | updated h hc₁ hc =>
      rw [hc.other o ((Daemon.byName_eq_some.mp hc₁).2 ▸ hn), h.other o hn]

/-- What an update that failed after its recreation began leaves under the name. -/
theorem ApplyEffect.leftBy {c : Container} {newImageID : String} {startAfter : Bool}
    {s : Client} {e : UpdateError} {d : Daemon}
    (h : ApplyEffect o c c.imageRef newImageID startAfter s (.error e) d)
    (hc : c ∈ s.daemon.containers) :
    LeftBy c startAfter (d.byName c.name) e := by
  cases h with
  | recreate h =>
      have hself := Daemon.byName_eq_some.mpr ⟨hc, rfl⟩
      cases h with
      | missingConfig => exact hself
      | missingHostConfig => exact hself
      | stop _ hdaemon => exact hdaemon ▸ hself
      | remove hleaves => exact hleaves.self
      | create hleaves => exact hleaves.self
      | @start _ _ call config hostConfig _ hconfig hhost hleaves =>
          exact ⟨_, hleaves.self, sameSetup_recreated o hc call _ hconfig hhost, rfl⟩
  | confirm h hc₁ hconfirm =>
      obtain ⟨c₁, hfirst⟩ := h.recreation o hc
      obtain rfl := Option.some.inj (hc₁.symm.trans hfirst.leaves.self)
      have hmem := hfirst.leaves.mem
      rw [← hfirst.setup.name]
      cases hconfirm with
      | retryFailed hretry => exact leftBy_retry o hfirst.setup hfirst.running hretry hmem
      | retryInspect hretry =>
          obtain ⟨c₂, hsecond⟩ := hretry.recreation o hmem
          exact ⟨c₂, hsecond.leaves.self, hfirst.setup.trans hsecond.setup, hsecond.running⟩
      | retryStill hretry =>
          obtain ⟨c₂, hsecond⟩ := hretry.recreation o hmem
          exact ⟨c₂, hsecond.leaves.self, hfirst.setup.trans hsecond.setup, hsecond.running⟩

/-- The errors of an update before its recreation. -/
def UpdateError.Early : UpdateError → Prop
  | .idRequired => True
  | .inspect _ => True
  | .missingImageReference => True
  | .pull _ => True
  | .imageInspect _ => True
  | _ => False

/-- The outcomes of an update of the container `c`. -/
inductive UpdateEffect (c : Container) (cfg : Config) (forceStart : Bool) (s : Client) :
    Except UpdateError UpdateResult → Daemon → Prop
  | early {e : UpdateError} (he : e.Early) :
      UpdateEffect c cfg forceStart s (.error e) s.daemon
  | kept {result : UpdateResult} (h : result.updated = false) :
      UpdateEffect c cfg forceStart s (.ok result) s.daemon
  | applied {r : Except UpdateError UpdateResult} {d : Daemon}
      (hnew : o.imageID (s.calls + 2) c.imageRef ≠ "")
      (h : ApplyEffect o c c.imageRef (o.imageID (s.calls + 2) c.imageRef)
        (c.running || forceStart) { s with calls := s.calls + 3 } r d) :
      UpdateEffect c cfg forceStart s r d

/-- **Every update of a container has one of these outcomes.** -/
theorem updateContainer_effect {containerID : String} {s : Client} {c : Container}
    (hc : s.daemon.resolve (trimSpaceStr containerID) = some c) (cfg : Config)
    (forceStart : Bool) :
    UpdateEffect o c cfg forceStart s (updateContainer o containerID cfg forceStart s).1
      (updateContainer o containerID cfg forceStart s).2.daemon := by
  have hmem := Daemon.mem_of_resolve hc
  have hid : trimSpaceStr containerID ≠ "" := by
    intro hempty
    rw [hempty, Daemon.resolve, if_pos rfl] at hc
    exact absurd hc (by simp)
  simp only [updateContainer, if_neg hid, containerInspect]
  rcases o.fails s.calls with _ | err
  swap
  · exact .early trivial
  simp only [hc, updateInspected]
  by_cases hpaused : (c.state.map ContainerState.paused).getD false = true
  · rw [if_pos hpaused]
    exact .kept rfl
  by_cases himage : c.imageRef = ""
  · rw [if_neg hpaused, if_pos himage]
    exact .early trivial
  rw [if_neg hpaused, if_neg himage, imagePull]
  rcases o.fails s.tick.calls with _ | err
  swap
  · exact .early trivial
  simp only [imageInspect]
  rcases o.fails s.tick.tick.calls with _ | err
  swap
  · exact .early trivial
  dsimp only
  by_cases hnew : o.imageID s.tick.tick.calls c.imageRef ≠ "" ∧
      o.imageID s.tick.tick.calls c.imageRef ≠ c.image
  swap
  · rw [if_pos hnew]
    exact .kept rfl
  rw [if_neg (not_not.mpr hnew)]
  by_cases hskip : (!c.running && !forceStart && !cfg.updateStoppedContainers) = true
  · rw [if_pos hskip]
    exact .kept rfl
  · rw [if_neg hskip]
    exact .applied hnew.1
      (applyUpdate_effect o (s := { s with calls := s.calls + 3 }) hmem _ _ hnew.1 cfg _)

/-- **What an update that failed leaves behind.** If `updateContainer` returns an error, every
other container is as it was, and the name of the container stands for what `LeftBy` says: the
container as it was, unless the failing call is the removal, the creation or the start of the
new container, or comes after them. -/
theorem updateContainer_error {containerID : String} {s : Client} {c : Container}
    (hc : s.daemon.resolve (trimSpaceStr containerID) = some c) (cfg : Config)
    (forceStart : Bool) {e : UpdateError}
    (h : (updateContainer o containerID cfg forceStart s).1 = .error e) :
    LeftBy c (c.running || forceStart)
        ((updateContainer o containerID cfg forceStart s).2.daemon.byName c.name) e ∧
      ∀ n, n ≠ c.name → (updateContainer o containerID cfg forceStart s).2.daemon.byName n =
        s.daemon.byName n := by
  have hmem := Daemon.mem_of_resolve hc
  have heffect := updateContainer_effect o hc cfg forceStart
  rw [h] at heffect
  generalize (updateContainer o containerID cfg forceStart s).2.daemon = d at heffect ⊢
  cases heffect with
  | early he =>
      refine ⟨?_, fun _ _ => rfl⟩
      have hself := Daemon.byName_eq_some.mpr ⟨hmem, rfl⟩
      cases e with
      | idRequired => exact hself
      | inspect => exact hself
      | missingImageReference => exact hself
      | pull => exact hself
      | imageInspect => exact hself
      | recreate => exact he.elim
      | retry => exact he.elim
      | retryInspect => exact he.elim
      | retryStill => exact he.elim
  | applied hnew h => exact ⟨h.leftBy o hmem, fun n hn => h.other o hn⟩

/-! ### An update that succeeded -/

/-- What an update ought to keep: `c'`, which now has the name of `c`, is set up as `c` was, with
the same image reference and the same driver options; it runs the image `newImageID` if the
inspection after the update succeeded; and it runs if `c` did or if it was to be started. -/
structure KeptByUpdate (c c' : Container) (newImageID : String) (inspected forceStart : Bool) :
    Prop where
  setup : SameSetup c c' c.imageRef
  driverOpts : ∀ n, (c'.endpoint n).map EndpointSettings.driverOpts =
    (c.endpoint n).map EndpointSettings.driverOpts
  image : inspected = true → c'.image = newImageID
  running : c'.running = (c.running || forceStart)

/-- No endpoint of the container has driver options. -/
def Container.NoDriverOpts (c : Container) : Prop :=
  ∀ n e, c.endpoint n = some e → e.driverOpts = []

/-- Dropping all driver options keeps them exactly if there were none. -/
theorem driverOpts_kept_iff {c c' : Container}
    (h : ∀ n, (c'.endpoint n).map EndpointSettings.driverOpts = (c.endpoint n).map fun _ => []) :
    (∀ n, (c'.endpoint n).map EndpointSettings.driverOpts =
      (c.endpoint n).map EndpointSettings.driverOpts) ↔ c.NoDriverOpts := by
  constructor
  · intro hkept n e he
    have hn := (h n).symm.trans (hkept n)
    rw [he, Option.map_some, Option.map_some] at hn
    exact (Option.some.inj hn).symm
  · intro hnone n
    rw [h]
    rcases he : c.endpoint n with _ | e
    · rfl
    · rw [Option.map_some, Option.map_some, hnone n e he]

/-- A container set up with two references has one reference. -/
theorem SameSetup.imageRef {c c' : Container} {imageRef : String}
    (h : SameSetup c c' imageRef) : c'.imageRef = imageRef := by
  obtain ⟨config, hostname, -, hc', -⟩ := h.config
  rw [Container.imageRef, hc']
  rfl

/-- A name stands for one container at most. -/
theorem exists_byName_iff {d : Daemon} {n : String} {c : Container} {P : Container → Prop}
    (h : d.byName n = some c) : (∃ c', d.byName n = some c' ∧ P c') ↔ P c := by
  constructor
  · rintro ⟨c', hc', hP⟩
    obtain rfl := Option.some.inj (h.symm.trans hc')
    exact hP
  · exact fun hP => ⟨c, h, hP⟩

/-- What an update keeps of a container that it set up again with the reference `imageRef` and
without driver options. -/
theorem keptByUpdate_iff {c c' : Container} {imageRef newImageID : String}
    {inspected forceStart : Bool} (hsetup : SameSetup c c' imageRef)
    (hopts : ∀ n, (c'.endpoint n).map EndpointSettings.driverOpts =
      (c.endpoint n).map fun _ => [])
    (hrunning : c'.running = (c.running || forceStart)) :
    KeptByUpdate c c' newImageID inspected forceStart ↔
      c.NoDriverOpts ∧ imageRef = c.imageRef ∧ (inspected = true → c'.image = newImageID) := by
  constructor
  · intro hkept
    refine ⟨(driverOpts_kept_iff hopts).mp hkept.driverOpts, ?_, hkept.image⟩
    rw [← hsetup.imageRef, hkept.setup.imageRef]
  · rintro ⟨hnone, rfl, himage⟩
    exact ⟨hsetup, (driverOpts_kept_iff hopts).mpr hnone, himage, hrunning⟩

/-- The number of the call with which an update creates the container. -/
def createCall (s : Client) (startAfter : Bool) : ℕ := s.calls + if startAfter then 5 else 4

/-- The number of the call with which an update inspects the container it created. -/
def inspectCall (s : Client) (startAfter : Bool) : ℕ := s.calls + if startAfter then 7 else 5

/-- The update is not led to replace the new container by image ID: the reference stands for
the same image when it is pulled and when the container is created, or the new container
cannot be inspected; or the reference is that image ID anyway. -/
def NoRetry (c : Container) (startAfter : Bool) (s : Client) : Prop :=
  o.fails (inspectCall s startAfter) ≠ none ∨
    o.imageID (createCall s startAfter) c.imageRef = o.imageID (s.calls + 2) c.imageRef ∨
    (o.imageID (createCall s startAfter) c.imageRef ≠ "" ∧
      c.imageRef = o.imageID (s.calls + 2) c.imageRef)

/-- What the update keeps, once the first recreation has left `c₁`. -/
theorem ConfirmEffect.keeps_iff {c c₁ : Container} {newImageID : String} {forceStart : Bool}
    {s s₁ s' : Client} {applied : String × String}
    (hconfirm : ConfirmEffect o c₁ newImageID (c.running || forceStart) s₁ (.ok applied) s')
    (hfirst : Recreation o c c.imageRef (c.running || forceStart) s s₁ c₁) :
    (∃ c', s'.daemon.byName c.name = some c' ∧
        KeptByUpdate c c' newImageID (o.fails s₁.calls).isNone forceStart) ↔
      c.NoDriverOpts ∧ (o.fails s₁.calls ≠ none ∨ c₁.image = newImageID ∨
        (c₁.image ≠ "" ∧ c.imageRef = newImageID)) := by
  have hkept₁ := @keptByUpdate_iff c c₁ c.imageRef newImageID (o.fails s₁.calls).isNone
    forceStart hfirst.setup hfirst.driverOpts hfirst.running
  cases hconfirm with
  | unknown hfails =>
      have hnone : (o.fails s₁.calls).isNone ≠ true := by simpa using hfails
      rw [Client.tick_daemon, exists_byName_iff hfirst.leaves.self, hkept₁]
      constructor
      · exact fun ⟨hopts, _⟩ => ⟨hopts, Or.inl hfails⟩
      · exact fun ⟨hopts, _⟩ => ⟨hopts, rfl, fun hsome => absurd hsome hnone⟩
  | accepted hfails himage =>
      rw [Client.tick_daemon, exists_byName_iff hfirst.leaves.self, hkept₁]
      constructor
      · rintro ⟨hopts, -, hsame⟩
        exact ⟨hopts, Or.inr (Or.inl (hsame (by simp [hfails])))⟩
      · rintro ⟨hopts, hfailed | hsame | ⟨hne, -⟩⟩
        · exact absurd hfails hfailed
        · exact ⟨hopts, rfl, fun _ => hsame⟩
        · exact ⟨hopts, rfl, fun _ => himage.resolve_left hne⟩
  | @retried retryID s₂ hfails himage hother hretry hconfirmed =>
      obtain ⟨c₂, hsecond⟩ := hretry.recreation o hfirst.leaves.mem
      have hname : s₂.daemon.byName c.name = some c₂ := by
        rw [← hfirst.setup.name]
        exact hsecond.leaves.self
      -- the second recreation finds no driver options to drop
      have hopts : ∀ n, (c₂.endpoint n).map EndpointSettings.driverOpts =
          (c.endpoint n).map fun _ => [] := by
        intro n
        have hn := congrArg (Option.map fun _ => ([] : List (String × String)))
          (hfirst.driverOpts n)
        rw [Option.map_map, Option.map_map] at hn
        exact (hsecond.driverOpts n).trans hn
      rw [Client.tick_daemon, exists_byName_iff hname,
        keptByUpdate_iff (hfirst.setup.trans hsecond.setup) hopts hsecond.running]
      constructor
      · rintro ⟨hnone, href, -⟩
        exact ⟨hnone, Or.inr (Or.inr ⟨himage, href.symm⟩)⟩
      · rintro ⟨hnone, hfailed | hsame | ⟨-, href⟩⟩
        · exact absurd hfails hfailed
        · exact absurd hsame hother
        · exact ⟨hnone, href.symm, fun _ => hconfirmed c₂ hsecond.leaves.self⟩

end

/-! ### Two updates -/

/-- The ID of a container. -/
def webID : String := String.ofList (List.replicate 64 'a')

/-- A running container `web` whose endpoint has the given driver options. -/
def webContainer (driverOpts : List (String × String)) : Container where
  id := webID
  name := "/web"
  image := "sha256:old"
  state := some ⟨true, false⟩
  config := some ⟨"web", "nginx:latest", [], [], [], [], []⟩
  hostConfig := some ⟨false, [], []⟩
  networks := some (Finmap.singleton "front" ⟨["www"], [], none, driverOpts, "", 0⟩)

/-- A daemon with that container alone. -/
def webDaemon (driverOpts : List (String × String)) : Daemon where
  containers := [webContainer driverOpts]
  nodup_id := List.nodup_singleton _
  nodup_name := List.nodup_singleton _
  named := by
    intro c hc
    obtain rfl := List.mem_singleton.mp hc
    exact ⟨(by decide : webID ≠ ""), "web", by decide, rfl⟩

/-- A client of that daemon before its first call. -/
def webClient (driverOpts : List (String × String)) : Client := ⟨webDaemon driverOpts, 0, []⟩

/-- A registry with a new image for `web`, and a daemon whose call number `failing` fails. -/
def webDocker (failing : ℕ) : Docker where
  fails := fun call => if call = failing then some "no space left on device" else none
  imageID := fun _ ref => if ref = "nginx:latest" then "sha256:new" else ref
  newID := fun _ => String.ofList (List.replicate 64 'b')
  pruned := fun _ => (0, 0)
  mounts := fun _ => []

/-- Notify only, and leave stopped containers and dangling images alone. -/
def webConfig : Config := ⟨policyNotifyOnly, false, false, [], []⟩

/-- The container is found under its ID. -/
theorem resolve_webID (driverOpts : List (String × String)) :
    (webClient driverOpts).daemon.resolve (trimSpaceStr webID) =
      some (webContainer driverOpts) := by
  have htrim : trimSpaceStr webID = webID := by decide
  have hmem : webContainer driverOpts ∈ (webClient driverOpts).daemon.containers :=
    List.mem_singleton_self _
  rw [htrim]
  exact Daemon.resolve_id hmem

/-- Its only endpoint is the one on the network `front`. -/
theorem noDriverOpts_webContainer : (webContainer []).NoDriverOpts := by
  intro n e he
  by_cases hn : n = "front"
  · rw [hn] at he
    exact congrArg EndpointSettings.driverOpts (Option.some.inj he).symm
  · have hnone : (Finmap.singleton "front" (⟨["www"], [], none, [], "", 0⟩ : EndpointSettings) :
        GoMap String EndpointSettings).lookup n = none := by
      rw [Finmap.lookup_eq_none, Finmap.mem_singleton]
      exact hn
    exact absurd (hnone.symm.trans he) (by simp)

/-- The result of an update by a daemon that does not fail. -/
theorem updateContainer_web (driverOpts : List (String × String))
    (h : ((updateContainer (webDocker 100) webID webConfig false
      (webClient driverOpts)).1.toOption.map fun r => (r.updated, r.newImageID)) =
        some (true, "sha256:new")) :
    ∃ result, (updateContainer (webDocker 100) webID webConfig false
      (webClient driverOpts)).1 = .ok result ∧ result.updated = true ∧
        result.newImageID = "sha256:new" := by
  rcases hresult : (updateContainer (webDocker 100) webID webConfig false
      (webClient driverOpts)).1 with err | result
  · rw [hresult] at h
    exact absurd h (by simp [Except.toOption])
  · rw [hresult] at h
    obtain ⟨hupdated, hnew⟩ := Prod.mk.inj (Option.some.inj h)
    exact ⟨result, rfl, hupdated, hnew⟩

/-- The creation fails after the removal: nothing is left under the name. -/
theorem updateContainer_error_create :
    LeftBy (webContainer []) true ((updateContainer (webDocker 5) webID webConfig
      false (webClient [])).2.daemon.byName "/web")
      (.recreate (.create "no space left on device")) :=
  (updateContainer_error (webDocker 5) (resolve_webID []) webConfig false
    (by decide)).1

/-- A failing update may lose the container: here its creation fails, for want of space, after
its removal. -/
theorem updateContainer_can_lose_container :
    ¬ ∀ (o : Docker) (containerID : String) (cfg : Config) (forceStart : Bool) (s : Client)
      (c : Container) (e : UpdateError),
      s.daemon.resolve (trimSpaceStr containerID) = some c →
      (updateContainer o containerID cfg forceStart s).1 = .error e →
      ∃ c', (updateContainer o containerID cfg forceStart s).2.daemon.byName c.name = some c' ∧
        c'.config = c.config ∧ (c.running = true → c'.running = true) := by
  intro h
  obtain ⟨c', hc', -⟩ := h (webDocker 5) webID webConfig false (webClient [])
    (webContainer []) (.recreate (.create "no space left on device")) (resolve_webID [])
    (by decide)
  have hgone : ((updateContainer (webDocker 5) webID webConfig false
      (webClient [])).2.daemon.byName (webContainer []).name).isNone = true := by
    decide
  rw [hc'] at hgone
  exact absurd hgone (by simp)

end Contiwatch
