import Contiwatch.Config
import Contiwatch.Docker

/-!
# Recreating and Updating a Container

`recreateContainer` and `updateContainer` of `internal/dockerwatcher/watcher.go`. An update
pulls the image of a container and, if it is new, replaces the container by one with the same
name: stop, remove, create, start. If the new container runs another image than the one
pulled, it is replaced once more, with the image ID in place of the reference.

## Main results

* `recreateContainer_effect` — what a recreation leaves under the container's name, by the
  call that fails, and that every other container is left alone.
-/

namespace Contiwatch

open GoStrings

/-! ### Recreation -/

/-- `isDockerGeneratedHostname`: twelve lower-case hexadecimal digits. -/
def isDockerGeneratedHostname (hostname : String) : Bool :=
  let hostname := trimSpaceStr hostname
  hostname.toList.length = 12 &&
    hostname.toList.all fun c => ('0' ≤ c && c ≤ '9') || ('a' ≤ c && c ≤ 'f')

/-- The name a container is created under again. -/
def recreateName (inspect : Container) : String :=
  let name := trimPrefix inspect.name "/"
  if name = "" then shortID inspect.id else name

/-- The hostname a container is created with again: none if it was generated. -/
def recreateHostname (hostname : String) : String :=
  if isDockerGeneratedHostname hostname then "" else hostname

/-- The configuration a container is created with again. -/
def recreateConfig (config : ContainerConfig) (imageRef : String) : ContainerConfig :=
  { config with image := imageRef, hostname := recreateHostname config.hostname }

/-- The endpoint options a container is created with again. -/
def recreateEndpoint (netCfg : EndpointSettings) : EndpointSettings where
  aliases := netCfg.aliases
  links := netCfg.links
  ipamConfig := netCfg.ipamConfig
  driverOpts := []
  macAddress := ""
  gwPriority := 0

/-- The errors of `recreateContainer`. -/
inductive RecreateError where
  /-- `missing container config`. -/
  | missingConfig
  /-- `missing host config`. -/
  | missingHostConfig
  /-- `stop: %w`. -/
  | stop (err : String)
  /-- `remove: %w`. -/
  | remove (err : String)
  /-- `create: %w`. -/
  | create (err : String)
  /-- `start: %w`. -/
  | start (err : String)
  deriving DecidableEq, Repr

section

variable (o : Docker)

/-- `recreateContainer`: the ID of the new container, or an error. -/
def recreateContainer (inspect : Container) (imageRef : String) (startAfter : Bool)
    (s : Client) : Except RecreateError String × Client :=
  match inspect.config, inspect.hostConfig with
  | none, _ => (.error .missingConfig, s)
  | some _, none => (.error .missingHostConfig, s)
  | some config, some hostConfig =>
      match if startAfter then containerStop o inspect.id s else (.ok (), s) with
      | (.error err, s) => (.error (.stop err), s)
      | (.ok _, s) =>
          match containerRemove o inspect.id s with
          | (.error err, s) => (.error (.remove err), s)
          | (.ok _, s) =>
              match containerCreate o (recreateConfig config imageRef) hostConfig
                  (inspect.networks.map (GoMap.mapValues recreateEndpoint))
                  (recreateName inspect) s with
              | (.error err, s) => (.error (.create err), s)
              | (.ok created, s) =>
                  match if startAfter then containerStart o created s else (.ok (), s) with
                  | (.error err, s) => (.error (.start err), s)
                  | (.ok _, s) => (.ok created, s)

/-! ### What a recreation leaves behind -/

/-- Between `d` and `d'` only the name `name` changed, and it now stands for `r`. -/
structure Leaves (d d' : Daemon) (name : String) (r : Option Container) : Prop where
  self : d'.byName name = r
  other : ∀ n, n ≠ name → d'.byName n = d.byName n

/-- Nothing done, the container is left as it is. -/
theorem Leaves.refl {d : Daemon} {c : Container} (hc : c ∈ d.containers) :
    Leaves d d c.name (some c) :=
  ⟨Daemon.byName_eq_some.mpr ⟨hc, rfl⟩, fun _ _ => rfl⟩

/-- What one step leaves, the next one starts from. -/
theorem Leaves.trans {d d₁ d₂ : Daemon} {name : String} {r₁ r₂ : Option Container}
    (h₁ : Leaves d d₁ name r₁) (h₂ : Leaves d₁ d₂ name r₂) : Leaves d d₂ name r₂ :=
  ⟨h₂.self, fun n hn => (h₂.other n hn).trans (h₁.other n hn)⟩

/-- What a name is left for is there. -/
theorem Leaves.mem {d d' : Daemon} {name : String} {c : Container}
    (h : Leaves d d' name (some c)) : c ∈ d'.containers :=
  (Daemon.byName_eq_some.mp h.self).1

/-- A stop leaves it stopped. -/
theorem leaves_stop {d : Daemon} {c : Container} (hc : c ∈ d.containers) :
    Leaves d (d.stop c.id) c.name (some c.stopped) :=
  ⟨Daemon.byName_modify hc, fun _ hn => Daemon.byName_modify_other hc hn⟩

/-- A start leaves it started. -/
theorem leaves_start {d : Daemon} {c : Container} (hc : c ∈ d.containers) :
    Leaves d (d.start c.id) c.name (some c.started) :=
  ⟨Daemon.byName_modify hc, fun _ hn => Daemon.byName_modify_other hc hn⟩

/-- A removal leaves nothing under the name. -/
theorem leaves_remove {d : Daemon} {c : Container} (hc : c ∈ d.containers) :
    Leaves d (d.remove c.id) c.name none :=
  ⟨Daemon.byName_remove hc, fun _ hn => Daemon.byName_remove_other hc hn⟩

/-- A call on a container that is there fails and changes nothing, or does its work. -/
theorem containerAct_cases (act : Daemon → String → Daemon) {c : Container} {s : Client}
    (hc : c ∈ s.daemon.containers) :
    (∃ err, containerAct o act c.id s = (.error err, s.tick)) ∨
      containerAct o act c.id s = (.ok (), s.change (act s.daemon c.id)) := by
  rw [containerAct]
  rcases hfails : o.fails s.calls with _ | err
  · refine Or.inr ?_
    rw [Daemon.resolve_id hc]
  · exact Or.inl ⟨err, rfl⟩

/-- The same for a call that is made only if `due`, from a client `t` that differs from `s`
in its log at most. -/
theorem containerAct_if_cases {act : Daemon → String → Daemon} {f : Container → Container}
    (hact : ∀ {d : Daemon} {c : Container}, c ∈ d.containers →
      Leaves d (act d c.id) c.name (some (f c)))
    (due : Bool) {c : Container} {s t : Client} (hc : c ∈ s.daemon.containers)
    (hdaemon : t.daemon = s.daemon) (hcalls : t.calls = s.calls) :
    (due = true ∧ ∃ err, (if due then containerAct o act c.id t else (.ok (), s)) =
        (.error err, t.tick)) ∨
      ∃ s₁ : Client, (if due then containerAct o act c.id t else (.ok (), s)) = (.ok (), s₁) ∧
        s₁.calls = s.calls + (if due then 1 else 0) ∧
        Leaves s.daemon s₁.daemon c.name (some (if due then f c else c)) := by
  cases due with
  | true =>
      rw [← hdaemon] at hc
      rcases containerAct_cases o act hc with ⟨err, herr⟩ | hok
      · exact Or.inl ⟨rfl, err, herr⟩
      · refine Or.inr ⟨_, hok, by rw [Client.change_calls, hcalls, if_pos rfl], ?_⟩
        rw [← hdaemon]
        exact hact hc
  | false => exact Or.inr ⟨s, rfl, rfl, Leaves.refl hc⟩

/-- A container is created or not. -/
theorem containerCreate_cases (config : ContainerConfig) (hostConfig : HostConfig)
    (endpoints : Option (GoMap String EndpointSettings)) (name : String) (s : Client) :
    (∃ err, containerCreate o config hostConfig endpoints name s = (.error err, s.tick)) ∨
      ∃ d, containerCreate o config hostConfig endpoints name s =
          (.ok (o.newID s.calls), s.change d) ∧
        Leaves s.daemon d ("/" ++ name)
          (some (newContainer o s.calls config hostConfig endpoints name)) := by
  rw [containerCreate]
  rcases hfails : o.fails s.calls with _ | err
  · dsimp only
    split_ifs with hfree
    · refine Or.inr ⟨_, rfl, ?_, fun n hn => Daemon.byName_add_other hn⟩
      exact Daemon.byName_eq_some.mpr ⟨Daemon.mem_add, rfl⟩
    · exact Or.inl ⟨_, rfl⟩
  · exact Or.inl ⟨err, rfl⟩

/-- The container that a recreation of `c` makes with its call of `ContainerCreate`. -/
def recreatedContainer (call : ℕ) (c : Container) (imageRef : String)
    (config : ContainerConfig) (hostConfig : HostConfig) : Container :=
  newContainer o call (recreateConfig config imageRef) hostConfig
    (c.networks.map (GoMap.mapValues recreateEndpoint)) (recreateName c)

/-- A container of a daemon is created again under its own name. -/
theorem slash_recreateName {d : Daemon} {c : Container} (hc : c ∈ d.containers) :
    "/" ++ recreateName c = c.name := by
  obtain ⟨-, n, hn, hname⟩ := d.named c hc
  have htrim : trimPrefix c.name "/" = n := by
    rw [hname, trimPrefix, if_pos (by simp [hasPrefix])]
    simp
  rw [recreateName, htrim, if_neg hn, hname]

/-- The outcomes of a recreation, with what each leaves under the container's name. -/
inductive RecreateEffect (c : Container) (imageRef : String) (startAfter : Bool)
    (s : Client) : Except RecreateError String → Client → Prop
  | missingConfig (h : c.config = none) :
      RecreateEffect c imageRef startAfter s (.error .missingConfig) s
  | missingHostConfig (h : c.hostConfig = none) :
      RecreateEffect c imageRef startAfter s (.error .missingHostConfig) s
  | stop {err : String} {s' : Client} (hstart : startAfter = true)
      (h : s'.daemon = s.daemon) :
      RecreateEffect c imageRef startAfter s (.error (.stop err)) s'
  | remove {err : String} {s' : Client}
      (h : Leaves s.daemon s'.daemon c.name (some (if startAfter then c.stopped else c))) :
      RecreateEffect c imageRef startAfter s (.error (.remove err)) s'
  | create {err : String} {s' : Client} (h : Leaves s.daemon s'.daemon c.name none) :
      RecreateEffect c imageRef startAfter s (.error (.create err)) s'
  | start {err : String} {s' : Client} {call : ℕ} {config : ContainerConfig}
      {hostConfig : HostConfig} (hstart : startAfter = true) (hconfig : c.config = some config)
      (hhost : c.hostConfig = some hostConfig)
      (h : Leaves s.daemon s'.daemon c.name
        (some (recreatedContainer o call c imageRef config hostConfig))) :
      RecreateEffect c imageRef startAfter s (.error (.start err)) s'
  | ok {s' : Client} {c' : Container} {config : ContainerConfig} {hostConfig : HostConfig}
      (hconfig : c.config = some config) (hhost : c.hostConfig = some hostConfig)
      (hc' : c' = recreatedContainer o (s.calls + if startAfter then 2 else 1) c imageRef
        config hostConfig)
      (hcalls : s'.calls = s.calls + if startAfter then 4 else 2)
      (h : Leaves s.daemon s'.daemon c.name (some (if startAfter then c'.started else c'))) :
      RecreateEffect c imageRef startAfter s (.ok c'.id) s'

/-- **Every recreation of a container that is there has one of these outcomes.** -/
theorem recreateContainer_effect {c : Container} (imageRef : String) (startAfter : Bool)
    {s : Client} (hc : c ∈ s.daemon.containers) :
    RecreateEffect o c imageRef startAfter s
      (recreateContainer o c imageRef startAfter s).1
      (recreateContainer o c imageRef startAfter s).2 := by
  have hslash := slash_recreateName hc
  rw [recreateContainer]
  rcases hconfig : c.config with _ | config
  · exact .missingConfig hconfig
  rcases hhost : c.hostConfig with _ | hostConfig
  · exact .missingHostConfig hhost
  dsimp only
  simp only [containerStop, containerRemove, containerStart]
  rcases containerAct_if_cases o leaves_stop startAfter hc (s.halt_daemon c.id) rfl with
    ⟨hstart, err, herr⟩ | ⟨s₁, hok₁, hcalls₁, hleaves₁⟩
  · rw [herr]
    exact .stop hstart rfl
  rw [hok₁]
  dsimp only
  -- stopped or not, the container to remove is there under its ID and name
  obtain ⟨c₁, hc₁, hid₁, hname₁⟩ : ∃ c₁, c₁ ∈ s₁.daemon.containers ∧ c₁.id = c.id ∧
      c₁.name = c.name :=
    ⟨_, hleaves₁.mem, by split_ifs <;> rfl, by split_ifs <;> rfl⟩
  rw [← hid₁]
  rcases containerAct_cases o Daemon.remove (s := s₁.halt c₁.id) hc₁ with ⟨err, herr⟩ | hok₂
  · rw [herr]
    exact .remove hleaves₁
  rw [hok₂, Client.halt_daemon]
  dsimp only
  have hleaves₂ := hleaves₁.trans (hname₁ ▸ leaves_remove hc₁)
  set s₂ := (s₁.halt c₁.id).change (s₁.daemon.remove c₁.id) with hs₂
  rcases containerCreate_cases o (recreateConfig config imageRef) hostConfig
      (c.networks.map (GoMap.mapValues recreateEndpoint)) (recreateName c) s₂ with
    ⟨err, herr⟩ | ⟨d₃, hok₃, hleaves₃⟩
  · rw [herr]
    exact .create hleaves₂
  rw [hok₃]
  dsimp only
  rw [hslash] at hleaves₃
  have hleaves := hleaves₂.trans hleaves₃
  have hcall : s₁.calls + 1 = s.calls + if startAfter then 2 else 1 := by
    rw [hcalls₁]
    split_ifs <;> rfl
  set c' := recreatedContainer o (s₁.calls + 1) c imageRef config hostConfig with hc'
  have hname' : c'.name = c.name := hslash
  have hmem : c' ∈ (s₂.change d₃).daemon.containers := hleaves.mem
  rcases containerAct_if_cases o leaves_start startAfter hmem rfl rfl with
    ⟨hstart, err, herr⟩ | ⟨s₄, hok₄, hcalls₄, hleaves₄⟩
  · rw [show o.newID s₂.calls = c'.id from rfl, herr]
    exact .start hstart hconfig hhost hleaves
  · rw [show o.newID s₂.calls = c'.id from rfl, hok₄]
    refine .ok hconfig hhost (hcall ▸ hc') ?_ (hleaves.trans (hname' ▸ hleaves₄))
    rw [hcalls₄, Client.change_calls, show s₂.calls = s₁.calls + 1 from rfl, hcall]
    split_ifs <;> rfl

/-! ### Update -/

/-- The texts of `PreviousState` and `CurrentState`. -/
inductive StateText where
  | unknown
  | paused
  | online
  | stopped
  deriving DecidableEq, Repr

/-- The texts of `Message`. -/
inductive UpdateMessage where
  /-- `skipped: container paused`. -/
  | skippedPaused
  /-- `no update available`. -/
  | noUpdate
  /-- `skipped: container not running`. -/
  | skippedNotRunning
  /-- `updated and restored state`. -/
  | restored
  /-- `updated and pruned dangling images (deleted=%d reclaimed=%.1f MB)`. -/
  | pruned (deleted reclaimed : ℕ)
  /-- `updated; prune failed: %v`. -/
  | pruneFailed (err : String)
  deriving DecidableEq, Repr

/-- `UpdateResult`. -/
structure UpdateResult where
  id : String
  name : String
  image : String
  oldImageID : String
  newImageID : String
  appliedImageID : String
  updated : Bool
  previousState : StateText
  currentState : StateText
  message : UpdateMessage
  deriving DecidableEq, Repr

/-- The errors of `updateContainer`. -/
inductive UpdateError where
  /-- `container id is required`. -/
  | idRequired
  /-- The error of the first `ContainerInspect`. -/
  | inspect (err : String)
  /-- `missing image reference`. -/
  | missingImageReference
  /-- The error of `pullImage`. -/
  | pull (err : String)
  /-- The error of `ImageInspectWithRaw`. -/
  | imageInspect (err : String)
  /-- The error of the recreation. -/
  | recreate (err : RecreateError)
  /-- `updated unexpected image (expected %s got %s); retry failed: %w`. -/
  | retry (expected got : String) (err : RecreateError)
  /-- `updated unexpected image (expected %s got %s); retry inspect failed: %w`. -/
  | retryInspect (expected got err : String)
  /-- `updated unexpected image (expected %s got %s); retry still on %s`. -/
  | retryStill (expected got still : String)
  deriving DecidableEq, Repr

/-- The state before the update. -/
def previousState (inspect : Container) : StateText :=
  match inspect.state with
  | none => .unknown
  | some state => if state.paused then .paused else if state.running then .online else .stopped

/-- The check of the applied image after a recreation, with the second recreation it may lead
to: the ID of the container and the image it runs. -/
def confirmImage (newContainerID newImageID : String) (startAfter : Bool) (s : Client) :
    Except UpdateError (String × String) × Client :=
  if newContainerID = "" then (.ok (newContainerID, ""), s)
  else
    match containerInspect o newContainerID s with
    | (.error _, s) => (.ok (newContainerID, ""), s)
    | (.ok newInspect, s) =>
        let appliedImageID := newInspect.image
        if newImageID ≠ "" ∧ appliedImageID ≠ "" ∧ appliedImageID ≠ newImageID then
          match recreateContainer o newInspect newImageID startAfter s with
          | (.error err, s) => (.error (.retry newImageID appliedImageID err), s)
          | (.ok retryID, s) =>
              match containerInspect o retryID s with
              | (.error err, s) => (.error (.retryInspect newImageID appliedImageID err), s)
              | (.ok retryInspect, s) =>
                  if retryInspect.image ≠ newImageID then
                    (.error (.retryStill newImageID appliedImageID retryInspect.image), s)
                  else (.ok (retryID, retryInspect.image), s)
        else (.ok (newContainerID, appliedImageID), s)

/-- The state reported after the update. -/
def reportState (newContainerID : String) (startAfter : Bool) (s : Client) :
    StateText × Client :=
  let currentState := if startAfter then .online else .stopped
  if newContainerID = "" then (currentState, s)
  else
    match containerInspect o newContainerID s with
    | (.error _, s) => (currentState, s)
    | (.ok newInspect, s) =>
        match newInspect.state with
        | none => (currentState, s)
        | some state => (if state.running then .online else .stopped, s)

/-- The message after the update, with the pruning it may report. -/
def reportPrune (cfg : Config) (s : Client) : UpdateMessage × Client :=
  if cfg.pruneDanglingImages then
    match imagesPrune o s with
    | (.error err, s) => (.pruneFailed err, s)
    | (.ok (deleted, reclaimed), s) => (.pruned deleted reclaimed, s)
  else (.restored, s)

/-- The recreation and everything after it. -/
def applyUpdate (inspect : Container) (name imageRef newImageID : String) (cfg : Config)
    (startAfter : Bool) (s : Client) : Except UpdateError UpdateResult × Client :=
  match recreateContainer o inspect imageRef startAfter s with
  | (.error err, s) => (.error (.recreate err), s)
  | (.ok newContainerID, s) =>
      match confirmImage o newContainerID newImageID startAfter s with
      | (.error err, s) => (.error err, s)
      | (.ok (newContainerID, appliedImageID), s) =>
          let current := reportState o newContainerID startAfter s
          let message := reportPrune o cfg current.2
          (.ok
            { id := newContainerID
              name := name
              image := imageRef
              oldImageID := inspect.image
              newImageID := newImageID
              appliedImageID := appliedImageID
              updated := true
              previousState := previousState inspect
              currentState := current.1
              message := message.1 }, message.2)

/-- The result of an update that was not made. -/
def notUpdated (containerID name image oldImageID newImageID appliedImageID : String)
    (state : StateText) (message : UpdateMessage) : UpdateResult where
  id := containerID
  name := name
  image := image
  oldImageID := oldImageID
  newImageID := newImageID
  appliedImageID := appliedImageID
  updated := false
  previousState := state
  currentState := state
  message := message

/-- The image reference in the configuration of a container, empty without one. -/
def Container.imageRef (c : Container) : String := (c.config.map ContainerConfig.image).getD ""

/-- `updateContainer` once the container is inspected. A paused container without a
configuration, which makes the code dereference a nil pointer, has the empty image here. -/
def updateInspected (containerID : String) (inspect : Container) (cfg : Config)
    (forceStart : Bool) (s : Client) : Except UpdateError UpdateResult × Client :=
  let trimmed := trimPrefix inspect.name "/"
  let name := if trimmed = "" then containerID else trimmed
  let imageRef := inspect.imageRef
  if (inspect.state.map ContainerState.paused).getD false then
    (.ok (notUpdated containerID name imageRef "" "" "" (previousState inspect)
      .skippedPaused), s)
  else if imageRef = "" then (.error .missingImageReference, s)
  else
    match imagePull o s with
    | (.error err, s) => (.error (.pull err), s)
    | (.ok _, s) =>
        match imageInspect o imageRef s with
        | (.error err, s) => (.error (.imageInspect err), s)
        | (.ok newImageID, s) =>
            if ¬ (newImageID ≠ "" ∧ newImageID ≠ inspect.image) then
              (.ok (notUpdated containerID name imageRef inspect.image newImageID inspect.image
                (previousState inspect) .noUpdate), s)
            else if !inspect.running && !forceStart && !cfg.updateStoppedContainers then
              (.ok (notUpdated containerID name imageRef inspect.image newImageID inspect.image
                (previousState inspect) .skippedNotRunning), s)
            else
              applyUpdate o inspect name imageRef newImageID cfg
                (inspect.running || forceStart) s

/-- `updateContainer`. -/
def updateContainer (containerID : String) (cfg : Config) (forceStart : Bool) (s : Client) :
    Except UpdateError UpdateResult × Client :=
  let containerID := trimSpaceStr containerID
  if containerID = "" then (.error .idRequired, s)
  else
    match containerInspect o containerID s with
    | (.error err, s) => (.error (.inspect err), s)
    | (.ok inspect, s) => updateInspected o containerID inspect cfg forceStart s

/-- `UpdateContainer`. -/
def updateContainerKeepState (containerID : String) (cfg : Config) :
    Client → Except UpdateError UpdateResult × Client :=
  updateContainer o containerID cfg false

/-! ### What an update leaves behind -/

/-- The endpoint of the container on the network `n`. -/
def Container.endpoint (c : Container) (n : String) : Option EndpointSettings :=
  c.networks.bind (Finmap.lookup n)

/-- The endpoint options that a recreation passes on. -/
def EndpointSettings.addressing (e : EndpointSettings) :
    List String × List String × Option EndpointIPAMConfig :=
  (e.aliases, e.links, e.ipamConfig)

/-- `c'` is set up as `c` is, with the image reference `imageRef`: the same name, the same
configuration but for a hostname that was not the user's, the same host configuration and the
same networks with the same aliases, links and IPAM configuration. -/
structure SameSetup (c c' : Container) (imageRef : String) : Prop where
  name : c'.name = c.name
  config : ∃ config hostname, c.config = some config ∧
    c'.config = some { config with image := imageRef, hostname := hostname } ∧
    (hostname = config.hostname ∨ config.hostname = "" ∨
      isDockerGeneratedHostname config.hostname = true)
  hostConfig : ∃ hostConfig, c.hostConfig = some hostConfig ∧ c'.hostConfig = some hostConfig
  networks : ∀ n, (c'.endpoint n).map EndpointSettings.addressing =
    (c.endpoint n).map EndpointSettings.addressing

/-- The same setup, step after step. -/
theorem SameSetup.trans {c c₁ c₂ : Container} {ref₁ ref₂ : String} (h₁ : SameSetup c c₁ ref₁)
    (h₂ : SameSetup c₁ c₂ ref₂) : SameSetup c c₂ ref₂ where
  name := h₂.name.trans h₁.name
  config := by
    obtain ⟨config, hostname₁, hc, hc₁, hhost₁⟩ := h₁.config
    obtain ⟨config₁, hostname₂, hc₁', hc₂, hhost₂⟩ := h₂.config
    obtain rfl := Option.some.inj (hc₁.symm.trans hc₁')
    refine ⟨config, hostname₂, hc, hc₂, ?_⟩
    dsimp only at hhost₂
    rcases hhost₁ with rfl | hgenerated
    · exact hhost₂
    · exact Or.inr hgenerated
  hostConfig := by
    obtain ⟨hostConfig, hc, hc₁⟩ := h₁.hostConfig
    obtain ⟨hostConfig₁, hc₁', hc₂⟩ := h₂.hostConfig
    obtain rfl := Option.some.inj (hc₁.symm.trans hc₁')
    exact ⟨hostConfig, hc, hc₂⟩
  networks := fun n => (h₂.networks n).trans (h₁.networks n)

/-- A container in another state is set up the same. -/
theorem SameSetup.of_state {c c' : Container} {imageRef : String} (h : SameSetup c c' imageRef)
    (state : Option ContainerState) : SameSetup c { c' with state := state } imageRef :=
  ⟨h.name, h.config, h.hostConfig, h.networks⟩

/-- The endpoints of a recreated container. -/
theorem endpoint_recreatedContainer (call : ℕ) (c : Container) (imageRef : String)
    (config : ContainerConfig) (hostConfig : HostConfig) (n : String) :
    (recreatedContainer o call c imageRef config hostConfig).endpoint n =
      (c.endpoint n).map recreateEndpoint := by
  simp only [recreatedContainer, newContainer, Container.endpoint]
  rcases c.networks with _ | networks
  · rfl
  · exact GoMap.lookup_mapValues _ _ _

/-- A recreated container is set up as the one it replaces. -/
theorem sameSetup_recreated {d : Daemon} {c : Container} (hc : c ∈ d.containers) (call : ℕ)
    (imageRef : String) {config : ContainerConfig} {hostConfig : HostConfig}
    (hconfig : c.config = some config) (hhost : c.hostConfig = some hostConfig) :
    SameSetup c (recreatedContainer o call c imageRef config hostConfig) imageRef where
  name := slash_recreateName hc
  config := by
    refine ⟨config, assignHostname (recreateHostname config.hostname) (o.newID call), hconfig,
      by simp only [recreatedContainer, newContainer, recreateConfig], ?_⟩
    by_cases hgenerated : isDockerGeneratedHostname config.hostname = true
    · exact Or.inr (Or.inr hgenerated)
    by_cases hempty : config.hostname = ""
    · exact Or.inr (Or.inl hempty)
    · refine Or.inl ?_
      rw [recreateHostname, if_neg hgenerated, assignHostname, if_neg hempty]
  hostConfig := ⟨hostConfig, hhost, rfl⟩
  networks := by
    intro n
    rw [endpoint_recreatedContainer, Option.map_map]
    rfl

/-- An inspection by a full ID fails or reports the container. -/
theorem containerInspect_cases {c : Container} {s : Client} (hc : c ∈ s.daemon.containers) :
    (∃ err, o.fails s.calls = some err ∧ containerInspect o c.id s = (.error err, s.tick)) ∨
      (o.fails s.calls = none ∧ containerInspect o c.id s = (.ok c, s.tick)) := by
  rw [containerInspect]
  rcases hfails : o.fails s.calls with _ | err
  · refine Or.inr ⟨rfl, ?_⟩
    rw [Daemon.resolve_id hc]
  · exact Or.inl ⟨err, rfl, rfl⟩

/-- An inspection only counts as a call. -/
theorem containerInspect_snd (ref : String) (s : Client) :
    (containerInspect o ref s).2 = s.tick := by
  rw [containerInspect]
  rcases o.fails s.calls with _ | err
  · rcases s.daemon.resolve ref with _ | c <;> rfl
  · rfl

/-- An inspection reports the container that the reference stands for. -/
theorem resolve_of_containerInspect {ref : String} {s : Client} {c : Container}
    (h : (containerInspect o ref s).1 = .ok c) : s.daemon.resolve ref = some c := by
  rw [containerInspect] at h
  rcases hfails : o.fails s.calls with _ | err
  · rcases hresolve : s.daemon.resolve ref with _ | c'
    · simp only [hfails, hresolve, reduceCtorEq] at h
    · simp only [hfails, hresolve, Except.ok.injEq] at h
      rw [h]
  · simp only [hfails, reduceCtorEq] at h

/-- A recreation that succeeds leaves a container under the ID it returns and under the old
name. -/
theorem RecreateEffect.mem_of_ok {c : Container} {imageRef : String} {startAfter : Bool}
    {s s' : Client} {id : String} (h : RecreateEffect o c imageRef startAfter s (.ok id) s') :
    ∃ c' ∈ s'.daemon.containers, c'.id = id ∧ s'.daemon.byName c.name = some c' := by
  cases h with
  | @ok _ c' config hostConfig _ _ _ _ h =>
      refine ⟨_, h.mem, ?_, h.self⟩
      split_ifs <;> rfl

/-- The outcomes of the check of the applied image. -/
inductive ConfirmEffect (c : Container) (newImageID : String) (startAfter : Bool)
    (s : Client) : Except UpdateError (String × String) → Client → Prop
  | unknown (h : o.fails s.calls ≠ none) :
      ConfirmEffect c newImageID startAfter s (.ok (c.id, "")) s.tick
  | accepted (hfails : o.fails s.calls = none) (h : c.image = "" ∨ c.image = newImageID) :
      ConfirmEffect c newImageID startAfter s (.ok (c.id, c.image)) s.tick
  | retryFailed {err : RecreateError} {s' : Client}
      (h : RecreateEffect o c newImageID startAfter s.tick (.error err) s') :
      ConfirmEffect c newImageID startAfter s (.error (.retry newImageID c.image err)) s'
  | retryInspect {err retryID : String} {s' : Client}
      (h : RecreateEffect o c newImageID startAfter s.tick (.ok retryID) s') :
      ConfirmEffect c newImageID startAfter s
        (.error (.retryInspect newImageID c.image err)) s'.tick
  | retryStill {still retryID : String} {s' : Client}
      (h : RecreateEffect o c newImageID startAfter s.tick (.ok retryID) s') :
      ConfirmEffect c newImageID startAfter s
        (.error (.retryStill newImageID c.image still)) s'.tick
  | retried {retryID : String} {s' : Client} (hfails : o.fails s.calls = none)
      (himage : c.image ≠ "") (hother : c.image ≠ newImageID)
      (h : RecreateEffect o c newImageID startAfter s.tick (.ok retryID) s')
      (hconfirmed : ∀ c', s'.daemon.byName c.name = some c' → c'.image = newImageID) :
      ConfirmEffect c newImageID startAfter s (.ok (retryID, newImageID)) s'.tick

/-- **Every check of the applied image has one of these outcomes.** -/
theorem confirmImage_effect {c : Container} {newImageID : String} (hnew : newImageID ≠ "")
    (startAfter : Bool) {s : Client} (hc : c ∈ s.daemon.containers) :
    ConfirmEffect o c newImageID startAfter s
      (confirmImage o c.id newImageID startAfter s).1
      (confirmImage o c.id newImageID startAfter s).2 := by
  rw [confirmImage, if_neg (s.daemon.named c hc).1]
  rcases containerInspect_cases o hc with ⟨err, hfails, herr⟩ | ⟨hfails, hok⟩
  · rw [herr]
    exact .unknown (by simp [hfails])
  rw [hok]
  dsimp only
  by_cases hretry : newImageID ≠ "" ∧ c.image ≠ "" ∧ c.image ≠ newImageID
  swap
  · rw [if_neg hretry]
    refine .accepted hfails ?_
    by_contra hneither
    obtain ⟨hempty, hother⟩ := not_or.mp hneither
    exact hretry ⟨hnew, hempty, hother⟩
  rw [if_pos hretry]
  have heffect := recreateContainer_effect o newImageID startAfter (s := s.tick) (c := c) hc
  rcases hresult : recreateContainer o c newImageID startAfter s.tick with ⟨err | retryID, s'⟩
  · rw [hresult] at heffect
    exact .retryFailed heffect
  rw [hresult] at heffect
  dsimp only at heffect ⊢
  have hsnd := containerInspect_snd o retryID s'
  rcases hinspect : containerInspect o retryID s' with ⟨err | retryInspect, s''⟩
  · rw [hinspect] at hsnd
    dsimp only at hsnd ⊢
    rw [hsnd]
    exact .retryInspect heffect
  · rw [hinspect] at hsnd
    dsimp only at hsnd ⊢
    rw [hsnd]
    by_cases hstill : retryInspect.image ≠ newImageID
    · rw [if_pos hstill]
      exact .retryStill heffect
    · rw [if_neg hstill, not_not.mp hstill]
      refine .retried hfails hretry.2.1 hretry.2.2 heffect fun c' hc' => ?_
      -- the container inspected is the one under the name
      obtain ⟨c₂, hc₂, rfl, hname⟩ := heffect.mem_of_ok
      have hresolve := resolve_of_containerInspect o (by rw [hinspect])
      rw [Daemon.resolve_id hc₂] at hresolve
      rw [hname] at hc'
      obtain rfl := Option.some.inj hresolve
      obtain rfl := Option.some.inj hc'
      exact not_not.mp hstill

end

end Contiwatch
