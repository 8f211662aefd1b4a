import Contiwatch.UpdateOutcome

/-!
# The Container of the Process Itself

`IsSelfContainer` and `triggerSelfUpdate` of `internal/dockerwatcher/watcher.go`. The process
recognises the container it runs in by its hostname and by the container IDs in its runtime
metadata; such a container is to be updated by a helper container, which the process starts
and which does the stopping and removing from outside.

## Main results

* `updateContainer_spares` — an update of another container neither touches a container nor
  asks to stop or to remove it.
* `triggerSelfUpdate_spares` — starting the helper touches no container that is there.
-/

namespace Contiwatch

open GoStrings

/-! ### Recognising the container -/

/-- `matchesContainerID`. -/
def matchesContainerID (lower : Lowering) (containerID : String) (candidates : List String) :
    Bool :=
  let containerID := toLower lower.map (trimSpaceStr containerID)
  candidates.any fun candidate =>
    let candidate := toLower lower.map (trimSpaceStr candidate)
    decide (12 ≤ candidate.utf8ByteSize) && hasPrefix containerID candidate

/-- `IsSelfContainer`, where the candidates are the hostname and the container IDs of the
runtime metadata. -/
def isSelfContainer (lower : Lowering) (candidates : List String) (containerID : String) : Bool :=
  let containerID := toLower lower.map (trimSpaceStr containerID)
  if containerID = "" then false else matchesContainerID lower containerID candidates

/-! ### The helper container -/

/-- The host configuration of the helper: the Docker socket, and the data directory of the
container it is to update. -/
def helperBinds (mounts : List (String × String)) : List String :=
  "/var/run/docker.sock:/var/run/docker.sock" ::
    match mounts.find? fun mount => mount.2 = "/data" with
    | none => []
    | some mount => [mount.1 ++ ":/data"]

section

variable (o : Docker)

/-- `triggerSelfUpdate`. -/
def triggerSelfUpdate (containerID : String) (s : Client) : Except String Unit × Client :=
  match containerInspect o containerID s with
  | (.error err, s) => (.error err, s)
  | (.ok inspect, s) =>
      let imageRef := inspect.imageRef
      if imageRef = "" then (.error "missing image reference", s)
      else
        match imagePull o s with
        | (.error err, s) => (.error err, s)
        | (.ok _, s) =>
            match containerCreate o
                { hostname := ""
                  image := imageRef
                  labels := []
                  entrypoint := ["/app/contiwatch"]
                  cmd := ["--self-update", containerID]
                  env := ["CONTIWATCH_CONFIG=/data/config.json"]
                  fields := [] }
                ⟨true, helperBinds (o.mounts inspect.id), []⟩ none
                ("contiwatch-updater-" ++ shortID containerID) s with
            | (.error err, s) => (.error err, s)
            | (.ok created, s) => containerStart o created s

/-! ### Containers that are spared -/

/-- From `s` to `t` the container `id` was not touched, and no call asked to stop or to
remove it. -/
structure Spares (id : String) (s t : Client) : Prop where
  kept : ∀ c ∈ s.daemon.containers, c.id = id → c ∈ t.daemon.containers
  halted : id ∈ t.halted → id ∈ s.halted

/-- Doing nothing spares every container. -/
theorem Spares.refl (id : String) (s : Client) : Spares id s s := ⟨fun _ hc _ => hc, fun h => h⟩

/-- Sparing steps compose. -/
theorem Spares.trans {id : String} {s t u : Client} (h₁ : Spares id s t)
    (h₂ : Spares id t u) : Spares id s u :=
  ⟨fun c hc hid => h₂.kept c (h₁.kept c hc hid) hid, fun h => h₁.halted (h₂.halted h)⟩

/-- A call that changes nothing spares every container. -/
theorem Spares.tick (id : String) (s : Client) : Spares id s s.tick :=
  ⟨fun _ hc _ => hc, fun h => h⟩

/-- What only changes the name of another container keeps the container. -/
theorem mem_of_other {d d' : Daemon} {c₀ c : Container}
    (hother : ∀ n, n ≠ c.name → d'.byName n = d.byName n) (hc : c ∈ d.containers)
    (hc₀ : c₀ ∈ d.containers) (hid : c.id ≠ c₀.id) : c₀ ∈ d'.containers := by
  have hname : c₀.name ≠ c.name := by
    intro heq
    exact hid (congrArg Container.id (Daemon.eq_of_name hc hc₀ heq.symm))
  have hself := Daemon.byName_eq_some.mpr ⟨hc₀, rfl⟩
  rw [← hother _ hname] at hself
  exact (Daemon.byName_eq_some.mp hself).1

/-- A call that is not a stop notes no stop. -/
theorem containerAct_halted (act : Daemon → String → Daemon) (ref : String) (s : Client) :
    (containerAct o act ref s).2.halted = s.halted := by
  rw [containerAct]
  rcases o.fails s.calls with _ | err
  · rcases s.daemon.resolve ref with _ | c <;> rfl
  · rfl

/-- Nor does a creation. -/
theorem containerCreate_halted (config : ContainerConfig) (hostConfig : HostConfig)
    (endpoints : Option (GoMap String EndpointSettings)) (name : String) (s : Client) :
    (containerCreate o config hostConfig endpoints name s).2.halted = s.halted := by
  rcases containerCreate_cases o config hostConfig endpoints name s with
    ⟨err, herr⟩ | ⟨d, hok, -⟩
  · rw [herr, Client.tick_halted]
  · rw [hok, Client.change_halted]

/-- A recreation asks to stop and to remove the container it is for and no other. -/
theorem recreateContainer_halted {c : Container} {imageRef : String} {startAfter : Bool}
    {s : Client} {x : String}
    (hx : x ∈ (recreateContainer o c imageRef startAfter s).2.halted) :
    x ∈ s.halted ∨ x = c.id := by
  rw [recreateContainer] at hx
  rcases hconfig : c.config with _ | config
  · rw [hconfig] at hx
    exact Or.inl hx
  rcases hhost : c.hostConfig with _ | hostConfig
  · rw [hconfig, hhost] at hx
    exact Or.inl hx
  rw [hconfig, hhost] at hx
  dsimp only at hx
  have hstop : ∀ y, y ∈ (if startAfter then containerStop o c.id s else (.ok (), s)).2.halted →
      y ∈ s.halted ∨ y = c.id := by
    intro y hy
    split_ifs at hy
    · rw [containerStop, containerAct_halted, Client.halt_halted] at hy
      simpa using hy
    · exact Or.inl hy
  rcases hresult : (if startAfter then containerStop o c.id s else (.ok (), s)) with
    ⟨err | ok, s₁⟩
  · rw [hresult] at hx hstop
    exact hstop x hx
  rw [hresult] at hx hstop
  dsimp only at hx hstop
  have hremove : ∀ y, y ∈ (containerRemove o c.id s₁).2.halted → y ∈ s.halted ∨ y = c.id := by
    intro y hy
    rw [containerRemove, containerAct_halted, Client.halt_halted] at hy
    rcases List.mem_append.mp hy with hold | hnew
    · exact hstop y hold
    · exact Or.inr (List.mem_singleton.mp hnew)
  rcases hresult₂ : containerRemove o c.id s₁ with ⟨err | ok, s₂⟩
  · rw [hresult₂] at hx hremove
    exact hremove x hx
  rw [hresult₂] at hx hremove
  dsimp only at hx hremove
  have hcreate := containerCreate_halted o (recreateConfig config imageRef) hostConfig
    (c.networks.map (GoMap.mapValues recreateEndpoint)) (recreateName c) s₂
  rcases hresult₃ : containerCreate o (recreateConfig config imageRef) hostConfig
      (c.networks.map (GoMap.mapValues recreateEndpoint)) (recreateName c) s₂ with
    ⟨err | created, s₃⟩
  · rw [hresult₃] at hx hcreate
    exact hremove x (hcreate ▸ hx)
  rw [hresult₃] at hx hcreate
  dsimp only at hx hcreate
  have hstart : (if startAfter then containerStart o created s₃ else (.ok (), s₃)).2.halted =
      s₃.halted := by
    split_ifs
    · exact containerAct_halted o Daemon.start created s₃
    · rfl
  rcases hresult₄ : (if startAfter then containerStart o created s₃ else (.ok (), s₃)) with
    ⟨err | ok, s₄⟩
  · rw [hresult₄] at hx hstart
    exact hremove x (hcreate ▸ hstart ▸ hx)
  · rw [hresult₄] at hx hstart
    exact hremove x (hcreate ▸ hstart ▸ hx)

/-- A recreation of another container. -/
theorem recreateContainer_spares {id : String} {c : Container} (imageRef : String)
    (startAfter : Bool) {s : Client} (hc : c ∈ s.daemon.containers) (hid : c.id ≠ id) :
    Spares id s (recreateContainer o c imageRef startAfter s).2 where
  kept := by
    intro c₀ hc₀ hid₀
    refine mem_of_other (fun n hn => ?_) hc hc₀ (hid₀ ▸ hid)
    exact (recreateContainer_effect o imageRef startAfter hc).other o hn
  halted := by
    intro hx
    rcases recreateContainer_halted o hx with hold | hself
    · exact hold
    · exact absurd hself.symm hid

/-- Looking at a container spares every one. -/
theorem containerInspect_spares (id ref : String) (s : Client) :
    Spares id s (containerInspect o ref s).2 := by
  rw [containerInspect_snd]
  exact Spares.tick id s

/-- The check of the applied image of another container. -/
theorem confirmImage_spares {id : String} {c : Container} (newImageID : String)
    (startAfter : Bool) {s : Client} (hc : c ∈ s.daemon.containers) (hid : c.id ≠ id) :
    Spares id s (confirmImage o c.id newImageID startAfter s).2 := by
  have hinspect := containerInspect_spares o id c.id s
  rw [confirmImage, if_neg (s.daemon.named c hc).1]
  rcases containerInspect_cases o hc with ⟨err, -, herr⟩ | ⟨-, hok⟩
  · rw [herr] at hinspect ⊢
    exact hinspect
  rw [hok] at hinspect ⊢
  dsimp only at hinspect ⊢
  split_ifs with hretry
  swap
  · exact hinspect
  have hrecreate := hinspect.trans
    (recreateContainer_spares o newImageID startAfter (s := s.tick) hc hid)
  rcases hresult : recreateContainer o c newImageID startAfter s.tick with ⟨err | retryID, s₁⟩
  · rw [hresult] at hrecreate
    exact hrecreate
  rw [hresult] at hrecreate
  have hagain := hrecreate.trans (containerInspect_spares o id retryID s₁)
  dsimp only
  rcases hresult₂ : containerInspect o retryID s₁ with ⟨err | retryInspect, s₂⟩
  · rw [hresult₂] at hagain
    exact hagain
  · rw [hresult₂] at hagain
    dsimp only
    split_ifs
    · exact hagain
    · exact hagain

/-- So does the report of the new container's state. -/
theorem reportState_spares (id newContainerID : String) (startAfter : Bool) (s : Client) :
    Spares id s (reportState o newContainerID startAfter s).2 := by
  rw [reportState]
  by_cases hempty : newContainerID = ""
  · rw [if_pos hempty]
    exact Spares.refl id s
  rw [if_neg hempty]
  have hinspect := containerInspect_spares o id newContainerID s
  rcases hresult : containerInspect o newContainerID s with ⟨err | newInspect, s₁⟩
  · rw [hresult] at hinspect
    exact hinspect
  · rw [hresult] at hinspect
    dsimp only
    rcases newInspect.state with _ | state
    · exact hinspect
    · exact hinspect

/-- So does the report of the pruning. -/
theorem reportPrune_spares (id : String) (cfg : Config) (s : Client) :
    Spares id s (reportPrune o cfg s).2 := by
  rw [reportPrune]
  split_ifs
  · rw [imagesPrune]
    rcases o.fails s.calls with _ | err
    · exact Spares.tick id s
    · exact Spares.tick id s
  · exact Spares.refl id s

/-- An update of another container, from its recreation on. -/
theorem applyUpdate_spares {id : String} {c : Container} (name imageRef newImageID : String)
    (cfg : Config) (startAfter : Bool) {s : Client} (hc : c ∈ s.daemon.containers)
    (hid : c.id ≠ id) (hthere : ∃ c₀ ∈ s.daemon.containers, c₀.id = id) :
    Spares id s (applyUpdate o c name imageRef newImageID cfg startAfter s).2 := by
  rw [applyUpdate]
  have hrecreate := recreateContainer_spares o imageRef startAfter hc hid
  have heffect := recreateContainer_effect o imageRef startAfter hc
  rcases hresult : recreateContainer o c imageRef startAfter s with ⟨err | newID, s₁⟩
  · rw [hresult] at hrecreate
    exact hrecreate
  rw [hresult] at hrecreate heffect
  dsimp only at hrecreate heffect ⊢
  -- the new container has another ID, because the one that is spared is still there
  obtain ⟨c₁, hc₁, rfl, hname⟩ := heffect.mem_of_ok
  have hid₁ : c₁.id ≠ id := by
    obtain ⟨c₀, hc₀, rfl⟩ := hthere
    intro heq
    have hsame := Daemon.eq_of_id hc₁ (hrecreate.kept c₀ hc₀ rfl) heq
    have hcname : c₁.name = c.name := (Daemon.byName_eq_some.mp hname).2
    exact hid (congrArg Container.id (Daemon.eq_of_name hc hc₀ (hcname.symm.trans
      (congrArg Container.name hsame))))
  have hconfirm := hrecreate.trans (confirmImage_spares o newImageID startAfter hc₁ hid₁)
  rcases hresult₂ : confirmImage o c₁.id newImageID startAfter s₁ with ⟨err | applied, s₂⟩
  · rw [hresult₂] at hconfirm
    exact hconfirm
  · rw [hresult₂] at hconfirm
    exact (hconfirm.trans (reportState_spares o id _ startAfter s₂)).trans
      (reportPrune_spares o id cfg _)

/-- **An update spares every other container.** If the reference does not stand for the
container `id`, the update neither touches that container nor asks to stop or to remove it. -/
theorem updateContainer_spares {id containerID : String} (cfg : Config) (forceStart : Bool)
    {s : Client} (hthere : ∃ c₀ ∈ s.daemon.containers, c₀.id = id)
    (h : ∀ c, s.daemon.resolve (trimSpaceStr containerID) = some c → c.id ≠ id) :
    Spares id s (updateContainer o containerID cfg forceStart s).2 := by
  have hinspect := containerInspect_spares o id (trimSpaceStr containerID) s
  simp only [updateContainer]
  by_cases hempty : trimSpaceStr containerID = ""
  · rw [if_pos hempty]
    exact Spares.refl id s
  rw [if_neg hempty]
  have hsnd := containerInspect_snd o (trimSpaceStr containerID) s
  rcases hresult : containerInspect o (trimSpaceStr containerID) s with ⟨err | c, s₁⟩
  · rw [hresult] at hinspect
    exact hinspect
  rw [hresult] at hinspect hsnd
  have hc : s.daemon.resolve (trimSpaceStr containerID) = some c :=
    resolve_of_containerInspect o (by rw [hresult])
  have hid := h c hc
  obtain rfl : s₁ = s.tick := hsnd
  simp only [updateInspected]
  by_cases hpaused : (c.state.map ContainerState.paused).getD false = true
  · rw [if_pos hpaused]
    exact hinspect
  by_cases himage : c.imageRef = ""
  · rw [if_neg hpaused, if_pos himage]
    exact hinspect
  have hpull := hinspect.trans (Spares.tick id s.tick)
  rw [if_neg hpaused, if_neg himage, imagePull]
  rcases o.fails s.tick.calls with _ | err
  swap
  · exact hpull
  have himageInspect := hpull.trans (Spares.tick id s.tick.tick)
  simp only [imageInspect]
  rcases o.fails s.tick.tick.calls with _ | err
  swap
  · exact himageInspect
  dsimp only
  by_cases hnew : o.imageID s.tick.tick.calls c.imageRef ≠ "" ∧
      o.imageID s.tick.tick.calls c.imageRef ≠ c.image
  swap
  · rw [if_pos hnew]
    exact himageInspect
  rw [if_neg (not_not.mpr hnew)]
  by_cases hskip : (!c.running && !forceStart && !cfg.updateStoppedContainers) = true
  · rw [if_pos hskip]
    exact himageInspect
  · rw [if_neg hskip]
    exact himageInspect.trans (applyUpdate_spares o _ _ _ cfg _ (s := s.tick.tick.tick)
      (Daemon.mem_of_resolve hc) hid hthere)

/-- A new container, once started, leaves the others as they are. -/
theorem createStart_spares {id : String} (config : ContainerConfig) (hostConfig : HostConfig)
    (endpoints : Option (GoMap String EndpointSettings)) (name : String) {s : Client}
    (hthere : ∃ c₀ ∈ s.daemon.containers, c₀.id = id) :
    Spares id s (match containerCreate o config hostConfig endpoints name s with
      | (.error err, s) => ((.error err : Except String Unit), s)
      | (.ok created, s) => containerStart o created s).2 := by
  rw [containerCreate]
  rcases o.fails s.calls with _ | err
  swap
  · exact Spares.tick id s
  dsimp only
  split_ifs with hfree
  swap
  · exact Spares.tick id s
  set c := newContainer o s.calls config hostConfig endpoints name
  have hmem : c ∈ (s.change (s.daemon.add c (by simpa using hfree.1) (by simpa using hfree.2.1)
      ⟨hfree.2.2.1, name, hfree.2.2.2, rfl⟩)).daemon.containers := List.mem_cons_self ..
  have hkept : ∀ c₀ ∈ s.daemon.containers, c₀ ∈ (s.daemon.add c (by simpa using hfree.1)
      (by simpa using hfree.2.1) ⟨hfree.2.2.1, name, hfree.2.2.2, rfl⟩).containers :=
    fun c₀ hc₀ => List.mem_cons_of_mem c hc₀
  -- the new ID was free, so it is not the one of the container that is spared
  have hid : c.id ≠ id := by
    obtain ⟨c₀, hc₀, rfl⟩ := hthere
    intro heq
    have hnone : s.daemon.byID c.id = none := by simpa using hfree.1
    rw [Daemon.byID_eq_some.mpr ⟨hc₀, heq.symm⟩] at hnone
    exact absurd hnone (by simp)
  dsimp only
  rw [containerStart]
  rcases containerAct_cases o Daemon.start hmem with ⟨err, herr⟩ | hok
  · rw [herr]
    exact ⟨fun c₀ hc₀ _ => hkept c₀ hc₀, fun h => h⟩
  · rw [hok]
    refine ⟨fun c₀ hc₀ hid₀ => ?_, fun h => h⟩
    exact mem_of_other (leaves_start hmem).other hmem (hkept c₀ hc₀) (hid₀ ▸ hid)

/-- **Starting the helper spares every container that is there.** -/
theorem triggerSelfUpdate_spares {id : String} (containerID : String) {s : Client}
    (hthere : ∃ c₀ ∈ s.daemon.containers, c₀.id = id) :
    Spares id s (triggerSelfUpdate o containerID s).2 := by
  have hinspect := containerInspect_spares o id containerID s
  have hsnd := containerInspect_snd o containerID s
  rw [triggerSelfUpdate]
  rcases hresult : containerInspect o containerID s with ⟨err | c, s₁⟩
  · rw [hresult] at hinspect
    exact hinspect
  rw [hresult] at hinspect hsnd
  obtain rfl : s₁ = s.tick := hsnd
  dsimp only
  by_cases himage : c.imageRef = ""
  · rw [if_pos himage]
    exact hinspect
  have hpull := hinspect.trans (Spares.tick id s.tick)
  rw [if_neg himage, imagePull]
  rcases o.fails s.tick.calls with _ | err
  swap
  · exact hpull
  · exact hpull.trans (createStart_spares o _ _ _ _ (s := s.tick.tick) hthere)

end

end Contiwatch
