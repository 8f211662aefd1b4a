import Contiwatch.ConfigHandlers

/-!
# Settings After a Restart

What `Update` writes to the file is what `load` reads when the process starts again, but the two
apply different repairs. The repairs of `load` find nothing to do in a configuration that requests
have made; its migration of an old default does not know whether the value was chosen by the
user, and replaces it.

## Main results

* `run_restart` — after any run of requests whose updates were written, a restart gives the
  configuration in memory, with the migration applied if it was written by a request.
* `interval_can_be_lost` — the scan interval a user has saved can be replaced.
-/

namespace Contiwatch

open GoJson

/-! ### Updates and the file -/

section

variable {fold : Char → Char}

/-- An update that reports no error has written the file. -/
theorem file_of_update {f : StoredConfig → StoredConfig} {s t : Store}
    {r : StoredConfig × Option WriteStep} (h : storeSem fold (.update f) s r t)
    (hsaved : r.2 = none) : t.disk.file = some (fileOf fold t.config) := by
  obtain ⟨faults, hupdate⟩ := h
  obtain ⟨rfl, rfl⟩ := Prod.mk.inj hupdate
  obtain ⟨-, herr, -⟩ | ⟨-, -, hfile⟩ := writeConfigAtomically_cases faults
    (fileOf fold (normalizeUpdated (f s.config))) s.disk
  · exact absurd hsaved herr
  · exact hfile

/-- What was loaded once is loaded again when no call fails. -/
theorem load_again {fails fails' : OpenStep → Bool} {disk : Disk} {cfg : StoredConfig}
    (h : load fold fails disk = .ok cfg) (hfails : ∀ step, fails' step = false) :
    load fold fails' disk = .ok cfg := by
  rw [load] at h ⊢
  rcases hfile : disk.file with _ | contents
  · rw [hfile] at h
    cases h
  · simp only [hfile] at h
    simp only [hfails, Bool.false_eq_true, if_false]
    split at h
    · cases h
    split at h
    · cases h
    exact h

/-- The store after the start: the file was loaded, or the defaults were written. -/
theorem newStore_cases {fails : OpenStep → Bool} {faults : WriteFaults} {path : String}
    {disk : Disk} {s : Store} (h : newStore fold fails faults path disk = .ok s) :
    load fold fails s.disk = .ok s.config ∨
      (s.config = defaultConfig ∧ s.disk.file = some (fileOf fold defaultConfig)) := by
  rw [newStore] at h
  split at h
  · cases h
  split at h
  · rcases hload : load fold fails disk with err | cfg
    · rw [hload] at h
      cases h
    · rw [hload] at h
      obtain rfl := Except.ok.inj h
      exact .inl hload
  split at h
  · cases h
  · split at h
    · rename_i saved hsave
      obtain rfl := Except.ok.inj h
      obtain ⟨hnone, rfl⟩ := Prod.mk.inj hsave
      obtain ⟨-, herr, -⟩ | ⟨-, -, hfile⟩ :=
        writeConfigAtomically_cases faults (fileOf fold defaultConfig) disk
      · exact absurd hnone herr
      · exact .inr ⟨rfl, hfile⟩
    · cases h

end

/-! ### Requests -/

section

variable {lib : Libraries}

/-- Requests leave the settings that `Update` does not repair in order. -/
theorem normal_of_commits {req : SettingsRequest} {before cfg : StoredConfig}
    {f : StoredConfig → StoredConfig} (hcommits : Commits lib req before f) (h : Normal cfg) :
    Normal (normalizeUpdated (f cfg)) := by
  obtain ⟨body, payload, -, -, -, rfl⟩ | ⟨-, hservers⟩ := commits_cases lib hcommits
  · refine normal_normalizeUpdated ?_ ?_
    · simp [applyPayload, h.notifyOnUpdateDetected]
    · simp [applyPayload, h.notifyOnContainerUpdated]
  · obtain ⟨locals, remotes, hf⟩ := hservers cfg
    rw [hf]
    exact normal_normalizeUpdated h.notifyOnUpdateDetected h.notifyOnContainerUpdated

/-- The event is an update. -/
def Updates : SettingsEvent → Bool
  | .op _ (.update _) _ => true
  | _ => false

/-- An update, if the event is one, was written. -/
def Saved : SettingsEvent → Prop
  | .op _ (.update _) r => Prod.snd r = none
  | _ => True

/-- What memory and file have to do with each other after the events `es`. -/
def InStep (fold : Char → Char) (es : List SettingsEvent) (s : Store) : Prop :=
  Normal s.config ∧
    if es.any Updates then s.disk.file = some (fileOf fold s.config)
    else ∃ fails, load fold fails s.disk = .ok s.config

/-- At the start. -/
theorem inStep_of_newStore {fold : Char → Char} {fails : OpenStep → Bool} {faults : WriteFaults}
    {path : String} {disk : Disk} {s : Store}
    (h : newStore fold fails faults path disk = .ok s) : InStep fold [] s := by
  rcases newStore_cases h with hload | ⟨hconfig, hfile⟩
  · exact ⟨normal_of_load fold hload, fails, hload⟩
  · have hdefault : normalizeLoaded defaultConfig = defaultConfig := by
      rw [normalizeLoaded_of_normal normal_defaultConfig, migrate_eq_self_iff]
      decide
    have hload : load fold (fun _ => false) s.disk = .ok (normalizeLoaded defaultConfig) :=
      load_of_file fold (fun _ => rfl) hfile
    rw [hdefault, ← hconfig] at hload
    exact ⟨hconfig ▸ normal_defaultConfig, _, hload⟩

/-- An event that is no update changes nothing. -/
theorem InStep.snoc {fold : Char → Char} {es : List SettingsEvent} {e : SettingsEvent} {s : Store}
    (h : InStep fold es s) (he : Updates e = false) : InStep fold (es ++ [e]) s := by
  rw [InStep, List.any_append, List.any_cons, List.any_nil, he, Bool.or_false, Bool.or_false]
  exact h

/-- An update that was written brings memory and file together. -/
theorem InStep.update {es : List SettingsEvent} {req : SettingsRequest}
    {f : StoredConfig → StoredConfig} {s t : Store} {r : StoredConfig × Option WriteStep}
    {before : StoredConfig} (h : InStep lib.fold es s) (hcommits : Commits lib req before f)
    (hsem : storeSem lib.fold (.update f) s r t) (hsaved : r.2 = none) :
    InStep lib.fold (es ++ [.op req (.update f) r]) t := by
  refine ⟨?_, ?_⟩
  · rw [config_of_update hsem]
    exact normal_of_commits hcommits h.1
  · have hupdated : (es ++ [.op req (.update f) r] : List SettingsEvent).any Updates = true :=
      List.any_eq_true.mpr ⟨_, List.mem_append_right _ (List.mem_singleton_self _), rfl⟩
    rw [if_pos hupdated]
    exact file_of_update hsem hsaved

/-- Memory and file along a run whose updates were written. -/
theorem run_inStep {s : Store} {es : List SettingsEvent} {q : SettingsPool}
    (h0 : InStep lib.fold [] s)
    (hrun : Run (fun p e q => settingsStep lib p e q ∧ Saved e) ⟨s, []⟩ es q) :
    InStep lib.fold es q.state := by
  refine (hrun.invariant (fun es p => InStep lib.fold es p.state ∧
    ∀ th ∈ p.threads, th.2.Ops (SettingsOp lib th.1))
    ⟨h0, fun th hth => absurd hth List.not_mem_nil⟩ ?_).1
  rintro es p e q ⟨h, hops⟩ ⟨hstep, hsaved⟩
  refine ⟨?_, hstep.ops (ops_handle lib) hops⟩
  cases hstep with
  | start hstart =>
      obtain rfl := hstart
      exact h.snoc rfl
  | env henv => exact absurd henv id
  | @op front back req o next r t hthread hsem =>
      cases o with
      | get =>
          obtain ⟨-, rfl⟩ := hsem
          exact h.snoc rfl
      | update f =>
          rw [hthread] at hops
          have hthreadOps := hops _ (List.mem_append_right _ (List.mem_cons_self ..))
          obtain ⟨⟨before, hcommits⟩, -⟩ := Prog.ops_op.mp hthreadOps
          exact h.update hcommits hsem hsaved

/-- **Restarts.** Start the process, let requests come in any order, and let every update be
written. A restart then gives the configuration that was in memory, with one exception: if a
request has updated it and it uses the old default of the scan interval with nothing else set,
the scan interval is replaced by the present default. -/
theorem run_restart {fails fails' : OpenStep → Bool} {faults : WriteFaults} {path : String}
    {disk : Disk} {s : Store} {es : List SettingsEvent} {q : SettingsPool}
    (hstart : newStore lib.fold fails faults path disk = .ok s)
    (hrun : Run (fun p e q => settingsStep lib p e q ∧ Saved e) ⟨s, []⟩ es q)
    (hfails : ∀ step, fails' step = false) :
    load lib.fold fails' q.state.disk =
      .ok (if es.any Updates ∧ UsesOldDefaults q.state.config then
        { q.state.config with scanIntervalSec := defaultConfig.scanIntervalSec }
        else q.state.config) := by
  obtain ⟨hnormal, hfile⟩ := run_inStep (inStep_of_newStore hstart) hrun
  by_cases hupdated : es.any Updates = true
  · rw [if_pos hupdated] at hfile
    rw [load_of_file lib.fold hfails hfile, normalizeLoaded_of_normal hnormal, migrate]
    simp only [hupdated, true_and]
  · rw [if_neg hupdated] at hfile
    obtain ⟨fails₀, hload⟩ := hfile
    rw [load_again hload hfails, if_neg fun h => hupdated h.1]

/-! ### A setting that does not survive -/

/-- `PUT /api/config` that sets the scan interval to five minutes. -/
def setInterval : SettingsRequest :=
  .putConfig (some (.obj [("scan_interval_sec", .int 300), ("global_policy", .str "notify_only")]))

/-- The payload of `setInterval`. -/
def intervalPayload : StoredConfig :=
  { zeroConfig with scanIntervalSec := 300, globalPolicy := policyNotifyOnly }

/-- The sample request writes its interval. -/
theorem commits_setInterval :
    Commits sampleLibraries setInterval defaultConfig
      (applyPayload defaultConfig intervalPayload) :=
  ⟨intervalPayload, by decide, by decide, rfl⟩

/-- The store of a process that starts without a file. -/
def createdStore : Store :=
  (Store.saveLocked Char.toLower noFaults
    { path := "/data/config.json", config := defaultConfig,
      disk := { file := none, temps := ∅ } }).2

theorem newStore_created :
    newStore Char.toLower (fun _ => false) noFaults "/data/config.json"
      { file := none, temps := ∅ } = .ok createdStore := rfl

/-- **A saved interval can be lost.** On a fresh installation a user sets the scan interval to five
minutes; the request succeeds, and after a restart the interval is a day. -/
theorem interval_can_be_lost :
    ∃ es q, Run (fun p e q => settingsStep sampleLibraries p e q ∧ Saved e)
        ⟨createdStore, []⟩ es q ∧
      newStore sampleLibraries.fold (fun _ => false) noFaults "/data/config.json"
        { file := none, temps := ∅ } = .ok createdStore ∧
      q.state.config.scanIntervalSec = 300 ∧
      load sampleLibraries.fold (fun _ => false) q.state.disk ≠ .ok q.state.config := by
  obtain ⟨es, q, hrun, hstate⟩ := run_request (s := createdStore) (C := fun _ e => Saved e)
    commits_setInterval (storeSem_update _ noFaults _ _) trivial trivial rfl
  have hinterval : q.state.config.scanIntervalSec = 300 := by
    rw [hstate]
    decide
  have hrestarted : (normalizeLoaded q.state.config).scanIntervalSec = 86400 := by
    rw [hstate]
    decide
  have hfile : q.state.disk.file = some (fileOf sampleLibraries.fold q.state.config) := by
    rw [hstate]
    exact file_of_update (storeSem_update _ noFaults _ _) rfl
  refine ⟨es, q, hrun, newStore_created, hinterval, fun hsame => ?_⟩
  rw [load_of_file sampleLibraries.fold (fun _ => rfl) hfile] at hsame
  rw [Except.ok.inj hsame, hinterval] at hrestarted
  exact absurd hrestarted (by decide)

/-- `PUT /api/config` that sets another interval. -/
def setHourly : SettingsRequest := .putConfig (some (.obj [("scan_interval_sec", .int 3600)]))

/-- The second request writes an hour. -/
theorem commits_setHourly :
    Commits sampleLibraries setHourly defaultConfig
      (applyPayload defaultConfig { zeroConfig with scanIntervalSec := 3600 }) :=
  ⟨_, by decide, by decide, rfl⟩

/-- Another interval survives. -/
theorem hourly_survives :
    ∃ es q, Run (fun p e q => settingsStep sampleLibraries p e q ∧ Saved e)
        ⟨createdStore, []⟩ es q ∧
      q.state.config.scanIntervalSec = 3600 ∧
      load sampleLibraries.fold (fun _ => false) q.state.disk = .ok q.state.config := by
  obtain ⟨es, q, hrun, hstate⟩ := run_request (s := createdStore) (C := fun _ e => Saved e)
    commits_setHourly (storeSem_update _ noFaults _ _) trivial trivial rfl
  have hinterval : q.state.config.scanIntervalSec = 3600 := by
    rw [hstate]
    decide
  have hnew : ¬ UsesOldDefaults q.state.config := by
    rw [hstate]
    decide
  refine ⟨es, q, hrun, hinterval, ?_⟩
  rw [run_restart newStore_created hrun fun _ => rfl, if_neg fun h => hnew h.2]

end

end Contiwatch
