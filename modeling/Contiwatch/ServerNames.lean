import Contiwatch.ConfigHandlers

/-!
# Server Names

The names of local servers and agents share one name space: requests, scan results and updates
refer to a server by its name, whatever its case. Within each of the two lists the store keeps
names apart when a server is added. Across the lists a `POST` compares its name with the other
list as it was when it read the configuration, and adds the server later.

## Main results

* `namesDistinct_upsertServer_iff`, `namesDistinct_upsertLocal_iff` — what adding a server needs.
* `run_names_iff` — over any interleaving of requests, the names stay apart exactly as long as
  every `POST` adds its server while the other list has no server of that name.
* `names_can_collide` — two overlapping requests can add one name to both lists.
-/

namespace Contiwatch

open GoStrings GoJson

section

variable (fold : Char → Char)

/-- The names of all servers. -/
def serverNames (cfg : StoredConfig) : List String :=
  cfg.localServers.map (·.name) ++ cfg.remoteServers.map (·.name)

/-- No two servers have names that are equal up to case. -/
def NamesDistinct (cfg : StoredConfig) : Prop :=
  (serverNames cfg).Pairwise fun a b => equalFold fold a b = false

instance (cfg : StoredConfig) : Decidable (NamesDistinct fold cfg) :=
  inferInstanceAs (Decidable (List.Pairwise _ _))

variable {fold}

/-- Names differ where their keys do. -/
theorem equalFold_eq_false {a b : String} :
    equalFold fold a b = false ↔ nameKey fold a ≠ nameKey fold b := by
  rw [equalFold, decide_eq_false_iff_not]
  rfl

/-- Names are apart if the keys are unique in each list, and the lists have none in common. -/
theorem namesDistinct_iff {cfg : StoredConfig} :
    NamesDistinct fold cfg ↔
      (cfg.localServers.map (localKey fold)).Nodup ∧
      (cfg.remoteServers.map (remoteKey fold)).Nodup ∧
      ∀ k ∈ cfg.localServers.map (localKey fold), k ∉ cfg.remoteServers.map (remoteKey fold) := by
  have hkeys : NamesDistinct fold cfg ↔
      (cfg.localServers.map (localKey fold) ++ cfg.remoteServers.map (remoteKey fold)).Nodup := by
    have hmap : cfg.localServers.map (localKey fold) ++ cfg.remoteServers.map (remoteKey fold) =
        (serverNames cfg).map (nameKey fold) := by
      rw [serverNames, List.map_append, List.map_map, List.map_map]
      rfl
    rw [hmap, List.Nodup, List.pairwise_map, NamesDistinct]
    simp only [equalFold_eq_false]
  rw [hkeys, List.nodup_append']
  rfl

/-- No local server has the name. -/
theorem localNameExists_eq_false {servers : List LocalEntry} {name : String} :
    localNameExists fold servers name = false ↔
      nameKey fold name ∉ servers.map (localKey fold) := by
  rw [localNameExists, List.any_eq_false]
  simp only [Bool.not_eq_true, equalFold_eq_false, List.mem_map, not_exists, not_and]
  exact Iff.rfl

/-- No agent has it. -/
theorem remoteNameExists_eq_false {servers : List RemoteEntry} {name : String} :
    remoteNameExists fold servers name = false ↔
      nameKey fold name ∉ servers.map (remoteKey fold) := by
  rw [remoteNameExists, List.any_eq_false]
  simp only [Bool.not_eq_true, equalFold_eq_false, List.mem_map, not_exists, not_and]
  exact Iff.rfl

/-! ### Changes of the lists -/

/-- The names are in the two lists of servers alone. -/
theorem namesDistinct_congr {cfg cfg' : StoredConfig}
    (hlocals : cfg'.localServers = cfg.localServers)
    (hremotes : cfg'.remoteServers = cfg.remoteServers) :
    NamesDistinct fold cfg' ↔ NamesDistinct fold cfg := by
  rw [NamesDistinct, NamesDistinct, serverNames, serverNames, hlocals, hremotes]

/-- **Adding an agent** keeps names apart exactly if no local server has its name. -/
theorem namesDistinct_upsertServer_iff {cfg : StoredConfig} (h : NamesDistinct fold cfg)
    (input : RemoteEntry) :
    NamesDistinct fold
        { cfg with remoteServers := upsertServer fold cfg.remoteServers input } ↔
      localNameExists fold cfg.localServers input.name = false := by
  obtain ⟨hlocals, hremotes, hapart⟩ := namesDistinct_iff.mp h
  rw [localNameExists_eq_false, namesDistinct_iff]
  constructor
  · rintro ⟨-, -, hnew⟩ hmem
    exact hnew _ hmem (Keyed.mem_map_upsert.mpr (.inr rfl))
  · intro hfree
    refine ⟨hlocals, Keyed.nodup_upsert hremotes input, fun k hk hmem => ?_⟩
    rcases Keyed.mem_map_upsert.mp hmem with hold | rfl
    · exact hapart k hk hold
    · exact hfree hk

/-- **Adding a local server** keeps names apart exactly if no agent has its name. -/
theorem namesDistinct_upsertLocal_iff {cfg : StoredConfig} (h : NamesDistinct fold cfg)
    (input : LocalEntry) :
    NamesDistinct fold { cfg with localServers := upsertLocal fold cfg.localServers input } ↔
      remoteNameExists fold cfg.remoteServers input.name = false := by
  obtain ⟨hlocals, hremotes, hapart⟩ := namesDistinct_iff.mp h
  rw [remoteNameExists_eq_false, namesDistinct_iff]
  constructor
  · rintro ⟨-, -, hnew⟩ hmem
    exact hnew _ (Keyed.mem_map_upsert.mpr (.inr rfl)) hmem
  · intro hfree
    refine ⟨Keyed.nodup_upsert hlocals input, hremotes, fun k hk hmem => ?_⟩
    rcases Keyed.mem_map_upsert.mp hk with hold | rfl
    · exact hapart k hold hmem
    · exact hfree hmem

/-- Removing an agent keeps names apart. -/
theorem namesDistinct_removeServer {cfg : StoredConfig} (h : NamesDistinct fold cfg)
    (name : String) :
    NamesDistinct fold
      { cfg with remoteServers := removeServer fold cfg.remoteServers name } := by
  obtain ⟨hlocals, hremotes, hapart⟩ := namesDistinct_iff.mp h
  refine namesDistinct_iff.mpr ⟨hlocals, Keyed.nodup_remove hremotes _, fun k hk hmem => ?_⟩
  exact hapart k hk (Keyed.mem_map_of_mem_remove hmem)

/-- Removing a local server keeps names apart. -/
theorem namesDistinct_removeLocal {cfg : StoredConfig} (h : NamesDistinct fold cfg)
    (name : String) :
    NamesDistinct fold { cfg with localServers := removeLocal fold cfg.localServers name } := by
  obtain ⟨hlocals, hremotes, hapart⟩ := namesDistinct_iff.mp h
  refine namesDistinct_iff.mpr ⟨Keyed.nodup_remove hlocals _, hremotes, fun k hk hmem => ?_⟩
  exact hapart k (Keyed.mem_map_of_mem_remove hk) hmem

end

/-! ### Requests -/

section

variable (lib : Libraries)

/-- An update by a `POST` is made while the other list has no server of its name. -/
def NameFree (s : Store) : SettingsEvent → Prop
  | .op (.postServer body) (.update _) _ => ∀ payload, serverPayload lib body = .ok payload →
      localNameExists lib.fold s.config.localServers payload.name = false
  | .op (.postLocal body) (.update _) _ => ∀ payload, localPayload lib body = .ok payload →
      remoteNameExists lib.fold s.config.remoteServers payload.name = false
  | _ => True

variable {lib}

/-- Keeping the token keeps the name. -/
theorem name_keepToken (before : StoredConfig) (payload : RemoteEntry) :
    (keepToken lib before payload).name = payload.name := by
  rw [keepToken]
  split
  · rfl
  · rfl

/-- One update keeps the names apart exactly if it meets the condition. -/
theorem namesDistinct_update_iff {req : SettingsRequest} {before : StoredConfig}
    {f : StoredConfig → StoredConfig} {s : Store} {r : StoredConfig × Option WriteStep}
    (hcommits : Commits lib req before f) (h : NamesDistinct lib.fold s.config) :
    NamesDistinct lib.fold (normalizeUpdated (f s.config)) ↔
      NameFree lib s (.op req (.update f) r) := by
  have hrepaired : NamesDistinct lib.fold (normalizeUpdated (f s.config)) ↔
      NamesDistinct lib.fold (f s.config) :=
    namesDistinct_congr (localServers_normalizeUpdated _) (remoteServers_normalizeUpdated _)
  rw [hrepaired]
  cases req with
  | putConfig body =>
      obtain ⟨payload, -, -, rfl⟩ := hcommits
      have hsame : NamesDistinct lib.fold (applyPayload before payload s.config) ↔
          NamesDistinct lib.fold s.config :=
        namesDistinct_congr (localServers_applyPayload ..) (remoteServers_applyPayload ..)
      exact iff_of_true (hsame.mpr h) trivial
  | postServer body =>
      obtain ⟨payload, hpayload, -, rfl⟩ := hcommits
      rw [namesDistinct_upsertServer_iff h, name_keepToken]
      exact (forall_payload_iff hpayload (P := fun input : RemoteEntry =>
        localNameExists lib.fold s.config.localServers input.name = false)).symm
  | postLocal body =>
      obtain ⟨payload, hpayload, -, rfl⟩ := hcommits
      rw [namesDistinct_upsertLocal_iff h]
      exact (forall_payload_iff hpayload (P := fun input : LocalEntry =>
        remoteNameExists lib.fold s.config.remoteServers input.name = false)).symm
  | deleteServer path =>
      obtain ⟨-, rfl⟩ := hcommits
      exact iff_of_true (namesDistinct_removeServer h _) trivial
  | deleteLocal path =>
      obtain ⟨-, rfl⟩ := hcommits
      exact iff_of_true (namesDistinct_removeLocal h _) trivial

/-- **Names over runs.** From a configuration whose names are apart, the runs in which they are
apart all the time are exactly those in which every `POST` adds its server while the other list
has no server of that name. -/
theorem run_names_iff {s : Store} {es : List SettingsEvent} {q : SettingsPool}
    (h0 : NamesDistinct lib.fold s.config) :
    Run (fun p e q => settingsStep lib p e q ∧ NamesDistinct lib.fold q.state.config)
        ⟨s, []⟩ es q ↔
      Run (fun p e q => settingsStep lib p e q ∧ NameFree lib p.state e) ⟨s, []⟩ es q := by
  refine run_config_iff (fun _ _ => trivial) (fun _ req _ => ?_) namesDistinct_update_iff h0
  cases req <;> trivial

/-! ### Two requests for one name -/

/-- `POST /api/servers` with the name `a`. -/
def postAgent : SettingsRequest :=
  .postServer (some (.obj [("name", .str "a"), ("url", .str "http://10.0.0.2:8080"),
    ("token", .str "secret")]))

/-- `POST /api/locals` with the name `A`. -/
def postSocket : SettingsRequest :=
  .postLocal (some (.obj [("name", .str "A"), ("socket", .str "/var/run/docker.sock")]))

/-- The local server of `postSocket`. -/
def socketEntry : LocalEntry where
  name := "A"
  socket := "/var/run/docker.sock"
  maintenance := false
  publicIP := ""

/-- With no server there, both requests pass their checks. -/
theorem commits_postAgent : Commits sampleLibraries postAgent defaultConfig fun cur => { cur with
    remoteServers := upsertServer Char.toLower cur.remoteServers agentEntry } :=
  ⟨agentEntry, by decide, rfl, rfl⟩

/-- The sample request adds its local server. -/
theorem commits_postSocket : Commits sampleLibraries postSocket defaultConfig fun cur =>
    { cur with localServers := upsertLocal Char.toLower cur.localServers socketEntry } :=
  ⟨socketEntry, by decide, rfl, rfl⟩

/-- **Names can collide.** A client adds the agent `a` while another adds the local server `A`:
each finds its name free, and the store ends up with both. -/
theorem names_can_collide :
    NamesDistinct sampleLibraries.fold (savedStore Char.toLower defaultConfig).config ∧
      ∃ es q, Run (settingsStep sampleLibraries) ⟨savedStore Char.toLower defaultConfig, []⟩ es q ∧
        ¬ NamesDistinct sampleLibraries.fold q.state.config := by
  refine ⟨by decide, ?_⟩
  obtain ⟨es, p, q, hrun, -, hstep, hstate⟩ := run_overtaken
    (s := savedStore Char.toLower defaultConfig) commits_postAgent commits_postSocket
    (storeSem_update _ noFaults _ _) (storeSem_update _ noFaults _ _)
  refine ⟨_, q, hrun.snoc hstep, ?_⟩
  rw [hstate]
  decide

/-- Alone, the request for the agent meets the condition, and the names are apart afterwards. -/
theorem names_apart_after_agent :
    NamesDistinct sampleLibraries.fold (savedStore Char.toLower defaultConfig).config ∧
      ∃ es q, Run (fun p e q => settingsStep sampleLibraries p e q ∧
          NamesDistinct sampleLibraries.fold q.state.config)
          ⟨savedStore Char.toLower defaultConfig, []⟩ es q ∧
        q.state.config.remoteServers = [agentEntry] := by
  have h0 : NamesDistinct sampleLibraries.fold (savedStore Char.toLower defaultConfig).config := by
    decide
  obtain ⟨es, q, hrun, hstate⟩ := run_request (s := savedStore Char.toLower defaultConfig)
    (C := NameFree sampleLibraries) commits_postAgent (storeSem_update _ noFaults _ _) trivial
    trivial ((namesDistinct_update_iff commits_postAgent h0).mp (by decide))
  refine ⟨h0, es, q, (run_names_iff h0).mpr hrun, ?_⟩
  rw [hstate]
  decide

end

end Contiwatch
