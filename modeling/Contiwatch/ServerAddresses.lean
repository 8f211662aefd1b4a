import Contiwatch.Lib.ServeMux
import Contiwatch.PolicySync
import Contiwatch.ServerNames
import Contiwatch.StackActions

/-!
# Addresses of Servers

A server is addressed by its name: in the scope of a request, which `parseScope` of
`internal/server/containers.go` takes apart, and in the path of the `DELETE` that removes it, which
goes through the table of `routes`. A `POST` refuses a name that is empty, or that a server of the
other kind has, and no other name. The name of an agent is trimmed before it is stored; that of a
local server is not.

## Main results

* `run_accepted` — what is known of the names in any reachable configuration.
* `run_addressable_iff` — which servers can be addressed and removed by their names.
* `name_without_address` — an agent that cannot be removed, and a local server that cannot be
  addressed.
-/

namespace Contiwatch

open GoStrings GoJson Prog ServeMux

/-! ### Scopes -/

/-- `findLocalServer`, on the records as they are stored. -/
def findLocalEntry (fold : Char → Char) (servers : List LocalEntry) (name : String) :
    Option LocalEntry :=
  Keyed.find (localKey fold) servers (nameKey fold name)

/-- The server that a handler finds for a scope. -/
def resolveScope (fold : Char → Char) (cfg : StoredConfig) (scope : String) :
    Except String (LocalEntry ⊕ RemoteEntry) :=
  match parseScope scope with
  | .error err => .error err
  | .ok (.onHost, name) =>
      match findLocalEntry fold cfg.localServers name with
      | none => .error "local server not found"
      | some srv => .ok (.inl srv)
  | .ok (.remote, name) =>
      match findRemoteEntry fold cfg.remoteServers name with
      | none => .error "remote server not found"
      | some srv => .ok (.inr srv)

/-! ### Routes -/

/-- The handlers that serve `DELETE`, and the others. -/
inductive Handler
  | handleServerByName
  | handleLocalByName
  | other
  deriving DecidableEq, Repr

/-- `routes`, with the files that are served below `/`. -/
def routes : List (String × Handler) :=
  [("/api/health", .other), ("/api/config", .other), ("/api/servers", .other),
    ("/api/servers/", .handleServerByName), ("/api/servers/info", .other),
    ("/api/servers/refresh", .other), ("/api/servers/health", .other),
    ("/api/servers/stream", .other), ("/api/locals", .other),
    ("/api/locals/", .handleLocalByName), ("/api/status", .other), ("/api/status/refresh", .other),
    ("/api/scan/state", .other), ("/api/scan", .other), ("/api/scan/stop", .other),
    ("/api/scheduler/status", .other), ("/api/scheduler/preview/basic", .other),
    ("/api/scheduler/preview/cron", .other), ("/api/update/", .other), ("/api/containers", .other),
    ("/api/containers/action", .other), ("/api/containers/resources", .other),
    ("/api/containers/shell", .other), ("/api/containers/logs", .other), ("/api/images", .other),
    ("/api/images/pull", .other), ("/api/images/prune", .other), ("/api/images/remove", .other),
    ("/api/networks", .other), ("/api/networks/details", .other),
    ("/api/networks/remove", .other), ("/api/networks/prune", .other),
    ("/api/networks/connect", .other), ("/api/networks/disconnect", .other),
    ("/api/volumes", .other), ("/api/volumes/remove", .other), ("/api/volumes/prune", .other),
    ("/api/stacks", .other), ("/api/stacks/get", .other), ("/api/stacks/save", .other),
    ("/api/stacks/validate", .other), ("/api/stacks/action", .other), ("/api/stacks/jobs", .other),
    ("/api/stacks/jobs/extend", .other), ("/api/self-update", .other), ("/api/logs", .other),
    ("/api/notifications/test", .other), ("/api/aggregate", .other), ("/api/version", .other),
    ("/api/meta", .other), ("/api/release", .other), ("/api/pin/status", .other),
    ("/api/pin/verify", .other), ("/api/pin/logout", .other), ("/api/pin/ws-ticket", .other),
    ("/", .other)]

/-- The request that `DELETE` on a path, as it is sent, is to a handler. -/
def deleteRequest (path : List Char) : Option SettingsRequest :=
  match dispatch routes path with
  | .handler .handleServerByName => (unescape path).map .deleteServer
  | .handler .handleLocalByName => (unescape path).map .deleteLocal
  | _ => none

/-- `DELETE` on the path is served, and leaves the configuration `cfg`. -/
def DeletesTo (lib : Libraries) (path : List Char) (s : Store) (cfg : StoredConfig) : Prop :=
  ∃ req, deleteRequest path = some req ∧
    ∀ reply t, Exec (storeSem lib.fold) (handle lib req) s reply t → t.config = cfg

/-- An agent can be addressed by its name, and removed, it alone. -/
def RemoteAddressable (lib : Libraries) (s : Store) (srv : RemoteEntry) : Prop :=
  resolveScope lib.fold s.config ("remote:" ++ srv.name) = .ok (.inr srv) ∧
    DeletesTo lib ("/api/servers/".toList ++ pathEscape srv.name) s
      { s.config with remoteServers := s.config.remoteServers.erase srv }

/-- The same for a local server. -/
def LocalAddressable (lib : Libraries) (s : Store) (srv : LocalEntry) : Prop :=
  resolveScope lib.fold s.config ("local:" ++ srv.name) = .ok (.inl srv) ∧
    DeletesTo lib ("/api/locals/".toList ++ pathEscape srv.name) s
      { s.config with localServers := s.config.localServers.erase srv }

/-- The fixed paths below `/api/servers/`. -/
def fixedPaths : List String := ["info", "refresh", "health", "stream"]

/-- The names that a path cannot end with. -/
def dotNames : List String := [".", ".."]

/-! ### Where a scope leads -/

/-- A scope is taken apart at its first colon. -/
theorem cut_scope (k : String) {p : String} (hp : p.toList = k.toList ++ [':'])
    (hk : k.toList.all (· ≠ ':') = true) (name : String) :
    cut ':' (p ++ name) = some (k, name) := by
  have hspan : (p ++ name).toList.span (· ≠ ':') = (k.toList, ':' :: name.toList) := by
    have hall : ∀ c ∈ k.toList, decide (c ≠ ':') = true := List.all_eq_true.mp hk
    rw [List.span_eq_takeWhile_dropWhile, String.toList_append, hp, List.append_assoc,
      List.takeWhile_append_of_pos hall, List.dropWhile_append_of_pos hall]
    simp
  rw [cut, hspan]
  simp

/-- The scope of a server is read as its name without outer blanks. -/
theorem parseScope_remote (name : String) :
    parseScope ("remote:" ++ name) = if trimSpaceStr name = "" then .error "scope name required"
      else .ok (.remote, trimSpaceStr name) := by
  have hkind : trimSpaceStr "remote" = "remote" := by decide
  rw [parseScope, cut_scope "remote" (by decide) (by decide)]
  simp [hkind]

/-- A scope on the host is the name after its prefix. -/
theorem parseScope_local (name : String) :
    parseScope ("local:" ++ name) = if trimSpaceStr name = "" then .error "scope name required"
      else .ok (.onHost, trimSpaceStr name) := by
  have hkind : trimSpaceStr "local" = "local" := by decide
  rw [parseScope, cut_scope "local" (by decide) (by decide)]
  simp [hkind]

/-- A name that is shorter without outer blanks is another name, whatever the case. -/
theorem trimSpaceStr_eq_of_nameKey {fold : Char → Char} {name : String}
    (h : nameKey fold (trimSpaceStr name) = nameKey fold name) : trimSpaceStr name = name := by
  have hlength := congrArg List.length h
  rw [nameKey, nameKey, List.length_map, List.length_map, trimSpaceStr, String.toList_ofList]
    at hlength
  have hsub : (trimSpace name.toList).Sublist name.toList := by
    rw [trimSpace, ← List.reverse_sublist, List.reverse_reverse]
    exact (List.dropWhile_sublist _).trans (List.reverse_sublist.mpr (List.dropWhile_sublist _))
  rw [trimSpaceStr, hsub.eq_of_length hlength, String.ofList_toList]

section

variable {fold : Char → Char} {cfg : StoredConfig}

/-- **Scopes of agents.** With unique names, the scope of an agent leads to it if its name has no
outer blanks. -/
theorem resolveScope_remote {srv : RemoteEntry} (hsrv : srv ∈ cfg.remoteServers)
    (hkeys : (cfg.remoteServers.map (remoteKey fold)).Nodup)
    (htrim : trimSpaceStr srv.name = srv.name) (hname : srv.name ≠ "") :
    resolveScope fold cfg ("remote:" ++ srv.name) = .ok (.inr srv) := by
  have hfind : findRemoteEntry fold cfg.remoteServers srv.name = some srv :=
    (Keyed.find_eq_some hkeys).mpr ⟨hsrv, rfl⟩
  simp only [resolveScope, parseScope_remote, htrim, if_neg hname, hfind]

/-- **Scopes of local servers.** With unique names, the scope of a local server leads to it exactly
if its name has no outer blanks. -/
theorem resolveScope_local_iff {srv : LocalEntry} (hsrv : srv ∈ cfg.localServers)
    (hkeys : (cfg.localServers.map (localKey fold)).Nodup) (hname : srv.name ≠ "") :
    resolveScope fold cfg ("local:" ++ srv.name) = .ok (.inl srv) ↔
      trimSpaceStr srv.name = srv.name := by
  constructor
  · intro h
    simp only [resolveScope, parseScope_local] at h
    by_cases hempty : trimSpaceStr srv.name = ""
    · simp only [if_pos hempty] at h
      cases h
    rcases hfind : findLocalEntry fold cfg.localServers (trimSpaceStr srv.name) with _ | found
    · simp only [if_neg hempty, hfind] at h
      cases h
    · simp only [if_neg hempty, hfind] at h
      obtain rfl : found = srv := Sum.inl.inj (Except.ok.inj h)
      exact trimSpaceStr_eq_of_nameKey ((Keyed.find_eq_some hkeys).mp hfind).2.symm
  · intro htrim
    have hfind : findLocalEntry fold cfg.localServers srv.name = some srv :=
      (Keyed.find_eq_some hkeys).mpr ⟨hsrv, rfl⟩
    simp only [resolveScope, parseScope_local, htrim, if_neg hname, hfind]

end

/-! ### Where a path leads -/

/-- A pattern that is no route's is not registered. -/
theorem registered_eq_none {H : Type} {table : List (String × H)} {p : Pattern}
    (h : ∀ r ∈ table, pattern r.1 ≠ p) : registered table p = none := by
  rw [registered, List.find?_eq_none.mpr fun r hr => by simpa using h r hr, Option.map_none]

/-- What the routes have in common: there is no pattern for paths below the fixed ones, and no other
path of three segments below the servers. -/
def routePattern : Pattern → Bool
  | ⟨segs, true⟩ => segs.length ≤ 2
  | ⟨["api", kind, name], false⟩ =>
      (kind ≠ "servers" || fixedPaths.contains name) && kind ≠ "locals"
  | _ => true

/-- Every route has one of the known patterns. -/
theorem routePattern_routes : routes.all (fun r => routePattern (pattern r.1)) = true := by
  decide

/-- No other pattern is registered. -/
theorem registered_of_routePattern {p : Pattern} (h : routePattern p = false) :
    registered routes p = none :=
  registered_eq_none fun r hr heq => by
    have hpattern := List.all_eq_true.mp routePattern_routes r hr
    simp only [heq, h] at hpattern
    cases hpattern

/-- **Paths below a pattern.** A path that ends with an escaped name leads to the handler of that
path, if there is one, and else to the handler of the pattern; unless the name is one or two
dots. -/
theorem dispatch_below {kind name : String} {h : Handler}
    (hkind : CleanSegment kind.toList ∧ '/' ∉ kind.toList ∧ unescapeSegment kind.toList = kind)
    (hroute : registered routes ⟨["api", kind], true⟩ = some h) (hname : name ≠ "") :
    dispatch routes (pathOf ["api".toList, kind.toList, pathEscape name]) =
      if name ∈ dotNames then .redirect
      else .handler ((registered routes ⟨["api", kind, name], false⟩).getD h) := by
  have hsegs : segments (pathOf ["api".toList, kind.toList, pathEscape name]) =
      ["api".toList, kind.toList, pathEscape name] := by
    refine segments_pathOf ?_
    simp [hkind.2.1, slash_not_mem_pathEscape]
  have hclean : cleaned ["api".toList, kind.toList, pathEscape name] =
      ["api".toList, kind.toList, pathEscape name] ↔ name ∉ dotNames := by
    have hempty : pathEscape name ≠ [] := fun h => hname (pathEscape_injective h)
    have hfront : ∀ seg ∈ ["api".toList, kind.toList], CleanSegment seg := by
      simp [hkind.1]
      decide
    have hdot : pathEscape name = ['.'] ↔ name = "." :=
      pathEscape_injective.eq_iff (a := name) (b := ".")
    have hdots : pathEscape name = ['.', '.'] ↔ name = ".." :=
      pathEscape_injective.eq_iff (a := name) (b := "..")
    have hiff := cleaned_eq_self_iff hfront hempty
    rw [ne_eq, ne_eq, hdot, hdots] at hiff
    rw [dotNames, List.mem_cons, List.mem_singleton, not_or]
    exact hiff
  have hnames : ["api".toList, kind.toList, pathEscape name].map unescapeSegment =
      ["api", kind, name] := by
    have hapi : unescapeSegment "api".toList = "api" := by decide
    have hlast : unescapeSegment (pathEscape name) = name := by
      rw [unescapeSegment, unescape_segment, Option.getD_some]
    simp only [List.map_cons, List.map_nil, hapi, hkind.2.2, hlast]
  have hbelow : registered routes ⟨["api", kind, name], true⟩ = none :=
    registered_of_routePattern rfl
  have hhandler : handlerOf routes ["api", kind, name] =
      some ((registered routes ⟨["api", kind, name], false⟩).getD h) := by
    rw [handlerOf]
    rcases registered routes ⟨["api", kind, name], false⟩ with _ | exact'
    · simp [hroute]
    · rfl
  rw [dispatch, hsegs]
  by_cases hdots : name ∈ dotNames
  · rw [if_pos hdots]
    simp only
    rw [if_pos (mt hclean.mp (not_not.mpr hdots))]
  · rw [if_neg hdots]
    simp only
    rw [if_neg (not_not.mpr (hclean.mpr hdots)), hnames, hbelow]
    simp [hhandler]

/-- Trimming a prefix that was put there leaves the name. -/
theorem trimPrefix_append (pre name : String) : trimPrefix (pre ++ name) pre = name := by
  have hpart : hasPrefix (pre ++ name) pre = true := by
    rw [hasPrefix, String.toList_append]
    exact List.isPrefixOf_iff_prefix.mpr (List.prefix_append _ _)
  rw [trimPrefix, if_pos hpart, String.toList_append, List.drop_left, String.ofList_toList]

/-- Where `DELETE` on the path of an agent leads. -/
theorem deleteRequest_servers {name : String} (hname : name ≠ "") :
    deleteRequest ("/api/servers/".toList ++ pathEscape name) =
      if name ∈ dotNames ∨ name ∈ fixedPaths then none
      else some (.deleteServer ("/api/servers/" ++ name)) := by
  have hpath : "/api/servers/".toList ++ pathEscape name =
      pathOf ["api".toList, "servers".toList, pathEscape name] := by
    simp [pathOf]
  have hkind : CleanSegment "servers".toList ∧ '/' ∉ "servers".toList ∧
      unescapeSegment "servers".toList = "servers" := by
    decide
  have hroute : registered routes ⟨["api", "servers"], true⟩ = some .handleServerByName := by
    decide
  have hfixed : registered routes ⟨["api", "servers", name], false⟩ =
      if name ∈ fixedPaths then some .other else none := by
    split
    · rename_i hmem
      simp only [fixedPaths, List.mem_cons, List.not_mem_nil, or_false] at hmem
      rcases hmem with rfl | rfl | rfl | rfl <;> decide
    · rename_i hfree
      exact registered_of_routePattern (by simp [routePattern, hfree])
  have hunescape : unescape ("/api/servers/".toList ++ pathEscape name) =
      some ("/api/servers/" ++ name) := unescape_pathEscape (by decide) name
  rw [deleteRequest, hunescape, hpath, dispatch_below hkind hroute hname, hfixed]
  by_cases hdots : name ∈ dotNames
  · simp [hdots]
  · by_cases hfree : name ∈ fixedPaths
    · simp [hdots, hfree]
    · simp [hdots, hfree]

/-- Where `DELETE` on the path of a local server leads. -/
theorem deleteRequest_locals {name : String} (hname : name ≠ "") :
    deleteRequest ("/api/locals/".toList ++ pathEscape name) =
      if name ∈ dotNames then none else some (.deleteLocal ("/api/locals/" ++ name)) := by
  have hpath : "/api/locals/".toList ++ pathEscape name =
      pathOf ["api".toList, "locals".toList, pathEscape name] := by
    simp [pathOf]
  have hkind : CleanSegment "locals".toList ∧ '/' ∉ "locals".toList ∧
      unescapeSegment "locals".toList = "locals" := by
    decide
  have hroute : registered routes ⟨["api", "locals"], true⟩ = some .handleLocalByName := by
    decide
  have hfixed : registered routes ⟨["api", "locals", name], false⟩ = none :=
    registered_of_routePattern (by simp [routePattern])
  have hunescape : unescape ("/api/locals/".toList ++ pathEscape name) =
      some ("/api/locals/" ++ name) := unescape_pathEscape (by decide) name
  rw [deleteRequest, hunescape, hpath, dispatch_below hkind hroute hname, hfixed]
  by_cases hdots : name ∈ dotNames
  · simp [hdots]
  · simp [hdots]

/-! ### Names in reachable configurations -/

/-- The servers are such as requests leave them: the names of agents are trimmed, no name is empty,
and names are unique among the agents and among the local servers. -/
structure AcceptedServers (fold : Char → Char) (cfg : StoredConfig) : Prop where
  remoteNames : ∀ srv ∈ cfg.remoteServers, trimSpaceStr srv.name = srv.name ∧ srv.name ≠ ""
  localNames : ∀ srv ∈ cfg.localServers, srv.name ≠ ""
  remoteKeys : (cfg.remoteServers.map (remoteKey fold)).Nodup
  localKeys : (cfg.localServers.map (localKey fold)).Nodup

section

variable {lib : Libraries}

/-- The servers of a new configuration are acceptable. -/
theorem acceptedServers_default : AcceptedServers lib.fold defaultConfig where
  remoteNames := nofun
  localNames := nofun
  remoteKeys := List.nodup_nil
  localKeys := List.nodup_nil

/-- The names that `POST /api/servers` accepts. -/
theorem name_of_serverPayload {body : Option Json} {payload : RemoteEntry}
    (h : serverPayload lib body = .ok payload) :
    trimSpaceStr payload.name = payload.name ∧ payload.name ≠ "" := by
  rw [serverPayload] at h
  split at h
  · cases h
  simp only at h
  split at h
  · cases h
  rename_i hname
  split at h
  · cases h
  · obtain rfl := Except.ok.inj h
    exact ⟨trimSpaceStr_trimSpaceStr _, (not_or.mp hname).1⟩

/-- The names that `POST /api/locals` accepts. -/
theorem name_of_localPayload {body : Option Json} {payload : LocalEntry}
    (h : localPayload lib body = .ok payload) : payload.name ≠ "" := by
  rw [localPayload] at h
  split at h
  · cases h
  split at h
  · cases h
  rename_i hname
  obtain rfl := Except.ok.inj h
  exact (not_or.mp hname).1

/-- An update leaves the servers such as requests leave them. -/
theorem AcceptedServers.update {req : SettingsRequest} {before cfg : StoredConfig}
    {f : StoredConfig → StoredConfig} (hcommits : Commits lib req before f)
    (h : AcceptedServers lib.fold cfg) : AcceptedServers lib.fold (normalizeUpdated (f cfg)) := by
  cases req with
  | putConfig body =>
      obtain ⟨payload, -, -, rfl⟩ := hcommits
      exact { remoteNames := h.remoteNames, localNames := h.localNames,
              remoteKeys := h.remoteKeys, localKeys := h.localKeys }
  | postServer body =>
      obtain ⟨payload, hpayload, -, rfl⟩ := hcommits
      refine { h with
        remoteNames := fun srv hsrv => ?_
        remoteKeys := Keyed.nodup_upsert h.remoteKeys _ }
      rcases Keyed.mem_of_mem_upsert hsrv with rfl | hold
      · rw [name_keepToken]
        exact name_of_serverPayload hpayload
      · exact h.remoteNames srv hold
  | postLocal body =>
      obtain ⟨payload, hpayload, -, rfl⟩ := hcommits
      refine { h with
        localNames := fun srv hsrv => ?_
        localKeys := Keyed.nodup_upsert h.localKeys _ }
      rcases Keyed.mem_of_mem_upsert hsrv with rfl | hold
      · exact name_of_localPayload hpayload
      · exact h.localNames srv hold
  | deleteServer path =>
      obtain ⟨-, rfl⟩ := hcommits
      exact { h with
        remoteNames := fun srv hsrv => h.remoteNames srv (List.mem_of_mem_filter hsrv)
        remoteKeys := Keyed.nodup_remove h.remoteKeys _ }
  | deleteLocal path =>
      obtain ⟨-, rfl⟩ := hcommits
      exact { h with
        localNames := fun srv hsrv => h.localNames srv (List.mem_of_mem_filter hsrv)
        localKeys := Keyed.nodup_remove h.localKeys _ }

/-- A `DELETE` that a handler serves makes its update. -/
theorem config_of_commit {s t : Store} {reply : SettingsReply} {f : StoredConfig → StoredConfig}
    (h : Exec (storeSem lib.fold) (commit f) s reply t) :
    t.config = normalizeUpdated (f s.config) := by
  obtain ⟨r, u, hupdate, hdone⟩ := exec_op.mp h
  obtain ⟨-, rfl⟩ := exec_done.mp hdone
  exact config_of_update hupdate

/-- **Removing an agent.** -/
theorem deletesTo_remote_iff {s : Store} {srv : RemoteEntry} (hnormal : Normal s.config)
    (haccepted : AcceptedServers lib.fold s.config) (hsrv : srv ∈ s.config.remoteServers) :
    DeletesTo lib ("/api/servers/".toList ++ pathEscape srv.name) s
        { s.config with remoteServers := s.config.remoteServers.erase srv } ↔
      srv.name ∉ dotNames ∧ srv.name ∉ fixedPaths := by
  have hname := (haccepted.remoteNames srv hsrv).2
  rw [DeletesTo, deleteRequest_servers hname, ← not_or]
  constructor
  · rintro ⟨req, hreq, -⟩ hreserved
    rw [if_pos hreserved] at hreq
    cases hreq
  · intro hfree
    refine ⟨_, if_neg hfree, fun reply t hexec => ?_⟩
    rw [handle, handleServerByName, trimPrefix_append, if_neg hname] at hexec
    rw [config_of_commit hexec]
    have herase : removeServer lib.fold s.config.remoteServers srv.name =
        s.config.remoteServers.erase srv := Keyed.remove_eq_erase haccepted.remoteKeys hsrv
    rw [herase]
    exact normalizeUpdated_of_normal { hnormal with }

/-- **Removing a local server.** -/
theorem deletesTo_local_iff {s : Store} {srv : LocalEntry} (hnormal : Normal s.config)
    (haccepted : AcceptedServers lib.fold s.config) (hsrv : srv ∈ s.config.localServers) :
    DeletesTo lib ("/api/locals/".toList ++ pathEscape srv.name) s
        { s.config with localServers := s.config.localServers.erase srv } ↔
      srv.name ∉ dotNames := by
  have hname := haccepted.localNames srv hsrv
  rw [DeletesTo, deleteRequest_locals hname]
  constructor
  · rintro ⟨req, hreq, -⟩ hreserved
    rw [if_pos hreserved] at hreq
    cases hreq
  · intro hfree
    refine ⟨_, if_neg hfree, fun reply t hexec => ?_⟩
    rw [handle, handleLocalByName, trimPrefix_append, if_neg hname] at hexec
    rw [config_of_commit hexec]
    have herase : removeLocal lib.fold s.config.localServers srv.name =
        s.config.localServers.erase srv := Keyed.remove_eq_erase haccepted.localKeys hsrv
    rw [herase]
    exact normalizeUpdated_of_normal { hnormal with }

/-- **Names in reachable configurations.** -/
theorem run_accepted {s : Store} {es : List SettingsEvent} {q : SettingsPool}
    (hstart : Started lib.fold s) (h0 : AcceptedServers lib.fold s.config)
    (hrun : Run (settingsStep lib) ⟨s, []⟩ es q) :
    Normal q.state.config ∧ AcceptedServers lib.fold q.state.config :=
  run_config (I := fun cfg => Normal cfg ∧ AcceptedServers lib.fold cfg)
    (fun hcommits h => ⟨normal_of_commits hcommits h.1, h.2.update hcommits⟩)
    ⟨normal_of_started hstart, h0⟩ hrun

/-- **Which servers have addresses.** After any interleaving of requests, an agent can be addressed
and removed by its name exactly if the name is none of the fixed paths and neither one nor two
dots; a local server exactly if its name has no outer blanks and is neither one nor two dots. -/
theorem run_addressable_iff {s : Store} {es : List SettingsEvent} {q : SettingsPool}
    (hstart : Started lib.fold s) (h0 : AcceptedServers lib.fold s.config)
    (hrun : Run (settingsStep lib) ⟨s, []⟩ es q) :
    (∀ srv ∈ q.state.config.remoteServers, RemoteAddressable lib q.state srv ↔
      srv.name ∉ fixedPaths ∧ srv.name ∉ dotNames) ∧
    ∀ srv ∈ q.state.config.localServers, LocalAddressable lib q.state srv ↔
      trimSpaceStr srv.name = srv.name ∧ srv.name ∉ dotNames := by
  obtain ⟨hnormal, haccepted⟩ := run_accepted hstart h0 hrun
  refine ⟨fun srv hsrv => ?_, fun srv hsrv => ?_⟩
  · obtain ⟨htrim, hname⟩ := haccepted.remoteNames srv hsrv
    have hscope := resolveScope_remote hsrv haccepted.remoteKeys htrim hname
    rw [RemoteAddressable, deletesTo_remote_iff hnormal haccepted hsrv, and_iff_right hscope,
      and_comm]
  · rw [LocalAddressable, deletesTo_local_iff hnormal haccepted hsrv,
      resolveScope_local_iff hsrv haccepted.localKeys (haccepted.localNames srv hsrv)]

/-! ### Names without an address -/

/-- An agent with the name of a fixed path. -/
def infoEntry : RemoteEntry := { agentEntry with name := "info" }

/-- `POST /api/servers` for it. -/
def postInfo : SettingsRequest :=
  .postServer (some (.obj [("name", .str "info"), ("url", .str "http://10.0.0.2:8080"),
    ("token", .str "secret")]))

/-- A local server with a blank in front of its name. -/
def blankEntry : LocalEntry := { socketEntry with name := " a" }

/-- `POST /api/locals` for it. -/
def postBlank : SettingsRequest :=
  .postLocal (some (.obj [("name", .str " a"), ("socket", .str "/var/run/docker.sock")]))

/-- The sample store has started. -/
theorem started_created : Started sampleLibraries.fold createdStore :=
  ⟨_, _, _, _, _, newStore_created, .inl rfl⟩

/-- **Accepted names without an address.** An agent is added under the name `info`, and no `DELETE`
removes it; a local server is added under a name with a blank in front, and no scope leads to
it. -/
theorem name_without_address :
    Started sampleLibraries.fold createdStore ∧
    AcceptedServers sampleLibraries.fold createdStore.config ∧
    (∃ es q, Run (settingsStep sampleLibraries) ⟨createdStore, []⟩ es q ∧
      infoEntry ∈ q.state.config.remoteServers ∧
      ¬ RemoteAddressable sampleLibraries q.state infoEntry) ∧
    ∃ es q, Run (settingsStep sampleLibraries) ⟨createdStore, []⟩ es q ∧
      blankEntry ∈ q.state.config.localServers ∧
      ¬ LocalAddressable sampleLibraries q.state blankEntry := by
  refine ⟨started_created, acceptedServers_default, ?_, ?_⟩
  · have hcommits : Commits sampleLibraries postInfo createdStore.config fun cur => { cur with
        remoteServers := upsertServer Char.toLower cur.remoteServers infoEntry } :=
      ⟨infoEntry, by decide, rfl, rfl⟩
    obtain ⟨es, q, hrun, hstate⟩ := run_request (C := fun _ _ => True) hcommits
      (storeSem_update _ noFaults _ _) trivial trivial trivial
    have hservers : q.state.config.remoteServers = [infoEntry] := by
      rw [hstate]
      decide
    refine ⟨es, q, hrun.mono And.left, hservers ▸ List.mem_singleton_self _, ?_⟩
    rintro ⟨-, req, hreq, -⟩
    rw [deleteRequest_servers (by decide), if_pos (by decide)] at hreq
    cases hreq
  · have hcommits : Commits sampleLibraries postBlank createdStore.config fun cur => { cur with
        localServers := upsertLocal Char.toLower cur.localServers blankEntry } :=
      ⟨blankEntry, by decide, rfl, rfl⟩
    obtain ⟨es, q, hrun, hstate⟩ := run_request (C := fun _ _ => True) hcommits
      (storeSem_update _ noFaults _ _) trivial trivial trivial
    have hservers : q.state.config.localServers = [blankEntry] := by
      rw [hstate]
      decide
    refine ⟨es, q, hrun.mono And.left, hservers ▸ List.mem_singleton_self _, ?_⟩
    rintro ⟨hscope, -⟩
    have htrim := (resolveScope_local_iff (hservers ▸ List.mem_singleton_self _)
      (by rw [hservers]; decide) (by decide)).mp hscope
    exact absurd htrim (by decide)

/-- An agent with another name can be addressed and removed. -/
theorem agent_addressable :
    ∃ es q, Run (settingsStep sampleLibraries) ⟨createdStore, []⟩ es q ∧
      q.state.config.remoteServers = [agentEntry] ∧
      RemoteAddressable sampleLibraries q.state agentEntry := by
  obtain ⟨es, q, hrun, hstate⟩ := run_request (s := createdStore) (C := fun _ _ => True)
    commits_postAgent (storeSem_update _ noFaults _ _) trivial trivial trivial
  have hservers : q.state.config.remoteServers = [agentEntry] := by
    rw [hstate]
    decide
  have hrun : Run (settingsStep sampleLibraries) ⟨createdStore, []⟩ es q := hrun.mono And.left
  refine ⟨es, q, hrun, hservers, ?_⟩
  exact ((run_addressable_iff started_created acceptedServers_default hrun).1 agentEntry
    (hservers ▸ List.mem_singleton_self _)).mpr ⟨by decide, by decide⟩

end

end Contiwatch
