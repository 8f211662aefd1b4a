import Contiwatch.ScanHandlers

/-!
# Scan Requests that are Refused

`handleScan` resets the scan states of all configured servers and installs its own cancel
function before it knows whether the request is accepted; on the scope of all servers and on
the scope of a local server it also marks servers before it looks whether a scan is running.
When the request is then refused, its clean-up takes the cancel function away and leaves the
scan states as they are.

## Main results

* `handleScan_refused_unchanged_iff` — a refused request leaves the server as it was exactly if
  there was no cancel function, every configured server was idle, and the request came to mark
  no server.
-/

namespace Contiwatch

open GoStrings Prog

section

variable {p : Process} {s t : Server}

/-! ### Servers that are marked -/

/-- From `s` to `t` nothing that a refused request is to leave alone has changed but the scan
states, and those only at the keys `K`, which all got a state that started after the clock of
`s`. -/
structure Marks (K : String → Prop) (s t : Server) : Prop where
  serverInfo : t.serverInfo = s.serverInfo
  lastScans : t.lastScans = s.lastScans
  scanRunning : t.scanRunning = s.scanRunning
  updateRunning : t.updateRunning = s.updateRunning
  clock_le : s.clock ≤ t.clock
  unmarked : ∀ k, ¬ K k → t.scanStates.lookup k = s.scanStates.lookup k
  marked : ∀ k, K k → ∃ state, t.scanStates.lookup k = some state ∧ s.clock < state.startedAt

/-- Where nothing is done, nothing is marked. -/
theorem Marks.refl {K : String → Prop} (hK : ∀ k, ¬ K k) (s : Server) : Marks K s s :=
  ⟨rfl, rfl, rfl, rfl, le_rfl, fun _ _ => rfl, fun k hk => absurd hk (hK k)⟩

/-- Marks add up. -/
theorem Marks.trans {K L : String → Prop} {u : Server} (h₁ : Marks K s t) (h₂ : Marks L t u) :
    Marks (fun k => K k ∨ L k) s u where
  serverInfo := h₂.serverInfo.trans h₁.serverInfo
  lastScans := h₂.lastScans.trans h₁.lastScans
  scanRunning := h₂.scanRunning.trans h₁.scanRunning
  updateRunning := h₂.updateRunning.trans h₁.updateRunning
  clock_le := h₁.clock_le.trans h₂.clock_le
  unmarked := by
    intro k hk
    obtain ⟨hK, hL⟩ := not_or.mp hk
    rw [h₂.unmarked k hL, h₁.unmarked k hK]
  marked := by
    intro k hk
    by_cases hL : L k
    · obtain ⟨state, hlookup, hstarted⟩ := h₂.marked k hL
      have hclock := h₁.clock_le
      exact ⟨state, hlookup, by omega⟩
    · obtain ⟨state, hlookup, hstarted⟩ := h₁.marked k (hk.resolve_right hL)
      exact ⟨state, (h₂.unmarked k hL).trans hlookup, hstarted⟩

/-- The keys of the marks may be described in any way. -/
theorem Marks.congr {K L : String → Prop} (h : Marks K s t) (hKL : ∀ k, K k ↔ L k) :
    Marks L s t where
  serverInfo := h.serverInfo
  lastScans := h.lastScans
  scanRunning := h.scanRunning
  updateRunning := h.updateRunning
  clock_le := h.clock_le
  unmarked := fun k hk => h.unmarked k fun hK => hk ((hKL k).mp hK)
  marked := fun k hk => h.marked k ((hKL k).mpr hk)

/-- A state in which an operation is under way. -/
def ScanPhase.Starting (state : ScanPhase) : Prop := state = .pending ∨ state = .scanning

/-- `setScanState` marks its server. -/
theorem setScanState_marks {isLocal : Bool} {name : String} {state : ScanPhase}
    (hstate : state.Starting)
    (h : Exec (serverSem p) (setScanState isLocal name state) s () t) :
    Marks (fun k => k = scanKey isLocal name) s t := by
  obtain ⟨now, u, hnow, hset⟩ := exec_bind.mp h
  obtain ⟨hlater, rfl⟩ := exec_perform.mp hnow
  obtain rfl := exec_perform.mp hset
  refine ⟨rfl, rfl, rfl, rfl, ?_, ?_, ?_⟩
  · exact le_trans (le_max_left _ _) (le_max_left _ _)
  · intro k hk
    exact lookup_setScanStateKey_of_ne hk state now s.scanStates
  · rintro k rfl
    refine ⟨_, lookup_setScanStateKey_self _ state now s.scanStates, ?_⟩
    rcases hstate with rfl | rfl
    · exact hlater
    · exact hlater

/-- The keys of the local servers that `setAllScanStates` sets. -/
def LocalMark (servers : List LocalServer) (k : String) : Prop :=
  ∃ srv ∈ servers, srv.maintenance = false ∧ k = scanKey true srv.name

/-- The keys of the remote servers that `setAllScanStates` sets. -/
def RemoteMark (s : Server) (remotes : List RemoteServer) (k : String) : Prop :=
  ∃ remote ∈ remotes, remote.maintenance = false ∧
    s.getServerInfoStatus remote.name = "online" ∧ k = scanKey false remote.name

/-- The marks of a list of local servers, server by server. -/
theorem localMark_cons {srv : LocalServer} {servers : List LocalServer} {k : String} :
    LocalMark (srv :: servers) k ↔
      (srv.maintenance = false ∧ k = scanKey true srv.name) ∨ LocalMark servers k := by
  simp only [LocalMark, List.exists_mem_cons_iff]

/-- The marks of a list of remote servers, server by server. -/
theorem remoteMark_cons {remote : RemoteServer} {remotes : List RemoteServer} {k : String} :
    RemoteMark s (remote :: remotes) k ↔
      (remote.maintenance = false ∧ s.getServerInfoStatus remote.name = "online" ∧
        k = scanKey false remote.name) ∨ RemoteMark s remotes k := by
  simp only [RemoteMark, List.exists_mem_cons_iff]

/-- The marks of the local servers. -/
theorem setLocalStates_marks {state : ScanPhase} (hstate : state.Starting)
    {servers : List LocalServer}
    (h : Exec (serverSem p) (setLocalStates state servers) s () t) :
    Marks (LocalMark servers) s t := by
  induction servers generalizing s with
  | nil =>
      obtain ⟨-, rfl⟩ := exec_done.mp h
      refine Marks.refl ?_ t
      rintro k ⟨srv, hsrv, -⟩
      exact absurd hsrv List.not_mem_nil
  | cons srv servers ih =>
      rw [setLocalStates] at h
      by_cases hmaintenance : srv.maintenance = true
      · rw [if_pos hmaintenance] at h
        refine (ih h).congr fun k => ?_
        rw [localMark_cons]
        simp [hmaintenance]
      · rw [if_neg hmaintenance] at h
        obtain ⟨_, u, hset, hrest⟩ := exec_bind.mp h
        refine ((setScanState_marks hstate hset).trans (ih hrest)).congr fun k => ?_
        rw [localMark_cons]
        simp [hmaintenance]

/-- Marking servers does not change whether a server is online. -/
theorem Marks.remoteMark {K : String → Prop} (h : Marks K s t) {remotes : List RemoteServer}
    {k : String} : RemoteMark t remotes k ↔ RemoteMark s remotes k := by
  simp only [RemoteMark, Server.getServerInfoStatus, h.serverInfo]

/-- The marks of the agents that are free. -/
theorem setRemoteStates_marks {state : ScanPhase} (hstate : state.Starting)
    {remotes : List RemoteServer}
    (h : Exec (serverSem p) (setRemoteStates state remotes) s () t) :
    Marks (RemoteMark s remotes) s t := by
  induction remotes generalizing s with
  | nil =>
      obtain ⟨-, rfl⟩ := exec_done.mp h
      refine Marks.refl ?_ t
      rintro k ⟨remote, hremote, -⟩
      exact absurd hremote List.not_mem_nil
  | cons remote remotes ih =>
      rw [setRemoteStates] at h
      by_cases hmaintenance : remote.maintenance = true
      · rw [if_pos hmaintenance] at h
        refine (ih h).congr fun k => ?_
        rw [remoteMark_cons]
        simp [hmaintenance]
      rw [if_neg hmaintenance] at h
      obtain ⟨status, u, hstatus, hrest⟩ := exec_bind.mp h
      obtain ⟨rfl, hu⟩ := exec_perform.mp hstatus
      rw [hu] at hrest
      by_cases honline : s.getServerInfoStatus remote.name = "online"
      swap
      · rw [if_pos honline] at hrest
        refine (ih hrest).congr fun k => ?_
        rw [remoteMark_cons]
        simp [honline]
      rw [if_neg (not_not.mpr honline)] at hrest
      obtain ⟨_, u, hset, hrest⟩ := exec_bind.mp hrest
      have hfirst := setScanState_marks hstate hset
      refine (hfirst.trans (ih hrest)).congr fun k => ?_
      rw [remoteMark_cons, hfirst.remoteMark]
      simp [hmaintenance, honline]

/-! ### Requests that are refused -/

/-- The answers that refuse a request: an invalid scope, an unknown server, a server in
maintenance, or another operation. -/
def Response.Refused : Response → Prop
  | .error code _ => code = 400 ∨ code = 404 ∨ code = 409
  | _ => False

/-- The servers that a request comes to mark before it may be refused. -/
def Marked (p : Process) (s : Server) (scope k : String) : Prop :=
  if scope = "" ∨ scope = "all" then
    LocalMark s.config.localServers k ∨ RemoteMark s s.config.remoteServers k
  else if hasPrefix scope "local:" then
    ∃ srv, findLocalServer p.fold s.config.localServers (trimPrefix scope "local:") = some srv ∧
      srv.maintenance = false ∧ k = scanKey true srv.name
  else False

/-- Nothing happens to the state when a scan cannot begin. -/
theorem beginScan_false (h : Exec (serverSem p) beginScan s false t) : t = s := by
  have hsem : if s.scanRunning || s.updateRunning then false = false ∧ t = s
      else false = true ∧ t = { s with scanRunning := true } := exec_perform.mp h
  split_ifs at hsem
  · exact hsem.2
  · exact absurd hsem.1 (by simp)

/-- A scan that does not run leaves the state. -/
theorem runScan_none {ctx : ScanContext} (h : Exec (serverSem p) (runScan p ctx) s none t) :
    t = s := by
  rw [runScan] at h
  obtain ⟨begun, u, hbegin, hrest⟩ := exec_bind.mp h
  cases begun with
  | true =>
      rw [if_pos rfl] at hrest
      refine absurd rfl (hrest.results (P := fun r => r ≠ none) ?_)
      refine Results.bind _ fun cfg => Results.bind _ fun results => Results.bind _ fun _ => ?_
      refine Results.bind _ fun _ => ?_
      exact results_pure (Option.some_ne_none _)
  | false =>
      rw [if_neg (by simp)] at hrest
      obtain ⟨-, rfl⟩ := exec_done.mp hrest
      exact beginScan_false hbegin

/-- A refused request for all servers has marked them and is to clean up. -/
theorem handleScanAll_refused {cfg : Config} {ctx : ScanContext} {response : Response}
    {cleanup : Bool} (hrefused : response.Refused)
    (h : Exec (serverSem p) (handleScanAll p cfg ctx) s (response, cleanup) t) :
    cleanup = true ∧
      Marks (fun k => LocalMark cfg.localServers k ∨ RemoteMark s cfg.remoteServers k) s t := by
  rw [handleScanAll] at h
  obtain ⟨_, u, hset, hrest⟩ := exec_bind.mp h
  obtain ⟨result, v, hrun, hrest⟩ := exec_bind.mp hrest
  rw [setAllScanStates, if_neg (by simp)] at hset
  obtain ⟨_, u', hlocal, hremote⟩ := exec_bind.mp hset
  have hstate : ScanPhase.pending.Starting := Or.inl rfl
  have hfirst := setLocalStates_marks hstate hlocal
  have hsecond := setRemoteStates_marks hstate hremote
  cases result with
  | some result =>
      obtain ⟨_, w, -, hdone⟩ := exec_bind.mp hrest
      obtain ⟨heq, -⟩ := exec_done.mp hdone
      obtain ⟨rfl, -⟩ := Prod.mk.inj heq
      exact hrefused.elim
  | none =>
      obtain ⟨heq, rfl⟩ := exec_done.mp hrest
      obtain rfl := runScan_none hrun
      refine ⟨(Prod.mk.inj heq).2, (hfirst.trans hsecond).congr fun k => or_congr Iff.rfl ?_⟩
      rw [hfirst.remoteMark]

/-- The errors of a scan that runs are not refusals. -/
def Response.NotRefused (response : Response) : Prop := ¬ response.Refused

/-- Once it runs, the scan of a local server is not refused. -/
theorem handleScanLocalRunning_notRefused (cfg : Config) (ctx : ScanContext)
    (srv : LocalServer) : (handleScanLocalRunning p cfg ctx srv).Results Response.NotRefused := by
  have hfailed : ∀ err, (Response.error 500 err).NotRefused := by
    intro err h
    rcases h with h | h | h <;> omega
  rw [handleScanLocalRunning]
  refine Results.bind _ fun scanned => ?_
  rcases scanned with err | result
  · refine Results.bind _ fun cancelled => ?_
    cases cancelled with
    | true => exact Results.bind _ fun _ => Results.bind _ fun _ => results_pure fun h => h
    | false => exact Results.bind _ fun _ => results_pure (hfailed err)
  · dsimp only
    by_cases herror : result.error ≠ ""
    · rw [if_pos herror]
      exact Results.bind _ fun _ => Results.bind _ fun _ => results_pure fun h => h
    rw [if_neg herror]
    by_cases hagent : p.agentMode = true
    · rw [if_pos hagent]
      exact Results.bind _ fun _ => Results.bind _ fun _ => results_pure fun h => h
    rw [if_neg hagent]
    refine Results.bind _ fun updated => ?_
    obtain ⟨result, updatedCount, err⟩ := updated
    cases err with
    | some err => exact Results.bind _ fun _ => results_pure (hfailed err)
    | none => exact Results.bind _ fun _ => Results.bind _ fun _ => results_pure fun h => h

/-- Nor is that of an agent. -/
theorem handleScanRemoteFound_notRefused (cfg : Config) (ctx : ScanContext)
    (remote : RemoteServer) :
    (handleScanRemoteFound p cfg ctx remote).Results Response.NotRefused := by
  have hfailed : ∀ err, (Response.error 502 err).NotRefused := by
    intro err h
    rcases h with h | h | h <;> omega
  rw [handleScanRemoteFound]
  refine Results.bind _ fun _ => Results.bind _ fun _ => Results.bind _ fun _ => ?_
  refine Results.bind _ fun scanned => Results.bind _ fun _ => ?_
  rcases scanned with err | result
  · refine Results.bind _ fun cancelled => ?_
    cases cancelled with
    | true =>
        refine Results.bind _ fun _ => Results.bind _ fun _ => Results.bind _ fun _ => ?_
        exact results_pure fun h => h
    | false => exact Results.bind _ fun _ => results_pure (hfailed err)
  · refine Results.bind _ fun updated => ?_
    obtain ⟨result, updatedCount, err⟩ := updated
    cases err with
    | some err => exact Results.bind _ fun _ => results_pure (hfailed err)
    | none => exact Results.bind _ fun _ => Results.bind _ fun _ => results_pure fun h => h

/-- A refused request for a local server has marked it, if it is known and not in
maintenance. -/
theorem handleScanLocal_refused {cfg : Config} {ctx : ScanContext} {name : String}
    {response : Response} (hrefused : response.Refused)
    (h : Exec (serverSem p) (handleScanLocal p cfg ctx name) s response t) :
    Marks (fun k => ∃ srv, findLocalServer p.fold cfg.localServers name = some srv ∧
      srv.maintenance = false ∧ k = scanKey true srv.name) s t := by
  rw [handleScanLocal] at h
  rcases hfind : findLocalServer p.fold cfg.localServers name with _ | srv
  · rw [hfind] at h
    obtain ⟨-, rfl⟩ := exec_done.mp h
    refine Marks.refl ?_ t
    rintro k ⟨srv, hsrv, -⟩
    exact absurd hsrv (by simp)
  rw [hfind] at h
  dsimp only at h
  by_cases hmaintenance : srv.maintenance = true
  · rw [if_pos hmaintenance] at h
    obtain ⟨-, rfl⟩ := exec_done.mp h
    refine Marks.refl ?_ t
    rintro k ⟨srv', hsrv', hactive, -⟩
    obtain rfl := Option.some.inj hsrv'
    rw [hmaintenance] at hactive
    exact absurd hactive (by simp)
  rw [if_neg hmaintenance] at h
  obtain ⟨_, u, hset, hrest⟩ := exec_bind.mp h
  obtain ⟨begun, v, hbegin, hrest⟩ := exec_bind.mp hrest
  cases begun with
  | true =>
      rw [if_pos rfl] at hrest
      obtain ⟨response', w, hrunning, hrest⟩ := exec_bind.mp hrest
      obtain ⟨_, w', -, hdone⟩ := exec_bind.mp hrest
      obtain ⟨rfl, -⟩ := exec_done.mp hdone
      exact absurd hrefused (hrunning.results (handleScanLocalRunning_notRefused cfg ctx srv))
  | false =>
      rw [if_neg (by simp)] at hrest
      obtain ⟨-, rfl⟩ := exec_done.mp hrest
      obtain rfl := beginScan_false hbegin
      refine (setScanState_marks (Or.inr rfl) hset).congr fun k => ?_
      constructor
      · rintro rfl
        exact ⟨srv, rfl, by simpa using hmaintenance, rfl⟩
      · rintro ⟨srv', hsrv', -, rfl⟩
        obtain rfl := Option.some.inj hsrv'
        rfl

/-- A refused request for a remote server has marked nothing. -/
theorem handleScanRemote_refused {cfg : Config} {ctx : ScanContext} {name : String}
    {response : Response} (hrefused : response.Refused)
    (h : Exec (serverSem p) (handleScanRemote p cfg ctx name) s response t) : t = s := by
  rw [handleScanRemote] at h
  rcases hfind : findRemoteServer p.fold cfg.remoteServers name with _ | remote
  · rw [hfind] at h
    exact (exec_done.mp h).2
  rw [hfind] at h
  dsimp only at h
  by_cases hmaintenance : remote.maintenance = true
  · rw [if_pos hmaintenance] at h
    exact (exec_done.mp h).2
  · rw [if_neg hmaintenance] at h
    exact absurd hrefused (h.results (handleScanRemoteFound_notRefused cfg ctx remote))

/-- What a refused request has marked, by its scope. -/
theorem handleScanScope_refused {ctx : ScanContext} {scope : String} {response : Response}
    {cleanup : Bool} (hrefused : response.Refused)
    (h : Exec (serverSem p) (handleScanScope p s.config ctx scope) s (response, cleanup) t) :
    cleanup = true ∧ Marks (Marked p s scope) s t := by
  rw [handleScanScope] at h
  by_cases hall : scope = "" ∨ scope = "all"
  · rw [if_pos hall] at h
    obtain ⟨hcleanup, hmarks⟩ := handleScanAll_refused hrefused h
    refine ⟨hcleanup, hmarks.congr fun k => ?_⟩
    rw [Marked, if_pos hall]
  rw [if_neg hall] at h
  by_cases hlocal : hasPrefix scope "local:" = true
  · rw [if_pos hlocal] at h
    obtain ⟨response', u, hscan, hdone⟩ := exec_bind.mp h
    obtain ⟨heq, rfl⟩ := exec_done.mp hdone
    obtain ⟨rfl, rfl⟩ := Prod.mk.inj heq
    refine ⟨rfl, (handleScanLocal_refused hrefused hscan).congr fun k => ?_⟩
    rw [Marked, if_neg hall, if_pos hlocal]
  rw [if_neg hlocal] at h
  have hnone : ∀ k, ¬ Marked p s scope k := by
    intro k hk
    rwa [Marked, if_neg hall, if_neg hlocal] at hk
  by_cases hremote : hasPrefix scope "remote:" = true
  · rw [if_pos hremote] at h
    obtain ⟨response', u, hscan, hdone⟩ := exec_bind.mp h
    obtain ⟨heq, rfl⟩ := exec_done.mp hdone
    obtain ⟨rfl, rfl⟩ := Prod.mk.inj heq
    rw [handleScanRemote_refused hrefused hscan]
    exact ⟨rfl, Marks.refl hnone s⟩
  · rw [if_neg hremote] at h
    obtain ⟨heq, rfl⟩ := exec_done.mp h
    exact ⟨(Prod.mk.inj heq).2, Marks.refl hnone t⟩

/-- The parts of the state that a refused request is to leave as they were. -/
structure Server.Unchanged (s t : Server) : Prop where
  scanStates : t.scanStates = s.scanStates
  scanCancel : t.scanCancel = s.scanCancel
  scanRunning : t.scanRunning = s.scanRunning
  updateRunning : t.updateRunning = s.updateRunning
  lastScans : t.lastScans = s.lastScans

/-- No scan that could be stopped is under way, every configured server is idle, and a request
with the given scope marks no server. -/
structure Undisturbed (p : Process) (s : Server) (scope : String) : Prop where
  scanCancel : s.scanCancel = none
  idle : ∀ k ∈ s.config.scanKeys, s.scanStates.lookup k = some .idle
  unmarked : ∀ k, ¬ Marked p s scope k

/-- The state in which a request comes to its scope: all configured servers are idle and the
cancel function is its own. -/
def Server.prepared (s : Server) : Server :=
  { s.resetScanStates s.config with
    contexts := s.contexts + 1
    scanCancel := some (.request s.contexts) }

/-- The steps of a refused request: it prepares the state, marks servers, and cleans up. -/
theorem handleScan_refused_steps {server : String} {response : Response}
    (hrefused : response.Refused)
    (h : Exec (serverSem p) (handleScan p server) s response t) :
    ∃ u, Marks (Marked p s (trimSpaceStr server)) s.prepared u ∧
      t = { u with
        cancelled := .request s.contexts :: u.cancelled
        scanCancel := none } := by
  rw [handleScan] at h
  obtain ⟨cfg, s₁, hget, h⟩ := exec_bind.mp h
  obtain ⟨rfl, rfl⟩ := exec_perform.mp hget
  obtain ⟨_, s₂, hreset, h⟩ := exec_bind.mp h
  obtain rfl : s₂ = s₁.resetScanStates s₁.config := exec_perform.mp hreset
  obtain ⟨ctx, s₃, hctx, h⟩ := exec_bind.mp h
  obtain ⟨rfl, rfl⟩ := exec_perform.mp hctx
  obtain ⟨_, s₄, hinstall, h⟩ := exec_bind.mp h
  obtain rfl : s₄ = s₁.prepared := exec_perform.mp hinstall
  obtain ⟨⟨response', cleanup⟩, u, hscope, h⟩ := exec_bind.mp h
  dsimp only at h
  cases cleanup with
  | true =>
      rw [if_pos rfl] at h
      obtain ⟨_, u₁, hcancel, h⟩ := exec_bind.mp h
      obtain rfl : u₁ = { u with cancelled := .request s₁.contexts :: u.cancelled } :=
        exec_perform.mp hcancel
      obtain ⟨_, u₂, hremove, h⟩ := exec_bind.mp h
      obtain rfl : u₂ = { u with
          cancelled := .request s₁.contexts :: u.cancelled
          scanCancel := none } := exec_perform.mp hremove
      obtain ⟨rfl, rfl⟩ := exec_done.mp h
      exact ⟨u, (handleScanScope_refused (s := s₁.prepared) hrefused hscope).2, rfl⟩
  | false =>
      rw [if_neg (by simp)] at h
      obtain ⟨rfl, rfl⟩ := exec_done.mp h
      exact absurd (handleScanScope_refused (s := s₁.prepared) hrefused hscope).1 (by simp)

/-- **When a refused request leaves the server as it was.** In whatever state the server is,
a request to scan that is refused leaves scan states, cancel function, flags and results as
they were if and only if there was no cancel function, every configured server was idle, and
the request marked no server. -/
theorem handleScan_refused_unchanged_iff {server : String} {response : Response}
    (hrefused : response.Refused)
    (h : Exec (serverSem p) (handleScan p server) s response t) :
    s.Unchanged t ↔ Undisturbed p s (trimSpaceStr server) := by
  obtain ⟨u, hmarks, rfl⟩ := handleScan_refused_steps hrefused h
  have hprepared : ∀ k, s.prepared.scanStates.lookup k =
      if k ∈ s.config.scanKeys then some .idle else s.scanStates.lookup k :=
    lookup_resetScanStates s.config s.scanStates
  constructor
  · intro hunchanged
    have hstates : u.scanStates = s.scanStates := hunchanged.scanStates
    -- a mark is later than anything that was there before
    have hunmarked : ∀ k, ¬ Marked p s (trimSpaceStr server) k := by
      intro k hk
      obtain ⟨state, hlookup, hstarted⟩ := hmarks.marked k hk
      rw [hstates] at hlookup
      have hbefore : state.startedAt ≤ s.clock := (s.recorded k state hlookup).1
      have hclock : s.prepared.clock = s.clock := rfl
      omega
    refine ⟨hunchanged.scanCancel.symm, fun k hk => ?_, hunmarked⟩
    rw [← hstates, hmarks.unmarked k (hunmarked k), hprepared, if_pos hk]
  · intro hundisturbed
    refine ⟨Finmap.ext_lookup fun k => ?_, hundisturbed.scanCancel.symm, hmarks.scanRunning,
      hmarks.updateRunning, hmarks.lastScans⟩
    have hlookup := hmarks.unmarked k (hundisturbed.unmarked k)
    rw [hprepared] at hlookup
    by_cases hk : k ∈ s.config.scanKeys
    · rw [if_pos hk] at hlookup
      rw [hundisturbed.idle k hk]
      exact hlookup
    · rw [if_neg hk] at hlookup
      exact hlookup

/-- A request with a scope that is none is refused. -/
theorem exec_handleScan_invalid {server : String}
    (hall : ¬ (trimSpaceStr server = "" ∨ trimSpaceStr server = "all"))
    (hlocal : hasPrefix (trimSpaceStr server) "local:" ≠ true)
    (hremote : hasPrefix (trimSpaceStr server) "remote:" ≠ true) :
    Exec (serverSem p) (handleScan p server) s (.error 400 "invalid scan scope")
      { s.prepared with cancelled := .request s.contexts :: s.cancelled, scanCancel := none } := by
  have hscope : ∀ cfg ctx, handleScanScope p cfg ctx (trimSpaceStr server) =
      pure (.error 400 "invalid scan scope", true) := by
    intro cfg ctx
    rw [handleScanScope, if_neg hall, if_neg hlocal, if_neg hremote]
  rw [handleScan]
  refine exec_bind.mpr ⟨s.config, s, exec_perform.mpr ⟨rfl, rfl⟩, ?_⟩
  refine exec_bind.mpr ⟨(), s.resetScanStates s.config, exec_perform.mpr rfl, ?_⟩
  refine exec_bind.mpr ⟨.request s.contexts, _, exec_perform.mpr ⟨rfl, rfl⟩, ?_⟩
  refine exec_bind.mpr ⟨(), s.prepared, exec_perform.mpr rfl, ?_⟩
  rw [hscope]
  refine exec_bind.mpr ⟨_, _, .done, ?_⟩
  refine exec_bind.mpr ⟨(), _, exec_perform.mpr rfl, ?_⟩
  exact exec_bind.mpr ⟨(), _, exec_perform.mpr rfl, .done⟩

end

/-! ### A refused request during a scan -/

/-- The server once a scan of all servers has begun. -/
def scanningServer : Server :=
  { (startedServer.prepared.tick 1).setScanStateKey (scanKey true "docker") .pending 1 with
    scanRunning := true }

/-- A scan of all servers may begin, also where a cancel function is installed only while there
is none. -/
theorem reaches_scanningServer {C : (o : ServerOp) → Server → o.Res → Prop}
    (hC : ∀ o s r, (∀ ctx, o = .setScanCancel (some ctx) → s.scanCancel = none) → C o s r) :
    Reaches (fun o s r t => serverSem controller o s r t ∧ C o s r) (handleScan controller "")
      startedServer scanningServer := by
  have hC' : ∀ o s r, (∀ ctx, o ≠ .setScanCancel (some ctx)) → C o s r :=
    fun o s r ho => hC o s r fun ctx h => absurd h (ho ctx)
  have hall : handleScanScope controller dockerConfig (.request 0) (trimSpaceStr "") =
      handleScanAll controller dockerConfig (.request 0) := by
    rw [handleScanScope, if_pos (Or.inl (by decide))]
  have hset : Exec (fun o s r t => serverSem controller o s r t ∧ C o s r)
      (setAllScanStates dockerConfig .pending) startedServer.prepared ()
      ((startedServer.prepared.tick 1).setScanStateKey (scanKey true "docker") .pending 1) := by
    rw [setAllScanStates, if_neg (by simp)]
    refine exec_bind.mpr ⟨(), _, ?_, .done⟩
    refine exec_bind.mpr ⟨(), _, exec_bind.mpr ⟨1, startedServer.prepared.tick 1, ?_, ?_⟩, .done⟩
    · exact exec_perform.mpr ⟨⟨Nat.zero_lt_one, rfl⟩, hC' _ _ _ (by simp)⟩
    · exact exec_perform.mpr ⟨rfl, hC' _ _ _ (by simp)⟩
  have hbegin : Exec (fun o s r t => serverSem controller o s r t ∧ C o s r) beginScan
      ((startedServer.prepared.tick 1).setScanStateKey (scanKey true "docker") .pending 1)
      true scanningServer := exec_perform.mpr ⟨⟨rfl, rfl⟩, hC' _ _ _ (by simp)⟩
  rw [handleScan]
  refine Exec.reaches_bind (exec_perform.mpr ⟨⟨rfl, rfl⟩, hC' _ _ _ (by simp)⟩) ?_
  refine Exec.reaches_bind (a := ()) (exec_perform.mpr ⟨rfl, hC' _ _ _ (by simp)⟩) ?_
  refine Exec.reaches_bind (exec_perform.mpr ⟨⟨rfl, rfl⟩, hC' _ _ _ (by simp)⟩) ?_
  refine Exec.reaches_bind (a := ()) (t := startedServer.prepared)
    (exec_perform.mpr ⟨rfl, hC _ _ _ fun _ _ => rfl⟩) ?_
  refine Reaches.bind _ ?_
  change Reaches _ (handleScanScope controller dockerConfig (.request 0) (trimSpaceStr "")) _ _
  rw [hall, handleScanAll]
  refine hset.reaches_bind (Reaches.bind _ ?_)
  rw [runScan]
  exact hbegin.reaches_bind (Reaches.refl _ _)

/-- The sample state is one the server reaches. -/
theorem reachable_scanningServer : Reachable controller scanningServer := by
  have hreaches := reaches_scanningServer (C := fun _ _ _ => True) fun _ _ _ _ => trivial
  exact reachable_of_reaches (i := .scan "") rfl (hreaches.mono fun h => h.1)

/-- A refused request may disturb a scan: here one with an invalid scope takes away the cancel
function of a scan that is running. -/
theorem handleScan_refused_can_disturb :
    ¬ ∀ (p : Process) (s t : Server) (server : String) (response : Response), Reachable p s →
      response.Refused → Exec (serverSem p) (handleScan p server) s response t →
      s.Unchanged t := by
  intro h
  have hexec := exec_handleScan_invalid (p := controller) (s := scanningServer)
    (by decide : ¬ (trimSpaceStr "nope" = "" ∨ trimSpaceStr "nope" = "all"))
    (by decide) (by decide)
  have hrefused : (Response.error 400 "invalid scan scope").Refused := Or.inl rfl
  have hunchanged := h controller scanningServer _ "nope" _ reachable_scanningServer hrefused
    hexec
  have hcancel : none = some (ScanContext.request 0) := hunchanged.scanCancel
  exact absurd hcancel (by simp)

/-- The same request to a server that has just started, and whose servers are idle, leaves it
as it was. -/
theorem handleScan_refused_unchanged_idle : (startedServer.resetScanStates dockerConfig).Unchanged
    { (startedServer.resetScanStates dockerConfig).prepared with
      cancelled := [.request 0], scanCancel := none } := by
  have hscope : ∀ k, ¬ Marked controller (startedServer.resetScanStates dockerConfig)
      (trimSpaceStr "nope") k := by
    intro k hk
    rw [Marked, if_neg (by decide), if_neg (by decide)] at hk
    exact hk
  have hrefused : (Response.error 400 "invalid scan scope").Refused := Or.inl rfl
  have hexec := exec_handleScan_invalid (p := controller)
    (s := startedServer.resetScanStates dockerConfig)
    (by decide : ¬ (trimSpaceStr "nope" = "" ∨ trimSpaceStr "nope" = "all"))
    (by decide) (by decide)
  refine (handleScan_refused_unchanged_iff hrefused hexec).mpr ⟨rfl, fun k hk => ?_, hscope⟩
  exact (lookup_resetScanStates dockerConfig _ k).trans (if_pos hk)

end Contiwatch
