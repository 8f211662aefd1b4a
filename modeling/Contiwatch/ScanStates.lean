import Contiwatch.ScanStop

/-!
# Scan States that are Settled

A scan marks its servers as pending before it asks whether it may run, and takes the local
servers it brings to a final state from a second look at the configuration. A scan that is then
refused, and a scan whose local servers are gone by then, leaves marks behind that nobody
settles.

## Main results

* `run_idle_settled` — where no scan is refused while servers are marked, and a scan that begins
  finds all marked local servers in the configuration, no server is left pending, scanning or
  updating once no scan, update or request is under way.
-/

namespace Contiwatch

open GoStrings Prog

/-! ### Who is to settle a server -/

/-- The server is waiting for a scan, being scanned or being updated. -/
def Server.Active (s : Server) (k : String) : Prop :=
  ∃ state, s.scanStates.lookup k = some state ∧ state.active = true

/-- A thread, or a goroutine that has not run yet, is to settle the server. -/
def Owed (s : Server) (phases : List (Request × ThreadPhase)) (k : String) : Prop :=
  (∃ ph ∈ phases, k ∈ ph.2.owes) ∨ ∃ rs ∈ s.remoteScans, k ∈ remoteKeys rs.2

/-- Every active server is to be settled. -/
def OwedInv (s : Server) (phases : List (Request × ThreadPhase)) : Prop :=
  ∀ k, s.Active k → Owed s phases k

/-- No scan is refused while a server is active, and a scan that takes its local servers from
the configuration finds those that are active there, out of maintenance. -/
def Settles (q : ServerPool) : PoolEvent Request ServerOp.Res → Prop
  | .op _ .beginScan false => ∀ k, ¬ q.state.Active k
  | .op i .storeGet cfg => ∀ next, (i, .op .storeGet next) ∈ q.threads →
      HoldsScan (.op .storeGet next) →
      ∀ k, q.state.Active k → LocalKey k → k ∈ localKeys cfg.localServers
  | _ => True

/-- The same for one operation of a thread, in terms of its phase. -/
def ThreadPhase.Settles (f : ThreadPhase) (s : Server) : (o : ServerOp) → o.Res → Prop
  | .beginScan, false => ∀ k, ¬ s.Active k
  | .storeGet, cfg => f.hold = .scan →
      ∀ k, s.Active k → LocalKey k → k ∈ localKeys cfg.localServers
  | _, _ => True

/-- What marks servers, or gives marked servers up. -/
def ServerOp.Marks : ServerOp → Prop
  | .goRemoteScans .. | .beginScan | .storeGet | .setScanStateKey .. => True
  | _ => False

/-- An operation that marks nothing leaves what a thread owes. -/
theorem next_owes {o : ServerOp} (ho : ¬ o.Marks) (f : ThreadPhase) (r : o.Res) :
    (f.next o r).owes = f.owes := by
  cases o with
  | setScanCancel ctx =>
      cases ctx with
      | none => rfl
      | some ctx => rfl
  | _ => first | exact absurd trivial ho | rfl

section

variable {p : Process} {s t : Server} {fs gs : List (Request × ThreadPhase)} {i : Request}
  {f g : ThreadPhase} {k : String}

/-- A thread that goes on still owes what it owed, but for what its step settles. -/
theorem Owed.step (h : Owed s (fs ++ (i, f) :: gs) k)
    (hremote : ∀ rs ∈ s.remoteScans, rs ∈ t.remoteScans)
    (hthread : k ∈ f.owes → Owed t (fs ++ (i, g) :: gs) k) :
    Owed t (fs ++ (i, g) :: gs) k := by
  rcases h with ⟨ph, hph, hk⟩ | ⟨rs, hrs, hk⟩
  · rcases List.mem_append.mp hph with hfront | hrest
    · exact Or.inl ⟨ph, List.mem_append_left _ hfront, hk⟩
    rcases List.mem_cons.mp hrest with rfl | hback
    · exact hthread hk
    · exact Or.inl ⟨ph, List.mem_append_right _ (List.mem_cons_of_mem _ hback), hk⟩
  · exact Or.inr ⟨rs, hremote rs hrs, hk⟩

/-- What one thread owes is owed. -/
theorem owed_of_thread (hk : k ∈ g.owes) : Owed t (fs ++ (i, g) :: gs) k :=
  Or.inl ⟨(i, g), List.mem_append_right _ (List.mem_cons_self ..), hk⟩

/-- Only marking makes a server active. -/
theorem active_of_serverSem {o : ServerOp} {r : o.Res} (ho : ¬ o.Marks)
    (hsem : serverSem p o s r t) : (∀ k, t.Active k → s.Active k) ∧
      t.remoteScans = s.remoteScans := by
  by_cases hscans : o.OfScans
  swap
  · have hsame := sameScans_of_serverSem hscans hsem
    refine ⟨fun k hk => ?_, hsame.remoteScans⟩
    rwa [Server.Active, hsame.scanStates] at hk
  cases o with
  | resetScanStates cfg =>
      obtain rfl : t = s.resetScanStates cfg := hsem
      refine ⟨?_, rfl⟩
      rintro k ⟨state, hlookup, hactive⟩
      change (resetScanStates cfg s.scanStates).lookup k = some state at hlookup
      rw [lookup_resetScanStates] at hlookup
      split_ifs at hlookup
      · obtain rfl := Option.some.inj hlookup
        exact absurd hactive (by simp [ScanState.active, ScanState.idle])
      · exact ⟨state, hlookup, hactive⟩
  | cancelActiveScanStates now =>
      obtain rfl : t = s.cancelActiveScanStates now := hsem
      refine ⟨?_, rfl⟩
      rintro k ⟨state, hlookup, hactive⟩
      change (cancelActiveScanStates now s.scanStates).lookup k = some state at hlookup
      rw [cancelActiveScanStates, GoMap.lookup_mapValues] at hlookup
      obtain ⟨current, hcurrent, rfl⟩ := Option.map_eq_some_iff.mp hlookup
      by_cases hwas : current.active = true
      · exact ⟨current, hcurrent, hwas⟩
      · rw [if_neg hwas] at hactive
        exact absurd hactive hwas
  | setScanCancel =>
      obtain rfl : t = _ := hsem
      exact ⟨fun k hk => hk, rfl⟩
  | endScan =>
      obtain rfl : t = _ := hsem
      exact ⟨fun k hk => hk, rfl⟩
  | addRemoteScanRunning =>
      obtain rfl : t = _ := hsem
      exact ⟨fun k hk => hk, rfl⟩
  | _ => first | exact absurd trivial ho | exact hscans.elim

/-- What `setScanStateKey` makes active. -/
theorem active_setScanStateKey {key : String} {state : ScanPhase} {now : ℕ} :
    (s.setScanStateKey key state now).Active k ↔
      if k = key then state.active = true else s.Active k := by
  have hlookup : (s.setScanStateKey key state now).scanStates.lookup k =
      (setScanStateKey key state now s.scanStates).lookup k := rfl
  rw [Server.Active, hlookup]
  by_cases hk : k = key
  · rw [if_pos hk, hk, lookup_setScanStateKey_self]
    have hactive : ∀ current : ScanState, (current.enter state now).active = state.active := by
      intro current
      cases state <;> rfl
    simp [hactive]
  · rw [if_neg hk, lookup_setScanStateKey_of_ne hk, Server.Active]

/-- One operation keeps the marks owed, where it settles what it should. -/
theorem OwedInv.op {o : ServerOp} {r : o.Res} (h : OwedInv s (fs ++ (i, f) :: gs))
    (hsettles : f.Settles s o r)
    (hsem : serverSem p o s r t) : OwedInv t (fs ++ (i, f.next o r) :: gs) := by
  intro k hk
  by_cases hmarks : o.Marks
  swap
  · obtain ⟨hactive, hremote⟩ := active_of_serverSem hmarks hsem
    refine (h k (hactive k hk)).step (fun rs hrs => hremote.symm ▸ hrs) fun howes => ?_
    exact owed_of_thread (next_owes hmarks f r ▸ howes)
  cases o with
  | goRemoteScans ctx remotes =>
      obtain rfl : t = { s with remoteScans := s.remoteScans ++ [(ctx, remotes)] } := hsem
      refine (h k hk).step (fun rs hrs => List.mem_append_left _ hrs) fun howes => ?_
      by_cases hkey : k ∈ remoteKeys remotes
      · exact Or.inr ⟨(ctx, remotes), List.mem_append_right _ (List.mem_singleton_self _), hkey⟩
      · exact owed_of_thread ⟨howes, hkey⟩
  | beginScan =>
      rw [serverSem.eq_def] at hsem
      dsimp only at hsem
      split_ifs at hsem
      · obtain ⟨rfl, rfl⟩ := hsem
        exact absurd hk (hsettles k)
      · obtain ⟨rfl, rfl⟩ := hsem
        exact (h k hk).step (fun rs hrs => hrs) fun howes => owed_of_thread howes
  | storeGet =>
      obtain ⟨rfl, rfl⟩ := hsem
      refine (h k hk).step (fun rs hrs => hrs) fun howes => owed_of_thread ?_
      rw [ThreadPhase.next]
      split_ifs with hhold
      · exact ⟨howes, hsettles hhold k hk⟩
      · exact howes
  | setScanStateKey key state now =>
      obtain rfl : t = s.setScanStateKey key state now := hsem
      rw [active_setScanStateKey] at hk
      have howes' : (f.next (.setScanStateKey key state now) r).owes =
          if state.active then insert key f.owes else f.owes \ {key} := rfl
      split_ifs at hk with hkey
      · refine owed_of_thread ?_
        rw [howes', if_pos hk, hkey]
        exact Set.mem_insert _ _
      · refine (h k hk).step (fun rs hrs => hrs) fun howes => owed_of_thread ?_
        rw [howes']
        split_ifs
        · exact Set.mem_insert_of_mem _ howes
        · exact ⟨howes, hkey⟩
  | _ => exact hmarks.elim

/-- A new thread leaves every mark owed. -/
theorem OwedInv.start {phases : List (Request × ThreadPhase)} (h : OwedInv s phases)
    (hstart : i.Starts s t) : OwedInv t (phases ++ [(i, i.phase)]) := by
  intro k hk
  have hthreads : (∃ ph ∈ phases, k ∈ ph.2.owes) → Owed t (phases ++ [(i, i.phase)]) k := by
    rintro ⟨ph, hph, howes⟩
    exact Or.inl ⟨ph, List.mem_append_left _ hph, howes⟩
  cases i with
  | remoteScans ctx remotes =>
      obtain ⟨front, back, hremote, rfl⟩ := hstart
      rcases h k hk with hph | ⟨rs, hrs, hkey⟩
      · exact hthreads hph
      rw [hremote] at hrs
      rcases List.mem_append.mp hrs with hfront | hrest
      · exact Or.inr ⟨rs, List.mem_append_left _ hfront, hkey⟩
      rcases List.mem_cons.mp hrest with rfl | hback
      · exact owed_of_thread hkey
      · exact Or.inr ⟨rs, List.mem_append_right _ hback, hkey⟩
  | _ =>
      obtain rfl : t = s := hstart
      exact (h k hk).elim hthreads Or.inr

/-! ### Runs -/

/-- What a thread's operation settles is read off its phase. -/
theorem Settles.phase {q : ServerPool} {o : ServerOp} {r : o.Res}
    {next : o.Res → ServerProg Response} (h : Settles q (.op i o r))
    (hmem : (i, .op o next) ∈ q.threads)
    (hobeys : Obeys scanProtocol (fun _ => Finished) f (.op o next)) :
    f.Settles q.state o r := by
  cases o with
  | beginScan =>
      cases r with
      | true => exact trivial
      | false => exact h
  | storeGet => exact fun hhold => h next hmem (holdsScan hobeys hhold)
  | _ => exact trivial

/-- Nothing is under way: no scan, no update, no request and no goroutine. -/
structure Idle (q : ServerPool) : Prop where
  scanRunning : q.state.scanRunning = false
  updateRunning : q.state.updateRunning = false
  remoteScanRunning : q.state.remoteScanRunning = 0
  remoteScans : q.state.remoteScans = []
  threads : ∀ th ∈ q.threads, ∃ response, th.2 = .done response

/-- **No server stays marked.** In every run in which no scan is refused while a server is
active, and in which a scan that takes its local servers from the configuration finds the
active ones there, no server is pending, scanning or updating in a state in which nothing is
under way. -/
theorem run_idle_settled {config : Config} {serverInfo : GoMap String String}
    {lastScan : ScanResult} {lastScans : List ScanResult} {daemons : ℕ → Daemon}
    {es : List (PoolEvent Request ServerOp.Res)} {q : ServerPool}
    (hrun : Run (fun q e q' => ServerStep p q e q' ∧ Settles q e)
      ⟨Server.new config serverInfo lastScan lastScans daemons, []⟩ es q)
    (hidle : Idle q) (k : String) : ¬ q.state.Active k := by
  obtain ⟨phases, haligned, hinv⟩ : ∃ phases,
      Pool.Aligned scanProtocol (fun _ => Finished) q.threads phases ∧
        OwedInv q.state phases := by
    refine Pool.run_phases (obeys_program p) ?_ ?_ ?_ ?_ hrun
    · rintro k ⟨state, hlookup, -⟩
      exact absurd hlookup (by simp [Server.new])
    · intro q phases i t _ hinv _ hstart
      exact hinv.start hstart
    · rintro q phases t hinv - ⟨config, serverInfo, daemons, runs, rfl⟩
      exact hinv
    · intro q fs gs i f o r t next _ hinv hmem hobeys hsettles hsem
      exact hinv.op (hsettles.phase hmem hobeys) hsem
  intro hactive
  rcases hinv k hactive with ⟨⟨i, f⟩, hph, howes⟩ | ⟨rs, hrs, -⟩
  · obtain ⟨rest, hthread, hobeys⟩ := haligned.of_phase hph
    obtain ⟨response, hdone⟩ := hidle.threads _ hthread
    obtain rfl : rest = .done response := hdone
    exact (obeys_done.mp hobeys).owes howes
  · rw [hidle.remoteScans] at hrs
    exact absurd hrs List.not_mem_nil

end

/-! ### A scan that is refused during an update -/

/-- A condition on the state that is enough for `Settles` with the one server of
`dockerConfig`. -/
def SettlesAlone (s : Server) : PoolEvent Request ServerOp.Res → Prop
  | .op _ .beginScan false => ∀ k, ¬ s.Active k
  | .op _ .storeGet cfg => ∀ k, s.Active k → LocalKey k → k ∈ localKeys cfg.localServers
  | _ => True

/-- A condition on the state alone is enough. -/
theorem SettlesAlone.settles {q : ServerPool} {e : PoolEvent Request ServerOp.Res}
    (h : SettlesAlone q.state e) : Settles q e := by
  cases e with
  | op i o r =>
      cases o with
      | beginScan =>
          cases r with
          | true => exact trivial
          | false => exact h
      | storeGet => exact fun _ _ _ => h
      | _ => exact trivial
  | _ => exact trivial

/-- The operations under that condition. -/
def settlingSem (i : Request) (o : ServerOp) (s : Server) (r : o.Res) (t : Server) : Prop :=
  serverSem controller o s r t ∧ SettlesAlone s (.op i o r)

/-- The only server that may be active is the local daemon. -/
structure OnlyDocker (s : Server) : Prop where
  config : s.config = dockerConfig
  only : ∀ k, s.Active k → k = scanKey true "docker"

/-- Marking the only server leaves it the only one. -/
theorem onlyDocker_of_mark {s : Server} {state : ScanPhase} {now : ℕ} (h : OnlyDocker s) :
    OnlyDocker (s.setScanStateKey (scanKey true "docker") state now) := by
  refine ⟨h.config, fun k hk => ?_⟩
  rw [active_setScanStateKey] at hk
  split_ifs at hk with hkey
  · exact hkey
  · exact h.only k hk

/-- A look at the configuration finds the local daemon. -/
theorem OnlyDocker.storeGet {s : Server} (h : OnlyDocker s) (i : Request) :
    settlingSem i .storeGet s dockerConfig s := by
  refine ⟨⟨h.config.symm, rfl⟩, fun k hk _ => ?_⟩
  exact ⟨⟨"docker", "/var/run/docker.sock", false⟩, List.mem_singleton_self _, rfl, h.only k hk⟩

/-- A request finds the local daemon idle when it comes to its scope. -/
theorem OnlyDocker.prepared {s : Server} (h : OnlyDocker s) :
    OnlyDocker s.prepared ∧ ∀ k, ¬ s.prepared.Active k := by
  have hidle : ∀ k, ¬ s.prepared.Active k := by
    rintro k ⟨state, hlookup, hactive⟩
    change (resetScanStates s.config s.scanStates).lookup k = some state at hlookup
    rw [lookup_resetScanStates, h.config] at hlookup
    split_ifs at hlookup with hkey
    · obtain rfl := Option.some.inj hlookup
      exact absurd hactive (by decide)
    · obtain rfl := h.only k ⟨state, hlookup, hactive⟩
      exact hkey (by decide)
  exact ⟨⟨h.config, fun k hk => absurd hk (hidle k)⟩, hidle⟩

/-- A request to update a container of a server that does not exist. -/
def strayUpdate : Request := .update "x" ⟨"nope", "", ""⟩

/-- What the update is to do once it has begun. -/
def strayUpdateRest : ServerProg Response := do
  let response ← handleUpdateRunning controller "x" ⟨"nope", "", ""⟩
  perform .endUpdate
  pure response

/-- The sample update starts while nothing runs. -/
theorem strayUpdate_begins {s : Server} (hscan : s.scanRunning = false)
    (hupdate : s.updateRunning = false) :
    Partial (settlingSem strayUpdate) (strayUpdate.program controller) s strayUpdateRest
      { s with updateRunning := true } := by
  rw [strayUpdate, Request.program, handleUpdateContainer, if_neg (by decide)]
  refine .op (r := true) ⟨?_, trivial⟩ .refl
  rw [serverSem.eq_def]
  dsimp only
  rw [if_neg (by simp [hscan, hupdate])]
  exact ⟨rfl, rfl⟩

/-- It is then refused for want of its server. -/
theorem strayUpdate_ends {s : Server} (h : OnlyDocker s) :
    Exec (settlingSem strayUpdate) strayUpdateRest s (.error 404 "local server not found")
      { s with updateRunning := false } := by
  have hrunning : Exec (settlingSem strayUpdate)
      (handleUpdateRunning controller "x" ⟨"nope", "", ""⟩) s
      (.error 404 "local server not found") s := by
    have hquery :
        UpdateQuery.override controller ⟨"nope", "", ""⟩ dockerConfig = dockerConfig := by
      rw [UpdateQuery.override, if_pos (by decide)]
    have htarget : UpdateQuery.target ⟨"nope", "", ""⟩ = (false, "nope") := by decide
    have hname : serverOrOnly dockerConfig "nope" = some "nope" := by
      rw [serverOrOnly, if_neg (by decide)]
    have hself :
        isSelfContainer controller.lower controller.selfContainerCandidates "x" = false := by
      decide
    have hfind : findLocalServer controller.fold dockerConfig.localServers "nope" = none := by
      decide
    refine exec_bind.mpr ⟨dockerConfig, s, exec_perform.mpr (h.storeGet _), ?_⟩
    dsimp only
    rw [hquery, htarget]
    dsimp only
    rw [hname]
    dsimp only
    rw [if_neg (by simp [hself]), if_neg (by simp), handleUpdateLocal, hfind]
    exact .done
  refine exec_bind.mpr ⟨_, _, hrunning, ?_⟩
  exact exec_bind.mpr ⟨(), _, exec_perform.mpr ⟨rfl, trivial⟩, .done⟩

/-- A request to scan all servers has marked the local daemon. -/
def Server.marked (s : Server) : Server :=
  (s.prepared.tick (s.clock + 1)).setScanStateKey (scanKey true "docker") .pending (s.clock + 1)

/-- A request that was answered without a scan has cleaned up. -/
def Server.cleaned (s : Server) (ctx : ScanContext) : Server :=
  { s with
    cancelled := ctx :: s.cancelled
    scanCancel := none }

/-- What the scan is to do once it has marked the local daemon. -/
def markedScanRest (ctx : ScanContext) : ServerProg Response := do
  let (response, cleanup) ← (do
    match ← runScan controller ctx with
    | none => pure (.error 409 "scan already in progress", true)
    | some result => do
        perform (.goRemoteScans ctx dockerConfig.remoteServers)
        pure (.scan result, false))
  if cleanup then do
    perform (.cancel ctx)
    perform (.setScanCancel none)
    pure response
  else pure response

/-- A request comes to its scope. -/
theorem handleScan_prepares {s : Server} (h : OnlyDocker s) (server : String) :
    Partial (settlingSem (.scan server)) (handleScan controller server) s
      (do
        let (response, cleanup) ← handleScanScope controller dockerConfig (.request s.contexts)
          (trimSpaceStr server)
        if cleanup then do
          perform (.cancel (.request s.contexts))
          perform (.setScanCancel none)
          pure response
        else pure response) s.prepared := by
  have hreset : settlingSem (.scan server) (.resetScanStates dockerConfig) s ()
      (s.resetScanStates dockerConfig) := ⟨rfl, trivial⟩
  have hcontext : settlingSem (.scan server) .newContext (s.resetScanStates dockerConfig)
      (.request s.contexts)
      { s.resetScanStates dockerConfig with contexts := s.contexts + 1 } := ⟨⟨rfl, rfl⟩, trivial⟩
  have hinstall : settlingSem (.scan server) (.setScanCancel (some (.request s.contexts)))
      { s.resetScanStates dockerConfig with contexts := s.contexts + 1 } () s.prepared := by
    refine ⟨?_, trivial⟩
    rw [serverSem.eq_def, Server.prepared, h.config]
  rw [handleScan]
  refine (Exec.partial_bind _ (exec_perform.mpr (h.storeGet _))).trans ?_
  refine (Exec.partial_bind _ (exec_perform.mpr hreset)).trans ?_
  refine (Exec.partial_bind _ (exec_perform.mpr hcontext)).trans ?_
  exact Exec.partial_bind _ (exec_perform.mpr hinstall)

/-- A request to scan all servers comes to the question whether it may run. -/
theorem handleScan_marks {s : Server} (h : OnlyDocker s) :
    Partial (settlingSem (.scan "")) (handleScan controller "") s
      (markedScanRest (.request s.contexts)) s.marked := by
  refine (handleScan_prepares h "").trans ?_
  have hall : handleScanScope controller dockerConfig (.request s.contexts) (trimSpaceStr "") =
      handleScanAll controller dockerConfig (.request s.contexts) := by
    rw [handleScanScope, if_pos (Or.inl (by decide))]
  have hset : Exec (settlingSem (.scan "")) (setAllScanStates dockerConfig .pending)
      s.prepared () s.marked := by
    rw [setAllScanStates, if_neg (by simp)]
    refine exec_bind.mpr ⟨(), _, ?_, .done⟩
    refine exec_bind.mpr ⟨(), _, exec_bind.mpr ⟨s.clock + 1, s.prepared.tick (s.clock + 1), ?_,
      ?_⟩, .done⟩
    · exact exec_perform.mpr ⟨⟨Nat.lt_succ_self _, rfl⟩, trivial⟩
    · exact exec_perform.mpr ⟨rfl, trivial⟩
  rw [hall]
  exact (hset.partial_bind _).bind _

/-- Where another operation is running, it is refused. -/
theorem exec_markedScanRest {i : Request} {s : Server} {ctx : ScanContext}
    {sem : (o : ServerOp) → Server → o.Res → Server → Prop}
    (hsem : ∀ {o : ServerOp} {t : Server} {r : o.Res} {u : Server},
      settlingSem i o t r u → sem o t r u)
    (hrefused : sem .beginScan s false s) :
    Exec sem (markedScanRest ctx) s (.error 409 "scan already in progress")
      (s.cleaned ctx) := by
  refine exec_bind.mpr ⟨(.error 409 "scan already in progress", true), s, ?_, ?_⟩
  · refine exec_bind.mpr ⟨none, s, ?_, .done⟩
    rw [runScan]
    exact exec_bind.mpr ⟨false, s, exec_perform.mpr hrefused, .done⟩
  · refine exec_bind.mpr ⟨(), _, exec_perform.mpr (hsem ⟨rfl, trivial⟩), ?_⟩
    exact exec_bind.mpr ⟨(), _, exec_perform.mpr (hsem ⟨rfl, trivial⟩), .done⟩

/-- The check refuses a scan during an update. -/
theorem beginScan_refused {s : Server} (h : s.updateRunning = true) :
    serverSem controller .beginScan s false s := by
  rw [serverSem.eq_def]
  dsimp only
  rw [if_pos (by simp [h])]
  exact ⟨rfl, rfl⟩

/-- A server may stay marked for ever: here a scan was refused because of an update. -/
theorem idle_can_stay_marked :
    ¬ ∀ (p : Process) (config : Config) (serverInfo : GoMap String String)
      (lastScan : ScanResult) (lastScans : List ScanResult) (daemons : ℕ → Daemon)
      (es : List (PoolEvent Request ServerOp.Res)) (q : ServerPool),
      Run (ServerStep p) ⟨Server.new config serverInfo lastScan lastScans daemons, []⟩ es q →
      Idle q → ∀ k, ¬ q.state.Active k := by
  intro h
  have hstart : ∀ (i : Request) (q : ServerPool), i.Starts q.state q.state →
      ServerStep controller q (.start i) ⟨q.state, q.threads ++ [(i, i.program controller)]⟩ :=
    fun i q hi => Pool.Step.start hi
  have honly : OnlyDocker startedServer :=
    ⟨rfl, fun k ⟨state, hlookup, _⟩ => absurd hlookup (by simp [startedServer, Server.new])⟩
  let updating : Server := { startedServer with updateRunning := true }
  let marked : Server := updating.marked.cleaned (.request 0)
  have hupdating : OnlyDocker updating := ⟨rfl, honly.only⟩
  have hmarked : OnlyDocker marked :=
    ⟨rfl, (onlyDocker_of_mark (s := updating.prepared.tick 1)
      ⟨rfl, hupdating.prepared.1.only⟩).only⟩
  obtain ⟨es₁, hbegin⟩ : ∃ es, Run (ServerStep controller)
      ⟨startedServer, [(strayUpdate, strayUpdate.program controller)]⟩ es
      ⟨updating, [(strayUpdate, strayUpdateRest)]⟩ :=
    Pool.run_alone ((strayUpdate_begins rfl rfl).mono fun h => h.1) [] []
  have hscanned : Exec (serverSem controller) (handleScan controller "") updating
      (.error 409 "scan already in progress") marked :=
    ((handleScan_marks hupdating).mono fun h => h.1).exec
      (exec_markedScanRest (i := .scan "") (fun h => h.1) (beginScan_refused rfl))
  obtain ⟨es₂, hscan⟩ : ∃ es, Run (ServerStep controller)
      ⟨updating, [(strayUpdate, strayUpdateRest), (.scan "", handleScan controller "")]⟩ es
      ⟨marked, [(strayUpdate, strayUpdateRest),
        (.scan "", .done (.error 409 "scan already in progress"))]⟩ :=
    Pool.run_alone hscanned.toDone [(strayUpdate, strayUpdateRest)] []
  obtain ⟨es₃, hend⟩ : ∃ es, Run (ServerStep controller)
      ⟨marked, [(strayUpdate, strayUpdateRest),
        (.scan "", .done (.error 409 "scan already in progress"))]⟩ es
      ⟨{ marked with updateRunning := false },
        [(strayUpdate, .done (.error 404 "local server not found")),
          (.scan "", .done (.error 409 "scan already in progress"))]⟩ :=
    Pool.run_alone ((strayUpdate_ends hmarked).toDone.mono fun h => h.1) []
      [(Request.scan "", .done (.error 409 "scan already in progress"))]
  have hrun := (((Run.single (hstart strayUpdate ⟨startedServer, []⟩ rfl)).append hbegin).append
    (Run.single (hstart (.scan "") _ rfl))).append (hscan.append hend)
  refine h controller _ _ _ _ _ _ _ hrun ⟨rfl, rfl, rfl, rfl, ?_⟩ (scanKey true "docker") ?_
  · intro th hth
    rcases List.mem_cons.mp hth with rfl | hth
    · exact ⟨_, rfl⟩
    · rw [List.mem_singleton.mp hth]
      exact ⟨_, rfl⟩
  · exact ⟨_, lookup_setScanStateKey_self _ _ _ _, rfl⟩

/-- A request for a server that does not exist leaves the local daemon idle. -/
theorem exec_handleScan_nope {s : Server} (h : OnlyDocker s) :
    Exec (settlingSem (.scan "local:nope")) (handleScan controller "local:nope") s
      (.error 404 "local server not found") (s.prepared.cleaned (.request s.contexts)) := by
  refine (handleScan_prepares h "local:nope").exec ?_
  have hfind : findLocalServer controller.fold dockerConfig.localServers
      (trimPrefix (trimSpaceStr "local:nope") "local:") = none := by decide
  have hscope : handleScanScope controller dockerConfig (.request s.contexts)
      (trimSpaceStr "local:nope") = pure (.error 404 "local server not found", true) := by
    rw [handleScanScope, if_neg (by decide), if_pos (by decide),
      handleScanLocal, hfind]
    rfl
  rw [hscope]
  refine exec_bind.mpr ⟨_, _, .done, ?_⟩
  refine exec_bind.mpr ⟨(), _, exec_perform.mpr ⟨rfl, trivial⟩, ?_⟩
  exact exec_bind.mpr ⟨(), _, exec_perform.mpr ⟨rfl, trivial⟩, .done⟩

/-- During an update a request to scan marks the local daemon, a request for another server
makes it idle again, and the first one is refused: it is settled in the end. -/
theorem run_idle_settled_refused : ∃ es q,
    Run (fun q e q' => ServerStep controller q e q' ∧ Settles q e) ⟨startedServer, []⟩ es q ∧
      (Request.scan "", Prog.done (.error 409 "scan already in progress")) ∈ q.threads ∧
      ¬ q.state.Active (scanKey true "docker") := by
  have honly : OnlyDocker startedServer :=
    ⟨rfl, fun k ⟨state, hlookup, _⟩ => absurd hlookup (by simp [startedServer, Server.new])⟩
  let updating : Server := { startedServer with updateRunning := true }
  let marked : Server := updating.marked
  let reset : Server := marked.prepared.cleaned (.request 1)
  let refused : Server := reset.cleaned (.request 0)
  have hupdating : OnlyDocker updating := ⟨rfl, honly.only⟩
  have hmarked : OnlyDocker marked :=
    onlyDocker_of_mark (s := updating.prepared.tick 1) ⟨rfl, hupdating.prepared.1.only⟩
  have hreset : OnlyDocker refused := ⟨rfl, hmarked.prepared.1.only⟩
  have hrefused : settlingSem (.scan "") .beginScan reset false reset :=
    ⟨beginScan_refused rfl, hmarked.prepared.2⟩
  have hstart : ∀ (i : Request) (q : ServerPool), i.Starts q.state q.state →
      ServerStep controller q (.start i) ⟨q.state, q.threads ++ [(i, i.program controller)]⟩ ∧
        SettlesAlone q.state (.start i) :=
    fun i q hi => ⟨Pool.Step.start hi, trivial⟩
  let C := fun (q : ServerPool) e q' => ServerStep controller q e q' ∧ SettlesAlone q.state e
  let update : Request × ServerProg Response := (strayUpdate, strayUpdateRest)
  let waiting : Request × ServerProg Response := (.scan "", markedScanRest (.request 0))
  let nope : Request × ServerProg Response :=
    (.scan "local:nope", .done (.error 404 "local server not found"))
  let refusal : Request × ServerProg Response :=
    (.scan "", .done (.error 409 "scan already in progress"))
  obtain ⟨es₁, hbegin⟩ : ∃ es, Run C
      ⟨startedServer, [(strayUpdate, strayUpdate.program controller)]⟩ es
      ⟨updating, [update]⟩ :=
    Pool.run_partial (strayUpdate_begins rfl rfl) [] []
  obtain ⟨es₂, hmark⟩ : ∃ es, Run C
      ⟨updating, [update, (.scan "", handleScan controller "")]⟩ es ⟨marked, [update, waiting]⟩ :=
    Pool.run_partial (handleScan_marks hupdating) [update] []
  obtain ⟨es₃, hnope⟩ : ∃ es, Run C
      ⟨marked, [update, waiting, (.scan "local:nope", handleScan controller "local:nope")]⟩ es
      ⟨reset, [update, waiting, nope]⟩ :=
    Pool.run_partial (exec_handleScan_nope hmarked).toDone [update, waiting] []
  obtain ⟨es₄, hrefuse⟩ : ∃ es, Run C
      ⟨reset, [update, waiting, nope]⟩ es ⟨refused, [update, refusal, nope]⟩ :=
    Pool.run_partial (exec_markedScanRest (i := .scan "") (fun h => h) hrefused).toDone
      [update] [nope]
  obtain ⟨es₅, hend⟩ : ∃ es, Run C ⟨refused, [update, refusal, nope]⟩ es
      ⟨{ refused with updateRunning := false },
        [(strayUpdate, .done (.error 404 "local server not found")), refusal, nope]⟩ :=
    Pool.run_partial (strayUpdate_ends hreset).toDone [] [refusal, nope]
  have hrun := ((((Run.single (hstart strayUpdate ⟨startedServer, []⟩ rfl)).append hbegin).append
    ((Run.single (hstart (.scan "") _ rfl)).append hmark)).append
    ((Run.single (hstart (.scan "local:nope") _ rfl)).append hnope)).append (hrefuse.append hend)
  have hall := hrun.mono fun h => And.intro h.1 h.2.settles
  refine ⟨_, _, hall, by simp [refusal], run_idle_settled hall ⟨rfl, rfl, rfl, rfl, ?_⟩ _⟩
  intro th hth
  rcases List.mem_cons.mp hth with rfl | hth
  · exact ⟨_, rfl⟩
  rcases List.mem_cons.mp hth with rfl | hth
  · exact ⟨_, rfl⟩
  · rw [List.mem_singleton.mp hth]
    exact ⟨_, rfl⟩

end Contiwatch
