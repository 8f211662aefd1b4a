import Contiwatch.Lib.Phases
import Contiwatch.ScanOps
import Contiwatch.ScanRefusal

/-!
# The Phases of a Scan

Every thread of the server, as far as scans are concerned: which context it scans under and
whether `scanCancel` is its own, whether it has set `scanRunning` or counts in
`remoteScanRunning`, and which servers it still has to bring to a final scan state. All handlers
and background loops obey the protocol of these phases, whatever the answers of daemons, agents
and the clock.

## Main results

* `obeys_program` — every request obeys the protocol: it ends with nothing held and nothing
  owed, and a scan request with its cancel function taken away or handed to a goroutine.
-/

namespace Contiwatch

open GoStrings Prog

/-! ### The protocol -/

/-- A state in which a server is waiting for a scan, being scanned or being updated. -/
def ScanPhase.active (state : ScanPhase) : Bool :=
  state = .pending || state = .scanning || state = .updating

/-- The key of a local server. -/
def LocalKey (k : String) : Prop := ∃ name, k = scanKey true name

/-- The keys of the local servers out of maintenance. -/
def localKeys (servers : List LocalServer) : Set String := {k | LocalMark servers k}

/-- The keys of the remote servers out of maintenance. -/
def remoteKeys (remotes : List RemoteServer) : Set String :=
  {k | ∃ remote ∈ remotes, remote.maintenance = false ∧ k = scanKey false remote.name}

/-- What a thread is, and how far it has come with its context. -/
inductive Role where
  /-- A request to scan that has no context yet. -/
  | starting
  /-- A request to scan whose context is not installed yet. -/
  | created (ctx : ScanContext)
  /-- A request to scan, or the goroutine it left behind, with its cancel function in
  `scanCancel`. -/
  | installed (ctx : ScanContext)
  /-- A request to scan, or its goroutine, that is done with `scanCancel`. -/
  | over
  /-- A scan of the scheduler. -/
  | scheduled (n : ℕ)
  /-- Any other request. -/
  | other
  deriving DecidableEq

/-- The context that a thread scans under. -/
def Role.ctx : Role → Option ScanContext
  | .created ctx => some ctx
  | .installed ctx => some ctx
  | .scheduled n => some (.scheduler n)
  | _ => none

/-- The roles of a scan that can be in progress. -/
def Role.Scans : Role → Prop
  | .installed _ => True
  | .scheduled _ => True
  | _ => False

/-- A request that has installed its cancel function scans. -/
theorem scans_installed (ctx : ScanContext) : (Role.installed ctx).Scans := trivial

/-- So does a scheduled scan. -/
theorem scans_scheduled (n : ℕ) : (Role.scheduled n).Scans := trivial

/-- What a thread holds: nothing, the flag `scanRunning`, or one of `remoteScanRunning`. -/
inductive Hold where
  | none
  | scan
  | remote
  deriving DecidableEq

/-- The phase of a thread; `owes` are the keys of the servers that it has to bring to a final
state. -/
structure ThreadPhase where
  role : Role
  hold : Hold
  owes : Set String

/-- The operations that a phase allows. -/
def ThreadPhase.Allowed (f : ThreadPhase) : ServerOp → Prop
  | .newContext => f.role = .starting
  | .setScanCancel (some ctx) => f.role = .created ctx
  | .setScanCancel none => (∃ ctx, f.role = .installed ctx) ∧ f.hold = .none
  | .goRemoteScans ctx _ => f.role = .installed ctx ∧ f.hold = .none
  | .ctxErr ctx => f.role.ctx = some ctx
  | .beginScan => f.role.Scans ∧ f.hold = .none
  | .endScan => f.hold = .scan
  | .addRemoteScanRunning n =>
      (n = 1 ∧ f.role.Scans ∧ f.hold = .none) ∨ (n = -1 ∧ f.hold = .remote)
  | .scanActive => f.role = .other
  | _ => True

/-- The phase after an operation and its answer. A scan that is refused gives up what it owes;
a running scan gives up the local servers that the configuration does not have. -/
def ThreadPhase.next (f : ThreadPhase) : (o : ServerOp) → o.Res → ThreadPhase
  | .newContext, ctx => { f with role := .created ctx }
  | .setScanCancel (some ctx), _ => { f with role := .installed ctx }
  | .setScanCancel none, _ => { f with role := .over }
  | .goRemoteScans _ remotes, _ => { f with role := .over, owes := f.owes \ remoteKeys remotes }
  | .beginScan, true => { f with hold := .scan }
  | .beginScan, false => { f with owes := ∅ }
  | .endScan, _ => { f with hold := .none }
  | .addRemoteScanRunning n, _ => { f with hold := if n = 1 then .remote else .none }
  | .storeGet, cfg =>
      if f.hold = .scan then
        { f with owes := {k | k ∈ f.owes ∧ (LocalKey k → k ∈ localKeys cfg.localServers)} }
      else f
  | .setScanStateKey key state _, _ =>
      { f with owes := if state.active then insert key f.owes else f.owes \ {key} }
  | _, _ => f

/-- The protocol of the threads. -/
def scanProtocol : Protocol ServerOp.Res ThreadPhase := ⟨ThreadPhase.Allowed, ThreadPhase.next⟩

/-- A thread in the role `ρ` that holds `h` and owes at most the keys `K`. -/
structure At (ρ : Role) (h : Hold) (K : Set String) (f : ThreadPhase) : Prop where
  role : f.role = ρ
  hold : f.hold = h
  owes : f.owes ⊆ K

/-- `Spec ρ h K q Q`: from the phases `At ρ h K` on, the program `q` obeys the protocol and ends
in `Q`. -/
def Spec {α : Type} (ρ : Role) (h : Hold) (K : Set String) (q : ServerProg α)
    (Q : α → ThreadPhase → Prop) : Prop :=
  ∀ f, At ρ h K f → Obeys scanProtocol Q f q

section

variable {α β : Type} {ρ ρ' : Role} {h h' : Hold} {K K' : Set String}

/-- A thread that owes some keys owes at most more of them. -/
theorem At.mono {f : ThreadPhase} (hf : At ρ h K f) (hK : K ⊆ K') : At ρ h K' f :=
  ⟨hf.role, hf.hold, hf.owes.trans hK⟩

/-- A program that only returns leaves the phase. -/
theorem spec_pure {Q : α → ThreadPhase → Prop} {a : α} (ha : ∀ f, At ρ h K f → Q a f) :
    Spec ρ h K (pure a) Q :=
  fun f hf => obeys_pure (ha f hf)

/-- Programs one after the other: the second goes on from where the first leaves off. -/
theorem Spec.bind {q : ServerProg α} {k : α → ServerProg β} {Q : β → ThreadPhase → Prop}
    (hq : Spec ρ h K q fun _ => At ρ' h' K') (hk : ∀ a, Spec ρ' h' K' (k a) Q) :
    Spec ρ h K (q >>= k) Q :=
  fun f hf => (hq f hf).bind fun a g hg => hk a g hg

/-- A choice between two programs. -/
theorem Spec.ite {c : Prop} [Decidable c] {q q' : ServerProg α} {Q : α → ThreadPhase → Prop}
    (hq : c → Spec ρ h K q Q) (hq' : ¬ c → Spec ρ h K q' Q) :
    Spec ρ h K (if c then q else q') Q :=
  fun f hf => Obeys.ite (fun hc => hq hc f hf) fun hc => hq' hc f hf

/-- A program that leaves fewer keys owed leaves at most more of them. -/
theorem Spec.post {q : ServerProg α} (hq : Spec ρ h K q fun _ => At ρ' h' K')
    {L : Set String} (hL : K' ⊆ L) : Spec ρ h K q fun _ => At ρ' h' L :=
  fun f hf => (hq f hf).mono fun _ _ hg => hg.mono hL

/-- One operation: the phase allows it, and goes on to the next. -/
theorem spec_perform {o : ServerOp} {Q : o.Res → ThreadPhase → Prop}
    (ho : ∀ f, At ρ h K f → f.Allowed o) (hQ : ∀ f r, At ρ h K f → Q r (f.next o r)) :
    Spec ρ h K (perform o) Q :=
  fun f hf => obeys_call (ho f hf) fun r => hQ f r hf

/-! ### Programs that only ask -/

/-- The operations that leave a thread where it is. -/
def ServerOp.Quiet (ρ : Role) (o : ServerOp) : Prop :=
  (∀ f : ThreadPhase, f.role = ρ → f.Allowed o) ∧
    ∀ (f : ThreadPhase) r, (f.next o r).role = f.role ∧ (f.next o r).hold = f.hold ∧
      (f.next o r).owes ⊆ f.owes

/-- Plain operations leave every thread where it is. -/
theorem ServerOp.Plain.quiet {o : ServerOp} (ho : o.Plain) (ρ : Role) : o.Quiet ρ := by
  refine ⟨fun f _ => ?_, fun f r => ?_⟩
  · cases o with
    | _ => first | exact trivial | exact ho.elim
  · cases o with
    | storeGet =>
        rw [ThreadPhase.next]
        split_ifs
        · exact ⟨rfl, rfl, fun _ hk => hk.1⟩
        · exact ⟨rfl, rfl, subset_rfl⟩
    | _ => first | exact ⟨rfl, rfl, subset_rfl⟩ | exact ho.elim

/-- So does asking the own context. -/
theorem quiet_ctxErr {ctx : ScanContext} (hctx : ρ.ctx = some ctx) :
    (ServerOp.ctxErr ctx).Quiet ρ :=
  ⟨fun _ hf => (congrArg Role.ctx hf).trans hctx, fun _ _ => ⟨rfl, rfl, subset_rfl⟩⟩

/-- A program of quiet operations leaves the thread where it is. -/
theorem spec_of_quiet {q : ServerProg α} (hq : Ops (ServerOp.Quiet ρ) q) :
    Spec ρ h K q fun _ => At ρ h K := by
  intro f hf
  refine obeys_of_ops hq hf fun g o ho hg => ⟨ho.1 g hg.role, fun r => ?_⟩
  obtain ⟨hrole, hhold, howes⟩ := ho.2 g r
  exact ⟨hrole.trans hg.role, hhold.trans hg.hold, howes.trans hg.owes⟩

/-- So does a program of plain operations. -/
theorem spec_of_plain {q : ServerProg α} (hq : Plain q) : Spec ρ h K q fun _ => At ρ h K :=
  spec_of_quiet (hq.mono fun _ ho => ho.quiet ρ)

/-- So does one plain operation. -/
theorem spec_plain (o : ServerOp) (ho : o.Plain) : Spec ρ h K (perform o) fun _ => At ρ h K :=
  spec_of_plain (ops_perform ho)

/-- So does asking the own context. -/
theorem spec_ctxErr {ctx : ScanContext} (hctx : ρ.ctx = some ctx) :
    Spec ρ h K (ctxErr ctx) fun _ => At ρ h K :=
  spec_of_quiet (ops_perform (quiet_ctxErr hctx))

/-! ### Marking servers -/

/-- An active state makes the thread owe the server. -/
theorem spec_markState {state : ScanPhase} (hstate : state.active = true) (isLocal : Bool)
    (name : String) : Spec ρ h K (setScanState isLocal name state) fun _ =>
      At ρ h (insert (scanKey isLocal name) K) := by
  refine (spec_plain .timeNow trivial).bind fun now => ?_
  refine spec_perform (fun _ _ => trivial) fun f r hf => ⟨hf.role, hf.hold, ?_⟩
  change (if state.active then insert (scanKey isLocal name) f.owes else _) ⊆ _
  rw [if_pos hstate]
  exact Set.insert_subset_insert hf.owes

/-- A final state pays for the server. -/
theorem spec_finalState {state : ScanPhase} (hstate : state.active = false) (isLocal : Bool)
    (name : String) : Spec ρ h K (setScanState isLocal name state) fun _ =>
      At ρ h (K \ {scanKey isLocal name}) := by
  refine (spec_plain .timeNow trivial).bind fun now => ?_
  refine spec_perform (fun _ _ => trivial) fun f r hf => ⟨hf.role, hf.hold, ?_⟩
  change (if state.active then _ else f.owes \ {scanKey isLocal name}) ⊆ _
  rw [if_neg (by simp [hstate])]
  exact Set.sdiff_subset_sdiff_left hf.owes

/-- So does the state after a failure, which is final whether or not it was cancelled. -/
theorem spec_setFailedState {ctx : ScanContext} (hctx : ρ.ctx = some ctx) (isLocal : Bool)
    (name : String) : Spec ρ h K (setFailedState ctx isLocal name) fun _ =>
      At ρ h (K \ {scanKey isLocal name}) := by
  refine (spec_ctxErr hctx).bind fun cancelled => ?_
  split_ifs
  · exact spec_finalState rfl isLocal name
  · exact spec_finalState rfl isLocal name

/-- The keys of the local servers, by the first of these. -/
theorem localKeys_cons {srv : LocalServer} {servers : List LocalServer} {k : String} :
    k ∈ localKeys (srv :: servers) ↔
      (srv.maintenance = false ∧ k = scanKey true srv.name) ∨ k ∈ localKeys servers :=
  localMark_cons

/-- The keys of the remote servers, by the first of these. -/
theorem remoteKeys_cons {remote : RemoteServer} {remotes : List RemoteServer} {k : String} :
    k ∈ remoteKeys (remote :: remotes) ↔
      (remote.maintenance = false ∧ k = scanKey false remote.name) ∨ k ∈ remoteKeys remotes := by
  simp only [remoteKeys, Set.mem_ofPred_eq, List.exists_mem_cons_iff]

/-- A server in its final state is one less for the rest of the loop. -/
theorem diff_subset_of_cons {active : Prop} {x : String} {S T K K' : Set String}
    (hcons : ∀ {k}, k ∈ T ↔ (active ∧ k = x) ∨ k ∈ S) (hK : K ⊆ T ∪ K') : K \ {x} ⊆ S ∪ K' := by
  rintro k ⟨hk, hne⟩
  rcases hK hk with hk | hk
  · rcases hcons.mp hk with ⟨-, heq⟩ | hk
    · exact absurd heq hne
    · exact Or.inl hk
  · exact Or.inr hk

/-- A server in maintenance has no key for the rest of the loop. -/
theorem subset_of_cons {active : Prop} {x : String} {S T K K' : Set String}
    (hcons : ∀ {k}, k ∈ T ↔ (active ∧ k = x) ∨ k ∈ S) (hactive : ¬ active) (hK : K ⊆ T ∪ K') :
    K ⊆ S ∪ K' := by
  intro k hk
  rcases hK hk with hk | hk
  · exact Or.inl ((hcons.mp hk).resolve_left fun h => hactive h.1)
  · exact Or.inr hk

/-- Active states make the thread owe the local servers out of maintenance. -/
theorem spec_setLocalStates {state : ScanPhase} (hstate : state.active = true)
    (servers : List LocalServer) : Spec ρ h K (setLocalStates state servers) fun _ =>
      At ρ h (K ∪ localKeys servers) := by
  induction servers generalizing K with
  | nil => exact spec_pure fun f hf => hf.mono Set.subset_union_left
  | cons srv servers ih =>
      rw [setLocalStates]
      refine Spec.ite (fun _ => ?_) fun hactive => ?_
      · refine ih.post (Set.union_subset_union_right K fun k hk => ?_)
        exact localKeys_cons.mpr (Or.inr hk)
      · refine (spec_markState hstate true srv.name).bind fun _ => ih.post ?_
        rintro k ((rfl | hk) | hk)
        · exact Or.inr (localKeys_cons.mpr (Or.inl ⟨by simpa using hactive, rfl⟩))
        · exact Or.inl hk
        · exact Or.inr (localKeys_cons.mpr (Or.inr hk))

/-- They make it owe the remote servers out of maintenance. -/
theorem spec_setRemoteStates {state : ScanPhase} (hstate : state.active = true)
    (remotes : List RemoteServer) : Spec ρ h K (setRemoteStates state remotes) fun _ =>
      At ρ h (K ∪ remoteKeys remotes) := by
  induction remotes generalizing K with
  | nil => exact spec_pure fun f hf => hf.mono Set.subset_union_left
  | cons remote remotes ih =>
      have hskip : Spec ρ h K (setRemoteStates state remotes) fun _ =>
          At ρ h (K ∪ remoteKeys (remote :: remotes)) := by
        refine ih.post (Set.union_subset_union_right K fun k hk => ?_)
        exact remoteKeys_cons.mpr (Or.inr hk)
      rw [setRemoteStates]
      refine Spec.ite (fun _ => hskip) fun hactive => ?_
      refine (spec_plain (.getServerInfoStatus remote.name) trivial).bind fun status => ?_
      refine Spec.ite (fun _ => hskip) fun _ => ?_
      refine (spec_markState hstate false remote.name).bind fun _ => ih.post ?_
      rintro k ((rfl | hk) | hk)
      · exact Or.inr (remoteKeys_cons.mpr (Or.inl ⟨by simpa using hactive, rfl⟩))
      · exact Or.inl hk
      · exact Or.inr (remoteKeys_cons.mpr (Or.inr hk))

/-- The keys that a scan of all servers marks. -/
def scanKeysOf (cfg : Config) : Set String :=
  localKeys cfg.localServers ∪ remoteKeys cfg.remoteServers

/-- A scan of all servers owes all keys that it marks. -/
theorem spec_setAllScanStates (cfg : Config) :
    Spec ρ h K (setAllScanStates cfg .pending) fun _ => At ρ h (K ∪ scanKeysOf cfg) := by
  rw [setAllScanStates, if_neg (by simp), scanKeysOf, ← Set.union_assoc]
  exact (spec_setLocalStates rfl cfg.localServers).bind fun _ =>
    spec_setRemoteStates rfl cfg.remoteServers

/-! ### Local servers -/

section

variable {p : Process} {lower : Lowering} {ctx : ScanContext}

/-- An automatic update owes its local server at most. -/
theorem spec_autoUpdateLocal (hctx : ρ.ctx = some ctx) (cfg : Config) (srv : LocalServer)
    (result : ScanResult) : Spec ρ h K (autoUpdateLocal p ctx cfg srv result) fun _ =>
      At ρ h (insert (scanKey true srv.name) K) := by
  have hsame : K ⊆ insert (scanKey true srv.name) K := Set.subset_insert _ _
  rw [autoUpdateLocal]
  refine Spec.ite (fun _ => spec_pure fun f hf => hf.mono hsame) fun _ => ?_
  split
  · exact spec_pure fun f hf => hf.mono hsame
  · refine (spec_markState rfl true srv.name).bind fun _ => spec_of_quiet ?_
    refine (ops_autoUpdateLoop ..).mono fun o ho => ?_
    rcases ho with hplain | rfl | ⟨containerID, cfg, rfl⟩
    · exact hplain.quiet ρ
    · exact quiet_ctxErr hctx
    · exact ⟨fun _ _ => trivial, fun _ _ => ⟨rfl, rfl, subset_rfl⟩⟩

/-- Whatever comes of the scan of a local server, the server has a final state. -/
theorem spec_scanLocal (hctx : ρ.ctx = some ctx) (cfg : Config) (srv : LocalServer) :
    Spec ρ h K (scanLocal p ctx cfg srv) fun _ => At ρ h (K \ {scanKey true srv.name}) := by
  have hmarked : insert (scanKey true srv.name) K \ {scanKey true srv.name} ⊆
      K \ {scanKey true srv.name} := by simp
  refine (spec_markState rfl true srv.name).bind fun _ => ?_
  refine (spec_of_plain (plain_scanLocalServer cfg srv)).bind fun result => ?_
  rcases result with err | result
  · refine ((spec_setFailedState hctx true srv.name).post hmarked).bind fun _ => ?_
    exact (spec_plain .timeNow trivial).bind fun now => spec_pure fun f hf => hf
  dsimp only
  have hfinal : ∀ {state : ScanPhase} (result : ScanResult), state.active = false →
      Spec ρ h (insert (scanKey true srv.name) K) (do
        setScanState true srv.name state
        pure result) fun _ => At ρ h (K \ {scanKey true srv.name}) := by
    intro state result hstate
    exact ((spec_finalState hstate true srv.name).post hmarked).bind fun _ =>
      spec_pure fun f hf => hf
  refine Spec.ite (fun _ => hfinal result rfl) fun _ => ?_
  refine Spec.ite (fun _ => hfinal result rfl) fun _ => ?_
  refine (spec_autoUpdateLocal hctx cfg srv result).bind fun updated => ?_
  rw [Set.insert_eq_of_mem (Set.mem_insert _ _)]
  obtain ⟨result, updatedCount, err⟩ := updated
  cases err with
  | some err =>
      refine ((spec_setFailedState hctx true srv.name).post hmarked).bind fun _ => ?_
      exact (spec_plain .timeNow trivial).bind fun now => spec_pure fun f hf => hf
  | none => exact hfinal result rfl

/-- A cancelled scan pays for the local servers that are left. -/
theorem spec_cancelLocals (servers : List LocalServer) (results : List ScanResult)
    (hK : K ⊆ localKeys servers ∪ K') :
    Spec ρ h K (cancelLocals servers results) fun _ => At ρ h K' := by
  induction servers generalizing K results with
  | nil =>
      refine spec_pure fun f hf => hf.mono fun k hk => ?_
      rcases hK hk with ⟨srv, hsrv, -⟩ | hk
      · exact absurd hsrv List.not_mem_nil
      · exact hk
  | cons srv servers ih =>
      rw [cancelLocals]
      refine (spec_finalState rfl true srv.name).bind fun _ => ?_
      refine (spec_plain .timeNow trivial).bind fun now => ih _ ?_
      exact diff_subset_of_cons localKeys_cons hK

/-- The loop of `runScan` brings every server it is for to a final state. -/
theorem spec_scanLocals (hctx : ρ.ctx = some ctx) (cfg : Config) (servers : List LocalServer)
    (results : List ScanResult) (hK : K ⊆ localKeys servers ∪ K') :
    Spec ρ h K (scanLocals p ctx cfg servers results) fun _ => At ρ h K' := by
  induction servers generalizing K results with
  | nil => exact spec_cancelLocals [] results hK
  | cons srv servers ih =>
      rw [scanLocals]
      refine (spec_ctxErr hctx).bind fun cancelled => ?_
      refine Spec.ite (fun _ => spec_cancelLocals _ results hK) fun _ => ?_
      refine Spec.ite (fun hmaintenance => ?_) fun _ => ?_
      · refine (spec_plain (.findLocalScan srv.name) trivial).bind fun previous => ih _ ?_
        exact subset_of_cons localKeys_cons (ne_false_of_eq_true hmaintenance) hK
      · refine (spec_scanLocal hctx cfg srv).bind fun result => ih _ ?_
        exact diff_subset_of_cons localKeys_cons hK

/-- The section that refuses a scan, or sets `scanRunning`. -/
theorem obeys_beginScan (hscans : ρ.Scans) {f : ThreadPhase} (hf : At ρ .none K f) :
    Obeys scanProtocol (fun begun g => (begun = true → At ρ .scan K g) ∧
      (begun = false → At ρ .none ∅ g)) f beginScan := by
  have hallowed : scanProtocol.Allowed f .beginScan := ⟨hf.role ▸ hscans, hf.hold⟩
  refine obeys_call hallowed fun begun => ?_
  cases begun with
  | true => exact ⟨fun _ => ⟨hf.role, rfl, hf.owes⟩, fun h => absurd h (by simp)⟩
  | false => exact ⟨fun h => absurd h (by simp), fun _ => ⟨hf.role, hf.hold, subset_rfl⟩⟩

/-- At its end a scan gives the flag back. -/
theorem spec_endScan : Spec ρ .scan K (perform .endScan) fun _ => At ρ .none K :=
  spec_perform (fun _ hf => hf.hold) fun _ _ hf => ⟨hf.role, rfl, hf.owes⟩

/-- A scan of all local servers leaves only servers owed that are not local, and nothing if it
is refused. -/
theorem spec_runScan (hscans : ρ.Scans) (hctx : ρ.ctx = some ctx) :
    Spec ρ .none K (runScan p ctx) fun result f =>
      (result ≠ none → At ρ .none {k | k ∈ K ∧ ¬ LocalKey k} f) ∧
      (result = none → At ρ .none ∅ f) := by
  intro f hf
  rw [runScan]
  refine (obeys_beginScan hscans hf).bind fun begun g hg => Obeys.ite (fun h => ?_) fun h => ?_
  · have hget : Spec ρ .scan K storeGet fun cfg =>
        At ρ .scan (localKeys cfg.localServers ∪ {k | k ∈ K ∧ ¬ LocalKey k}) := by
      refine spec_perform (fun _ _ => trivial) fun f cfg hf => ?_
      rw [ThreadPhase.next, if_pos hf.hold]
      refine ⟨hf.role, hf.hold, ?_⟩
      rintro k ⟨hk, hlocal⟩
      by_cases hkey : LocalKey k
      · exact Or.inl (hlocal hkey)
      · exact Or.inr ⟨hf.owes hk, hkey⟩
    refine (hget g (hg.1 h)).bind fun cfg g hg => ?_
    refine (spec_scanLocals hctx cfg cfg.localServers [] subset_rfl g hg).bind ?_
    intro results g hg
    have hset : (ServerOp.setLastScans results).Quiet ρ :=
      ⟨fun _ _ => trivial, fun _ _ => ⟨rfl, rfl, subset_rfl⟩⟩
    refine (spec_of_quiet (ops_perform hset) g hg).bind fun _ g hg => ?_
    refine (spec_endScan g hg).bind fun _ g hg => ?_
    exact obeys_pure ⟨fun _ => hg, fun h => absurd h (by simp)⟩
  · refine obeys_pure ⟨fun h => absurd rfl h, fun _ => hg.2 (by simpa using h)⟩

/-! ### Remote servers -/

/-- An automatic update owes its remote server at most. -/
theorem spec_autoUpdateRemote (hctx : ρ.ctx = some ctx) (cfg : Config) (remote : RemoteServer)
    (result : ScanResult) : Spec ρ h K (autoUpdateRemote lower ctx cfg remote result) fun _ =>
      At ρ h (insert (scanKey false remote.name) K) := by
  have hsame : K ⊆ insert (scanKey false remote.name) K := Set.subset_insert _ _
  rw [autoUpdateRemote]
  refine Spec.ite (fun _ => spec_pure fun f hf => hf.mono hsame) fun _ => ?_
  refine (spec_markState rfl false remote.name).bind fun _ => spec_of_quiet ?_
  refine (ops_autoUpdateRemoteLoop ..).mono fun o ho => ?_
  rcases ho with hplain | rfl
  · exact hplain.quiet ρ
  · exact quiet_ctxErr hctx

/-- A result that is stored leaves the thread where it is. -/
theorem spec_updateLastScans (result : ScanResult) :
    Spec ρ h K (perform (.updateLastScans result)) fun _ => At ρ h K := by
  refine spec_of_quiet (ops_perform ⟨fun _ _ => trivial, fun _ _ => ?_⟩)
  exact ⟨rfl, rfl, subset_rfl⟩

/-- Whatever comes of the scan of a remote server, the server has a final state. -/
theorem spec_scanRemote (hctx : ρ.ctx = some ctx) (remote : RemoteServer) :
    Spec ρ h K (scanRemote lower ctx remote) fun _ => At ρ h (K \ {scanKey false remote.name}) := by
  have hmarked : insert (scanKey false remote.name) K \ {scanKey false remote.name} ⊆
      K \ {scanKey false remote.name} := by simp
  refine (spec_plain .storeGet trivial).bind fun cfg => ?_
  refine (spec_plain (.syncRemotePolicy cfg remote) trivial).bind fun _ => ?_
  refine (spec_markState rfl false remote.name).bind fun _ => ?_
  refine (spec_of_plain (plain_scanRemoteServer remote)).bind fun result => ?_
  rcases result with err | result
  · refine ((spec_setFailedState hctx false remote.name).post hmarked).bind fun _ => ?_
    exact (spec_plain .timeNow trivial).bind fun now => spec_updateLastScans _
  refine (spec_autoUpdateRemote hctx cfg remote result).bind fun updated => ?_
  rw [Set.insert_eq_of_mem (Set.mem_insert _ _)]
  obtain ⟨result, updatedCount, err⟩ := updated
  cases err with
  | some err =>
      exact ((spec_setFailedState hctx false remote.name).post hmarked).bind fun _ =>
        spec_updateLastScans _
  | none =>
      exact ((spec_finalState rfl false remote.name).post hmarked).bind fun _ =>
        spec_updateLastScans _

/-- A cancelled scan pays for the remote servers that are left. -/
theorem spec_cancelRemotes (remotes : List RemoteServer) (hK : K ⊆ remoteKeys remotes ∪ K') :
    Spec ρ h K (cancelRemotes remotes) fun _ => At ρ h K' := by
  induction remotes generalizing K with
  | nil =>
      refine spec_pure fun f hf => hf.mono fun k hk => ?_
      rcases hK hk with ⟨remote, hremote, -⟩ | hk
      · exact absurd hremote List.not_mem_nil
      · exact hk
  | cons remote remotes ih =>
      refine (spec_finalState rfl false remote.name).bind fun _ => ih ?_
      exact diff_subset_of_cons remoteKeys_cons hK

/-- The loop of `triggerRemoteScans` brings every server it is for to a final state. -/
theorem spec_scanRemotes (hctx : ρ.ctx = some ctx) (remotes : List RemoteServer)
    (hK : K ⊆ remoteKeys remotes ∪ K') :
    Spec ρ h K (scanRemotes lower ctx remotes) fun _ => At ρ h K' := by
  induction remotes generalizing K with
  | nil => exact spec_cancelRemotes [] hK
  | cons remote remotes ih =>
      have hdone : K \ {scanKey false remote.name} ⊆ remoteKeys remotes ∪ K' :=
        diff_subset_of_cons remoteKeys_cons hK
      rw [scanRemotes]
      refine (spec_ctxErr hctx).bind fun cancelled => ?_
      refine Spec.ite (fun _ => spec_cancelRemotes _ hK) fun _ => ?_
      refine Spec.ite (fun hmaintenance => ih ?_) fun _ => ?_
      · exact subset_of_cons remoteKeys_cons (ne_false_of_eq_true hmaintenance) hK
      refine (spec_plain (.getServerInfoStatus remote.name) trivial).bind fun status => ?_
      refine Spec.ite (fun _ => ?_) fun _ => ?_
      · exact (spec_finalState rfl false remote.name).bind fun _ => ih hdone
      · exact (spec_scanRemote hctx remote).bind fun _ => ih hdone

/-- A scan of remote servers takes one of `remoteScanRunning`. -/
theorem spec_beginRemote (hscans : ρ.Scans) :
    Spec ρ .none K (perform (.addRemoteScanRunning 1)) fun _ => At ρ .remote K :=
  spec_perform (fun _ hf => Or.inl ⟨rfl, hf.role ▸ hscans, hf.hold⟩)
    fun _ _ hf => ⟨hf.role, rfl, hf.owes⟩

/-- It gives this back. -/
theorem spec_endRemote :
    Spec ρ .remote K (perform (.addRemoteScanRunning (-1))) fun _ => At ρ .none K :=
  spec_perform (fun _ hf => Or.inr ⟨rfl, hf.hold⟩) fun _ _ hf => ⟨hf.role, rfl, hf.owes⟩

/-- The scan of the remote servers pays for all of them. -/
theorem spec_triggerRemoteScans (hscans : ρ.Scans) (hctx : ρ.ctx = some ctx)
    (remotes : List RemoteServer) (hK : K ⊆ remoteKeys remotes) :
    Spec ρ .none K (triggerRemoteScans lower ctx remotes) fun _ => At ρ .none ∅ := by
  have hloop : Spec ρ .remote K (scanRemotes lower ctx remotes) fun _ => At ρ .remote ∅ :=
    spec_scanRemotes hctx remotes (hK.trans Set.subset_union_left)
  exact (spec_beginRemote hscans).bind fun _ => hloop.bind fun _ => spec_endRemote

/-! ### Requests to scan -/

/-- Whatever comes of the scan, the server has a final state. -/
theorem spec_handleScanLocalRunning (hctx : ρ.ctx = some ctx) (cfg : Config)
    (srv : LocalServer) : Spec ρ h K (handleScanLocalRunning p cfg ctx srv) fun _ =>
      At ρ h (K \ {scanKey true srv.name}) := by
  have hupdating : insert (scanKey true srv.name) K \ {scanKey true srv.name} ⊆
      K \ {scanKey true srv.name} := by simp
  have hfinal : ∀ {state : ScanPhase} {L : Set String} (result : ScanResult),
      state.active = false → L \ {scanKey true srv.name} ⊆ K \ {scanKey true srv.name} →
      Spec ρ h L (do
        setScanState true srv.name state
        perform (.updateLastScans result)
        pure (Response.scan result)) fun _ => At ρ h (K \ {scanKey true srv.name}) := by
    intro state L result hstate hL
    refine ((spec_finalState hstate true srv.name).post hL).bind fun _ => ?_
    exact (spec_updateLastScans result).bind fun _ => spec_pure fun f hf => hf
  rw [handleScanLocalRunning]
  refine (spec_of_plain (plain_scanLocalServer cfg srv)).bind fun scanned => ?_
  rcases scanned with err | result
  · refine (spec_ctxErr hctx).bind fun cancelled => ?_
    refine Spec.ite (fun _ => hfinal _ rfl subset_rfl) fun _ => ?_
    exact (spec_finalState rfl true srv.name).bind fun _ => spec_pure fun f hf => hf
  dsimp only
  refine Spec.ite (fun _ => hfinal result rfl subset_rfl) fun _ => ?_
  refine Spec.ite (fun _ => hfinal result rfl subset_rfl) fun _ => ?_
  refine (spec_autoUpdateLocal hctx cfg srv result).bind fun updated => ?_
  obtain ⟨result, updatedCount, err⟩ := updated
  cases err with
  | some err =>
      refine ((spec_setFailedState hctx true srv.name).post hupdating).bind fun _ => ?_
      exact spec_pure fun f hf => hf
  | none => exact hfinal result rfl hupdating

/-- The scan of one local server ends with nothing owed. -/
theorem spec_handleScanLocal (hscans : ρ.Scans) (hctx : ρ.ctx = some ctx) (cfg : Config)
    (name : String) :
    Spec ρ .none ∅ (handleScanLocal p cfg ctx name) fun _ => At ρ .none ∅ := by
  rw [handleScanLocal]
  split
  · exact spec_pure fun f hf => hf
  rename_i srv hfind
  refine Spec.ite (fun _ => spec_pure fun f hf => hf) fun _ => ?_
  refine (spec_markState rfl true srv.name).bind fun _ f hf => ?_
  refine (obeys_beginScan hscans hf).bind fun begun g hg => Obeys.ite (fun h => ?_) fun h => ?_
  · have hend : insert (scanKey true srv.name) (∅ : Set String) \ {scanKey true srv.name} ⊆ ∅ := by
      simp
    refine ((spec_handleScanLocalRunning hctx cfg srv).post hend g (hg.1 h)).bind ?_
    intro response g hg
    exact (spec_endScan g hg).bind fun _ g hg => obeys_pure hg
  · exact obeys_pure (hg.2 (by simpa using h))

/-- Whatever comes of the scan, the server has a final state. -/
theorem spec_handleScanRemoteFound (hscans : ρ.Scans) (hctx : ρ.ctx = some ctx) (cfg : Config)
    (remote : RemoteServer) :
    Spec ρ .none ∅ (handleScanRemoteFound p cfg ctx remote) fun _ => At ρ .none ∅ := by
  have hmarked : insert (scanKey false remote.name) (∅ : Set String) \
      {scanKey false remote.name} ⊆ ∅ := by simp
  have hupdating : insert (scanKey false remote.name) (insert (scanKey false remote.name)
      (∅ : Set String)) \ {scanKey false remote.name} ⊆ ∅ := by simp
  rw [handleScanRemoteFound]
  refine (spec_plain (.syncRemotePolicy cfg remote) trivial).bind fun _ => ?_
  refine (spec_markState rfl false remote.name).bind fun _ => ?_
  refine (spec_beginRemote hscans).bind fun _ => ?_
  refine (spec_of_plain (plain_scanRemoteServer remote)).bind fun scanned => ?_
  refine spec_endRemote.bind fun _ => ?_
  rcases scanned with err | result
  · refine (spec_ctxErr hctx).bind fun cancelled => ?_
    refine Spec.ite (fun _ => ?_) fun _ => ?_
    · refine ((spec_finalState rfl false remote.name).post hmarked).bind fun _ => ?_
      refine (spec_plain .timeNow trivial).bind fun now => ?_
      exact (spec_updateLastScans _).bind fun _ => spec_pure fun f hf => hf
    · refine ((spec_finalState rfl false remote.name).post hmarked).bind fun _ => ?_
      exact spec_pure fun f hf => hf
  refine (spec_autoUpdateRemote hctx cfg remote result).bind fun updated => ?_
  obtain ⟨result, updatedCount, err⟩ := updated
  cases err with
  | some err =>
      refine ((spec_setFailedState hctx false remote.name).post hupdating).bind fun _ => ?_
      exact spec_pure fun f hf => hf
  | none =>
      refine ((spec_finalState rfl false remote.name).post hupdating).bind fun _ => ?_
      exact (spec_updateLastScans result).bind fun _ => spec_pure fun f hf => hf

/-- So does that of one remote server. -/
theorem spec_handleScanRemote (hscans : ρ.Scans) (hctx : ρ.ctx = some ctx) (cfg : Config)
    (name : String) :
    Spec ρ .none ∅ (handleScanRemote p cfg ctx name) fun _ => At ρ .none ∅ := by
  rw [handleScanRemote]
  split
  · exact spec_pure fun f hf => hf
  · refine Spec.ite (fun _ => spec_pure fun f hf => hf) fun _ => ?_
    exact spec_handleScanRemoteFound hscans hctx cfg _

/-- What the switch over the scope leaves to do: a request that is to clean up still has its
cancel function installed, another one has handed it to a goroutine. -/
def ScopeDone (ctx : ScanContext) (answer : Response × Bool) (f : ThreadPhase) : Prop :=
  At (if answer.2 then .installed ctx else .over) .none ∅ f

/-- The keys that are left after a scan of the local servers are those of remote ones. -/
theorem scanKeysOf_not_local (cfg : Config) :
    {k | k ∈ scanKeysOf cfg ∧ ¬ LocalKey k} ⊆ remoteKeys cfg.remoteServers := by
  rintro k ⟨⟨srv, -, -, rfl⟩ | hk, hlocal⟩
  · exact absurd ⟨srv.name, rfl⟩ hlocal
  · exact hk

/-- The scan of all servers leaves what is owed to a goroutine, or nothing. -/
theorem spec_handleScanAll (cfg : Config) :
    Spec (.installed ctx) .none ∅ (handleScanAll p cfg ctx) (ScopeDone ctx) := by
  have hstates : Spec (.installed ctx) .none ∅ (setAllScanStates cfg .pending) fun _ =>
      At (.installed ctx) .none (scanKeysOf cfg) :=
    (spec_setAllScanStates cfg).post (Set.empty_union _).subset
  refine hstates.bind fun _ f hf => ?_
  refine (spec_runScan (scans_installed ctx) rfl f hf).bind fun result g hg => ?_
  cases result with
  | none => exact obeys_pure (hg.2 rfl)
  | some result =>
      have hleft := (hg.1 (by simp)).mono (scanKeysOf_not_local cfg)
      have hgo : Spec (.installed ctx) .none (remoteKeys cfg.remoteServers)
          (perform (.goRemoteScans ctx cfg.remoteServers)) fun _ => At .over .none ∅ := by
        refine spec_perform (fun f hf => ⟨hf.role, hf.hold⟩) fun f _ hf => ⟨rfl, hf.hold, ?_⟩
        rintro k ⟨hk, hnot⟩
        exact absurd (hf.owes hk) hnot
      exact (hgo g hleft).bind fun _ g hg => obeys_pure hg

/-- So does every scope. -/
theorem spec_handleScanScope (cfg : Config) (scope : String) :
    Spec (.installed ctx) .none ∅ (handleScanScope p cfg ctx scope) (ScopeDone ctx) := by
  rw [handleScanScope]
  refine Spec.ite (fun _ => spec_handleScanAll cfg) fun _ => ?_
  refine Spec.ite (fun _ => ?_) fun _ => Spec.ite (fun _ => ?_) fun _ => ?_
  · refine (spec_handleScanLocal (scans_installed ctx) rfl cfg _).bind fun _ => ?_
    exact spec_pure fun f hf => hf
  · refine (spec_handleScanRemote (scans_installed ctx) rfl cfg _).bind fun _ => ?_
    exact spec_pure fun f hf => hf
  · exact spec_pure fun f hf => hf

/-- The role of a request that has come to its end. -/
def Role.Final : Role → Prop
  | .over | .scheduled _ | .other => True
  | _ => False

/-- A thread that is done: it holds nothing and owes nothing. -/
structure Finished (f : ThreadPhase) : Prop where
  role : f.role.Final
  hold : f.hold = .none
  owes : f.owes ⊆ ∅

/-- A thread that owes and holds nothing, in a final role, is done. -/
theorem At.finished {f : ThreadPhase} (hf : At ρ .none ∅ f) (hρ : ρ.Final) : Finished f :=
  ⟨hf.role ▸ hρ, hf.hold, hf.owes⟩

/-- A request that removes its cancel function is over. -/
theorem spec_removeScanCancel : Spec (.installed ctx) .none K (perform (.setScanCancel none))
    fun _ => At .over .none K :=
  spec_perform (fun _ hf => ⟨⟨ctx, hf.role⟩, hf.hold⟩) fun _ _ hf => ⟨rfl, hf.hold, hf.owes⟩

/-- A cancelled context leaves the thread where it is. -/
theorem spec_cancel (ctx : ScanContext) :
    Spec ρ h K (perform (.cancel ctx)) fun _ => At ρ h K :=
  spec_of_quiet (ops_perform ⟨fun _ _ => trivial, fun _ _ => ⟨rfl, rfl, subset_rfl⟩⟩)

/-- **A request to scan ends with nothing owed and nothing held.** -/
theorem spec_handleScan (server : String) :
    Spec .starting .none ∅ (handleScan p server) fun _ => Finished := by
  have hreset : ∀ cfg, (ServerOp.resetScanStates cfg).Quiet .starting :=
    fun cfg => ⟨fun _ _ => trivial, fun _ _ => ⟨rfl, rfl, subset_rfl⟩⟩
  rw [handleScan]
  refine (spec_plain .storeGet trivial).bind fun cfg => ?_
  refine (spec_of_quiet (ops_perform (hreset cfg))).bind fun _ f hf => ?_
  refine (obeys_call (Q := fun ctx g => At (.created ctx) .none ∅ g)
    hf.role fun ctx => ⟨rfl, hf.hold, hf.owes⟩).bind fun ctx g hg => ?_
  have hinstall : Spec (.created ctx) .none ∅ (perform (.setScanCancel (some ctx))) fun _ =>
      At (.installed ctx) .none ∅ :=
    spec_perform (fun _ hf => hf.role) fun _ _ hf => ⟨rfl, hf.hold, hf.owes⟩
  refine (hinstall g hg).bind fun _ g hg => ?_
  refine (spec_handleScanScope cfg _ g hg).bind ?_
  rintro ⟨response, cleanup⟩ g hg
  cases cleanup with
  | true =>
      refine (spec_cancel ctx g hg).bind fun _ g hg => ?_
      exact (spec_removeScanCancel g hg).bind fun _ g hg => obeys_pure (hg.finished trivial)
  | false => exact obeys_pure (At.finished hg trivial)

/-! ### The other threads -/

/-- So does the goroutine that it leaves behind. -/
theorem spec_remoteScans (remotes : List RemoteServer) :
    Spec (.installed ctx) .none (remoteKeys remotes) (remoteScans p ctx remotes) fun _ =>
      Finished := by
  refine (spec_triggerRemoteScans (scans_installed ctx) rfl remotes subset_rfl).bind fun _ => ?_
  refine spec_removeScanCancel.bind fun _ => (spec_cancel ctx).bind fun _ => ?_
  exact spec_pure fun f hf => hf.finished trivial

/-- So does a scheduled scan. -/
theorem spec_runScheduledScan (n : ℕ) :
    Spec (.scheduled n) .none ∅ (runScheduledScan p (.scheduler n)) fun _ => Finished := by
  have hstates : ∀ cfg, Spec (.scheduled n) .none ∅ (setAllScanStates cfg .pending) fun _ =>
      At (.scheduled n) .none (scanKeysOf cfg) :=
    fun cfg => (spec_setAllScanStates cfg).post (Set.empty_union _).subset
  refine (spec_plain .storeGet trivial).bind fun cfg => (hstates cfg).bind fun _ f hf => ?_
  refine (spec_runScan (scans_scheduled n) rfl f hf).bind fun result g hg => ?_
  have hleft : At (.scheduled n) .none (remoteKeys cfg.remoteServers) g := by
    cases result with
    | none => exact (hg.2 rfl).mono (Set.empty_subset _)
    | some result => exact (hg.1 (by simp)).mono (scanKeysOf_not_local cfg)
  refine Obeys.ite (fun hempty => ?_) fun _ => ?_
  · rw [List.isEmpty_iff.mp hempty] at hleft
    refine obeys_pure ((hleft.mono ?_).finished trivial)
    rintro k ⟨remote, hremote, -⟩
    exact absurd hremote List.not_mem_nil
  · refine (spec_triggerRemoteScans (scans_scheduled n) rfl _ subset_rfl g hleft).bind ?_
    intro _ g hg
    exact obeys_pure (hg.finished trivial)

/-- So does a request to stop. -/
theorem spec_handleScanStop : Spec .other .none ∅ handleScanStop fun _ => Finished := by
  have hactive : Spec .other .none ∅ (perform .scanActive) fun _ => At .other .none ∅ :=
    spec_perform (fun _ hf => hf.role) fun _ _ hf => hf
  have hstates : ∀ now, (ServerOp.cancelActiveScanStates now).Quiet .other :=
    fun now => ⟨fun _ _ => trivial, fun _ _ => ⟨rfl, rfl, subset_rfl⟩⟩
  rw [handleScanStop]
  refine hactive.bind fun active => ?_
  split
  · refine (spec_cancel _).bind fun _ => (spec_plain .timeNow trivial).bind fun now => ?_
    refine (spec_of_quiet (ops_perform (hstates now))).bind fun _ => ?_
    exact spec_pure fun f hf => hf.finished trivial
  · exact spec_pure fun f hf => hf.finished trivial

/-- So does a request to update a container. -/
theorem spec_handleUpdateContainer (containerID : String) (q : UpdateQuery) :
    Spec .other .none ∅ (handleUpdateContainer p containerID q) fun _ => Finished := by
  have hops : Spec .other .none ∅ (handleUpdateContainer p containerID q) fun _ =>
      At .other .none ∅ := by
    refine spec_of_quiet ((ops_handleUpdateContainer containerID q).mono fun o ho => ?_)
    rcases ho with hplain | ⟨host, cfg, rfl, -⟩
    · exact hplain.quiet .other
    · exact ⟨fun _ _ => trivial, fun _ _ => ⟨rfl, rfl, subset_rfl⟩⟩
  exact fun f hf => (hops f hf).mono fun _ g hg => hg.finished trivial

/-- So does a request to update the agent. -/
theorem spec_handleSelfUpdate (containerID : String) :
    Spec .other .none ∅ (handleSelfUpdate p containerID) fun _ => Finished :=
  fun f hf => (spec_of_plain (plain_handleSelfUpdate containerID) f hf).mono
    fun _ _ hg => hg.finished trivial

end

end

/-! ### All threads -/

/-- The phase in which a request starts. A goroutine owes the remote servers that the request
to scan has marked for it. -/
def Request.phase : Request → ThreadPhase
  | .scan _ => ⟨.starting, .none, ∅⟩
  | .scanStop => ⟨.other, .none, ∅⟩
  | .scheduledScan n => ⟨.scheduled n, .none, ∅⟩
  | .remoteScans ctx remotes => ⟨.installed ctx, .none, remoteKeys remotes⟩
  | .update .. => ⟨.other, .none, ∅⟩
  | .selfUpdate _ => ⟨.other, .none, ∅⟩

/-- **Every request obeys the protocol**, whatever the answers of its operations: it ends with
nothing held and nothing owed. -/
theorem obeys_program (p : Process) (i : Request) :
    Obeys scanProtocol (fun _ => Finished) i.phase (i.program p) := by
  have hstart : ∀ {ρ : Role} {K : Set String}, At ρ .none K ⟨ρ, .none, K⟩ :=
    fun {_ _} => ⟨rfl, rfl, subset_rfl⟩
  cases i with
  | scan server => exact spec_handleScan server _ hstart
  | scanStop => exact spec_handleScanStop _ hstart
  | scheduledScan n => exact spec_runScheduledScan n _ hstart
  | remoteScans ctx remotes => exact spec_remoteScans remotes _ hstart
  | update containerID q => exact spec_handleUpdateContainer containerID q _ hstart
  | selfUpdate containerID => exact spec_handleSelfUpdate containerID _ hstart

end Contiwatch
