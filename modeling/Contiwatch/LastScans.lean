import Contiwatch.Lib.Forall2
import Contiwatch.ScanHandlers

/-!
# The Results that a Scan Keeps

`runScan` collects one result for each local server and replaces the whole list `lastScans` by
them. A local server in maintenance keeps the result it had, unless the scan is cancelled before
it comes to that server; the results of the remote servers, which share the list, are dropped.

## Main results

* `runScan_keeps_results_iff` — a scan keeps what it is to keep, whatever its servers report and
  whenever it is cancelled, exactly if it does not run, or there is no result of a remote server
  and, should it be cancelled, none of a local server in maintenance.
-/

namespace Contiwatch

open GoStrings Prog

/-! ### Runs in which contexts are cancelled -/

/-- The semantics of the operations while others may cancel the contexts in `may` at any
point. -/
def cancellingSem (p : Process) (may : ScanContext → Prop) (o : ServerOp) (s : Server) (r : o.Res)
    (t : Server) : Prop :=
  ∃ cancelled : List ScanContext, (∀ ctx ∈ cancelled, may ctx) ∧
    serverSem p o { s with cancelled := cancelled ++ s.cancelled } r t

section

variable {p : Process} {may : ScanContext → Prop} {ctx : ScanContext} {s t u : Server}

/-- Every operation has an answer. -/
theorem serverSem_total (p : Process) (o : ServerOp) (s : Server) :
    ∃ r t, serverSem p o s r t := by
  cases o with
  | timeNow => exact ⟨s.clock + 1, _, Nat.lt_succ_self _, rfl⟩
  | beginScan =>
      by_cases h : (s.scanRunning || s.updateRunning) = true
      · exact ⟨false, s, (if_pos h).mpr ⟨rfl, rfl⟩⟩
      · exact ⟨true, _, (if_neg h).mpr ⟨rfl, rfl⟩⟩
  | beginUpdate =>
      by_cases h : (s.scanRunning || s.updateRunning) = true
      · exact ⟨false, s, (if_pos h).mpr ⟨rfl, rfl⟩⟩
      · exact ⟨true, _, (if_neg h).mpr ⟨rfl, rfl⟩⟩
  | scanNoUpdate host cfg => exact ⟨.error "", s, rfl⟩
  | syncRemotePolicy cfg remote => exact ⟨.error "", s, rfl⟩
  | scanRemoteServer remote => exact ⟨.error "", s, rfl⟩
  | updateRemoteContainer remote containerID prune => exact ⟨.error ⟨"", false⟩, s, rfl⟩
  | updateRemoteSelfUpdate remote containerID => exact ⟨.error ⟨"", false⟩, s, rfl⟩
  | waitForRemoteUpdateConfirmation remote target =>
      exact ⟨.error "", s, rfl, fun _ h => absurd h (by simp)⟩
  | _ => first | exact ⟨_, _, rfl, rfl⟩ | exact ⟨(), _, rfl⟩

/-- Every operation can be answered. -/
theorem cancellingSem_total (o : ServerOp) (s : Server) :
    ∃ r t, cancellingSem p may o s r t := by
  obtain ⟨r, t, hsem⟩ := serverSem_total p o s
  exact ⟨r, t, [], fun _ h => absurd h List.not_mem_nil, hsem⟩

/-- What the loop of a scan leaves alone. -/
structure LoopFrame (may : ScanContext → Prop) (s t : Server) : Prop where
  config : t.config = s.config
  lastScans : t.lastScans = s.lastScans
  cancelled : ∀ ctx ∈ t.cancelled, ctx ∈ s.cancelled ∨ may ctx

/-- Nothing done, nothing changed. -/
theorem LoopFrame.refl (may : ScanContext → Prop) (s : Server) : LoopFrame may s s :=
  ⟨rfl, rfl, fun _ h => Or.inl h⟩

/-- Frames compose. -/
theorem LoopFrame.trans (h₁ : LoopFrame may s t) (h₂ : LoopFrame may t u) : LoopFrame may s u :=
  ⟨h₂.config.trans h₁.config, h₂.lastScans.trans h₁.lastScans,
    fun ctx h => (h₂.cancelled ctx h).elim (h₁.cancelled ctx) Or.inr⟩

/-- The operations of the loop. -/
def ServerOp.OfLoop : ServerOp → Prop
  | .timeNow | .setScanStateKey .. | .ctxErr _ => True
  | .findLocalScan _ | .scanNoUpdate .. | .updateContainer .. => True
  | _ => False

/-- An operation of the loop keeps the frame. -/
theorem loopFrame_of_sem {o : ServerOp} {r : o.Res} (ho : o.OfLoop)
    (h : cancellingSem p may o s r t) : LoopFrame may s t := by
  obtain ⟨cancelled, hmay, hsem⟩ := h
  have hframe : LoopFrame may s { s with cancelled := cancelled ++ s.cancelled } := by
    refine ⟨rfl, rfl, fun ctx hctx => ?_⟩
    exact (List.mem_append.mp hctx).symm.imp id (hmay ctx)
  refine hframe.trans ?_
  cases o with
  | timeNow => exact hsem.2 ▸ ⟨rfl, rfl, fun _ h => Or.inl h⟩
  | setScanStateKey => exact hsem.symm ▸ ⟨rfl, rfl, fun _ h => Or.inl h⟩
  | ctxErr => exact hsem.2 ▸ LoopFrame.refl _ _
  | findLocalScan => exact hsem.2 ▸ LoopFrame.refl _ _
  | scanNoUpdate => exact hsem.symm ▸ LoopFrame.refl _ _
  | updateContainer => exact hsem.2 ▸ ⟨rfl, rfl, fun _ h => Or.inl h⟩
  | _ => exact ho.elim

/-- A program of such operations leaves it alone. -/
theorem loopFrame_of_ops {α : Type} {q : ServerProg α} {a : α} (hq : Ops ServerOp.OfLoop q)
    (h : Exec (cancellingSem p may) q s a t) : LoopFrame may s t :=
  h.invariant hq (LoopFrame.refl may s) fun ho hs hsem => hs.trans (loopFrame_of_sem ho hsem)

/-! ### The scan of one local server -/

/-- Publishing a state is an operation of the loop. -/
theorem ops_setScanState (isLocal : Bool) (name : String) (state : ScanPhase) :
    Ops ServerOp.OfLoop (setScanState isLocal name state) :=
  (ops_call trivial).bind fun _ => ops_call trivial

/-- So is marking a failed server. -/
theorem ops_setFailedState (ctx : ScanContext) (isLocal : Bool) (name : String) :
    Ops ServerOp.OfLoop (setFailedState ctx isLocal name) := by
  refine (ops_call trivial).bind fun cancelled => ?_
  exact Ops.ite (fun _ => ops_setScanState ..) fun _ => ops_setScanState ..

/-- So is the scan of a local server. -/
theorem ops_scanLocalServer (cfg : Config) (srv : LocalServer) :
    Ops ServerOp.OfLoop (scanLocalServer p cfg srv) := by
  rw [scanLocalServer]
  split
  · exact ops_pure _
  · refine (ops_call trivial).bind fun result => ?_
    rcases result with err | result
    · exact ops_pure _
    · exact ops_pure _

/-- So are the updates after it. -/
theorem ops_autoUpdateLoop_ofLoop (cfg : Config) (host : ℕ) (targets : List ContainerStatus)
    (result : ScanResult) (updatedCount : ℕ) :
    Ops ServerOp.OfLoop (autoUpdateLoop ctx cfg host targets result updatedCount) := by
  induction targets generalizing result updatedCount with
  | nil => exact ops_pure _
  | cons target targets ih =>
      rw [autoUpdateLoop]
      refine (ops_call trivial).bind fun cancelled => ?_
      refine Ops.ite (fun _ => ops_pure _) fun _ => ?_
      refine (ops_call trivial).bind fun updateResult => ?_
      rcases updateResult with err | updateResult
      · exact ih _ _
      · exact (ops_call trivial).bind fun now => ih _ _

/-- With their report. -/
theorem ops_autoUpdateLocal (cfg : Config) (srv : LocalServer) (result : ScanResult) :
    Ops ServerOp.OfLoop (autoUpdateLocal p ctx cfg srv result) := by
  rw [autoUpdateLocal]
  refine Ops.ite (fun _ => ops_pure _) fun _ => ?_
  split
  · exact ops_pure _
  · exact (ops_setScanState ..).bind fun _ => ops_autoUpdateLoop_ofLoop ..

/-- The whole turn of one local server is the loop's. -/
theorem ops_scanLocal (cfg : Config) (srv : LocalServer) :
    Ops ServerOp.OfLoop (scanLocal p ctx cfg srv) := by
  refine (ops_setScanState ..).bind fun _ => (ops_scanLocalServer cfg srv).bind fun scanned => ?_
  rcases scanned with err | result
  · refine (ops_setFailedState ..).bind fun _ => ?_
    exact (ops_call trivial).bind fun now => ops_pure _
  dsimp only
  refine Ops.ite (fun _ => (ops_setScanState ..).bind fun _ => ops_pure _) fun _ => ?_
  refine Ops.ite (fun _ => (ops_setScanState ..).bind fun _ => ops_pure _) fun _ => ?_
  refine (ops_autoUpdateLocal cfg srv result).bind fun updated => ?_
  obtain ⟨result, updatedCount, err⟩ := updated
  cases err with
  | some err =>
      refine (ops_setFailedState ..).bind fun _ => ?_
      exact (ops_call trivial).bind fun now => ops_pure _
  | none => exact (ops_setScanState ..).bind fun _ => ops_pure _

/-- A result of the local server. -/
def EntryOf (fold : Char → Char) (srv : LocalServer) (scan : ScanResult) : Prop :=
  scan.isLocal = true ∧ equalFold fold scan.serverName srv.name = true

/-- A result under the server's own name is its entry. -/
theorem entryOf_name {fold : Char → Char} {srv : LocalServer} {scan : ScanResult}
    (hlocal : scan.isLocal = true) (hname : scan.serverName = srv.name) :
    EntryOf fold srv scan :=
  ⟨hlocal, by simp [equalFold, hname]⟩

/-- An update changes the containers in a result only. -/
theorem autoUpdateLoop_results (cfg : Config) (host : ℕ) (targets : List ContainerStatus)
    (result : ScanResult) (updatedCount : ℕ) :
    (autoUpdateLoop ctx cfg host targets result updatedCount).Results fun updated =>
      updated.1.isLocal = result.isLocal ∧ updated.1.serverName = result.serverName := by
  induction targets generalizing result updatedCount with
  | nil => exact results_pure ⟨rfl, rfl⟩
  | cons target targets ih =>
      rw [autoUpdateLoop]
      refine Results.bind _ fun cancelled => ?_
      by_cases hcancelled : cancelled = true
      · rw [if_pos hcancelled]
        exact results_pure ⟨rfl, rfl⟩
      rw [if_neg hcancelled]
      refine Results.bind _ fun updateResult => ?_
      rcases updateResult with err | updateResult
      · exact ih _ _
      · refine Results.bind _ fun now => ?_
        exact ih (updateScanResultContainer result target.id updateResult.updated now) _

/-- The updates keep the name of the result. -/
theorem autoUpdateLocal_results (cfg : Config) (srv : LocalServer) (result : ScanResult) :
    (autoUpdateLocal p ctx cfg srv result).Results fun updated =>
      updated.1.isLocal = result.isLocal ∧ updated.1.serverName = result.serverName := by
  rw [autoUpdateLocal]
  by_cases htargets : (updateTargets result.containers).isEmpty = true
  · rw [if_pos htargets]
    exact results_pure ⟨rfl, rfl⟩
  rw [if_neg htargets]
  split
  · exact results_pure ⟨rfl, rfl⟩
  · exact Results.bind _ fun _ => autoUpdateLoop_results ..

/-- The result of a local scan bears the server's name. -/
theorem scanLocalServer_results (cfg : Config) (srv : LocalServer) :
    (scanLocalServer p cfg srv).Results fun scanned => ∀ result, scanned = .ok result →
      result.isLocal = true ∧ result.serverName = srv.name := by
  rw [scanLocalServer]
  split
  · exact results_pure fun result h => absurd h (by simp)
  · refine Results.bind _ fun scanned => ?_
    rcases scanned with err | result
    · exact results_pure fun result h => absurd h (by simp)
    · refine results_pure fun result' h => ?_
      obtain rfl := Except.ok.inj h
      exact ⟨rfl, rfl⟩

/-- Whatever comes of the scan of a local server, there is a result of it. -/
theorem scanLocal_results (fold : Char → Char) (cfg : Config) (srv : LocalServer) :
    (scanLocal p ctx cfg srv).Results (EntryOf fold srv) := by
  refine Results.bind _ fun _ => (scanLocalServer_results cfg srv).seq fun scanned hscanned => ?_
  rcases scanned with err | result
  · exact Results.bind _ fun _ => Results.bind _ fun now => results_pure (entryOf_name rfl rfl)
  obtain ⟨hlocal, hname⟩ := hscanned result rfl
  dsimp only
  by_cases herror : result.error ≠ ""
  · rw [if_pos herror]
    exact Results.bind _ fun _ => results_pure (entryOf_name hlocal hname)
  rw [if_neg herror]
  by_cases hagent : p.agentMode = true
  · rw [if_pos hagent]
    exact Results.bind _ fun _ => results_pure (entryOf_name hlocal hname)
  rw [if_neg hagent]
  refine (autoUpdateLocal_results cfg srv result).seq ?_
  rintro ⟨updated, updatedCount, err⟩ ⟨hlocal', hname'⟩
  cases err with
  | some err =>
      exact Results.bind _ fun _ => Results.bind _ fun now => results_pure (entryOf_name rfl rfl)
  | none =>
      refine Results.bind _ fun _ => results_pure ?_
      exact entryOf_name (hlocal'.trans hlocal) (hname'.trans hname)

/-! ### The loop over the local servers -/

/-- A server in maintenance has the result that it had before. -/
def KeepsEntry (fold : Char → Char) (scans : List ScanResult) (srv : LocalServer)
    (scan : ScanResult) : Prop :=
  srv.maintenance = true → ∀ previous, findLocalScan fold scans srv.name = some previous →
    scan = previous

/-- What stands for a server in maintenance is a result of it. -/
theorem entryOf_previous {fold : Char → Char} {scans : List ScanResult} {srv : LocalServer}
    {previous : Option ScanResult} (h : previous = findLocalScan fold scans srv.name) :
    EntryOf fold srv (previous.getD (.bare srv.name srv.socket true 0 "")) := by
  cases previous with
  | none => exact entryOf_name rfl rfl
  | some previous =>
      have hfound := List.find?_some h.symm
      rw [Bool.and_eq_true] at hfound
      exact hfound

/-- A cancelled scan has a result for each server it does not come to. -/
theorem exec_cancelLocals {servers : List LocalServer} {results out : List ScanResult}
    (fold : Char → Char)
    (h : Exec (cancellingSem p may) (cancelLocals servers results) s out t) :
    ∃ entries, out = results ++ entries ∧ LoopFrame may s t ∧
      List.Forall₂ (EntryOf fold) servers entries := by
  induction servers generalizing results s with
  | nil =>
      obtain ⟨rfl, rfl⟩ := exec_done.mp h
      exact ⟨[], (List.append_nil _).symm, LoopFrame.refl may t, .nil⟩
  | cons srv servers ih =>
      rw [cancelLocals] at h
      obtain ⟨_, u, hset, h⟩ := exec_bind.mp h
      obtain ⟨now, v, hnow, h⟩ := exec_bind.mp h
      obtain ⟨entries, rfl, hframe, hentries⟩ := ih h
      refine ⟨_ :: entries, by rw [List.append_assoc]; rfl, ?_, .cons ?_ hentries⟩
      · exact (loopFrame_of_ops (ops_setScanState ..) hset).trans
          ((loopFrame_of_sem (o := .timeNow) trivial (exec_perform.mp hnow)).trans hframe)
      · exact entryOf_name rfl rfl

/-- **The loop of a scan** has one result for each server, in order; unless it is cancelled,
each server in maintenance keeps its own. -/
theorem exec_scanLocals {cfg : Config} {servers : List LocalServer}
    {results out : List ScanResult}
    (h : Exec (cancellingSem p may) (scanLocals p ctx cfg servers results) s out t) :
    ∃ entries, out = results ++ entries ∧ LoopFrame may s t ∧
      List.Forall₂ (EntryOf p.fold) servers entries ∧
      (¬ may ctx → ctx ∉ s.cancelled →
        List.Forall₂ (KeepsEntry p.fold s.lastScans) servers entries) := by
  induction servers generalizing results s with
  | nil =>
      obtain ⟨rfl, rfl⟩ := exec_done.mp h
      exact ⟨[], (List.append_nil _).symm, LoopFrame.refl may t, .nil, fun _ _ => .nil⟩
  | cons srv servers ih =>
      rw [scanLocals] at h
      obtain ⟨cancelled, u, hcheck, h⟩ := exec_bind.mp h
      have hframe := loopFrame_of_sem (o := .ctxErr ctx) trivial (exec_perform.mp hcheck)
      obtain ⟨more, hmore, hcancelled, -⟩ := exec_perform.mp hcheck
      by_cases hstop : cancelled = true
      · rw [if_pos hstop] at h
        obtain ⟨entries, rfl, hrest, hentries⟩ := exec_cancelLocals p.fold h
        refine ⟨entries, rfl, hframe.trans hrest, hentries, fun hmay hctx => ?_⟩
        -- the context cannot have been cancelled
        rw [hstop] at hcancelled
        rcases List.mem_append.mp (of_decide_eq_true hcancelled.symm) with hin | hin
        · exact absurd (hmore ctx hin) hmay
        · exact absurd hin hctx
      rw [if_neg hstop] at h
      have hstays : ∀ {v : Server}, LoopFrame may u v → ¬ may ctx → ctx ∉ s.cancelled →
          ctx ∉ v.cancelled ∧ v.lastScans = s.lastScans := by
        intro v hv hmay hctx
        refine ⟨fun hin => ?_, (hframe.trans hv).lastScans⟩
        exact ((hframe.trans hv).cancelled ctx hin).elim hctx hmay
      by_cases hmaintenance : srv.maintenance = true
      · rw [if_pos hmaintenance] at h
        obtain ⟨previous, v, hfind, h⟩ := exec_bind.mp h
        have hv := loopFrame_of_sem (o := .findLocalScan srv.name) trivial
          (exec_perform.mp hfind)
        obtain ⟨_, _, hprevious, -⟩ := exec_perform.mp hfind
        obtain ⟨entries, rfl, hrest, hentries, hkeeps⟩ := ih h
        refine ⟨_ :: entries, by rw [List.append_assoc]; rfl, (hframe.trans hv).trans hrest,
          .cons ?_ hentries, fun hmay hctx => .cons ?_ ?_⟩
        · exact entryOf_previous hprevious
        · intro _ prior hprior
          rw [← (hstays (LoopFrame.refl may u) hmay hctx).2] at hprior
          rw [hprevious]
          exact congrArg (Option.getD · _) hprior
        · obtain ⟨hctx', hlast⟩ := hstays hv hmay hctx
          exact hlast ▸ hkeeps hmay hctx'
      · rw [if_neg hmaintenance] at h
        obtain ⟨result, v, hscan, h⟩ := exec_bind.mp h
        have hv := loopFrame_of_ops (ops_scanLocal cfg srv) hscan
        obtain ⟨entries, rfl, hrest, hentries, hkeeps⟩ := ih h
        refine ⟨result :: entries, by rw [List.append_assoc]; rfl,
          (hframe.trans hv).trans hrest, .cons ?_ hentries, fun hmay hctx => .cons ?_ ?_⟩
        · exact hscan.results (scanLocal_results p.fold cfg srv)
        · exact fun h => absurd h hmaintenance
        · obtain ⟨hctx', hlast⟩ := hstays hv hmay hctx
          exact hlast ▸ hkeeps hmay hctx'

/-! ### Scans of all local servers -/

/-- The results after a scan: one for each local server in the order of the configuration, the
one it had for each server in maintenance, and those of the remote servers as they were. -/
structure KeepsResults (fold : Char → Char) (s t : Server) : Prop where
  locals : List.Forall₂ (EntryOf fold) s.config.localServers (t.lastScans.filter (·.isLocal))
  maintenance : List.Forall₂ (KeepsEntry fold s.lastScans) s.config.localServers
    (t.lastScans.filter (·.isLocal))
  remotes : ∀ scan ∈ s.lastScans, scan.isLocal = false → scan ∈ t.lastScans

/-- A scan that runs leaves exactly the results of its loop. -/
theorem exec_runScan {result : ScanResult}
    (h : Exec (cancellingSem p may) (runScan p ctx) s (some result) t) :
    List.Forall₂ (EntryOf p.fold) s.config.localServers t.lastScans ∧
      (¬ may ctx → ctx ∉ s.cancelled →
        List.Forall₂ (KeepsEntry p.fold s.lastScans) s.config.localServers t.lastScans) := by
  rw [runScan] at h
  obtain ⟨begun, s₁, hbegin, h⟩ := exec_bind.mp h
  cases begun with
  | false =>
      rw [if_neg (by simp)] at h
      exact absurd (exec_done.mp h).1 (by simp)
  | true =>
      rw [if_pos rfl] at h
      have hframe : LoopFrame may s s₁ := by
        obtain ⟨more, hmay, hsem⟩ := exec_perform.mp hbegin
        rw [serverSem.eq_def] at hsem
        dsimp only at hsem
        split_ifs at hsem
        · exact absurd hsem.1 (by simp)
        · obtain ⟨-, rfl⟩ := hsem
          exact ⟨rfl, rfl, fun c hc => (List.mem_append.mp hc).symm.imp id (hmay c)⟩
      obtain ⟨cfg, s₂, hget, h⟩ := exec_bind.mp h
      obtain ⟨more, hmay, rfl, hs₂⟩ := exec_perform.mp hget
      have hframe₂ : LoopFrame may s₁ s₂ := by
        rw [hs₂]
        exact ⟨rfl, rfl, fun c hc => (List.mem_append.mp hc).symm.imp id (hmay c)⟩
      obtain ⟨out, s₃, hloop, h⟩ := exec_bind.mp h
      obtain ⟨entries, rfl, -, hentries, hkeeps⟩ := exec_scanLocals hloop
      obtain ⟨_, s₄, hset, h⟩ := exec_bind.mp h
      obtain ⟨_, -, rfl⟩ := exec_perform.mp hset
      obtain ⟨_, s₅, hend, h⟩ := exec_bind.mp h
      obtain ⟨_, -, rfl⟩ := exec_perform.mp hend
      obtain ⟨-, rfl⟩ := exec_done.mp h
      have hall := hframe.trans hframe₂
      refine ⟨hframe.config ▸ hentries, fun hctx hnot => ?_⟩
      have hkept := hkeeps hctx fun hin => (hall.cancelled ctx hin).elim hnot hctx
      rw [hall.lastScans] at hkept
      exact hframe.config ▸ hkept

/-- All entries of local servers are local. -/
theorem filter_entries {fold : Char → Char} {servers : List LocalServer}
    {entries : List ScanResult} (h : List.Forall₂ (EntryOf fold) servers entries) :
    entries.filter (·.isLocal) = entries := by
  induction h with
  | nil => rfl
  | cons hentry _ ih => rw [List.filter_cons_of_pos hentry.1, ih]

/-- A cancelled scan may write its results as late as one likes. -/
theorem exec_cancelLocals_late (late : ℕ) (servers : List LocalServer)
    (results : List ScanResult) (s : Server) : ∃ entries t,
      Exec (cancellingSem p may) (cancelLocals servers results) s (results ++ entries) t ∧
      List.Forall₂ (fun _ entry => late < entry.checkedAt) servers entries := by
  induction servers generalizing results s with
  | nil => exact ⟨[], s, exec_done.mpr ⟨List.append_nil _, rfl⟩, .nil⟩
  | cons srv servers ih =>
      have hnone : ∀ c ∈ ([] : List ScanContext), may c := fun _ h => absurd h List.not_mem_nil
      obtain ⟨_, u, hset⟩ : ∃ a u, Exec (cancellingSem p may)
          (setScanState true srv.name .cancelled) s a u := exists_exec cancellingSem_total _ s
      obtain ⟨entries, t, hrest, hentries⟩ := ih (results ++
        [.bare srv.name srv.socket true (max u.clock late + 1)
          "scan cancelled manually (not started)"]) (u.tick (max u.clock late + 1))
      refine ⟨.bare srv.name srv.socket true (max u.clock late + 1)
        "scan cancelled manually (not started)" :: entries, t, ?_, .cons ?_ hentries⟩
      · rw [List.append_assoc] at hrest
        refine exec_bind.mpr ⟨_, u, hset, exec_bind.mpr ⟨_, _, exec_perform.mpr ?_, hrest⟩⟩
        exact ⟨[], hnone, Nat.lt_succ_of_le (le_max_left _ _), rfl⟩
      · exact Nat.lt_succ_of_le (le_max_right _ _)

/-- A scan that is cancelled at once. -/
theorem exec_runScan_cancelled (late : ℕ) (hfree : (s.scanRunning || s.updateRunning) = false)
    (hcancel : may ctx ∨ ctx ∈ s.cancelled) (hservers : s.config.localServers ≠ []) :
    ∃ result t, Exec (cancellingSem p may) (runScan p ctx) s (some result) t ∧
      List.Forall₂ (fun _ entry => late < entry.checkedAt) s.config.localServers
        t.lastScans := by
  have hnone : ∀ c ∈ ([] : List ScanContext), may c := fun _ h => absurd h List.not_mem_nil
  obtain ⟨srv, servers, hlist⟩ := List.exists_cons_of_ne_nil hservers
  obtain ⟨more, hmore, hin⟩ : ∃ more : List ScanContext, (∀ c ∈ more, may c) ∧
      ctx ∈ more ++ s.cancelled := by
    rcases hcancel with hmay | hin
    · exact ⟨[ctx], fun c hc => List.mem_singleton.mp hc ▸ hmay, List.mem_cons_self ..⟩
    · exact ⟨[], hnone, hin⟩
  obtain ⟨entries, t, hrest, hentries⟩ : ∃ entries t,
      Exec (cancellingSem p may) (cancelLocals (srv :: servers) [])
        { s with scanRunning := true, cancelled := more ++ s.cancelled } ([] ++ entries) t ∧
      List.Forall₂ (fun _ entry => late < entry.checkedAt) (srv :: servers) entries :=
    exec_cancelLocals_late late _ _ _
  refine ⟨entries.headD .zero, { t.setLastScans entries with scanRunning := false }, ?_, ?_⟩
  · rw [runScan]
    refine exec_bind.mpr ⟨true, { s with scanRunning := true }, exec_perform.mpr ?_, ?_⟩
    · exact ⟨[], hnone, (if_neg (by simpa using hfree)).mpr ⟨rfl, rfl⟩⟩
    refine exec_bind.mpr ⟨s.config, _, exec_perform.mpr ⟨[], hnone, rfl, rfl⟩, ?_⟩
    refine exec_bind.mpr ⟨entries, t, ?_, ?_⟩
    · rw [hlist, scanLocals]
      refine exec_bind.mpr ⟨true, _, exec_perform.mpr ⟨more, hmore, ?_, rfl⟩, ?_⟩
      · exact (decide_eq_true hin).symm
      · exact hrest
    refine exec_bind.mpr ⟨(), _, exec_perform.mpr ⟨[], hnone, rfl⟩, ?_⟩
    refine exec_bind.mpr ⟨(), _, exec_perform.mpr ⟨[], hnone, rfl⟩, ?_⟩
    exact exec_done.mpr ⟨rfl, rfl⟩
  · rw [hlist]
    exact hentries

/-- A scan runs exactly if nothing else is running. -/
theorem exec_runScan_isSome {result : Option ScanResult}
    (h : Exec (cancellingSem p may) (runScan p ctx) s result t) :
    result.isSome = !(s.scanRunning || s.updateRunning) := by
  rw [runScan] at h
  obtain ⟨begun, u, hbegin, h⟩ := exec_bind.mp h
  obtain ⟨more, -, hsem⟩ := exec_perform.mp hbegin
  rw [serverSem.eq_def] at hsem
  dsimp only at hsem
  split_ifs at hsem with hrunning
  · obtain ⟨rfl, -⟩ := hsem
    obtain ⟨rfl, -⟩ := exec_done.mp h
    simp [hrunning]
  · obtain ⟨rfl, -⟩ := hsem
    rw [if_pos rfl] at h
    have hsome : result.isSome = true := by
      refine h.results (P := fun r => r.isSome = true) ?_
      refine Results.bind _ fun cfg => Results.bind _ fun out => Results.bind _ fun _ => ?_
      exact Results.bind _ fun _ => results_pure rfl
    rw [hsome, Bool.eq_false_of_not_eq_true hrunning]
    rfl

/-- **When a scan keeps the results it is to keep.** From a given state, whatever the servers
report, and wherever the contexts in `may` are cancelled: every scan that runs leaves one result
for each local server, the previous ones of servers in maintenance and of remote servers among
them, if and only if none runs because of another operation, or there is no result of a remote
server and, if the scan's context may be cancelled, none of a local server in maintenance. -/
theorem runScan_keeps_results_iff :
    (∀ result t, Exec (cancellingSem p may) (runScan p ctx) s (some result) t →
      KeepsResults p.fold s t) ↔
    (s.scanRunning || s.updateRunning) = true ∨
      ((∀ scan ∈ s.lastScans, scan.isLocal = true) ∧
        (may ctx ∨ ctx ∈ s.cancelled → ∀ srv ∈ s.config.localServers, srv.maintenance = true →
          findLocalScan p.fold s.lastScans srv.name = none)) := by
  constructor
  · intro hkeeps
    by_cases hrunning : (s.scanRunning || s.updateRunning) = true
    · exact Or.inl hrunning
    refine Or.inr ⟨fun scan hscan => ?_, fun hcancel srv hsrv hmaintenance => ?_⟩
    · -- some scan runs, and all its results are of local servers
      by_contra hremote
      obtain ⟨result, t, hexec⟩ : ∃ result t, Exec (cancellingSem p may) (runScan p ctx) s
          result t := exists_exec cancellingSem_total _ s
      have hsome := exec_runScan_isSome hexec
      cases result with
      | none => exact absurd hsome (by simp [hrunning])
      | some result =>
          have hmem := (hkeeps result t hexec).remotes scan hscan
            (Bool.eq_false_of_not_eq_true hremote)
          have hlocal := filter_entries (exec_runScan hexec).1
          exact hremote (List.filter_eq_self.mp hlocal scan hmem)
    · -- a scan that is cancelled at once overwrites the result, with a later time
      rcases hfind : findLocalScan p.fold s.lastScans srv.name with _ | previous
      · rfl
      obtain ⟨result, t, hexec, hlate⟩ := exec_runScan_cancelled (p := p) previous.checkedAt
        (Bool.eq_false_of_not_eq_true hrunning) hcancel (List.ne_nil_of_mem hsrv)
      have hkept := (hkeeps result t hexec).maintenance
      rw [filter_entries (exec_runScan hexec).1] at hkept
      obtain ⟨entry, -, hentry, hafter⟩ := hkept.exists_both hlate hsrv
      obtain rfl := hentry hmaintenance previous hfind
      exact absurd hafter (lt_irrefl _)
  · intro hcond result t hexec
    have hfree := exec_runScan_isSome hexec
    obtain ⟨hentries, hkept⟩ := exec_runScan hexec
    have hfilter := filter_entries hentries
    rcases hcond with hrunning | ⟨hlocal, hmaintenance⟩
    · exact absurd hfree (by simp [hrunning])
    refine ⟨hfilter.symm ▸ hentries, ?_, fun scan hscan hremote => ?_⟩
    · rw [hfilter]
      by_cases hcancel : may ctx ∨ ctx ∈ s.cancelled
      · have hnew := (List.forall₂_and_left _ _).mpr ⟨hmaintenance hcancel, hentries⟩
        refine hnew.imp fun srv entry hsrv hm previous hprevious => ?_
        exact absurd (hprevious.symm.trans (hsrv.1 hm)) (by simp)
      · obtain ⟨hmay, hnot⟩ := not_or.mp hcancel
        exact hkept hmay hnot
    · rw [hlocal scan hscan] at hremote
      exact absurd hremote (by simp)

end

/-! ### A scan that drops a result -/

/-- A result of an agent. -/
def agentScan : ScanResult := .bare "agent" "http://agent" false 1 ""

/-- A controller with one agent, whose result was loaded from the file of the scan results. -/
def agentServer : Server :=
  Server.new ⟨policyNotifyOnly, false, false, [], [⟨"agent", "http://agent", "", false⟩]⟩ ∅ .zero
    [agentScan] fun _ => webDaemon []

/-- A scan may drop what it is to keep: here the result of a remote server. -/
theorem runScan_can_drop_results :
    ¬ ∀ (p : Process) (may : ScanContext → Prop) (ctx : ScanContext) (s t : Server)
      (result : ScanResult), Exec (cancellingSem p may) (runScan p ctx) s (some result) t →
      KeepsResults p.fold s t := by
  intro h
  have hnone : ∀ c ∈ ([] : List ScanContext), False := fun _ h => absurd h List.not_mem_nil
  have hexec : Exec (cancellingSem controller fun _ => False) (runScan controller (.request 0))
      agentServer (some .zero) { agentServer with lastScans := [] } := by
    rw [runScan]
    refine exec_bind.mpr ⟨true, { agentServer with scanRunning := true },
      exec_perform.mpr ⟨[], hnone, rfl, rfl⟩, ?_⟩
    refine exec_bind.mpr ⟨agentServer.config, _, exec_perform.mpr ⟨[], hnone, rfl, rfl⟩, ?_⟩
    refine exec_bind.mpr ⟨[], _, .done, ?_⟩
    refine exec_bind.mpr ⟨(), _, exec_perform.mpr ⟨[], hnone, rfl⟩, ?_⟩
    refine exec_bind.mpr ⟨(), _, exec_perform.mpr ⟨[], hnone, rfl⟩, ?_⟩
    exact exec_done.mpr ⟨rfl, rfl⟩
  have hremotes := (h _ _ _ _ _ _ hexec).remotes agentScan (List.mem_cons_self ..) rfl
  exact absurd hremotes List.not_mem_nil

end Contiwatch
