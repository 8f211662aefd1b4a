import Contiwatch.Lib.Forall2
import Contiwatch.Lib.Keyed
import Contiwatch.ScanHandlers
import Mathlib.Data.List.DropRight

/-!
# What Automatic Updates Record

`autoUpdateLocal` and `autoUpdateRemote` fold the outcomes of their updates into the scan
record. The local one records nothing of an update that failed; the remote one records it, but
puts the record that the agent reports after a restart of its own in the place of everything
recorded so far. An agent knows what it has updated, but not which requests the controller has
given up.

## Main results

* `exec_autoUpdateRemote` — the changes that are left of a remote update are those after the last
  restart, in the record that the agent has reported then.
* `autoUpdate_reports_iff` — the records tell the outcomes exactly if every failed target of a
  local update looked like one before, and every failure of a remote update is in the record that
  the agent reports after its last restart, or comes after that.
* `autoUpdate_can_conceal` — failures that leave no trace.
-/

namespace Contiwatch

open GoStrings Prog

/-! ### Outcomes -/

/-- What came of the update of a target; `restarted` is an agent that restarts and whose update
is then confirmed by its status. -/
inductive Outcome where
  | updated
  | skipped
  | failed
  | restarted
  deriving DecidableEq, Repr

/-- The outcome that an answer of a daemon stands for. -/
def localOutcome : Except UpdateError UpdateResult → Outcome
  | .error _ => .failed
  | .ok result => if result.updated then .updated else .skipped

section

variable (lower : Lowering)

/-- The outcome that an answer of an agent stands for; an agent that may restart may also close
the connection. -/
def remoteOutcome (mayRestart : Bool) (containerID : String)
    (reply : Except RemoteError UpdateReply) : Outcome :=
  match orRestarting lower mayRestart containerID "self update scheduled; agent restarting"
      reply with
  | .error _ => .failed
  | .ok reply =>
      if isAgentRestartUpdate lower reply then .restarted
      else if reply.updated then .updated
      else .skipped

/-- The answers that give each container, by its ID, the outcome it is to have; `refreshed` is the
record that an agent reports when the restart of a container is confirmed. -/
def Answers (outcome : String → Outcome) (refreshed : String → ScanResult) :
    (o : ServerOp) → o.Res → Prop
  | .updateContainer _ containerID _, r => localOutcome r = outcome containerID
  | .updateRemoteContainer _ containerID _, r =>
      remoteOutcome lower false containerID r = outcome containerID
  | .updateRemoteSelfUpdate _ containerID, r =>
      remoteOutcome lower true containerID r = outcome containerID
  | .waitForRemoteUpdateConfirmation _ target, r =>
      ∀ record, r = Except.ok record → record = refreshed target.id ∧ Confirms target record
  | _, _ => True

/-- Runs with such answers. Nothing in the state of the server matters to them. -/
def answersSem (outcome : String → Outcome) (refreshed : String → ScanResult) (o : ServerOp)
    (_ : Unit) (r : o.Res) (_ : Unit) : Prop :=
  Answers lower outcome refreshed o r

end

/-- The status of a container tells the outcome of its update. -/
def Shows (c : ContainerStatus) (outcome : Outcome) : Prop :=
  (c.updated = true ↔ outcome = .updated ∨ outcome = .restarted) ∧
    (c.error ≠ "" ↔ outcome = .failed)

/-- The record tells the outcomes: each target has a status, found by its ID or its name, that
tells the outcome, no status with its ID tells anything else, and the other containers are as
they were. -/
structure Reports (outcome : String → Outcome) (result out : ScanResult) : Prop where
  reported : ∀ c ∈ updateTargets result.containers, ∃ e ∈ out.containers,
    (e.id = c.id ∨ e.name = c.name) ∧ Shows e (outcome c.id)
  only : ∀ c ∈ updateTargets result.containers, ∀ e ∈ out.containers, e.id = c.id →
    Shows e (outcome c.id)
  others : ∀ c ∈ result.containers, c ∉ updateTargets result.containers → c ∈ out.containers

/-! ### Changes of a record -/

/-- With distinct ids, the one container with the id is changed. -/
theorem changeContainer_eq_map {f : ContainerStatus → ContainerStatus} {containerID : String}
    {cs : List ContainerStatus} (hids : (cs.map (·.id)).Nodup) :
    changeContainer f containerID cs = cs.map fun c => if c.id = containerID then f c else c := by
  induction cs with
  | nil => rfl
  | cons c cs ih =>
      obtain ⟨hnew, hids⟩ := List.nodup_cons.mp hids
      rw [changeContainer, List.map_cons]
      split_ifs with hc
      · -- no other container has the ID
        have hsame : cs.map (fun c' => if c'.id = containerID then f c' else c') = cs.map id := by
          refine List.map_congr_left fun c' hc' => if_neg fun hid => ?_
          exact hnew (List.mem_map.mpr ⟨c', hc', hid.trans hc.symm⟩)
        rw [hsame, List.map_id]
      · rw [ih hids]

/-- `Records R outcome targets cs out`: the containers `out` come from `cs` by one change for
each target, which `R` allows for its outcome. -/
inductive Records (R : Outcome → (ContainerStatus → ContainerStatus) → Prop)
    (outcome : String → Outcome) :
    List ContainerStatus → List ContainerStatus → List ContainerStatus → Prop
  | nil {cs : List ContainerStatus} : Records R outcome [] cs cs
  | cons {target : ContainerStatus} {targets cs out : List ContainerStatus}
      {f : ContainerStatus → ContainerStatus} (hf : R (outcome target.id) f)
      (h : Records R outcome targets (changeContainer f target.id cs) out) :
      Records R outcome (target :: targets) cs out

/-- Without targets nothing is changed. -/
theorem Records.eq_of_nil {R : Outcome → (ContainerStatus → ContainerStatus) → Prop}
    {outcome : String → Outcome} {cs out : List ContainerStatus} (h : Records R outcome [] cs out) :
    out = cs := by
  cases h
  rfl

/-- What a list of targets does to one container. -/
def ChangedBy (R : Outcome → (ContainerStatus → ContainerStatus) → Prop)
    (outcome : String → Outcome) (targets : List ContainerStatus) (c e : ContainerStatus) : Prop :=
  e.id = c.id ∧ (c.id ∉ targets.map (·.id) → e = c) ∧
    (c.id ∈ targets.map (·.id) → ∃ f, R (outcome c.id) f ∧ e = f c)

section

variable {R : Outcome → (ContainerStatus → ContainerStatus) → Prop}
  {outcome : String → Outcome} {targets cs out : List ContainerStatus}

/-- **Each container is changed by its own outcome only**, if the IDs are different. -/
theorem Records.forall₂ (hR : ∀ oc f c, R oc f → (f c).id = c.id)
    (h : Records R outcome targets cs out) (hids : (cs.map (·.id)).Nodup)
    (htargets : (targets.map (·.id)).Nodup) :
    List.Forall₂ (ChangedBy R outcome targets) cs out := by
  induction h with
  | nil => exact List.forall₂_same.mpr fun c _ => ⟨rfl, fun _ => rfl, fun h => absurd h (by simp)⟩
  | @cons target targets cs out f hf _ ih =>
      obtain ⟨hnew, htargets⟩ := List.nodup_cons.mp htargets
      rw [changeContainer_eq_map hids] at ih
      have hid : ∀ c : ContainerStatus, (if c.id = target.id then f c else c).id = c.id := by
        intro c
        split_ifs
        · exact hR _ f c hf
        · rfl
      have hsame := Keyed.map_map_key (f := ContainerStatus.id) hid cs
      have hrest := List.forall₂_map_left_iff.mp (ih (hsame.symm ▸ hids) htargets)
      refine hrest.imp fun c e hce => ?_
      obtain ⟨heid, hother, htarget⟩ := hce
      rw [hid] at heid hother htarget
      refine ⟨heid, fun hnot => ?_, fun hin => ?_⟩
      · obtain ⟨hne, hnot⟩ := not_or.mp (mt List.mem_cons.mpr hnot)
        rw [hother hnot, if_neg hne]
      · by_cases hc : c.id = target.id
        · refine ⟨f, hc ▸ hf, ?_⟩
          rw [hother (hc ▸ hnew), if_pos hc]
        · obtain ⟨g, hg, heq⟩ := htarget ((List.mem_cons.mp hin).resolve_left hc)
          exact ⟨g, hg, heq.trans (by rw [if_neg hc])⟩

/-! ### Local updates -/

/-- What `autoUpdateLocal` does to the status of a target. -/
def LocalChange : Outcome → (ContainerStatus → ContainerStatus) → Prop
  | .updated, f => ∃ now, f = updateScanContainerStatus true now
  | .skipped, f => ∃ now, f = updateScanContainerStatus false now
  | .failed, f => f = id
  | .restarted, _ => False

/-- A local outcome keeps the container's id. -/
theorem localChange_id (oc : Outcome) (f : ContainerStatus → ContainerStatus)
    (c : ContainerStatus) (h : LocalChange oc f) : (f c).id = c.id := by
  cases oc with
  | updated =>
      obtain ⟨now, rfl⟩ := h
      rfl
  | skipped =>
      obtain ⟨now, rfl⟩ := h
      rfl
  | failed =>
      obtain rfl : f = id := h
      rfl
  | restarted => exact h.elim

/-- Changing nothing changes nothing. -/
theorem changeContainer_id (containerID : String) (cs : List ContainerStatus) :
    changeContainer id containerID cs = cs := by
  induction cs with
  | nil => rfl
  | cons c cs ih =>
      rw [changeContainer, ih]
      split_ifs <;> rfl

section

variable {lower : Lowering} {refreshed : String → ScanResult} {ctx : ScanContext} {cfg : Config}
  {host n m : ℕ}
  {result out' : ScanResult}

/-- The loop of `autoUpdateLocal` records the outcomes in its way. -/
theorem exec_autoUpdateLoop
    (h : Exec (answersSem lower outcome refreshed) (autoUpdateLoop ctx cfg host targets result n) ()
      (out', m, none) ()) :
    Records LocalChange outcome targets result.containers out'.containers := by
  induction targets generalizing result n with
  | nil =>
      obtain ⟨heq, -⟩ := exec_done.mp h
      obtain ⟨rfl, -⟩ := Prod.mk.inj heq
      exact .nil
  | cons target targets ih =>
      rw [autoUpdateLoop] at h
      obtain ⟨cancelled, _, -, h⟩ := exec_bind.mp h
      cases cancelled with
      | true => exact absurd (congrArg (fun x => x.2.2) (exec_done.mp h).1) (by simp)
      | false =>
          rw [if_neg (by simp)] at h
          obtain ⟨r, _, hr, h⟩ := exec_bind.mp h
          have houtcome : localOutcome r = outcome target.id := exec_perform.mp hr
          rcases r with err | r
          · have hfailed : outcome target.id = .failed := houtcome.symm
            have hrest := ih h
            rw [← changeContainer_id target.id result.containers] at hrest
            exact .cons (hfailed ▸ rfl) hrest
          · obtain ⟨now, _, -, h⟩ := exec_bind.mp h
            refine .cons ?_ (ih h)
            rw [← houtcome, localOutcome]
            cases r.updated with
            | true => exact ⟨now, rfl⟩
            | false => exact ⟨now, rfl⟩

end

/-- An answer of a daemon for each outcome that it can have. -/
def localAnswer : Outcome → Except UpdateError UpdateResult
  | .failed => .error .idRequired
  | .updated => .ok ⟨"", "", "", "", "", "", true, .unknown, .online, .restored⟩
  | _ => .ok ⟨"", "", "", "", "", "", false, .unknown, .unknown, .noUpdate⟩

/-- Every outcome but a restart is that of some local answer. -/
theorem localOutcome_answer {oc : Outcome} (h : oc ≠ .restarted) :
    localOutcome (localAnswer oc) = oc := by
  cases oc with
  | restarted => exact absurd rfl h
  | _ => rfl

/-- The loop can come to its end with the outcomes. -/
theorem exists_autoUpdateLoop (refreshed : String → ScanResult) (ctx : ScanContext) (cfg : Config)
    (host n : ℕ) (targets : List ContainerStatus) (result : ScanResult)
    (hlocal : ∀ c ∈ targets, outcome c.id ≠ .restarted) :
    ∃ out m, Exec (answersSem lower outcome refreshed)
      (autoUpdateLoop ctx cfg host targets result n) () (out, m, none) () := by
  induction targets generalizing result n with
  | nil => exact ⟨result, n, .done⟩
  | cons target targets ih =>
      have hrest : ∀ c ∈ targets, outcome c.id ≠ .restarted :=
        fun c hc => hlocal c (List.mem_cons_of_mem _ hc)
      have hanswer : localOutcome (localAnswer (outcome target.id)) = outcome target.id :=
        localOutcome_answer (hlocal target (List.mem_cons_self ..))
      rcases hr : localAnswer (outcome target.id) with err | r
      · obtain ⟨out, m, hexec⟩ := ih n result hrest
        refine ⟨out, m, exec_bind.mpr ⟨false, (), exec_perform.mpr trivial, ?_⟩⟩
        exact exec_bind.mpr ⟨.error err, (), exec_perform.mpr (hr ▸ hanswer), hexec⟩
      · obtain ⟨out, m, hexec⟩ := ih (if r.updated then n + 1 else n)
          (updateScanResultContainer result target.id r.updated 0) hrest
        refine ⟨out, m, exec_bind.mpr ⟨false, (), exec_perform.mpr trivial, ?_⟩⟩
        refine exec_bind.mpr ⟨.ok r, (), exec_perform.mpr (hr ▸ hanswer), ?_⟩
        exact exec_bind.mpr ⟨0, (), exec_perform.mpr trivial, hexec⟩

end

/-! ### Remote updates -/

/-- What `autoUpdateRemote` does to the status of a target that does not restart. -/
def RemoteChange : Outcome → (ContainerStatus → ContainerStatus) → Prop
  | .updated, f => ∃ now, f = updateScanContainerStatus true now
  | .skipped, f => ∃ now, f = updateScanContainerStatus false now
  | .failed, f => ∃ err now,
      f = fun c => { c with error := "update failed: " ++ err, lastChecked := now }
  | .restarted, _ => False

/-- A remote outcome keeps the container's id. -/
theorem remoteChange_id (oc : Outcome) (f : ContainerStatus → ContainerStatus)
    (c : ContainerStatus) (h : RemoteChange oc f) : (f c).id = c.id := by
  cases oc with
  | updated =>
      obtain ⟨now, rfl⟩ := h
      rfl
  | skipped =>
      obtain ⟨now, rfl⟩ := h
      rfl
  | failed =>
      obtain ⟨err, now, rfl⟩ := h
      rfl
  | restarted => exact h.elim

section

variable {lower : Lowering} {outcome : String → Outcome} {refreshed : String → ScanResult}
  {target : ContainerStatus} {targets front back : List ContainerStatus} {ctx : ScanContext}
  {cfg : Config} {remote : RemoteServer} {n m : ℕ} {result out : ScanResult}

/-- The agent answers with the container's outcome. -/
theorem exec_askUpdate {containerID : String} {selfUpdate prune : Bool}
    {reply : Except RemoteError UpdateReply} :
    Exec (answersSem lower outcome refreshed) (askUpdate remote containerID selfUpdate prune) ()
        reply () ↔
      remoteOutcome lower selfUpdate containerID reply = outcome containerID := by
  rw [askUpdate]
  cases selfUpdate with
  | true => exact exec_perform
  | false => exact exec_perform

/-- **What the loop of `autoUpdateRemote` does with a target**: the record is changed in its way,
or, after a restart, replaced. -/
theorem exec_autoUpdateRemoteLoop_cons
    (h : Exec (answersSem lower outcome refreshed)
      (autoUpdateRemoteLoop lower ctx cfg remote (target :: targets) result n) ()
      (out, m, none) ()) :
    ∃ result' n', Exec (answersSem lower outcome refreshed)
        (autoUpdateRemoteLoop lower ctx cfg remote targets result' n') () (out, m, none) () ∧
      (outcome target.id = .restarted → result' = refreshed target.id) ∧
      (outcome target.id ≠ .restarted → ∃ f, RemoteChange (outcome target.id) f ∧
        result'.containers = changeContainer f target.id result.containers) := by
  rw [autoUpdateRemoteLoop] at h
  obtain ⟨cancelled, _, -, h⟩ := exec_bind.mp h
  cases cancelled with
  | true => exact absurd (congrArg (fun x => x.2.2) (exec_done.mp h).1) (by simp)
  | false =>
      rw [if_neg (by simp)] at h
      obtain ⟨reply, _, hreply, h⟩ := exec_bind.mp h
      have houtcome := exec_askUpdate.mp hreply
      rw [remoteOutcome] at houtcome
      rcases horRestarting : orRestarting lower (isRemoteAgentUpdateTarget lower target) target.id
          "self update scheduled; agent restarting" reply with err | reply <;>
        rw [horRestarting] at h houtcome <;> dsimp only at h houtcome
      · obtain ⟨now, _, -, h⟩ := exec_bind.mp h
        refine ⟨_, _, h, fun hrestarted => ?_,
          fun _ => ⟨_, houtcome ▸ ⟨err.message, now, rfl⟩, rfl⟩⟩
        rw [← houtcome] at hrestarted
        cases hrestarted
      · by_cases hrestart : isAgentRestartUpdate lower reply = true
        · rw [if_pos hrestart] at h houtcome
          obtain ⟨record, _, hrecord, h⟩ := exec_bind.mp h
          rcases record with err | record
          · exact absurd (congrArg (fun x => x.2.2) (exec_done.mp h).1) (by simp)
          · obtain ⟨rfl, -⟩ := exec_perform.mp hrecord record rfl
            exact ⟨_, _, h, fun _ => rfl, fun hne => absurd houtcome.symm hne⟩
        · rw [if_neg hrestart] at h houtcome
          obtain ⟨now, _, -, h⟩ := exec_bind.mp h
          have hchange : RemoteChange (outcome target.id)
              (updateScanContainerStatus reply.updated now) := by
            rw [← houtcome]
            cases reply.updated with
            | true => exact ⟨now, rfl⟩
            | false => exact ⟨now, rfl⟩
          refine ⟨_, _, h, fun hrestarted => ?_, fun _ => ⟨_, hchange, rfl⟩⟩
          rw [hrestarted] at hchange
          exact hchange.elim

/-- The loop records the outcomes in its way, if no target restarts. -/
theorem exec_autoUpdateRemoteLoop (hnone : ∀ c ∈ targets, outcome c.id ≠ .restarted)
    (h : Exec (answersSem lower outcome refreshed)
      (autoUpdateRemoteLoop lower ctx cfg remote targets result n) () (out, m, none) ()) :
    Records RemoteChange outcome targets result.containers out.containers := by
  induction targets generalizing result n with
  | nil =>
      obtain ⟨heq, -⟩ := exec_done.mp h
      obtain ⟨rfl, -⟩ := Prod.mk.inj heq
      exact .nil
  | cons target targets ih =>
      obtain ⟨result', n', hrest, -, hchange⟩ := exec_autoUpdateRemoteLoop_cons h
      obtain ⟨f, hf, hcontainers⟩ := hchange (hnone target (List.mem_cons_self ..))
      refine .cons hf ?_
      rw [← hcontainers]
      exact ih (fun c hc => hnone c (List.mem_cons_of_mem _ hc)) hrest

/-- After a restart the loop goes on with the record of the agent, whatever was before. -/
theorem exec_autoUpdateRemoteLoop_restart (hrestarted : outcome target.id = .restarted)
    (h : Exec (answersSem lower outcome refreshed)
      (autoUpdateRemoteLoop lower ctx cfg remote (front ++ target :: back) result n) ()
      (out, m, none) ()) :
    ∃ n', Exec (answersSem lower outcome refreshed)
      (autoUpdateRemoteLoop lower ctx cfg remote back (refreshed target.id) n') ()
      (out, m, none) () := by
  induction front generalizing result n with
  | nil =>
      obtain ⟨result', n', hrest, hrecord, -⟩ := exec_autoUpdateRemoteLoop_cons h
      exact ⟨n', hrecord hrestarted ▸ hrest⟩
  | cons c front ih =>
      obtain ⟨result', n', hrest, -⟩ := exec_autoUpdateRemoteLoop_cons h
      exact ih hrest

/-- An answer of an agent for each outcome. -/
def remoteAnswer : Outcome → Except RemoteError UpdateReply
  | .failed => .error ⟨"refused", false⟩
  | .updated => .ok ⟨"", "", true, ""⟩
  | .skipped => .ok ⟨"", "", false, ""⟩
  | .restarted => .ok ⟨"", "", false, "agent restarting"⟩

/-- The marks are ASCII, so on ASCII messages the lowering does not matter. -/
theorem isAgentRestartUpdate_of_ascii {r : UpdateReply}
    (hr : ∀ c ∈ r.message.toList, c.toNat < 128) :
    isAgentRestartUpdate lower r = isAgentRestartUpdate .ascii r := by
  rw [isAgentRestartUpdate, isAgentRestartUpdate, toLower_of_ascii lower hr]
  rfl

/-- Nor does it in the text of an error. -/
theorem isRemoteUpdateDisconnect_of_ascii {err : RemoteError}
    (herr : ∀ c ∈ err.message.toList, c.toNat < 128) :
    isRemoteUpdateDisconnect lower err = isRemoteUpdateDisconnect .ascii err := by
  rw [isRemoteUpdateDisconnect, isRemoteUpdateDisconnect, toLower_of_ascii lower herr]
  rfl

/-- A reply without a message is not that of an agent that restarts. -/
theorem isAgentRestartUpdate_silent (updated : Bool) :
    isAgentRestartUpdate lower ⟨"", "", updated, ""⟩ = false := by
  rw [isAgentRestartUpdate_of_ascii (by simp)]
  cases updated <;> decide

/-- A reply that says so is. -/
theorem isAgentRestartUpdate_restarting :
    isAgentRestartUpdate lower ⟨"", "", false, "agent restarting"⟩ = true := by
  rw [isAgentRestartUpdate_of_ascii (by simp)]
  decide

/-- A refusal is no lost connection. -/
theorem isRemoteUpdateDisconnect_refused :
    isRemoteUpdateDisconnect lower ⟨"refused", false⟩ = false := by
  rw [isRemoteUpdateDisconnect_of_ascii (by simp)]
  decide

/-- Every remote outcome is that of some answer. -/
theorem remoteOutcome_answer (mayRestart : Bool) (containerID : String) (oc : Outcome) :
    remoteOutcome lower mayRestart containerID (remoteAnswer oc) = oc := by
  cases oc with
  | failed => simp [remoteOutcome, remoteAnswer, orRestarting, isRemoteUpdateDisconnect_refused]
  | updated => simp [remoteOutcome, remoteAnswer, orRestarting, isAgentRestartUpdate_silent]
  | skipped => simp [remoteOutcome, remoteAnswer, orRestarting, isAgentRestartUpdate_silent]
  | restarted =>
      simp [remoteOutcome, remoteAnswer, orRestarting, isAgentRestartUpdate_restarting]

/-- The record after the answer `remoteAnswer` for a target. -/
def recordAfter (refreshed : String → ScanResult) (target : ContainerStatus)
    (result : ScanResult) : Outcome → ScanResult
  | .failed => markScanResultUpdateError result target.id "refused" 0
  | .updated => updateScanResultContainer result target.id true 0
  | .skipped => updateScanResultContainer result target.id false 0
  | .restarted => refreshed target.id

/-- The loop can go on after a target. -/
theorem exec_autoUpdateRemoteLoop_answer (ctx : ScanContext) (cfg : Config)
    (remote : RemoteServer) (n : ℕ) (targets : List ContainerStatus) (result : ScanResult)
    (hconfirms : outcome target.id = .restarted → Confirms target (refreshed target.id)) :
    ∃ n', ∀ out m,
      Exec (answersSem lower outcome refreshed) (autoUpdateRemoteLoop lower ctx cfg remote targets
        (recordAfter refreshed target result (outcome target.id)) n') () (out, m, none) () →
      Exec (answersSem lower outcome refreshed) (autoUpdateRemoteLoop lower ctx cfg remote
        (target :: targets) result n) () (out, m, none) () := by
  have hask : Exec (answersSem lower outcome refreshed) (askUpdate remote target.id
      (isRemoteAgentUpdateTarget lower target) cfg.pruneDanglingImages) ()
      (remoteAnswer (outcome target.id)) () :=
    exec_askUpdate.mpr (remoteOutcome_answer _ _ _)
  rcases houtcome : outcome target.id with _ | _ | _ | _
  · refine ⟨n + 1, fun out m hrest => ?_⟩
    refine exec_bind.mpr ⟨false, (), exec_perform.mpr trivial, ?_⟩
    refine exec_bind.mpr ⟨_, (), hask, ?_⟩
    rw [houtcome, remoteAnswer, orRestarting]
    dsimp only
    rw [if_neg (by simp [isAgentRestartUpdate_silent])]
    exact exec_bind.mpr ⟨0, (), exec_perform.mpr trivial, hrest⟩
  · refine ⟨n, fun out m hrest => ?_⟩
    refine exec_bind.mpr ⟨false, (), exec_perform.mpr trivial, ?_⟩
    refine exec_bind.mpr ⟨_, (), hask, ?_⟩
    rw [houtcome, remoteAnswer, orRestarting]
    dsimp only
    rw [if_neg (by simp [isAgentRestartUpdate_silent])]
    exact exec_bind.mpr ⟨0, (), exec_perform.mpr trivial, hrest⟩
  · refine ⟨n, fun out m hrest => ?_⟩
    refine exec_bind.mpr ⟨false, (), exec_perform.mpr trivial, ?_⟩
    refine exec_bind.mpr ⟨_, (), hask, ?_⟩
    rw [houtcome, remoteAnswer, orRestarting, isRemoteUpdateDisconnect_refused, Bool.false_and,
      if_neg (by simp)]
    exact exec_bind.mpr ⟨0, (), exec_perform.mpr trivial, hrest⟩
  · refine ⟨n + 1, fun out m hrest => ?_⟩
    refine exec_bind.mpr ⟨false, (), exec_perform.mpr trivial, ?_⟩
    refine exec_bind.mpr ⟨_, (), hask, ?_⟩
    rw [houtcome, remoteAnswer, orRestarting]
    dsimp only
    rw [if_pos isAgentRestartUpdate_restarting]
    refine exec_bind.mpr ⟨.ok (refreshed target.id), (), exec_perform.mpr ?_, hrest⟩
    intro record h
    obtain rfl := Except.ok.inj h
    exact ⟨rfl, hconfirms houtcome⟩

/-- The loop can come to its end with the outcomes. -/
theorem exists_autoUpdateRemoteLoop (ctx : ScanContext) (cfg : Config) (remote : RemoteServer)
    (n : ℕ) (targets : List ContainerStatus) (result : ScanResult)
    (hconfirms : ∀ c ∈ targets, outcome c.id = .restarted → Confirms c (refreshed c.id)) :
    ∃ out m, Exec (answersSem lower outcome refreshed)
      (autoUpdateRemoteLoop lower ctx cfg remote targets result n) () (out, m, none) () := by
  induction targets generalizing result n with
  | nil => exact ⟨result, n, .done⟩
  | cons target targets ih =>
      obtain ⟨n', hstep⟩ := exec_autoUpdateRemoteLoop_answer ctx cfg remote n targets result
        (hconfirms target (List.mem_cons_self ..))
      obtain ⟨out, m, hexec⟩ :=
        ih n' (recordAfter refreshed target result (outcome target.id))
          fun c hc => hconfirms c (List.mem_cons_of_mem _ hc)
      exact ⟨out, m, hstep out m hexec⟩

end

/-! ### The last restart -/

section

variable (outcome : String → Outcome) (targets : List ContainerStatus)

/-- The targets up to the last one that restarts. -/
def untilRestart : List ContainerStatus :=
  targets.rdropWhile fun c => outcome c.id ≠ .restarted

/-- The targets after the last restart. -/
def afterRestart : List ContainerStatus :=
  targets.rtakeWhile fun c => outcome c.id ≠ .restarted

/-- The record in which the targets after the last restart are recorded: the one that the agent has
reported then, or the scan record if no target restarts. -/
def lastRecord (refreshed : String → ScanResult) (result : ScanResult) : ScanResult :=
  match (untilRestart outcome targets).getLast? with
  | some c => refreshed c.id
  | none => result

/-- A restart splits the targets in two. -/
theorem untilRestart_append_afterRestart :
    untilRestart outcome targets ++ afterRestart outcome targets = targets := by
  rw [untilRestart, afterRestart, List.rdropWhile, List.rtakeWhile, ← List.reverse_append,
    List.takeWhile_append_dropWhile, List.reverse_reverse]

/-- No target restarts after the last restart. -/
theorem not_restarted_of_mem_afterRestart {outcome : String → Outcome}
    {targets : List ContainerStatus} {c : ContainerStatus} (h : c ∈ afterRestart outcome targets) :
    outcome c.id ≠ .restarted :=
  of_decide_eq_true (List.mem_rtakeWhile_imp (p := fun c : ContainerStatus =>
    decide (outcome c.id ≠ .restarted)) h)

/-- The last of the targets up to the last restart is the one that restarts. -/
theorem restarted_of_untilRestart {outcome : String → Outcome}
    {targets front : List ContainerStatus} {c : ContainerStatus}
    (h : untilRestart outcome targets = front ++ [c]) :
    outcome c.id = .restarted := by
  have hlast := List.rdropWhile_last_not (fun c => decide (outcome c.id ≠ .restarted)) targets
    (by rw [← untilRestart, h]; simp)
  have hc : (untilRestart outcome targets).getLast (by rw [h]; simp) = c := by simp [h]
  have hnot : ¬ decide (outcome c.id ≠ .restarted) = true := by
    rw [← hc]
    exact hlast
  simpa using hnot

end

/-! ### Both records -/

/-- What the record of an agent that knows all it has done tells after `asked` have been asked for:
each of them whose update did not fail has a status that tells the outcome, under its ID or under
a new one; one whose update failed still has a status; and the other containers are as they were.
Nothing is said of the errors of failed updates. -/
structure Truthful (outcome : String → Outcome) (result : ScanResult)
    (asked : List ContainerStatus) (record : ScanResult) : Prop where
  ids : (record.containers.map (·.id)).Nodup
  told : ∀ c ∈ asked, outcome c.id ≠ .failed → ∃ e ∈ record.containers,
    (e.id = c.id ∨ e.name = c.name ∧ e.id ∉ result.containers.map (·.id)) ∧ Shows e (outcome c.id)
  only : ∀ c ∈ asked, outcome c.id ≠ .failed → ∀ e ∈ record.containers, e.id = c.id →
    Shows e (outcome c.id)
  listed : ∀ c ∈ asked, outcome c.id = .failed → ∃ e ∈ record.containers, e.id = c.id
  others : ∀ c ∈ result.containers, c ∉ asked → c ∈ record.containers

section

variable {outcome : String → Outcome} {result out record : ScanResult}

/-- Before anything was asked for the scan record tells everything. -/
theorem truthful_nil (hids : (result.containers.map (·.id)).Nodup) :
    Truthful outcome result [] result :=
  ⟨hids, nofun, nofun, nofun, fun _ hc _ => hc⟩

/-- The targets have distinct ids where the containers have. -/
theorem nodup_updateTargets (hids : (result.containers.map (·.id)).Nodup) :
    ((updateTargets result.containers).map (·.id)).Nodup :=
  hids.sublist (List.filter_sublist.map _)

/-- A failed outcome is told by an error, and by nothing else. -/
theorem shows_failed_iff {e : ContainerStatus} :
    Shows e .failed ↔ e.error ≠ "" ∧ e.updated = false := by
  simp [Shows, and_comm]

section

variable {R : Outcome → (ContainerStatus → ContainerStatus) → Prop}
  {asked targets : List ContainerStatus}

/-- **When a record tells the outcomes.** Some targets were asked for before a record that tells
what the agent knows, and the outcomes of the others are recorded in it. Then the failures of the
first must be in that record, and the changes for the others must tell their outcomes. -/
theorem Records.tells_iff {P : ContainerStatus → Prop} (hR : ∀ oc f c, R oc f → (f c).id = c.id)
    (hids : (result.containers.map (·.id)).Nodup)
    (hperm : (asked ++ targets).Perm (updateTargets result.containers))
    (htruth : Truthful outcome result asked record)
    (h : Records R outcome targets record.containers out.containers)
    (hshows : ∀ c ∈ targets, ∀ f, R (outcome c.id) f → (Shows (f c) (outcome c.id) ↔ P c)) :
    Reports outcome result out ↔
      (∀ c ∈ asked, outcome c.id = .failed → ∀ e ∈ record.containers, e.id = c.id →
        e.error ≠ "" ∧ e.updated = false) ∧ ∀ c ∈ targets, P c := by
  have hnodup : ((asked ++ targets).map (·.id)).Nodup :=
    (hperm.map _).nodup_iff.mpr (nodup_updateTargets hids)
  rw [List.map_append, List.nodup_append'] at hnodup
  obtain ⟨-, htargets, hdisjoint⟩ := hnodup
  have hchanged := h.forall₂ hR htruth.ids htargets
  have hmem {c : ContainerStatus} : c ∈ updateTargets result.containers ↔ c ∈ asked ∨ c ∈ targets :=
    hperm.mem_iff.symm.trans List.mem_append
  have hin {c : ContainerStatus} (hc : c ∈ updateTargets result.containers) :
      c ∈ result.containers := List.mem_of_mem_filter hc
  -- a target that was asked for has no ID of a later one
  have hlater {c : ContainerStatus} (hc : c ∈ asked) : c.id ∉ targets.map (·.id) := fun hid =>
    hdisjoint (List.mem_map.mpr ⟨c, hc, rfl⟩) hid
  have hstays {e : ContainerStatus} (he : e ∈ record.containers) (hid : e.id ∉ targets.map (·.id)) :
      e ∈ out.containers := by
    obtain ⟨e', he', -, hsame, -⟩ := hchanged.exists_right he
    rwa [← hsame hid]
  -- a later target is still in the record
  have hkept {c : ContainerStatus} (hc : c ∈ targets) : c ∈ record.containers :=
    htruth.others c (hin (hmem.mpr (.inr hc))) fun hasked =>
      hlater hasked (List.mem_map.mpr ⟨c, hc, rfl⟩)
  have hrecorded {c : ContainerStatus} (hc : c ∈ targets) :
      ∃ e ∈ out.containers, e.id = c.id ∧ ∃ f, R (outcome c.id) f ∧ e = f c := by
    obtain ⟨e, he, hid, -, hf⟩ := hchanged.exists_right (hkept hc)
    exact ⟨e, he, hid, hf (List.mem_map.mpr ⟨c, hc, rfl⟩)⟩
  constructor
  · intro hreports
    refine ⟨fun c hc hfailed e he hid => ?_, fun c hc => ?_⟩
    · have hout := hstays he (hid ▸ hlater hc)
      have hshown := hreports.only c (hmem.mpr (.inl hc)) e hout hid
      rw [hfailed] at hshown
      exact shows_failed_iff.mp hshown
    · obtain ⟨e, he, hid, f, hf, rfl⟩ := hrecorded hc
      exact (hshows c hc f hf).mp (hreports.only c (hmem.mpr (.inr hc)) _ he hid)
  · rintro ⟨hfailures, hlast⟩
    have hshown {c e : ContainerStatus} (hc : c ∈ asked) (he : e ∈ record.containers)
        (hid : e.id = c.id) : Shows e (outcome c.id) := by
      by_cases hfailed : outcome c.id = .failed
      · rw [hfailed]
        exact shows_failed_iff.mpr (hfailures c hc hfailed e he hid)
      · exact htruth.only c hc hfailed e he hid
    refine ⟨fun c hc => ?_, fun c hc e' he' hid' => ?_, fun c hc hnot => ?_⟩
    · rcases hmem.mp hc with hasked | htarget
      · by_cases hfailed : outcome c.id = .failed
        · obtain ⟨e, he, hid⟩ := htruth.listed c hasked hfailed
          exact ⟨e, hstays he (hid ▸ hlater hasked), .inl hid, hshown hasked he hid⟩
        · obtain ⟨e, he, hsame, hshows'⟩ := htruth.told c hasked hfailed
          refine ⟨e, hstays he ?_, hsame.imp_right And.left, hshows'⟩
          rcases hsame with hid | ⟨-, hnew⟩
          · exact hid ▸ hlater hasked
          · intro hmap
            obtain ⟨c', hc', hid⟩ := List.mem_map.mp hmap
            exact hnew (hid ▸ List.mem_map.mpr ⟨c', hin (hmem.mpr (.inr hc')), rfl⟩)
      · obtain ⟨e, he, hid, f, hf, rfl⟩ := hrecorded htarget
        exact ⟨f c, he, .inl hid, (hshows c htarget f hf).mpr (hlast c htarget)⟩
    · obtain ⟨e, he, hid, hsame, hf⟩ := hchanged.exists_left he'
      rcases hmem.mp hc with hasked | htarget
      · rw [hsame (hid.symm.trans hid' ▸ hlater hasked)]
        exact hshown hasked he (hid.symm.trans hid')
      · obtain rfl := List.inj_on_of_nodup_map htruth.ids he (hkept htarget) (hid.symm.trans hid')
        obtain ⟨g, hg, rfl⟩ := hf (List.mem_map.mpr ⟨e, htarget, rfl⟩)
        exact (hshows e htarget g hg).mpr (hlast e htarget)
    · refine hstays (htruth.others c hc fun hasked => hnot (hmem.mpr (.inl hasked))) fun hmap => ?_
      obtain ⟨c', hc', hid⟩ := List.mem_map.mp hmap
      have htarget := hmem.mpr (.inr hc')
      obtain rfl := List.inj_on_of_nodup_map hids (hin htarget) hc hid
      exact hnot htarget

end

/-- A local change shows its outcome; a failure only where the container had an error before and was
not marked as updated. -/
theorem LocalChange.shows_iff {oc : Outcome} {f : ContainerStatus → ContainerStatus}
    {c : ContainerStatus} (h : LocalChange oc f) :
    Shows (f c) oc ↔ (oc = .failed → c.error ≠ "" ∧ c.updated = false) := by
  cases oc with
  | updated =>
      obtain ⟨now, rfl⟩ := h
      simp [Shows, updateScanContainerStatus]
  | skipped =>
      obtain ⟨now, rfl⟩ := h
      simp [Shows, updateScanContainerStatus]
  | failed =>
      obtain rfl : f = id := h
      simp [Shows, and_comm]
  | restarted => exact h.elim

/-- A remote one shows a failure where the container was not marked as updated. -/
theorem RemoteChange.shows_iff {oc : Outcome} {f : ContainerStatus → ContainerStatus}
    {c : ContainerStatus} (h : RemoteChange oc f) :
    Shows (f c) oc ↔ (oc = .failed → c.updated = false) := by
  cases oc with
  | updated =>
      obtain ⟨now, rfl⟩ := h
      simp [Shows, updateScanContainerStatus]
  | skipped =>
      obtain ⟨now, rfl⟩ := h
      simp [Shows, updateScanContainerStatus]
  | failed =>
      obtain ⟨err, now, rfl⟩ := h
      simp [Shows]
  | restarted => exact h.elim

section

variable {lower : Lowering} {refreshed : String → ScanResult} {p : Process} {ctx : ScanContext}
  {cfg : Config}
  {srv : LocalServer} {remote : RemoteServer} {n : ℕ}

/-- A local update that ends without an error has recorded the outcomes in its way. -/
theorem exec_autoUpdateLocal
    (h : Exec (answersSem lower outcome refreshed) (autoUpdateLocal p ctx cfg srv result) ()
      (out, n, none) ()) :
    Records LocalChange outcome (updateTargets result.containers) result.containers
      out.containers := by
  rw [autoUpdateLocal] at h
  by_cases hempty : (updateTargets result.containers).isEmpty = true
  · rw [if_pos hempty] at h
    obtain ⟨heq, -⟩ := exec_done.mp h
    obtain ⟨rfl, -⟩ := Prod.mk.inj heq
    rw [List.isEmpty_iff.mp hempty]
    exact .nil
  rw [if_neg hempty] at h
  rcases hhost : p.newWithHost (dockerHostFromSocket srv.socket) with err | host
  · rw [hhost] at h
    exact absurd (congrArg (fun x => x.2.2) (exec_done.mp h).1) (by simp)
  · rw [hhost] at h
    obtain ⟨_, _, -, h⟩ := exec_bind.mp h
    exact exec_autoUpdateLoop h

/-- Publishing a state does not touch the records. -/
theorem exec_setScanState (isLocal : Bool) (name : String) (state : ScanPhase) :
    Exec (answersSem lower outcome refreshed) (setScanState isLocal name state) () () () :=
  exec_bind.mpr ⟨0, (), exec_perform.mpr trivial, exec_perform.mpr trivial⟩

/-- A local update can come to its end with outcomes that a daemon can have. -/
theorem exists_autoUpdateLocal (outcome : String → Outcome) (refreshed : String → ScanResult)
    (ctx : ScanContext) (cfg : Config) {host : ℕ}
    (hhost : p.newWithHost (dockerHostFromSocket srv.socket) = .ok host)
    (hlocal : ∀ c ∈ updateTargets result.containers, outcome c.id ≠ .restarted) :
    ∃ out n, Exec (answersSem lower outcome refreshed) (autoUpdateLocal p ctx cfg srv result) ()
      (out, n, none) () := by
  rw [autoUpdateLocal]
  by_cases hempty : (updateTargets result.containers).isEmpty = true
  · rw [if_pos hempty]
    exact ⟨result, 0, .done⟩
  rw [if_neg hempty, hhost]
  obtain ⟨out, n, hexec⟩ := exists_autoUpdateLoop refreshed ctx cfg host 0 _ result hlocal
  exact ⟨out, n, exec_bind.mpr ⟨(), (), exec_setScanState .., hexec⟩⟩

/-- The targets with the agent last are the targets in another order. -/
theorem perm_agentLast (targets : List ContainerStatus) : (agentLast lower targets).Perm targets :=
  List.perm_append_comm.trans (List.filter_append_perm (isRemoteAgentUpdateTarget lower) targets)

/-- **What is left of a remote update** that ends without an error: the changes for the targets
after the last restart, in the record that the agent has reported then. -/
theorem exec_autoUpdateRemote
    (h : Exec (answersSem lower outcome refreshed) (autoUpdateRemote lower ctx cfg remote result) ()
      (out, n, none) ()) :
    Records RemoteChange outcome
      (afterRestart outcome (agentLast lower (updateTargets result.containers)))
      (lastRecord outcome (agentLast lower (updateTargets result.containers)) refreshed
        result).containers out.containers := by
  have hsplit := untilRestart_append_afterRestart outcome
    (agentLast lower (updateTargets result.containers))
  rw [autoUpdateRemote] at h
  generalize agentLast lower (updateTargets result.containers) = targets at *
  by_cases hempty : targets.isEmpty = true
  · obtain rfl := List.isEmpty_iff.mp hempty
    obtain ⟨heq, -⟩ := exec_done.mp h
    obtain ⟨rfl, -⟩ := Prod.mk.inj heq
    exact .nil
  rw [if_neg hempty] at h
  obtain ⟨_, _, -, h⟩ := exec_bind.mp h
  rcases List.eq_nil_or_concat (untilRestart outcome targets) with hnone | ⟨front, c, hlast⟩
  · rw [lastRecord, hnone]
    rw [hnone, List.nil_append] at hsplit
    rw [hsplit]
    refine exec_autoUpdateRemoteLoop (fun c hc => ?_) h
    rw [← hsplit] at hc
    exact not_restarted_of_mem_afterRestart hc
  · rw [List.concat_eq_append] at hlast
    rw [lastRecord, hlast, List.getLast?_concat]
    rw [← hsplit, hlast, List.append_assoc, List.singleton_append] at h
    obtain ⟨n', hrest⟩ := exec_autoUpdateRemoteLoop_restart (restarted_of_untilRestart hlast) h
    exact exec_autoUpdateRemoteLoop (fun c hc => not_restarted_of_mem_afterRestart hc) hrest

/-- A remote update can come to its end with any outcomes. -/
theorem exists_autoUpdateRemote (ctx : ScanContext) (cfg : Config) (remote : RemoteServer)
    (hconfirms : ∀ c ∈ updateTargets result.containers, outcome c.id = .restarted →
      Confirms c (refreshed c.id)) :
    ∃ out n, Exec (answersSem lower outcome refreshed)
      (autoUpdateRemote lower ctx cfg remote result) () (out, n, none) () := by
  rw [autoUpdateRemote]
  by_cases hempty : (agentLast lower (updateTargets result.containers)).isEmpty = true
  · rw [if_pos hempty]
    exact ⟨result, 0, .done⟩
  rw [if_neg hempty]
  obtain ⟨out, n, hexec⟩ := exists_autoUpdateRemoteLoop ctx cfg remote 0
    (agentLast lower (updateTargets result.containers)) result
    fun c hc => hconfirms c ((perm_agentLast _).mem_iff.mp hc)
  exact ⟨out, n, exec_bind.mpr ⟨(), (), exec_setScanState .., hexec⟩⟩

end

end

/-- **When automatic updates report what came of them.** Take a record in which no two containers
have the same ID, outcomes for its containers, and a record that the agent reports for each of them
whose restart is confirmed.

Every local update with these outcomes that ends without an error reports them if and only if each
failed target had an error in the record before and was not marked as updated.

If the agent tells all that it has done when its last restart is confirmed, every remote update
reports them if and only if each target that failed before that restart has an error in what the
agent reports then and is not marked as updated there, and no target that failed later was marked as
updated before. -/
theorem autoUpdate_reports_iff (lower : Lowering) {outcome : String → Outcome}
    {refreshed : String → ScanResult} {result : ScanResult}
    (hids : (result.containers.map (·.id)).Nodup) :
    ((∀ c ∈ updateTargets result.containers, outcome c.id ≠ .restarted) →
      ((∀ p ctx cfg srv out n, Exec (answersSem p.lower outcome refreshed)
          (autoUpdateLocal p ctx cfg srv result) () (out, n, none) () →
          Reports outcome result out) ↔
        ∀ c ∈ updateTargets result.containers, outcome c.id = .failed →
          c.error ≠ "" ∧ c.updated = false)) ∧
    let targets := agentLast lower (updateTargets result.containers)
    let record := lastRecord outcome targets refreshed result
    ((∀ c ∈ targets, outcome c.id = .restarted → Confirms c (refreshed c.id)) →
      (untilRestart outcome targets ≠ [] →
        Truthful outcome result (untilRestart outcome targets) record) →
      ((∀ ctx cfg remote out n, Exec (answersSem lower outcome refreshed)
          (autoUpdateRemote lower ctx cfg remote result) () (out, n, none) () →
          Reports outcome result out) ↔
        (∀ c ∈ untilRestart outcome targets, outcome c.id = .failed →
          ∀ e ∈ record.containers, e.id = c.id → e.error ≠ "" ∧ e.updated = false) ∧
        ∀ c ∈ afterRestart outcome targets, outcome c.id = .failed → c.updated = false)) := by
  refine ⟨fun hlocal => ?_, fun hconfirms htruth => ?_⟩
  · have hiff {p ctx cfg srv out n} (hexec : Exec (answersSem p.lower outcome refreshed)
        (autoUpdateLocal p ctx cfg srv result) () (out, n, none) ()) :=
      (exec_autoUpdateLocal hexec).tells_iff localChange_id hids (.refl _) (truthful_nil hids)
        fun _ _ _ hf => hf.shows_iff
    constructor
    · intro hreports
      have hhost : controller.newWithHost (dockerHostFromSocket
          (LocalServer.mk "docker" "" false).socket) = .ok 0 := rfl
      obtain ⟨out, n, hexec⟩ :=
        exists_autoUpdateLocal outcome refreshed (.request 0) dockerConfig hhost hlocal
      exact ((hiff hexec).mp (hreports _ _ _ _ _ _ hexec)).2
    · exact fun hcond p ctx cfg srv out n hexec => (hiff hexec).mpr ⟨nofun, hcond⟩
  · have hperm : (agentLast lower (updateTargets result.containers)).Perm _ := perm_agentLast _
    have htruth' : Truthful outcome result
        (untilRestart outcome (agentLast lower (updateTargets result.containers)))
        (lastRecord outcome (agentLast lower (updateTargets result.containers)) refreshed
          result) := by
      by_cases hnone : untilRestart outcome (agentLast lower (updateTargets result.containers)) = []
      · rw [lastRecord, hnone]
        exact truthful_nil hids
      · exact htruth hnone
    have hiff {ctx cfg remote out n} (hexec : Exec (answersSem lower outcome refreshed)
        (autoUpdateRemote lower ctx cfg remote result) () (out, n, none) ()) :=
      (exec_autoUpdateRemote hexec).tells_iff remoteChange_id hids
        ((List.Perm.of_eq (untilRestart_append_afterRestart _ _)).trans hperm) htruth'
        fun _ _ _ hf => hf.shows_iff
    constructor
    · intro hreports
      obtain ⟨out, n, hexec⟩ := exists_autoUpdateRemote (.request 0) dockerConfig
        ⟨"agent", "", "", false⟩ fun c hc => hconfirms c (hperm.mem_iff.mpr hc)
      exact (hiff hexec).mp (hreports _ _ _ _ _ hexec)
    · exact fun hcond ctx cfg remote out n hexec => (hiff hexec).mpr hcond

/-! ### Failures that are not reported -/

/-- The status of a container that is to be updated. -/
def dueStatus (id name : String) (self : Bool) : ContainerStatus where
  id := id
  name := name
  image := name
  imageID := ""
  newImageID := ""
  running := true
  paused := false
  self := self
  policy := policyUpdate
  updateAvailable := true
  updated := false
  lastChecked := 0
  error := ""

/-- The record of an agent and an application that are to be updated. -/
def dueRecord : ScanResult :=
  { ScanResult.zero with containers := [dueStatus "1" "agent" true, dueStatus "2" "app" false] }

/-- The update of the application fails, and that of the agent ends in a restart. -/
def appFails (containerID : String) : Outcome := if containerID = "2" then .failed else .restarted

/-- What the agent reports after its restart. -/
def restartedRecord : ScanResult :=
  { ScanResult.zero with containers :=
      [{ dueStatus "3" "agent" true with updated := true, updateAvailable := false },
        dueStatus "2" "app" false] }

/-- What the agent reports after its restart, when the application was updated before. -/
def updatedRecord : ScanResult :=
  { ScanResult.zero with containers :=
      [{ dueStatus "4" "app" false with updated := true, updateAvailable := false },
        { dueStatus "3" "agent" true with updated := true, updateAvailable := false }] }

instance (c : ContainerStatus) (outcome : Outcome) : Decidable (Shows c outcome) :=
  inferInstanceAs (Decidable (_ ∧ _))

/-- In the sample record the agent comes last. -/
theorem agentLast_dueRecord :
    agentLast .ascii (updateTargets dueRecord.containers) =
      [dueStatus "2" "app" false, dueStatus "1" "agent" true] := by
  decide

/-- The restart of the agent is confirmed by either record. -/
theorem confirms_agent {outcome : String → Outcome} {record : ScanResult}
    (happ : outcome "2" ≠ .restarted)
    (hagent : { dueStatus "3" "agent" true with updated := true, updateAvailable := false } ∈
      record.containers) :
    ∀ c ∈ agentLast .ascii (updateTargets dueRecord.containers), outcome c.id = .restarted →
      Confirms c record := by
  rw [agentLast_dueRecord]
  intro c hc hrestarted
  rcases List.mem_cons.mp hc with rfl | hc
  · exact absurd hrestarted happ
  · obtain rfl := List.mem_singleton.mp hc
    exact ⟨_, hagent, Or.inl rfl, rfl, rfl⟩

/-- The agent that has restarted knows nothing of the request that was refused. -/
theorem truthful_restartedRecord :
    Truthful appFails dueRecord [dueStatus "2" "app" false, dueStatus "1" "agent" true]
      restartedRecord where
  ids := by decide
  told := by decide
  only := by decide
  listed := by decide
  others := by decide

/-- Automatic updates may conceal failures: a local one that fails leaves no trace, and the
trace of a remote one is erased by the restart of the agent, though its record is truthful. -/
theorem autoUpdate_can_conceal :
    (¬ ∀ (outcome : String → Outcome) (refreshed : String → ScanResult) (result : ScanResult)
      (p : Process) (ctx : ScanContext) (cfg : Config) (srv : LocalServer) (out : ScanResult)
      (n : ℕ), (result.containers.map (·.id)).Nodup →
      (∀ c ∈ updateTargets result.containers, outcome c.id ≠ .restarted) →
      Exec (answersSem p.lower outcome refreshed) (autoUpdateLocal p ctx cfg srv result) ()
        (out, n, none) () →
      Reports outcome result out) ∧
    ¬ ∀ (outcome : String → Outcome) (refreshed : String → ScanResult) (result : ScanResult)
      (lower : Lowering) (ctx : ScanContext) (cfg : Config) (remote : RemoteServer)
      (out : ScanResult) (n : ℕ),
      let targets := agentLast lower (updateTargets result.containers)
      (result.containers.map (·.id)).Nodup →
      (∀ c ∈ targets, outcome c.id = .restarted → Confirms c (refreshed c.id)) →
      Truthful outcome result (untilRestart outcome targets)
        (lastRecord outcome targets refreshed result) →
      Exec (answersSem lower outcome refreshed) (autoUpdateRemote lower ctx cfg remote result) ()
        (out, n, none) () →
      Reports outcome result out := by
  have hids : (dueRecord.containers.map (·.id)).Nodup := by decide
  have happ : dueStatus "2" "app" false ∈ updateTargets dueRecord.containers := by decide
  refine ⟨fun h => ?_, fun h => ?_⟩
  · have hhost : controller.newWithHost (dockerHostFromSocket
        (LocalServer.mk "docker" "" false).socket) = .ok 0 := rfl
    have hfails : ∀ c ∈ updateTargets dueRecord.containers,
        (fun _ => Outcome.failed) c.id ≠ .restarted := fun c _ => by simp
    obtain ⟨out, n, hexec⟩ := exists_autoUpdateLocal (fun _ => .failed) (fun _ => restartedRecord)
      (.request 0) dockerConfig hhost hfails
    have hcond := ((exec_autoUpdateLocal hexec).tells_iff localChange_id hids (.refl _)
      (truthful_nil hids) fun _ _ _ hf => hf.shows_iff).mp (h _ _ _ _ _ _ _ _ _ hids hfails hexec)
    exact (hcond.2 _ happ rfl).1 rfl
  · have huntil : untilRestart appFails (agentLast .ascii (updateTargets dueRecord.containers)) =
        [dueStatus "2" "app" false, dueStatus "1" "agent" true] := by decide
    have hafter :
        afterRestart appFails (agentLast .ascii (updateTargets dueRecord.containers)) = [] := by
      decide
    have hlast : lastRecord appFails (agentLast .ascii (updateTargets dueRecord.containers))
        (fun _ => restartedRecord) dueRecord = restartedRecord := by
      rw [lastRecord, huntil]
      rfl
    have hconfirms : ∀ c ∈ agentLast .ascii (updateTargets dueRecord.containers),
        appFails c.id = .restarted → Confirms c restartedRecord :=
      confirms_agent (by decide) (List.mem_cons_self ..)
    have htruth : Truthful appFails dueRecord
        (untilRestart appFails (agentLast .ascii (updateTargets dueRecord.containers)))
        (lastRecord appFails (agentLast .ascii (updateTargets dueRecord.containers))
          (fun _ => restartedRecord) dueRecord) := by
      rw [huntil, hlast]
      exact truthful_restartedRecord
    obtain ⟨out, n, hexec⟩ : ∃ out n, Exec (answersSem .ascii appFails fun _ => restartedRecord)
        (autoUpdateRemote .ascii (.request 0) dockerConfig ⟨"agent", "http://agent", "", false⟩
          dueRecord) () (out, n, none) () :=
      exists_autoUpdateRemote _ _ _ fun c hc => hconfirms c ((perm_agentLast _).mem_iff.mpr hc)
    have hreports := h _ _ _ _ _ _ _ _ _ hids hconfirms htruth hexec
    -- the status of the application is still the one that the agent has reported
    have hrecords := exec_autoUpdateRemote hexec
    rw [hafter, hlast] at hrecords
    have happ' : dueStatus "2" "app" false ∈ out.containers := by
      rw [hrecords.eq_of_nil]
      exact List.mem_cons_of_mem _ (List.mem_singleton_self _)
    have hshows := hreports.only _ happ _ happ' rfl
    exact hshows.2.mpr (by decide) rfl

/-- The application is updated, and then the agent restarts. -/
def agentRestarts (containerID : String) : Outcome :=
  if containerID = "2" then .updated else .restarted

/-- Where all updates succeed, both report it, the remote one also after a restart of the agent. -/
theorem autoUpdate_reports_success :
    (∀ p ctx cfg srv out n, Exec (answersSem p.lower (fun _ => .updated) fun _ => updatedRecord)
        (autoUpdateLocal p ctx cfg srv dueRecord) () (out, n, none) () →
      Reports (fun _ => .updated) dueRecord out) ∧
    ∀ ctx cfg remote out n, Exec (answersSem .ascii agentRestarts fun _ => updatedRecord)
        (autoUpdateRemote .ascii ctx cfg remote dueRecord) () (out, n, none) () →
      Reports agentRestarts dueRecord out := by
  have hids : (dueRecord.containers.map (·.id)).Nodup := by decide
  have hnone : ∀ c ∈ updateTargets dueRecord.containers,
      (fun _ => Outcome.updated) c.id ≠ .restarted := fun c _ => by simp
  have huntil : untilRestart agentRestarts (agentLast .ascii (updateTargets dueRecord.containers)) =
      [dueStatus "2" "app" false, dueStatus "1" "agent" true] := by decide
  have hafter :
      afterRestart agentRestarts (agentLast .ascii (updateTargets dueRecord.containers)) = [] := by
    decide
  have hlast : lastRecord agentRestarts (agentLast .ascii (updateTargets dueRecord.containers))
      (fun _ => updatedRecord) dueRecord = updatedRecord := by
    rw [lastRecord, huntil]
    rfl
  have hconfirms : ∀ c ∈ agentLast .ascii (updateTargets dueRecord.containers),
      agentRestarts c.id = .restarted → Confirms c ((fun _ => updatedRecord) c.id) :=
    confirms_agent (by decide) (List.mem_cons_of_mem _ (List.mem_singleton_self _))
  have htruth : Truthful agentRestarts dueRecord
      [dueStatus "2" "app" false, dueStatus "1" "agent" true] updatedRecord :=
    ⟨by decide, by decide, by decide, by decide, by decide⟩
  have hremote := (autoUpdate_reports_iff .ascii hids).2 hconfirms fun _ => by
    rw [huntil, hlast]
    exact htruth
  refine ⟨((autoUpdate_reports_iff .ascii hids).1 hnone).mpr fun c _ h => absurd h (by simp),
    hremote.mpr ⟨fun c hc hfailed => ?_, fun c hc => ?_⟩⟩
  · rw [agentRestarts] at hfailed
    split_ifs at hfailed
  · rw [hafter] at hc
    exact absurd hc (by simp)

end Contiwatch
