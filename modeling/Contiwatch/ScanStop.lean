import Contiwatch.ScanPhases

/-!
# Stopping a Scan

`scanCancel` is one field for all scans. A request to scan overwrites it before anything else
and takes it away at its end, whoever installed what is there then; a scan of the scheduler
never installs anything. So a request to stop may find nothing to cancel, or the context of
another request, while a scan is in progress.

## Main results

* `run_stop_cancels_scan` — where every request installs its cancel function only while there
  is none, and no scan of the scheduler is in progress, a request to stop cancels the context
  that every scan in progress runs under.
-/

namespace Contiwatch

open GoStrings Prog

/-- The server and the threads that work on it. -/
abbrev ServerPool := Pool Server Request ServerOp.Res Response

/-! ### Scans in progress -/

/-- The program has set `scanRunning` and is to unset it. -/
def HoldsScan (q : ServerProg Response) : Prop := q.Owes (· = .endScan) (· = .beginScan)

/-- The program counts in `remoteScanRunning`. -/
def HoldsRemote (q : ServerProg Response) : Prop :=
  q.Owes (· = .addRemoteScanRunning (-1)) (· = .addRemoteScanRunning 1)

/-- The program is in the middle of a scan. -/
def InProgress (q : ServerProg Response) : Prop := HoldsScan q ∨ HoldsRemote q

/-- The program looks at no context but `ctx`, and hands no other one to a goroutine. -/
def RunsUnder (ctx : ScanContext) (q : ServerProg Response) : Prop :=
  q.Ops fun o => (∀ c, o = .ctxErr c → c = ctx) ∧
    ∀ c remotes, o = .goRemoteScans c remotes → c = ctx

instance : ∀ o : ServerOp, Nonempty o.Res := by
  intro o
  cases o with
  | newContext => exact ⟨.request 0⟩
  | scanNoUpdate => exact ⟨.error ""⟩
  | updateContainer => exact ⟨.error .idRequired⟩
  | updateRemoteContainer => exact ⟨.error ⟨"", false⟩⟩
  | updateRemoteSelfUpdate => exact ⟨.error ⟨"", false⟩⟩
  | storeGet => exact ⟨⟨"", false, false, [], []⟩⟩
  | _ => infer_instance

/-- What changes the hold of a thread. -/
def ServerOp.Counts : ServerOp → Prop
  | .beginScan | .endScan | .addRemoteScanRunning _ => True
  | _ => False

/-- An operation that counts no scan leaves what a thread holds. -/
theorem next_hold {o : ServerOp} (ho : ¬ o.Counts) (f : ThreadPhase) (r : o.Res) :
    (f.next o r).hold = f.hold := by
  cases o with
  | storeGet =>
      rw [ThreadPhase.next]
      split_ifs <;> rfl
  | setScanCancel ctx =>
      cases ctx with
      | none => rfl
      | some ctx => rfl
  | _ => first | exact absurd trivial ho | rfl

/-- **How the hold of a thread changes.** -/
theorem hold_cases {f : ThreadPhase} {o : ServerOp} (ho : f.Allowed o) (r : o.Res) :
    (¬ o.Counts ∧ (f.next o r).hold = f.hold) ∨
    (o = .beginScan ∧ f.hold = .none ∧ (f.next o r).hold ≠ .remote) ∨
    (o = .endScan ∧ f.hold = .scan ∧ (f.next o r).hold = .none) ∨
    (o = .addRemoteScanRunning 1 ∧ f.hold = .none ∧ (f.next o r).hold = .remote) ∨
    (o = .addRemoteScanRunning (-1) ∧ f.hold = .remote ∧ (f.next o r).hold = .none) := by
  by_cases hcounts : o.Counts
  swap
  · exact Or.inl ⟨hcounts, next_hold hcounts f r⟩
  cases o with
  | beginScan =>
      refine Or.inr (Or.inl ⟨rfl, ho.2, ?_⟩)
      cases r with
      | true => exact fun h => Hold.noConfusion h
      | false => exact ho.2.symm ▸ fun h => Hold.noConfusion h
  | endScan => exact Or.inr (Or.inr (Or.inl ⟨rfl, ho, rfl⟩))
  | addRemoteScanRunning n =>
      rcases ho with ⟨rfl, -, hhold⟩ | ⟨rfl, hhold⟩
      · exact Or.inr (Or.inr (Or.inr (Or.inl ⟨rfl, hhold, rfl⟩)))
      · exact Or.inr (Or.inr (Or.inr (Or.inr ⟨rfl, hhold, rfl⟩)))
  | _ => exact hcounts.elim

/-- What changes the role of a thread. -/
def ServerOp.Installs : ServerOp → Prop
  | .newContext | .setScanCancel _ | .goRemoteScans .. => True
  | _ => False

/-- One that installs no cancellation leaves its role. -/
theorem next_role {o : ServerOp} (ho : ¬ o.Installs) (f : ThreadPhase) (r : o.Res) :
    (f.next o r).role = f.role := by
  cases o with
  | storeGet =>
      rw [ThreadPhase.next]
      split_ifs <;> rfl
  | beginScan =>
      cases r with
      | true => rfl
      | false => rfl
  | _ => first | exact absurd trivial ho | rfl

/-- **How the role of a thread changes.** -/
theorem role_cases {f : ThreadPhase} {o : ServerOp} (ho : f.Allowed o) (r : o.Res) :
    (¬ o.Installs ∧ (f.next o r).role = f.role) ∨
    (o = .newContext ∧ f.role = .starting ∧ ∃ ctx, (f.next o r).role = .created ctx) ∨
    (∃ ctx, o = .setScanCancel (some ctx) ∧ f.role = .created ctx ∧
      (f.next o r).role = .installed ctx) ∨
    (∃ ctx, o = .setScanCancel none ∧ f.role = .installed ctx ∧ f.hold = .none ∧
      (f.next o r).role = .over) ∨
    (∃ ctx remotes, o = .goRemoteScans ctx remotes ∧ f.role = .installed ctx ∧
      f.hold = .none ∧ (f.next o r).role = .over) := by
  by_cases hinstalls : o.Installs
  swap
  · exact Or.inl ⟨hinstalls, next_role hinstalls f r⟩
  cases o with
  | newContext => exact Or.inr (Or.inl ⟨rfl, ho, r, rfl⟩)
  | setScanCancel ctx =>
      cases ctx with
      | some ctx => exact Or.inr (Or.inr (Or.inl ⟨ctx, rfl, ho, rfl⟩))
      | none =>
          obtain ⟨⟨ctx, hrole⟩, hhold⟩ := ho
          exact Or.inr (Or.inr (Or.inr (Or.inl ⟨ctx, rfl, hrole, hhold, rfl⟩)))
  | goRemoteScans ctx remotes =>
      exact Or.inr (Or.inr (Or.inr (Or.inr ⟨ctx, remotes, rfl, ho.1, ho.2, rfl⟩)))
  | _ => exact hinstalls.elim

section

variable {f : ThreadPhase} {q : ServerProg Response}

/-- A thread that holds no scan cannot be about to end one. -/
theorem not_holdsScan (h : Obeys scanProtocol (fun _ => Finished) f q) (hf : f.hold ≠ .scan) :
    ¬ HoldsScan q := by
  refine h.not_owes (J := fun g => g.hold ≠ .scan) hf fun g o hg ho => ⟨?_, ?_⟩
  · rintro rfl
    exact hg ho
  · intro hbegin r
    rcases hold_cases ho r with ⟨-, h⟩ | ⟨h, -⟩ | ⟨-, -, h⟩ | ⟨-, -, h⟩ | ⟨-, -, h⟩
    · exact h.symm ▸ hg
    · exact absurd h hbegin
    all_goals
      change (g.next o r).hold ≠ .scan
      simp [h]

/-- Nor one that holds no remote scan. -/
theorem not_holdsRemote (h : Obeys scanProtocol (fun _ => Finished) f q)
    (hf : f.hold ≠ .remote) : ¬ HoldsRemote q := by
  refine h.not_owes (J := fun g => g.hold ≠ .remote) hf fun g o hg ho => ⟨?_, ?_⟩
  · rintro rfl
    rcases ho with ⟨hn, -⟩ | ⟨-, hhold⟩
    · exact absurd hn (by decide)
    · exact hg hhold
  · intro hbegin r
    rcases hold_cases ho r with ⟨-, h⟩ | ⟨-, -, h⟩ | ⟨-, -, h⟩ | ⟨h, -⟩ | ⟨-, -, h⟩
    · exact h.symm ▸ hg
    · exact h
    · change (g.next o r).hold ≠ .remote
      simp [h]
    · exact absurd h hbegin
    · change (g.next o r).hold ≠ .remote
      simp [h]

/-- A thread that holds the scan still has its end to come. -/
theorem holdsScan (h : Obeys scanProtocol (fun _ => Finished) f q) (hf : f.hold = .scan) :
    HoldsScan q := by
  refine h.owes (J := fun g => g.hold = .scan) hf ?_ fun g o hg ho hend => ?_
  · intro a g hg hfinished
    exact absurd (hg.symm.trans hfinished.hold) (by simp)
  · refine ⟨?_, fun r => ?_⟩
    · rintro rfl
      exact absurd (hg.symm.trans ho.2) (by simp)
    · rcases hold_cases ho r with ⟨-, h⟩ | ⟨-, h, -⟩ | ⟨h, -⟩ | ⟨-, h, -⟩ | ⟨-, h, -⟩
      · exact h.trans hg
      · exact absurd (hg.symm.trans h) (by simp)
      · exact absurd h hend
      · exact absurd (hg.symm.trans h) (by simp)
      · exact absurd (hg.symm.trans h) (by simp)

/-- So has one that holds a remote scan. -/
theorem holdsRemote (h : Obeys scanProtocol (fun _ => Finished) f q) (hf : f.hold = .remote) :
    HoldsRemote q := by
  refine h.owes (J := fun g => g.hold = .remote) hf ?_ fun g o hg ho hend => ?_
  · intro a g hg hfinished
    exact absurd (hg.symm.trans hfinished.hold) (by simp)
  · refine ⟨?_, fun r => ?_⟩
    · rintro rfl
      rcases ho with ⟨-, -, hhold⟩ | ⟨hn, -⟩
      · exact absurd (hg.symm.trans hhold) (by simp)
      · exact absurd hn (by decide)
    · rcases hold_cases ho r with ⟨-, h⟩ | ⟨-, h, -⟩ | ⟨-, h, -⟩ | ⟨-, h, -⟩ | ⟨h, -⟩
      · exact h.trans hg
      · exact absurd (hg.symm.trans h) (by simp)
      · exact absurd (hg.symm.trans h) (by simp)
      · exact absurd (hg.symm.trans h) (by simp)
      · exact absurd h hend

/-- A thread is in the middle of a scan exactly if its phase holds something. -/
theorem inProgress_iff (h : Obeys scanProtocol (fun _ => Finished) f q) :
    InProgress q ↔ f.hold ≠ .none := by
  rcases hhold : f.hold with _ | _ | _
  · have hscan := not_holdsScan h (by simp [hhold])
    have hremote := not_holdsRemote h (by simp [hhold])
    simp [InProgress, hscan, hremote]
  · simp [InProgress, holdsScan h hhold]
  · simp [InProgress, holdsRemote h hhold]

/-- A thread whose context is installed looks at no other one. -/
theorem runsUnder_of_installed {ctx : ScanContext}
    (h : Obeys scanProtocol (fun _ => Finished) f q) (hf : f.role = .installed ctx) :
    RunsUnder ctx q := by
  refine h.ops (J := fun g => g.role = .installed ctx ∨ g.role = .over) (Or.inl hf) ?_
  intro g o hg ho
  refine ⟨⟨?_, ?_⟩, fun r => ?_⟩
  · rintro c rfl
    have hc : g.role.ctx = some c := ho
    rcases hg with hg | hg
    · rw [hg] at hc
      exact (Option.some.inj hc).symm
    · rw [hg] at hc
      exact absurd hc (by simp [Role.ctx])
  · rintro c remotes rfl
    have hc : g.role = .installed c := ho.1
    rcases hg with hg | hg
    · exact Role.installed.inj (hc.symm.trans hg)
    · exact absurd (hc.symm.trans hg) (by simp)
  · rcases role_cases ho r with
      ⟨-, h⟩ | ⟨-, h, -⟩ | ⟨c, -, h, -⟩ | ⟨c, -, -, -, h⟩ | ⟨c, _, -, -, -, h⟩
    · exact hg.imp h.trans h.trans
    · rcases hg with hg | hg <;> exact absurd (hg.symm.trans h) (by simp)
    · rcases hg with hg | hg <;> exact absurd (hg.symm.trans h) (by simp)
    · exact Or.inr h
    · exact Or.inr h

end

/-! ### The cancel functions of all threads -/

/-- The context that the thread has installed. -/
def ThreadPhase.installed (f : ThreadPhase) : Option ScanContext :=
  match f.role with
  | .installed ctx => some ctx
  | _ => none

/-- The contexts that threads, and goroutines that have not run yet, have installed. -/
def installs (s : Server) (phases : List (Request × ThreadPhase)) : List ScanContext :=
  phases.filterMap (fun ph => ph.2.installed) ++ s.remoteScans.map Prod.fst

/-- The cancellations installed, a thread in the middle set apart. -/
theorem installs_append (s : Server) (fs gs : List (Request × ThreadPhase)) (i : Request)
    (f : ThreadPhase) : installs s (fs ++ (i, f) :: gs) =
      fs.filterMap (fun ph => ph.2.installed) ++ (f.installed.toList ++ installs s gs) := by
  rw [installs, installs, List.filterMap_append, List.filterMap_cons]
  cases f.installed <;> simp

/-- The context that is installed is alone in the list, and it is the one of `scanCancel`. -/
theorem append_cons_eq_toList {α : Type} {xs ys : List α} {x : α} {o : Option α}
    (h : xs ++ x :: ys = o.toList) : xs = [] ∧ ys = [] ∧ o = some x := by
  cases o with
  | none => exact absurd h (by simp)
  | some y =>
      cases xs with
      | nil =>
          obtain ⟨rfl, rfl⟩ := List.cons.inj h
          exact ⟨rfl, rfl, rfl⟩
      | cons x' xs => exact absurd (List.cons.inj h).2 (by simp)

/-- A thread that has installed a context has installed that one. -/
theorem installed_eq {f : ThreadPhase} {ctx : ScanContext} (h : f.role = .installed ctx) :
    f.installed = some ctx := by
  rw [ThreadPhase.installed, h]

/-- A request installs its cancel function only while there is none. -/
def InstallsAlone (s : Server) : PoolEvent Request ServerOp.Res → Prop
  | .op _ (.setScanCancel (some _)) _ => s.scanCancel = none
  | _ => True

/-- At most one thread has its cancel function installed, and it is the one in `scanCancel`. -/
def CancelInv (s : Server) (phases : List (Request × ThreadPhase)) : Prop :=
  installs s phases = s.scanCancel.toList

section

variable {p : Process} {s t : Server} {fs gs : List (Request × ThreadPhase)} {i : Request}
  {f : ThreadPhase}

/-- Only installing changes `scanCancel` and the goroutines left behind. -/
theorem scanCancel_of_serverSem {o : ServerOp} {r : o.Res} (ho : ¬ o.Installs)
    (hsem : serverSem p o s r t) :
    t.scanCancel = s.scanCancel ∧ t.remoteScans = s.remoteScans := by
  by_cases hscans : o.OfScans
  swap
  · have hsame := sameScans_of_serverSem hscans hsem
    exact ⟨hsame.scanCancel, hsame.remoteScans⟩
  cases o with
  | beginScan =>
      rw [serverSem.eq_def] at hsem
      dsimp only at hsem
      split_ifs at hsem
      · rw [hsem.2]
        exact ⟨rfl, rfl⟩
      · rw [hsem.2]
        exact ⟨rfl, rfl⟩
  | resetScanStates =>
      obtain rfl : t = _ := hsem
      exact ⟨rfl, rfl⟩
  | setScanStateKey =>
      obtain rfl : t = _ := hsem
      exact ⟨rfl, rfl⟩
  | cancelActiveScanStates =>
      obtain rfl : t = _ := hsem
      exact ⟨rfl, rfl⟩
  | endScan =>
      obtain rfl : t = _ := hsem
      exact ⟨rfl, rfl⟩
  | addRemoteScanRunning =>
      obtain rfl : t = _ := hsem
      exact ⟨rfl, rfl⟩
  | _ => first | exact absurd trivial ho | exact hscans.elim

/-- One operation of a thread keeps the invariant, where an installation meets no cancellation in
force. -/
theorem CancelInv.op {o : ServerOp} {r : o.Res} (h : CancelInv s (fs ++ (i, f) :: gs))
    (ho : f.Allowed o) (halone : ∀ ctx, o = .setScanCancel (some ctx) → s.scanCancel = none)
    (hsem : serverSem p o s r t) : CancelInv t (fs ++ (i, f.next o r) :: gs) := by
  rw [CancelInv, installs_append] at h ⊢
  rcases role_cases ho r with ⟨hsame, hrole⟩ | ⟨rfl, hstarting, ctx, hrole⟩ |
    ⟨ctx, rfl, hcreated, hrole⟩ | ⟨ctx, rfl, hinstalled, -, hrole⟩ |
    ⟨ctx, remotes, rfl, hinstalled, -, hrole⟩
  · obtain ⟨hcancel, hremote⟩ := scanCancel_of_serverSem hsame hsem
    rw [hcancel, ← h, installs, hremote, ThreadPhase.installed, hrole]
    rfl
  · obtain ⟨-, rfl⟩ := hsem
    rw [ThreadPhase.installed, hstarting] at h
    rw [ThreadPhase.installed, hrole]
    exact h
  · obtain rfl : t = { s with scanCancel := some ctx } := hsem
    rw [halone ctx rfl, Option.toList_none, List.append_eq_nil_iff,
      List.append_eq_nil_iff] at h
    rw [installed_eq hrole, h.1, List.nil_append]
    exact congrArg ([ctx] ++ ·) h.2.2
  · obtain rfl : t = { s with scanCancel := none } := hsem
    rw [installed_eq hinstalled] at h
    obtain ⟨hfs, hgs, -⟩ := append_cons_eq_toList h
    rw [hfs, ThreadPhase.installed, hrole]
    exact hgs
  · obtain rfl : t = { s with remoteScans := s.remoteScans ++ [(ctx, remotes)] } := hsem
    rw [installed_eq hinstalled] at h
    obtain ⟨hfs, hgs, hcancel⟩ := append_cons_eq_toList h
    have hnew : installs { s with remoteScans := s.remoteScans ++ [(ctx, remotes)] } gs =
        installs s gs ++ [ctx] := by
      simp [installs]
    have hgs' : installs s gs = [] := hgs
    rw [hfs, hnew, hgs', ThreadPhase.installed, hrole]
    exact (congrArg Option.toList hcancel).symm

/-- So does a new thread. -/
theorem CancelInv.start {phases : List (Request × ThreadPhase)} (h : CancelInv s phases)
    (hstart : i.Starts s t) : CancelInv t (phases ++ [(i, i.phase)]) := by
  have hsame : ∀ j : Request, j.phase.installed = none → t = s →
      CancelInv t (phases ++ [(j, j.phase)]) := by
    rintro j hj rfl
    have hnil : [(j, j.phase)].filterMap (fun ph => ph.2.installed) = [] := by simp [hj]
    rw [CancelInv, installs, List.filterMap_append, hnil, List.append_nil]
    exact h
  cases i with
  | remoteScans ctx remotes =>
      obtain ⟨front, back, hremote, rfl⟩ := hstart
      rw [CancelInv, installs, hremote, List.map_append, List.map_cons, ← List.append_assoc] at h
      obtain ⟨hnil, hback, hcancel⟩ := append_cons_eq_toList h
      obtain ⟨hphases, hfront⟩ := List.append_eq_nil_iff.mp hnil
      rw [CancelInv, installs, List.filterMap_append, hphases, List.map_append, hfront, hback,
        List.append_nil, List.nil_append, List.append_nil]
      exact (congrArg Option.toList hcancel).symm
  | scan server => exact hsame (.scan server) rfl hstart
  | scanStop => exact hsame .scanStop rfl hstart
  | scheduledScan n => exact hsame (.scheduledScan n) rfl hstart
  | update containerID q => exact hsame (.update containerID q) rfl hstart
  | selfUpdate containerID => exact hsame (.selfUpdate containerID) rfl hstart

/-! ### The scans in progress of all threads -/

/-- The number of threads that hold `h`. -/
def held (h : Hold) (phases : List (Request × ThreadPhase)) : ℕ :=
  phases.countP fun ph => ph.2.hold = h

/-- The holders counted, a thread in the middle set apart. -/
theorem held_append (h : Hold) (fs gs : List (Request × ThreadPhase)) (i : Request)
    (f : ThreadPhase) : held h (fs ++ (i, f) :: gs) =
      held h fs + (if f.hold = h then 1 else 0) + held h gs := by
  rw [held, List.countP_append, List.countP_cons, held, held]
  simp only [decide_eq_true_eq]
  omega

/-- The threads in the middle of a scan are the ones that `scanRunning` and `remoteScanRunning`
tell of. -/
structure HoldInv (s : Server) (phases : List (Request × ThreadPhase)) : Prop where
  scanning : s.scanRunning = true → 0 < held .scan phases
  remote : s.remoteScanRunning = held .remote phases

/-- Only beginning and ending a scan changes what is running. -/
theorem running_of_serverSem {o : ServerOp} {r : o.Res} (ho : ¬ o.Counts)
    (hsem : serverSem p o s r t) :
    t.scanRunning = s.scanRunning ∧ t.remoteScanRunning = s.remoteScanRunning := by
  by_cases hscans : o.OfScans
  swap
  · have hsame := sameScans_of_serverSem hscans hsem
    exact ⟨hsame.scanRunning, hsame.remoteScanRunning⟩
  cases o with
  | resetScanStates =>
      obtain rfl : t = _ := hsem
      exact ⟨rfl, rfl⟩
  | setScanStateKey =>
      obtain rfl : t = _ := hsem
      exact ⟨rfl, rfl⟩
  | cancelActiveScanStates =>
      obtain rfl : t = _ := hsem
      exact ⟨rfl, rfl⟩
  | setScanCancel =>
      obtain rfl : t = _ := hsem
      exact ⟨rfl, rfl⟩
  | goRemoteScans =>
      obtain rfl : t = _ := hsem
      exact ⟨rfl, rfl⟩
  | _ => first | exact absurd trivial ho | exact hscans.elim

/-- One operation keeps the counts of the running scans right. -/
theorem HoldInv.op {o : ServerOp} {r : o.Res} (h : HoldInv s (fs ++ (i, f) :: gs))
    (ho : f.Allowed o) (hsem : serverSem p o s r t) :
    HoldInv t (fs ++ (i, f.next o r) :: gs) := by
  obtain ⟨hscan, hremote⟩ := h
  rw [held_append] at hscan hremote
  rcases hold_cases ho r with ⟨hsame, hhold⟩ | ⟨rfl, hnone, -⟩ | ⟨rfl, hheld, hhold⟩ |
    ⟨rfl, hnone, hhold⟩ | ⟨rfl, hheld, hhold⟩
  · obtain ⟨hrunning, hcount⟩ := running_of_serverSem hsame hsem
    refine ⟨?_, ?_⟩
    · rw [held_append, hhold, hrunning]
      exact hscan
    · rw [held_append, hhold, hcount]
      exact hremote
  · rw [serverSem.eq_def] at hsem
    dsimp only at hsem
    rw [hnone] at hscan hremote
    split_ifs at hsem
    · obtain ⟨rfl, rfl⟩ := hsem
      have hhold : (f.next .beginScan false).hold = .none := hnone
      refine ⟨?_, ?_⟩
      · rw [held_append, hhold]
        exact hscan
      · rw [held_append, hhold]
        exact hremote
    · obtain ⟨rfl, rfl⟩ := hsem
      have hhold : (f.next .beginScan true).hold = .scan := rfl
      refine ⟨fun _ => ?_, ?_⟩
      · rw [held_append, hhold]
        simp
      · rw [held_append, hhold]
        exact hremote
  · obtain rfl : t = { s with scanRunning := false } := hsem
    rw [hheld] at hremote
    refine ⟨fun h => absurd h (by simp), ?_⟩
    rw [held_append, hhold]
    exact hremote
  · obtain rfl : t = { s with remoteScanRunning := s.remoteScanRunning + 1 } := hsem
    rw [hnone] at hscan hremote
    refine ⟨?_, ?_⟩
    · rw [held_append, hhold]
      exact hscan
    · rw [held_append, hhold]
      change s.remoteScanRunning + 1 = _
      simp at hremote ⊢
      omega
  · obtain rfl : t = { s with remoteScanRunning := s.remoteScanRunning + -1 } := hsem
    rw [hheld] at hscan hremote
    refine ⟨?_, ?_⟩
    · rw [held_append, hhold]
      exact hscan
    · rw [held_append, hhold]
      change s.remoteScanRunning + -1 = _
      simp at hremote ⊢
      omega

/-- So does a new thread. -/
theorem HoldInv.start {phases : List (Request × ThreadPhase)} (h : HoldInv s phases)
    (hstart : i.Starts s t) : HoldInv t (phases ++ [(i, i.phase)]) := by
  have hrunning : t.scanRunning = s.scanRunning ∧
      t.remoteScanRunning = s.remoteScanRunning := by
    cases i with
    | remoteScans ctx remotes =>
        obtain ⟨front, back, -, rfl⟩ := hstart
        exact ⟨rfl, rfl⟩
    | _ =>
        obtain rfl : t = s := hstart
        exact ⟨rfl, rfl⟩
  have hnone : i.phase.hold = .none := by
    cases i <;> rfl
  obtain ⟨hscan, hremote⟩ := h
  refine ⟨?_, ?_⟩
  · rw [held_append, hnone, hrunning.1]
    exact hscan
  · rw [held_append, hnone, hrunning.2]
    exact hremote

/-- A thread that holds something scans, and only scans of the scheduler run under its
contexts. -/
def WellPhased (ph : Request × ThreadPhase) : Prop :=
  (ph.2.hold ≠ .none → ph.2.role.Scans) ∧ ∀ n, ph.2.role = .scheduled n → ph.1 = .scheduledScan n

/-- A thread stays in the phase its request allows. -/
theorem WellPhased.op {o : ServerOp} (h : WellPhased (i, f)) (ho : f.Allowed o) (r : o.Res) :
    WellPhased (i, f.next o r) := by
  obtain ⟨hscans, hscheduled⟩ := h
  rcases role_cases ho r with ⟨-, hrole⟩ | ⟨rfl, hstarting, ctx, hrole⟩ |
    ⟨ctx, rfl, hcreated, hrole⟩ | ⟨ctx, rfl, -, hnone, hrole⟩ |
    ⟨ctx, remotes, rfl, -, hnone, hrole⟩
  · refine ⟨fun hhold => ?_, fun n hn => hscheduled n (hrole.symm.trans hn)⟩
    have hfscans : f.role.Scans := by
      rcases hold_cases ho r with ⟨-, h⟩ | ⟨rfl, -⟩ | ⟨-, -, h⟩ | ⟨rfl, hnone, -⟩ | ⟨-, -, h⟩
      · exact hscans (h ▸ hhold)
      · exact ho.1
      · exact absurd h hhold
      · rcases ho with ⟨-, h, -⟩ | ⟨h, -⟩
        · exact h
        · exact absurd h (by decide)
      · exact absurd h hhold
    exact hrole ▸ hfscans
  · refine ⟨fun hhold => ?_, fun n hn => absurd (hrole.symm.trans hn) (by simp)⟩
    have hfscans : f.role.Scans := hscans hhold
    rw [hstarting] at hfscans
    exact hfscans.elim
  · exact ⟨fun _ => hrole ▸ trivial, fun n hn => absurd (hrole.symm.trans hn) (by simp)⟩
  · exact ⟨fun hhold => absurd hnone hhold, fun n hn => absurd (hrole.symm.trans hn) (by simp)⟩
  · exact ⟨fun hhold => absurd hnone hhold, fun n hn => absurd (hrole.symm.trans hn) (by simp)⟩

/-- It starts in one. -/
theorem wellPhased_start (i : Request) : WellPhased (i, i.phase) := by
  refine ⟨fun hhold => absurd ?_ hhold, fun n hn => ?_⟩
  · cases i <;> rfl
  · cases i with
    | scheduledScan m =>
        obtain rfl := Role.scheduled.inj hn
        rfl
    | _ => exact absurd hn (by simp [Request.phase])

/-- What holds of the state and the phases of the threads. -/
structure StopInv (s : Server) (phases : List (Request × ThreadPhase)) : Prop where
  cancel : CancelInv s phases
  hold : HoldInv s phases
  phased : ∀ ph ∈ phases, WellPhased ph

/-- In every run in which requests install their cancel functions alone, the threads are in
phases that fit them, and `StopInv` holds. -/
theorem run_stopInv {config : Config} {serverInfo : GoMap String String} {lastScan : ScanResult}
    {lastScans : List ScanResult} {daemons : ℕ → Daemon}
    {es : List (PoolEvent Request ServerOp.Res)} {q : ServerPool}
    (hrun : Run (fun q e q' => ServerStep p q e q' ∧ InstallsAlone q.state e)
      ⟨Server.new config serverInfo lastScan lastScans daemons, []⟩ es q) :
    ∃ phases, Pool.Aligned scanProtocol (fun _ => Finished) q.threads phases ∧
      StopInv q.state phases := by
  refine Pool.run_phases (obeys_program p) ?_ ?_ ?_ ?_ hrun
  · exact ⟨rfl, ⟨fun h => absurd h (by simp [Server.new]), rfl⟩,
      fun ph hph => absurd hph List.not_mem_nil⟩
  · intro q phases i t _ hinv _ hstart
    refine ⟨hinv.cancel.start hstart, hinv.hold.start hstart, fun ph hph => ?_⟩
    rcases List.mem_append.mp hph with hold | hnew
    · exact hinv.phased ph hold
    · rw [List.mem_singleton.mp hnew]
      exact wellPhased_start i
  · rintro q phases t hinv - ⟨config, serverInfo, daemons, runs, rfl⟩
    exact ⟨hinv.cancel, ⟨hinv.hold.scanning, hinv.hold.remote⟩, hinv.phased⟩
  · intro q fs gs i f o r t next _ hinv _ hobeys hcond hsem
    have ho : f.Allowed o := (obeys_op.mp hobeys).1
    refine ⟨hinv.cancel.op ho ?_ hsem, hinv.hold.op ho hsem, fun ph hph => ?_⟩
    · rintro ctx rfl
      exact hcond
    · rcases List.mem_append.mp hph with hfront | hrest
      · exact hinv.phased ph (List.mem_append_left _ hfront)
      rcases List.mem_cons.mp hrest with rfl | hback
      · have hmem : (i, f) ∈ fs ++ (i, f) :: gs :=
          List.mem_append_right _ (List.mem_cons_self ..)
        exact (hinv.phased _ hmem).op ho r
      · exact hinv.phased ph (List.mem_append_right _ (List.mem_cons_of_mem _ hback))

/-! ### Requests to stop -/

/-- A request to stop that comes to look at the state `s` goes on to cancel `ctx` and answers
that the scan is stopping. -/
def StopCancels (p : Process) (s : Server) (ctx : ScanContext) : Prop :=
  ∀ look active t, handleScanStop = .op .scanActive look → serverSem p .scanActive s active t →
    ∃ next, look active = .op (.cancel ctx) next ∧
      (next ()).Results (· = .status "stopping")

/-- The scans that run are in the middle of threads, all of them under the context `ctx`. -/
def ScansRunUnder (q : ServerPool) (ctx : ScanContext) : Prop :=
  (∃ th ∈ q.threads, InProgress th.2) ∧ ∀ th ∈ q.threads, InProgress th.2 → RunsUnder ctx th.2

/-- With a cancellation in force and a scan counted, a stop cancels it. -/
theorem stopCancels_of_scanCancel {ctx : ScanContext} (hcancel : s.scanCancel = some ctx)
    (hactive : s.scanRunning = true ∨ 0 < s.remoteScanRunning) : StopCancels p s ctx := by
  rintro look active t hlook ⟨rfl, -⟩
  have hrunning : (s.scanRunning || decide (0 < s.remoteScanRunning)) = true := by
    simpa using hactive
  obtain rfl := eq_of_heq (Prog.op.inj hlook).2
  rw [hcancel, hrunning]
  refine ⟨_, rfl, ?_⟩
  refine Results.bind _ fun _ => Results.bind _ fun now => Results.bind _ fun _ => ?_
  exact results_pure rfl

/-- **A request to stop hits the scans in progress.** In every run in which each request to
scan installs its cancel function only while there is none, whenever a scan is in progress and
none of the scheduler is, a request to stop cancels the context that every scan in progress
runs under, and does not answer that the server is idle. -/
theorem run_stop_cancels_scan {config : Config} {serverInfo : GoMap String String}
    {lastScan : ScanResult} {lastScans : List ScanResult} {daemons : ℕ → Daemon}
    {es : List (PoolEvent Request ServerOp.Res)} {q : ServerPool}
    (hrun : Run (fun q e q' => ServerStep p q e q' ∧ InstallsAlone q.state e)
      ⟨Server.new config serverInfo lastScan lastScans daemons, []⟩ es q)
    (hscheduler : ∀ n rest, (.scheduledScan n, rest) ∈ q.threads → ¬ InProgress rest)
    (hactive : q.state.scanRunning = true ∨ 0 < q.state.remoteScanRunning) :
    ∃ ctx, StopCancels p q.state ctx ∧ ScansRunUnder q ctx := by
  obtain ⟨phases, haligned, hinv⟩ := run_stopInv hrun
  -- a thread in the middle of a scan has its context installed
  have hinstalled : ∀ i f, (i, f) ∈ phases → f.hold ≠ .none →
      ∃ ctx, f.role = .installed ctx ∧ q.state.scanCancel = some ctx := by
    intro i f hmem hhold
    obtain ⟨rest, hthread, hobeys⟩ := haligned.of_phase hmem
    obtain ⟨hscans, hscheduled⟩ := hinv.phased _ hmem
    have hrole : f.role.Scans := hscans hhold
    rcases hf : f.role with _ | _ | ctx | _ | n | _
    · rw [hf] at hrole; exact hrole.elim
    · rw [hf] at hrole; exact hrole.elim
    · obtain ⟨fs, gs, rfl⟩ := List.append_of_mem hmem
      have hcancel := hinv.cancel
      rw [CancelInv, installs_append, installed_eq hf] at hcancel
      exact ⟨ctx, rfl, (append_cons_eq_toList hcancel).2.2⟩
    · rw [hf] at hrole; exact hrole.elim
    · obtain rfl : i = .scheduledScan n := hscheduled n hf
      exact absurd ((inProgress_iff hobeys).mpr hhold) (hscheduler n rest hthread)
    · rw [hf] at hrole; exact hrole.elim
  -- some thread holds what the flags tell of
  have hholds : ∃ ph ∈ phases, ph.2.hold ≠ .none := by
    rcases hactive with hscan | hremote
    · obtain ⟨ph, hph, hheld⟩ := List.countP_pos_iff.mp (hinv.hold.scanning hscan)
      exact ⟨ph, hph, by simp [of_decide_eq_true hheld]⟩
    · have hpos : 0 < held .remote phases := by
        rw [hinv.hold.remote] at hremote
        exact_mod_cast hremote
      obtain ⟨ph, hph, hheld⟩ := List.countP_pos_iff.mp hpos
      exact ⟨ph, hph, by simp [of_decide_eq_true hheld]⟩
  obtain ⟨⟨i, f⟩, hmem, hhold⟩ := hholds
  obtain ⟨ctx, -, hcancel⟩ := hinstalled i f hmem hhold
  refine ⟨ctx, stopCancels_of_scanCancel hcancel hactive, ?_, ?_⟩
  · obtain ⟨rest, hthread, hobeys⟩ := haligned.of_phase hmem
    exact ⟨_, hthread, (inProgress_iff hobeys).mpr hhold⟩
  · rintro ⟨j, rest⟩ hthread hprogress
    obtain ⟨g, hg, hobeys⟩ := haligned.of_thread hthread
    obtain ⟨ctx', hrole, hcancel'⟩ := hinstalled j g hg ((inProgress_iff hobeys).mp hprogress)
    obtain rfl := Option.some.inj (hcancel.symm.trans hcancel')
    exact runsUnder_of_installed hobeys hrole

end

/-! ### A scan that is not stopped -/

/-- A scan of all servers on a server that has just started. -/
theorem run_scanning : ∃ es rest, Run (fun q e q' => ServerStep controller q e q' ∧
    InstallsAlone q.state e) ⟨startedServer, []⟩ es ⟨scanningServer, [(.scan "", rest)]⟩ := by
  have hC : ∀ o s r, (∀ ctx, o = .setScanCancel (some ctx) → s.scanCancel = none) →
      InstallsAlone s (.op (.scan "") o r) := by
    intro o s r h
    cases o with
    | setScanCancel ctx =>
        cases ctx with
        | some ctx => exact h ctx rfl
        | none => exact trivial
    | _ => exact trivial
  obtain ⟨rest, hpartial⟩ := reaches_scanningServer hC
  obtain ⟨es, hrun⟩ : ∃ es, Run (fun q e q' => ServerStep controller q e q' ∧
      InstallsAlone q.state e) ⟨startedServer, [(.scan "", handleScan controller "")]⟩ es
      ⟨scanningServer, [(.scan "", rest)]⟩ := Pool.run_partial hpartial [] []
  have hstart : ServerStep controller ⟨startedServer, []⟩ (.start (.scan ""))
      ⟨startedServer, [(.scan "", handleScan controller "")]⟩ := Pool.Step.start rfl
  exact ⟨_, rest, (Run.single ⟨hstart, trivial⟩).append hrun⟩

/-- A request to stop may miss the scan in progress: here a request with an invalid scope has
taken the cancel function of a scan away that is running. -/
theorem stop_can_miss_scan :
    ¬ ∀ (p : Process) (config : Config) (serverInfo : GoMap String String)
      (lastScan : ScanResult) (lastScans : List ScanResult) (daemons : ℕ → Daemon)
      (es : List (PoolEvent Request ServerOp.Res)) (q : ServerPool),
      Run (ServerStep p) ⟨Server.new config serverInfo lastScan lastScans daemons, []⟩ es q →
      q.state.scanRunning = true ∨ 0 < q.state.remoteScanRunning →
      ∃ ctx, StopCancels p q.state ctx ∧ ScansRunUnder q ctx := by
  intro h
  obtain ⟨es, rest, hrun⟩ := run_scanning
  have hrefused := exec_handleScan_invalid (p := controller) (s := scanningServer)
    (by decide : ¬ (trimSpaceStr "nope" = "" ∨ trimSpaceStr "nope" = "all"))
    (by decide) (by decide)
  obtain ⟨es', hrun'⟩ : ∃ es', Run (ServerStep controller)
      ⟨scanningServer, [(.scan "", rest), (.scan "nope", handleScan controller "nope")]⟩ es'
      ⟨{ scanningServer.prepared with
          cancelled := .request scanningServer.contexts :: scanningServer.cancelled
          scanCancel := none },
        [(.scan "", rest), (.scan "nope", .done (.error 400 "invalid scan scope"))]⟩ :=
    Pool.run_alone hrefused.toDone [(Request.scan "", rest)] []
  have hfirst : Run (ServerStep controller) ⟨startedServer, []⟩ es
      ⟨scanningServer, [(.scan "", rest)]⟩ := hrun.mono fun h => h.1
  have hstart : ServerStep controller ⟨scanningServer, [(.scan "", rest)]⟩
      (.start (.scan "nope"))
      ⟨scanningServer, [(.scan "", rest), (.scan "nope", handleScan controller "nope")]⟩ :=
    Pool.Step.start rfl
  have hboth := (hfirst.append (Run.single hstart)).append hrun'
  obtain ⟨ctx, hstop, -⟩ := h controller _ _ _ _ _ _ _ hboth (Or.inl rfl)
  obtain ⟨next, hnext, -⟩ := hstop _ (none, true) _ rfl ⟨rfl, rfl⟩
  cases hnext

/-- The scan of a server that has just started can be stopped. -/
theorem stop_cancels_first_scan : ∃ q : ServerPool, q.state = scanningServer ∧
    ∃ ctx, StopCancels controller q.state ctx ∧ ScansRunUnder q ctx := by
  obtain ⟨es, rest, hrun⟩ := run_scanning
  refine ⟨_, rfl, run_stop_cancels_scan hrun ?_ (Or.inl rfl)⟩
  intro n rest' hmem
  exact absurd (congrArg Prod.fst (List.mem_singleton.mp hmem)) (by simp)

end Contiwatch
