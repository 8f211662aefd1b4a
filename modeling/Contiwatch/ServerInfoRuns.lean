import Contiwatch.Lib.Slots
import Contiwatch.ServerInfo

/-!
# Entries That Say What the Checks Do

An entry says that its server is being checked, and what the last check has found. Both can go
wrong, because a call writes entries that it has made from a copy, or because it was told of a check
that has ended since; and a worker writes its entry whatever has become of the server.

## Main results

* `run_right` — in the runs in which no check ends while a call relies on it, no server is found
  pending before its check is queued, and no worker writes the entry of a server that was removed
  or put into maintenance, every state and every step is right.
* `checks_can_go_wrong` — a result that is lost, an entry that comes back, and a maintenance status
  that is overwritten.
-/

namespace Contiwatch

open GoStrings

namespace InfoMonitor

/-! ### What is right -/

/-- The server with this key has a queued or running check. -/
def Active (s : InfoMonitor) (key : String) : Prop :=
  (∃ remote ∈ s.queue, remote.infoKey = key) ∨
    ∃ (w : ℕ) (worker : InfoWorker) (remote : RemoteServer), s.workers[w]? = some worker ∧
      worker.remote? = some remote ∧ remote.infoKey = key

/-- The server with this key is configured. -/
def Configured (cfg : Config) (key : String) : Prop :=
  ∃ remote ∈ cfg.remoteServers, remote.infoKey = key

/-- Without a queued or running check, the entry does not say that there is one. -/
def CheckingRight (s : InfoMonitor) : Prop :=
  ∀ key entry, s.info.lookup key = some entry → ¬ Active s key → entry.checking = false

/-- There is no new entry of a server that is not configured. -/
def NotCreated (s t : InfoMonitor) (key : String) : Prop :=
  ¬ Configured s.config key → s.info.lookup key = none → t.info.lookup key = none

/-- What a step should not do: a call does not overwrite the result of a check that was completed
after its copy; and a worker does not create the entry of a server that is not configured, nor
overwrite the maintenance status. -/
def StepRight (s : InfoMonitor) (e : Event) (t : InfoMonitor) : Prop :=
  match e with
  | .replace i => ∀ r : Refreshing, s.calls[i]? = some (.looping (.refresh r)) →
      ∀ remote ∈ r.cfg.remoteServers, r.seen remote.infoKey ≠ s.completed remote.infoKey →
      ∀ old new, s.info.lookup remote.infoKey = some old → t.info.lookup remote.infoKey = some new →
      new.version = old.version ∧ new.status = old.status ∧ new.checkedAt = old.checkedAt
  | .start w => ∀ remote : RemoteServer, s.workers[w]? = some (.dequeued remote) →
      NotCreated s t remote.infoKey
  | .store w _ _ => ∀ (remote : RemoteServer) (entry : ServerInfoSnapshot),
      s.workers[w]? = some (.fetching remote entry) →
      NotCreated s t remote.infoKey ∧
        ∀ old, s.info.lookup remote.infoKey = some old → old.status = .maintenance →
          ∃ new, t.info.lookup remote.infoKey = some new ∧ new.status = .maintenance
  | _ => True

/-! ### When it is right -/

end InfoMonitor

/-- The call of `refreshServerInfoCache` that is in progress after its copy. -/
def InfoCall.refreshing? : InfoCall → Option Refreshing
  | .looping (.refresh r) | .sending (.refresh r) | .givingUp (.refresh r) => some r
  | _ => none

/-- The server that a call is about to mark. -/
def InfoCall.marks? : InfoCall → Option RemoteServer
  | .marking remote _ => some remote
  | _ => none

/-- A call relies on what it has seen of a server: it has copied the entry and will write it, or it
was told that a check is queued and will mark the entry. -/
def InfoCall.ReliesOn (call : InfoCall) (key : String) : Prop :=
  (∃ r, call.refreshing? = some r ∧ InfoMonitor.Configured r.cfg key) ∨
    ∃ remote, call.marks? = some remote ∧ remote.infoKey = key

namespace InfoMonitor

/-- The server has an entry or is configured. -/
def Known (s : InfoMonitor) (key : String) : Prop := key ∈ s.info ∨ Configured s.config key

/-- Nothing comes between the steps of a call or a check. -/
def Undisturbed (s : InfoMonitor) : Event → Prop
  | .ask i => ∀ (c : Caller) (remote : RemoteServer), s.calls[i]? = some (.looping c) →
      c.asks = some remote → remote.infoKey ∈ s.pending → Active s remote.infoKey
  | .start w => ∀ remote : RemoteServer, s.workers[w]? = some (.dequeued remote) →
      Known s remote.infoKey
  | .store w _ _ => ∀ (remote : RemoteServer) (entry : ServerInfoSnapshot),
      s.workers[w]? = some (.fetching remote entry) →
      Known s remote.infoKey ∧
        (∀ old, s.info.lookup remote.infoKey = some old → old.status ≠ .maintenance) ∧
        ∀ call ∈ s.calls, ¬ call.ReliesOn remote.infoKey
  | _ => True

/-! ### What calls know -/

/-- What a call of `refreshServerInfoCache` has copied and made still holds. -/
structure RefreshOk (s : InfoMonitor) (r : Refreshing) : Prop where
  next : ∀ key entry, r.next.lookup key = some entry → entry.checking = true →
    Configured r.cfg key ∧ Active s key
  prev : ∀ key, Configured r.cfg key → (r.prev.get key).checking = true → Active s key
  seen : ∀ key, Configured r.cfg key → r.seen key = s.completed key
  rest : ∀ remote ∈ r.rest, remote ∈ r.cfg.remoteServers

/-- What a call relies on still holds. -/
structure CallOk (s : InfoMonitor) (call : InfoCall) : Prop where
  refreshing : ∀ r, call.refreshing? = some r → RefreshOk s r
  marks : ∀ remote, call.marks? = some remote → Active s remote.infoKey

/-- Entries and calls are right about the checks. -/
structure Inv (s : InfoMonitor) : Prop where
  checking : ∀ key entry, s.info.lookup key = some entry → entry.checking = true → Active s key
  calls : ∀ call ∈ s.calls, CallOk s call

variable {s t : InfoMonitor} {call : InfoCall} {key : String} {r : Refreshing} {c : Caller}
  {remote : RemoteServer} {rest : List RemoteServer} {entry : ServerInfoSnapshot}

/-- The monitor starts within the invariant. -/
theorem inv_new (cfg : Config) : Inv (new cfg) where
  checking key entry hentry := by
    rw [new, Finmap.lookup_empty] at hentry
    cases hentry
  calls call hcall := nomatch hcall

/-- The invariant makes the entries right. -/
theorem Inv.checkingRight (h : Inv s) : CheckingRight s := by
  intro key entry hentry hidle
  by_contra hchecking
  exact hidle (h.checking key entry hentry (by simpa using hchecking))

/-- Checks that go on, and checks that a call does not rely on, do not matter to it. -/
theorem CallOk.mono (h : CallOk s call)
    (hactive : ∀ key, call.ReliesOn key → Active s key → Active t key)
    (hcompleted : ∀ key, call.ReliesOn key → t.completed key = s.completed key) :
    CallOk t call where
  refreshing r hr := by
    obtain ⟨hnext, hprev, hseen, hrest⟩ := h.refreshing r hr
    have hrelies : ∀ key, Configured r.cfg key → call.ReliesOn key := fun key hkey =>
      .inl ⟨r, hr, hkey⟩
    refine ⟨fun key entry hentry hchecking => ?_, fun key hkey hchecking => ?_, fun key hkey => ?_,
      hrest⟩
    · obtain ⟨hkey, hkeyActive⟩ := hnext key entry hentry hchecking
      exact ⟨hkey, hactive key (hrelies key hkey) hkeyActive⟩
    · exact hactive key (hrelies key hkey) (hprev key hkey hchecking)
    · exact (hseen key hkey).trans (hcompleted key (hrelies key hkey)).symm
  marks remote hremote :=
    hactive remote.infoKey (.inr ⟨remote, hremote, rfl⟩) (h.marks remote hremote)

/-- Steps that end no check. -/
theorem Inv.of_active (h : Inv s) (hactive : ∀ key, Active s key → Active t key)
    (hcompleted : t.completed = s.completed)
    (hchecking : ∀ key entry, t.info.lookup key = some entry → entry.checking = true →
      s.info.lookup key = some entry ∨ Active t key)
    (hcalls : ∀ call ∈ t.calls, call ∈ s.calls ∨ CallOk t call) : Inv t where
  checking key entry hentry hc :=
    (hchecking key entry hentry hc).elim (fun hold => hactive key (h.checking key entry hold hc)) id
  calls call hcall := by
    refine (hcalls call hcall).elim (fun hold => ?_) id
    exact (h.calls call hold).mono (fun key _ => hactive key) fun key _ => by rw [hcompleted]

/-- A call goes on, and the cache and the checks are as before. -/
theorem Inv.setCall (h : Inv s) {i : ℕ} {pending : Finset String} (hcall : CallOk s call) :
    Inv { s with pending := pending, calls := s.calls.set i call } := by
  refine h.of_active (fun _ => id) rfl (fun _ _ hentry _ => .inl hentry) fun d hd => ?_
  rcases List.mem_or_eq_of_mem_set hd with hold | rfl
  · exact .inl hold
  · exact .inr (hcall.mono (fun _ _ => id) fun _ _ => rfl)

/-! ### The steps of calls -/

/-- A check that is shown has an entry. -/
theorem exists_of_get_checking {m : InfoMap} (h : (m.get key).checking = true) :
    ∃ entry, m.lookup key = some entry ∧ entry.checking = true := by
  rcases hlook : m.lookup key with _ | entry
  · simp [InfoMap.get, hlook, ServerInfoSnapshot.zero] at h
  · exact ⟨entry, rfl, by simpa [InfoMap.get, hlook] using h⟩

/-- An entry of a remote server that says that it is checked was copied so. -/
theorem refreshRemote_checking {now : ℕ}
    (h : (refreshRemote now entry remote).1.checking = true) : entry.checking = true := by
  simp only [refreshRemote] at h
  split at h
  · cases h
  split at h
  · cases h
  split at h <;> exact h

/-- Local servers are not checked. -/
theorem refreshLocals_checking {version : String} {isSocket : String → Bool} {now : ℕ}
    {prev : InfoMap} {locals : List LocalServer}
    (h : (refreshLocals version isSocket now prev locals).lookup key = some entry) :
    entry.checking = false := by
  rw [refreshLocals] at h
  induction locals using List.reverseRecOn with
  | nil =>
      rw [List.foldl_nil, Finmap.lookup_empty] at h
      cases h
  | append_singleton locals l ih =>
      rw [List.foldl_concat] at h
      by_cases hkey : key = serverInfoKey .onHost l.name
      · rw [hkey, Finmap.lookup_insert] at h
        rw [← Option.some.inj h]
      · rw [Finmap.lookup_insert_of_ne _ hkey] at h
        exact ih h

/-- Resetting does not make an entry say that its server is checked. -/
theorem resetEntry_checking {now : ℕ} {info : InfoMap} {remotes : List RemoteServer}
    (h : (remotes.foldl (resetEntry now) info).lookup key = some entry)
    (hchecking : entry.checking = true) : info.lookup key = some entry := by
  induction remotes using List.reverseRecOn with
  | nil => exact h
  | append_singleton remotes remote ih =>
      rw [List.foldl_concat, resetEntry] at h
      by_cases hkey : key = remote.infoKey
      · rw [hkey, Finmap.lookup_insert] at h
        rw [← Option.some.inj h] at hchecking
        split at hchecking
        · cases hchecking
        split at hchecking <;> cases hchecking
      · rw [Finmap.lookup_insert_of_ne _ hkey] at h
        exact ih h

/-- The next remote server is visited. -/
theorem RefreshOk.visit (h : RefreshOk s r) (hrest : r.rest = remote :: rest)
    (hchecking : entry.checking = true → Active s remote.infoKey) :
    RefreshOk s (r.visit remote rest entry) where
  next key found hfound hc := by
    rw [Refreshing.visit] at hfound
    by_cases hkey : key = remote.infoKey
    · rw [hkey, Finmap.lookup_insert] at hfound
      have hremote : remote ∈ r.rest := by
        rw [hrest]
        exact List.mem_cons_self ..
      rw [hkey]
      refine ⟨⟨remote, h.rest remote hremote, rfl⟩, hchecking ?_⟩
      rwa [Option.some.inj hfound]
    · rw [Finmap.lookup_insert_of_ne _ hkey] at hfound
      exact h.next key found hfound hc
  prev := h.prev
  seen := h.seen
  rest remote' hremote' := by
    refine h.rest remote' ?_
    rw [hrest]
    exact List.mem_cons_of_mem _ hremote'

/-- Between two servers, a call relies on its copy only. -/
theorem callOk_looping_refresh (h : RefreshOk s r) : CallOk s (.looping (.refresh r)) where
  refreshing r' hr' := by
    obtain rfl := Option.some.inj hr'
    exact h
  marks _ hmarks := nomatch hmarks

/-- A call that has copied nothing and marks nothing relies on nothing. -/
theorem callOk_trivial (hrefreshing : call.refreshing? = none) (hmarks : call.marks? = none) :
    CallOk s call where
  refreshing r hr := absurd hr (by simp [hrefreshing])
  marks remote hremote := absurd hremote (by simp [hmarks])

/-- Sending does not change the copy. -/
theorem refreshing?_sending (c : Caller) :
    (InfoCall.sending c).refreshing? = (InfoCall.looping c).refreshing? := by
  cases c <;> rfl

/-- Nor does giving up. -/
theorem refreshing?_givingUp (c : Caller) :
    (InfoCall.givingUp c).refreshing? = (InfoCall.looping c).refreshing? := by
  cases c <;> rfl

/-- What a call relies on does not depend on where in `ensureRemoteCheck` it is. -/
theorem CallOk.congr {call' : InfoCall} (h : CallOk s call)
    (hrefreshing : call'.refreshing? = call.refreshing?) (hmarks : call'.marks? = call.marks?) :
    CallOk s call' :=
  ⟨hrefreshing ▸ h.refreshing, hmarks ▸ h.marks⟩

/-- `ensureRemoteCheck` returns: it says `true` only of a check that is queued or running. -/
theorem CallOk.told (h : CallOk s (.looping c)) (hasks : c.asks = some remote)
    {queued : Bool} (hqueued : queued = true → Active s remote.infoKey) :
    CallOk s (c.told queued) := by
  cases c with
  | refresh r =>
      rw [Caller.asks] at hasks
      rw [Caller.told]
      split at hasks
      · cases hasks
      · rename_i next rest hrest
        split at hasks
        · obtain rfl := Option.some.inj hasks
          exact callOk_looping_refresh ((h.refreshing r rfl).visit hrest hqueued)
        · cases hasks
  | trigger rest =>
      cases rest with
      | nil => cases hasks
      | cons next rest =>
          obtain rfl := Option.some.inj hasks
          rw [Caller.told]
          split
          · rename_i hq
            refine ⟨fun r hr => (nomatch hr), fun remote hremote => ?_⟩
            obtain rfl := Option.some.inj hremote
            exact hqueued hq
          · exact callOk_trivial rfl rfl

/-- Each call in progress is right. -/
theorem Inv.callOk (h : Inv s) {i : ℕ} (hi : s.calls[i]? = some call) : CallOk s call :=
  h.calls call (List.mem_of_getElem? hi)

/-! ### The steps of workers -/

variable {w : ℕ} {worker worker' : InfoWorker}

/-- A worker goes on with another server, or with none. -/
theorem active_setWorker {queue : List RemoteServer} {info : InfoMap} {completed : String → ℕ}
    {pending : Finset String} (hw : s.workers[w]? = some worker)
    (hqueue : ∀ remote ∈ s.queue, remote.infoKey = key → remote ∈ queue ∨
      worker'.remote? = some remote)
    (hworker : ∀ remote, worker.remote? = some remote → remote.infoKey = key →
      worker'.remote? = some remote)
    (h : Active s key) :
    Active { s with
      info := info, pending := pending, queue := queue, workers := s.workers.set w worker'
      completed := completed } key := by
  rcases h with ⟨remote, hmem, hkey⟩ | ⟨v, found, remote, hv, hremote, hkey⟩
  · rcases hqueue remote hmem hkey with hmem | hworker'
    · exact .inl ⟨remote, hmem, hkey⟩
    · exact .inr ⟨w, worker', remote, Slots.set_self hw worker', hworker', hkey⟩
  · by_cases hvw : v = w
    · rw [hvw, hw] at hv
      obtain rfl := Option.some.inj hv
      exact .inr ⟨w, worker', remote, Slots.set_self hw worker', hworker remote hremote hkey, hkey⟩
    · exact .inr ⟨v, found, remote, (Slots.set_ne hvw worker').trans hv, hremote, hkey⟩

/-- The cache is written while calls and checks are as before. -/
theorem Inv.setInfo (h : Inv s) {info : InfoMap}
    (hinfo : ∀ key entry, info.lookup key = some entry → entry.checking = true →
      s.info.lookup key = some entry ∨ Active s key) : Inv { s with info := info } :=
  h.of_active (fun _ => id) rfl hinfo fun _ => .inl

/-- A new call relies on nothing. -/
theorem Inv.append (h : Inv s) {cfg cfg' : Config} {trigger : Bool} :
    Inv { s with config := cfg', calls := s.calls ++ [.called cfg trigger] } := by
  refine h.of_active (fun _ => id) rfl (fun _ _ hentry _ => .inl hentry) fun call hcall => ?_
  rcases List.mem_append.mp hcall with hold | hnew
  · exact .inl hold
  · rw [List.mem_singleton.mp hnew]
    exact .inr (callOk_trivial rfl rfl)

/-- An entry is written, and it says that its server is checked only if this is so. -/
theorem insert_checking {info : InfoMap} {found : ServerInfoSnapshot}
    (hactive : entry.checking = true → Active s remote.infoKey)
    (h : (info.insert remote.infoKey entry).lookup key = some found)
    (hchecking : found.checking = true) : info.lookup key = some found ∨ Active s key := by
  by_cases hkey : key = remote.infoKey
  · rw [hkey, Finmap.lookup_insert] at h
    rw [hkey]
    exact .inr (hactive (Option.some.inj h ▸ hchecking))
  · rw [Finmap.lookup_insert_of_ne _ hkey] at h
    exact .inl h

/-- A check ends: no call relies on it. -/
theorem Inv.store (h : Inv s) {entry' : ServerInfoSnapshot} {pending : Finset String}
    (hw : s.workers[w]? = some (.fetching remote entry)) (hentry : entry'.checking = false)
    (hrelies : ∀ call ∈ s.calls, ¬ call.ReliesOn remote.infoKey) :
    Inv { s with
      info := s.info.insert remote.infoKey entry'
      pending := pending
      workers := s.workers.set w .idle
      completed := Function.update s.completed remote.infoKey
        (s.completed remote.infoKey + 1) } := by
  have hactive : ∀ {key info pending completed}, key ≠ remote.infoKey → Active s key →
      Active { s with
        info := info, pending := pending, workers := s.workers.set w .idle
        completed := completed } key := by
    intro key info pending completed hkey
    refine active_setWorker hw (fun _ hmem _ => .inl hmem) fun remote' hremote' hkey' => ?_
    obtain rfl := Option.some.inj hremote'
    exact absurd hkey'.symm hkey
  refine ⟨fun key found hfound hchecking => ?_, fun call hcall => ?_⟩
  · by_cases hkey : key = remote.infoKey
    · rw [hkey, Finmap.lookup_insert] at hfound
      rw [← Option.some.inj hfound, hentry] at hchecking
      cases hchecking
    · rw [Finmap.lookup_insert_of_ne _ hkey] at hfound
      exact hactive hkey (h.checking key found hfound hchecking)
  · have hne : ∀ key, call.ReliesOn key → key ≠ remote.infoKey := by
      rintro key hkey rfl
      exact hrelies call hcall hkey
    refine (h.calls call hcall).mono (fun key hkey => hactive (hne key hkey)) fun key hkey => ?_
    exact Function.update_of_ne (hne key hkey) _ _

/-- **One step.** An undisturbed step keeps the invariant. -/
theorem Inv.step {version : String} {e : Event} (h : Inv s) (hstep : Step version s e t)
    (hundisturbed : Undisturbed s e) : Inv t := by
  cases hstep with
  | save => exact h.append
  | call => exact h.append
  | copy hi =>
      refine h.setCall (callOk_looping_refresh ⟨?_, ?_, fun _ _ => rfl, fun _ => id⟩)
      · intro key entry hentry hchecking
        dsimp only at hentry
        rw [refreshLocals_checking hentry] at hchecking
        cases hchecking
      · intro key _ hchecking
        obtain ⟨entry, hentry, hchecking⟩ := exists_of_get_checking hchecking
        exact h.checking key entry hentry hchecking
  | @keep _ r remote rest hi hrest hkeep =>
      have hr := (h.callOk hi).refreshing r rfl
      refine h.setCall (callOk_looping_refresh (hr.visit hrest fun hchecking => ?_))
      have hremote : remote ∈ r.rest := by
        rw [hrest]
        exact List.mem_cons_self ..
      exact hr.prev _ ⟨remote, hr.rest remote hremote, rfl⟩ (refreshRemote_checking hchecking)
  | askMaintenance hi hasks hmaintenance =>
      exact h.setCall ((h.callOk hi).told hasks fun hqueued => nomatch hqueued)
  | askPending hi hasks hmaintenance hpending =>
      have hactive := hundisturbed _ _ hi hasks hpending
      exact h.setCall ((h.callOk hi).told hasks fun _ => hactive)
  | @ask i c remote hi hasks hmaintenance hpending =>
      exact h.setCall ((h.callOk hi).congr (refreshing?_sending c) rfl)
  | @send i c remote hi hasks hroom =>
      have hqueue : Inv { s with queue := s.queue ++ [remote] } := by
        refine h.of_active (fun key => ?_) rfl (fun _ _ hentry _ => .inl hentry) fun _ => .inl
        exact Or.imp_left fun ⟨remote', hmem, hkey⟩ => ⟨remote', List.mem_append_left _ hmem, hkey⟩
      have hcall := (hqueue.callOk hi).congr (refreshing?_sending c).symm rfl
      refine hqueue.setCall (hcall.told hasks fun _ => ?_)
      exact .inl ⟨remote, List.mem_append_right _ (List.mem_singleton_self _), rfl⟩
  | @sendFull i c hi hfull =>
      refine h.setCall ((h.callOk hi).congr ?_ rfl)
      rw [refreshing?_givingUp, refreshing?_sending]
  | @giveUp i c remote hi hasks =>
      have hcall := (h.callOk hi).congr (refreshing?_givingUp c).symm rfl
      exact h.setCall (hcall.told hasks fun hqueued => nomatch hqueued)
  | @replace i r hi hrest =>
      have hr := (h.callOk hi).refreshing r rfl
      have hinfo : Inv { s with info := r.next } := h.setInfo fun key entry hentry hchecking =>
        .inr (hr.next key entry hentry hchecking).2
      refine hinfo.setCall ?_
      split <;> exact callOk_trivial rfl rfl
  | @reset i now cfg hi =>
      have hinfo : Inv { s with info := cfg.remoteServers.foldl (resetEntry now) s.info } :=
        h.setInfo fun key entry hentry hchecking => .inl (resetEntry_checking hentry hchecking)
      exact hinfo.setCall (callOk_trivial rfl rfl)
  | @mark i remote rest hi =>
      have hactive := (h.callOk hi).marks remote rfl
      let entry := { s.info.get remote.infoKey with checking := true }
      have hinfo : Inv { s with info := s.info.insert remote.infoKey entry } :=
        h.setInfo fun key entry => insert_checking fun _ => hactive
      exact hinfo.setCall (callOk_trivial rfl rfl)
  | @dequeue w remote queue hw hqueue =>
      refine h.of_active (fun key => active_setWorker hw (fun remote' hmem _ => ?_) ?_) rfl
        (fun _ _ hentry _ => .inl hentry) fun _ => .inl
      · rw [hqueue, List.mem_cons] at hmem
        exact hmem.symm.imp_right fun hremote => by rw [hremote]; rfl
      · exact fun remote' hremote' => nomatch hremote'
  | @start w remote hw =>
      refine h.of_active (fun key => active_setWorker hw (fun _ hmem _ => .inl hmem) ?_) rfl
        (fun key entry => insert_checking fun _ => ?_) fun _ => .inl
      · exact fun _ hremote _ => hremote
      · exact .inr ⟨w, _, remote, Slots.set_self hw _, rfl, rfl⟩
  | store hw => exact h.store hw rfl (hundisturbed _ _ hw).2.2

/-- A server that is known is none of the new ones. -/
theorem notCreated_of_known (h : Known s key) : NotCreated s t key := by
  intro hconfigured hnone
  rcases h with hmem | hkey
  · exact absurd hmem (Finmap.lookup_eq_none.mp hnone)
  · exact absurd hkey hconfigured

/-- An undisturbed step is right. -/
theorem Inv.stepRight {e : Event} (h : Inv s) (hundisturbed : Undisturbed s e) :
    StepRight s e t := by
  cases e with
  | replace i =>
      intro r hi remote hremote hcompleted
      exact absurd (((h.callOk hi).refreshing r rfl).seen _ ⟨remote, hremote, rfl⟩) hcompleted
  | start w => exact fun remote hw => notCreated_of_known (hundisturbed remote hw)
  | store w answer now =>
      intro remote entry hw
      obtain ⟨hknown, hstatus, -⟩ := hundisturbed remote entry hw
      refine ⟨notCreated_of_known hknown, fun old hold hmaintenance => ?_⟩
      exact absurd hmaintenance (hstatus old hold)
  | _ => trivial

/-- **Undisturbed runs are right.** If no check ends while a call relies on it, no server is found
pending before its check is queued, and no worker writes the entry of a server that was removed or
put into maintenance, all states and steps of a run are right. -/
theorem run_right {version : String} {cfg : Config} {es : List Event} {q : InfoMonitor}
    (h : Run (fun s e t => Step version s e t ∧ Undisturbed s e) (new cfg) es q) :
    CheckingRight q ∧
      Run (fun s e t => Step version s e t ∧ StepRight s e t ∧ CheckingRight t) (new cfg) es q := by
  have hinv : ∀ {s e t}, Inv s → Step version s e t ∧ Undisturbed s e → Inv t :=
    fun hs hstep => hs.step hstep.1 hstep.2
  refine ⟨(h.state_invariant Inv (inv_new cfg) hinv).checkingRight, ?_⟩
  refine h.strengthen Inv (inv_new cfg) hinv fun hs hstep => ?_
  exact ⟨hstep.1, hs.stepRight hstep.2, (hinv hs hstep).checkingRight⟩

/-! ### One server -/

/-- A remote server. -/
def nas : RemoteServer where
  name := "nas"
  url := "http://nas:8080"
  token := "secret"
  maintenance := false

/-- A configuration with these remote servers. -/
def nasConfig (remotes : List RemoteServer) : Config where
  globalPolicy := policySkip
  updateStoppedContainers := false
  pruneDanglingImages := false
  localServers := []
  remoteServers := remotes

/-- The first entry of the server, made by a call that has queued a check. -/
def queuedEntry : ServerInfoSnapshot where
  type := .remote
  name := "nas"
  address := "http://nas:8080"
  version := ""
  status := .unknown
  checkedAt := 0
  checking := true

/-- The first call of `refreshServerInfoCache`, with the cache that it has copied. -/
def firstRefresh (next : InfoMap) (rest : List RemoteServer) : Refreshing where
  cfg := nasConfig [nas]
  trigger := false
  now := 1
  prev := ∅
  next := next
  rest := rest
  seen := fun _ => 0

/-- The monitor during this call. -/
def during (call : InfoCall) : InfoMonitor := { new (nasConfig [nas]) with calls := [call] }

/-- The monitor after the call has set the server pending. -/
def checkPending : InfoMonitor :=
  { during (.sending (.refresh (firstRefresh ∅ [nas]))) with pending := {nas.infoKey} }

/-- The cache that the call has made. -/
def firstInfo : InfoMap := Finmap.singleton nas.infoKey queuedEntry

/-- The monitor after the call has queued a check and made the entry. -/
def checkQueued : InfoMonitor :=
  { during (.looping (.refresh (firstRefresh firstInfo []))) with
    pending := {nas.infoKey}
    queue := [nas] }

/-- Up to here nothing comes between the steps. -/
theorem run_checkQueued :
    ∃ es, Run (fun s e t => Step "1.3.4" s e t ∧ Undisturbed s e) (new (nasConfig [nas])) es
      checkQueued := by
  have hcall : Step "1.3.4" (new (nasConfig [nas])) (.call false)
      (during (.called (nasConfig [nas]) false)) := .call
  have hcopy : Step "1.3.4" (during (.called (nasConfig [nas]) false)) (.copy 0 1 fun _ => true)
      (during (.looping (.refresh (firstRefresh ∅ [nas])))) := .copy rfl
  have hask : Step "1.3.4" (during (.looping (.refresh (firstRefresh ∅ [nas])))) (.ask 0)
      checkPending :=
    @Step.ask _ _ 0 _ nas rfl rfl rfl (Finset.notMem_empty _)
  have hroom : 0 < serverInfoQueueBufferSize := by decide
  have hsend : Step "1.3.4" checkPending (.send 0) checkQueued :=
    @Step.send _ checkPending 0 _ nas rfl rfl hroom
  have hpending : Undisturbed (during (.looping (.refresh (firstRefresh ∅ [nas])))) (.ask 0) :=
    fun _ _ _ _ hpending => absurd hpending (Finset.notMem_empty _)
  exact ⟨_, (((Run.single ⟨hcall, trivial⟩).snoc ⟨hcopy, trivial⟩).snoc ⟨hask, hpending⟩).snoc
    ⟨hsend, trivial⟩⟩

/-- The monitor while a worker has taken the check. -/
def checkRunning (cfg : Config) (info : InfoMap) (worker : InfoWorker) (calls : List InfoCall) :
    InfoMonitor :=
  { new cfg with
    info := info
    pending := {nas.infoKey}
    workers := worker :: List.replicate 9 .idle
    calls := calls }

/-- The cache after a worker has started the check. -/
def startedInfo : InfoMap := firstInfo.insert nas.infoKey (startedEntry firstInfo nas)

/-- The worker that has started the check. -/
def startedWorker : InfoWorker := .fetching nas (startedEntry firstInfo nas)

/-- If the first call returns before the check is started, nothing comes between the steps. -/
theorem run_checkRunning :
    ∃ es, Run (fun s e t => Step "1.3.4" s e t ∧ Undisturbed s e) (new (nasConfig [nas])) es
      (checkRunning (nasConfig [nas]) startedInfo startedWorker [.returned]) := by
  obtain ⟨es, hqueued⟩ := run_checkQueued
  have hreplace : Step "1.3.4" checkQueued (.replace 0)
      { checkQueued with info := firstInfo, calls := [.returned] } :=
    .replace (s := checkQueued) (i := 0) (r := firstRefresh firstInfo []) rfl rfl
  have hdequeue : Step "1.3.4" { checkQueued with info := firstInfo, calls := [.returned] }
      (.dequeue 0) (checkRunning (nasConfig [nas]) firstInfo (.dequeued nas) [.returned]) :=
    .dequeue rfl rfl
  have hstart : Step "1.3.4" (checkRunning (nasConfig [nas]) firstInfo (.dequeued nas) [.returned])
      (.start 0) (checkRunning (nasConfig [nas]) startedInfo startedWorker [.returned]) :=
    .start rfl
  have hknown : Undisturbed (checkRunning (nasConfig [nas]) firstInfo (.dequeued nas) [.returned])
      (.start 0) := by
    intro remote hremote
    obtain rfl : nas = remote := by simpa [checkRunning] using hremote
    exact .inr ⟨nas, List.mem_singleton_self _, rfl⟩
  exact ⟨_, ((hqueued.snoc ⟨hreplace, trivial⟩).snoc ⟨hdequeue, trivial⟩).snoc ⟨hstart, hknown⟩⟩

/-- The monitor after the check. -/
def checkDone (cfg : Config) (info : InfoMap) (entry : ServerInfoSnapshot) (calls : List InfoCall) :
    InfoMonitor :=
  { new cfg with
    info := info.insert nas.infoKey (checkedEntry entry nas (some "1.3.4") 2)
    calls := calls
    pending := ({nas.infoKey} : Finset String).erase nas.infoKey
    completed := Function.update (fun _ => 0) nas.infoKey 1 }

/-- The check ends. -/
theorem step_checkDone (cfg : Config) (info : InfoMap) (entry : ServerInfoSnapshot)
    (calls : List InfoCall) :
    Step "1.3.4" (checkRunning cfg info (.fetching nas entry) calls) (.store 0 (some "1.3.4") 2)
      (checkDone cfg info entry calls) :=
  .store (s := checkRunning cfg info (.fetching nas entry) calls) (w := 0) rfl

/-- A check of a server that no call disturbs: every step is right. -/
theorem check_is_right :
    ∃ es, Run (fun s e t => Step "1.3.4" s e t ∧ StepRight s e t ∧ CheckingRight t)
      (new (nasConfig [nas])) es
      (checkDone (nasConfig [nas]) startedInfo (startedEntry firstInfo nas) [.returned]) := by
  obtain ⟨es, hrunning⟩ := run_checkRunning
  have hstarted : (startedEntry firstInfo nas).status = .unknown := by decide
  have hundisturbed : Undisturbed
      (checkRunning (nasConfig [nas]) startedInfo startedWorker [.returned])
      (.store 0 (some "1.3.4") 2) := by
    intro remote entry hw
    obtain rfl : nas = remote := by
      have hworker := Option.some.inj hw
      injection hworker
    refine ⟨.inr ⟨nas, List.mem_singleton_self _, rfl⟩, fun old hold => ?_, fun call hcall => ?_⟩
    · have hentry := (Finmap.lookup_insert firstInfo).symm.trans hold
      rw [← Option.some.inj hentry, hstarted]
      decide
    · rw [List.mem_singleton.mp hcall]
      rintro (⟨r, hr, -⟩ | ⟨remote, hremote, -⟩)
      · cases hr
      · cases hremote
  exact ⟨_, (run_right (hrunning.snoc ⟨step_checkDone _ _ _ _, hundisturbed⟩)).2⟩

/-! ### Disturbed checks -/

/-- The first call replaces the cache after the check that it has queued has ended: its result is
lost, and the entry says for ever that the server is checked. -/
theorem check_can_end_too_early :
    ∃ es s t, Run (Step "1.3.4") (new (nasConfig [nas])) es s ∧ Step "1.3.4" s (.replace 0) t ∧
      ¬ StepRight s (.replace 0) t ∧ ¬ CheckingRight t := by
  obtain ⟨es, hqueued⟩ := run_checkQueued
  have hqueued : Run (Step "1.3.4") (new (nasConfig [nas])) es checkQueued :=
    hqueued.mono fun h => h.1
  let calls : List InfoCall := [.looping (.refresh (firstRefresh firstInfo []))]
  have hdequeue : Step "1.3.4" checkQueued (.dequeue 0)
      (checkRunning (nasConfig [nas]) ∅ (.dequeued nas) calls) :=
    .dequeue (s := checkQueued) (w := 0) rfl rfl
  have hstart : Step "1.3.4" (checkRunning (nasConfig [nas]) ∅ (.dequeued nas) calls) (.start 0)
      (checkRunning (nasConfig [nas]) (Finmap.insert nas.infoKey (startedEntry ∅ nas) ∅)
        (.fetching nas (startedEntry ∅ nas)) calls) :=
    .start (s := checkRunning (nasConfig [nas]) ∅ (.dequeued nas) calls) (w := 0) rfl
  have hstore := step_checkDone (nasConfig [nas]) (Finmap.insert nas.infoKey (startedEntry ∅ nas) ∅)
    (startedEntry ∅ nas) calls
  let s := checkDone (nasConfig [nas]) (Finmap.insert nas.infoKey (startedEntry ∅ nas) ∅)
    (startedEntry ∅ nas) calls
  let t : InfoMonitor := { s with info := firstInfo, calls := [.returned] }
  have hreplace : Step "1.3.4" s (.replace 0) t :=
    .replace (s := s) (i := 0) (r := firstRefresh firstInfo []) rfl rfl
  refine ⟨_, s, t, ((hqueued.snoc hdequeue).snoc hstart).snoc hstore, hreplace, fun hright => ?_,
    fun hright => ?_⟩
  · have hseen : (firstRefresh firstInfo []).seen nas.infoKey ≠ s.completed nas.infoKey := by
      simp [s, checkDone, firstRefresh]
    have hresult := hright (firstRefresh firstInfo []) rfl nas (List.mem_singleton_self _) hseen _ _
      (Finmap.lookup_insert _) Finmap.lookup_singleton_eq
    exact absurd hresult.1 (by decide)
  · have hidle : ¬ Active t nas.infoKey := by
      rintro (⟨remote, hremote, -⟩ | ⟨w, worker, remote, hw, hremote, -⟩)
      · cases hremote
      · rw [List.eq_of_mem_replicate (List.mem_of_getElem? hw)] at hremote
        cases hremote
    exact absurd (hright nas.infoKey queuedEntry Finmap.lookup_singleton_eq hidle) (by decide)

/-- A second call, for another configuration, while the check is running. -/
def secondRefresh (remotes : List RemoteServer) (next : InfoMap) (rest : List RemoteServer) :
    Refreshing where
  cfg := nasConfig remotes
  trigger := false
  now := 2
  prev := startedInfo
  next := next
  rest := rest
  seen := fun _ => 0

/-- The monitor during this call. -/
def reconfiguring (remotes : List RemoteServer) (info : InfoMap) (call : InfoCall) : InfoMonitor :=
  checkRunning (nasConfig remotes) info startedWorker [.returned, call]

/-- A run up to a refresh whose servers have changed meanwhile. -/
theorem run_reconfiguring (remotes : List RemoteServer) :
    ∃ es, Run (Step "1.3.4") (new (nasConfig [nas])) es
      (reconfiguring remotes startedInfo
        (.looping (.refresh (secondRefresh remotes ∅ remotes)))) := by
  obtain ⟨es, hrunning⟩ := run_checkRunning
  have hsave : Step "1.3.4" (checkRunning (nasConfig [nas]) startedInfo startedWorker [.returned])
      (.save (nasConfig remotes))
      (reconfiguring remotes startedInfo (.called (nasConfig remotes) false)) := .save
  have hcopy : Step "1.3.4" (reconfiguring remotes startedInfo (.called (nasConfig remotes) false))
      (.copy 1 2 fun _ => true)
      (reconfiguring remotes startedInfo
        (.looping (.refresh (secondRefresh remotes ∅ remotes)))) :=
    .copy (s := reconfiguring remotes startedInfo (.called (nasConfig remotes) false)) (i := 1) rfl
  exact ⟨_, ((hrunning.mono fun h => h.1).snoc hsave).snoc hcopy⟩

/-- The refresh then writes its copy. -/
theorem step_reconfigured (remotes : List RemoteServer) (next : InfoMap) :
    Step "1.3.4"
      (reconfiguring remotes startedInfo (.looping (.refresh (secondRefresh remotes next []))))
      (.replace 1) (reconfiguring remotes next .returned) :=
  .replace (i := 1) (r := secondRefresh remotes next [])
    (s := reconfiguring remotes startedInfo (.looping (.refresh (secondRefresh remotes next []))))
    rfl rfl

/-- The server is removed while it is checked, and the check creates its entry again. -/
theorem removed_entry_can_return :
    ∃ es s t, Run (Step "1.3.4") (new (nasConfig [nas])) es s ∧
      Step "1.3.4" s (.store 0 (some "1.3.4") 2) t ∧ ¬ NotCreated s t nas.infoKey := by
  obtain ⟨es, hrun⟩ := run_reconfiguring []
  refine ⟨_, _, _, hrun.snoc (step_reconfigured [] ∅), step_checkDone _ _ _ _, fun hcreated => ?_⟩
  have hnone := hcreated (fun ⟨remote, hremote, _⟩ => nomatch hremote) rfl
  exact absurd ((Finmap.lookup_insert _).symm.trans hnone) (by simp)

/-- The server is put into maintenance while it is checked, and the check overwrites the status. -/
theorem maintenance_can_be_overwritten :
    ∃ es s t, Run (Step "1.3.4") (new (nasConfig [nas])) es s ∧
      Step "1.3.4" s (.store 0 (some "1.3.4") 2) t ∧
      (∃ old, s.info.lookup nas.infoKey = some old ∧ old.status = .maintenance) ∧
      ∃ new, t.info.lookup nas.infoKey = some new ∧ new.status = .online := by
  let paused : RemoteServer := { nas with maintenance := true }
  obtain ⟨es, hrun⟩ := run_reconfiguring [paused]
  let entry := (refreshRemote 2 (startedInfo.get nas.infoKey) paused).1
  have hkeep : Step "1.3.4"
      (reconfiguring [paused] startedInfo (.looping (.refresh (secondRefresh [paused] ∅ [paused]))))
      (.keep 1)
      (reconfiguring [paused] startedInfo
        (.looping (.refresh (secondRefresh [paused] (Finmap.insert nas.infoKey entry ∅) [])))) :=
    .keep (i := 1) (r := secondRefresh [paused] ∅ [paused])
      (s := reconfiguring [paused] startedInfo
        (.looping (.refresh (secondRefresh [paused] ∅ [paused])))) rfl rfl rfl
  refine ⟨_, _, _, (hrun.snoc hkeep).snoc (step_reconfigured _ _), step_checkDone _ _ _ _,
    ⟨entry, Finmap.lookup_insert _, rfl⟩, _, Finmap.lookup_insert _, ?_⟩
  decide

/-- **Checks can go wrong** in each of the three ways. -/
theorem checks_can_go_wrong :
    (∃ es s t, Run (Step "1.3.4") (new (nasConfig [nas])) es s ∧ Step "1.3.4" s (.replace 0) t ∧
      ¬ StepRight s (.replace 0) t ∧ ¬ CheckingRight t) ∧
    (∃ es s t, Run (Step "1.3.4") (new (nasConfig [nas])) es s ∧
      Step "1.3.4" s (.store 0 (some "1.3.4") 2) t ∧ ¬ NotCreated s t nas.infoKey) ∧
    ∃ es s t, Run (Step "1.3.4") (new (nasConfig [nas])) es s ∧
      Step "1.3.4" s (.store 0 (some "1.3.4") 2) t ∧
      (∃ old, s.info.lookup nas.infoKey = some old ∧ old.status = .maintenance) ∧
      ∃ new, t.info.lookup nas.infoKey = some new ∧ new.status = .online :=
  ⟨check_can_end_too_early, removed_entry_can_return, maintenance_can_be_overwritten⟩

end InfoMonitor

end Contiwatch
