import Contiwatch.Lib.Runs
import Contiwatch.Lib.Slots
import Contiwatch.ReleaseCheck

/-!
# Concurrent Release Checks

`refreshReleaseCheck` of `internal/server/release_check.go` reads the stored state, asks the
release server with the ETag of that state, and stores a new state made of the answer and of what
it has read. The background loop and the request handlers call it, and nothing orders the calls: a
state may be replaced by one that goes back to an older state.

## Main results

* `run_stored_right` — in every state, the stored result is that of the release list that the stored
  ETag names, or nothing; and the error is empty exactly if the last stored refresh has succeeded.
* `success_can_be_forgotten` — nothing may be stored although a list was fetched: a refresh that
  fails writes back what it had read.
-/

namespace Contiwatch

open GoStrings

/-! ### Fetching -/

/-- An error of Go's library. It has a text. -/
structure GoError where
  text : String
  text_ne : text ≠ ""

/-- What comes of a request. -/
inductive Exchange
  /-- `http.NewRequestWithContext` refuses the address. -/
  | refused (err : GoError)
  /-- There is no response, in time or at all. -/
  | unreachable (err : GoError)
  | response (status : ℕ) (etag : String) (body : Except GoError (List GithubRelease))

/-- `fetchGitHubReleases`. -/
def fetchGitHubReleases (repo : String) (exchange : Exchange) : Fetch :=
  if trimSpaceStr repo = "" then .failed "repo not configured"
  else
    match exchange with
    | .refused err => .failed err.text
    | .unreachable err => .failed err.text
    | .response status etag body =>
        if status = 304 then .notModified
        else if status < 200 ∨ 300 ≤ status then
          .failed ("github releases status " ++ toString status)
        else
          match body with
          | .error err => .failed err.text
          | .ok releases => .fetched releases etag

/-- The check has not failed. -/
def Fetch.Succeeded : Fetch → Prop
  | .failed _ => False
  | _ => True

/-! ### The calls -/

/-- A call of `refreshReleaseCheck`: it has read the state, or the answer as well. -/
inductive RefreshCall
  | fetching (prev : ReleaseCheckState)
  | answered (prev : ReleaseCheckState) (fetch : Fetch)
  | done

/-- The stored state, the calls, and the ETag of the server's current list. Two fields only record
history: `received` the lists that were fetched with their ETags, and `stored` what the last
refresh that was stored had received. -/
structure ReleaseRefreshes where
  state : ReleaseCheckState
  calls : List RefreshCall
  current : String
  received : List (List GithubRelease × String)
  stored : Option Fetch

/-- The lists and ETags of an answer. -/
def Fetch.received : Fetch → List (List GithubRelease × String)
  | .fetched releases etag => [(releases, etag)]
  | _ => []

inductive RefreshEvent
  /-- The server's list changes. -/
  | publish (etag : String)
  | call
  | answer (i : ℕ) (exchange : Exchange)
  | store (i now : ℕ)

/-- The state in which the program starts. -/
def ReleaseRefreshes.new (current : String) : ReleaseRefreshes where
  state := .zero
  calls := []
  current := current
  received := []
  stored := none

section

variable (info : ReleaseMeta) (named : String → List GithubRelease)

/-- What the release server is relied on for, when it is asked with the ETag `etag`: an ETag names
one list, and 304 is answered only when the list named is current. -/
def Reliable (current etag : String) : Exchange → Prop
  | .response status answered body =>
      (status = 304 → etag ≠ "" ∧ etag = current) ∧
        ∀ releases, body = .ok releases → answered ≠ "" → releases = named answered
  | _ => True

/-- One step of a call, or of the server. -/
inductive RefreshStep (s : ReleaseRefreshes) : RefreshEvent → ReleaseRefreshes → Prop
  | publish (etag : String) : RefreshStep s (.publish etag) { s with current := etag }
  | call : RefreshStep s .call { s with calls := s.calls ++ [.fetching s.state] }
  | answer {i : ℕ} {prev : ReleaseCheckState} {exchange : Exchange}
      (hi : s.calls[i]? = some (.fetching prev))
      (hreliable : Reliable named s.current prev.etag exchange) :
      RefreshStep s (.answer i exchange)
        { s with
          calls := s.calls.set i (.answered prev (fetchGitHubReleases info.repo exchange))
          received := (fetchGitHubReleases info.repo exchange).received ++ s.received }
  | store {i now : ℕ} {prev next : ReleaseCheckState} {fetch : Fetch}
      (hi : s.calls[i]? = some (.answered prev fetch))
      (hnext : RefreshReleaseCheck info prev now fetch next) :
      RefreshStep s (.store i now)
        { s with state := next, calls := s.calls.set i .done, stored := some fetch }

/-! ### What is stored -/

/-- The result of the list `releases`. -/
def ResultOf (releases : List GithubRelease) (state : ReleaseCheckState) : Prop :=
  ∃ latest, SelectReleaseForChannel releases info.channel latest ∧
    state.latest = releaseInfo latest ∧
    state.updateAvailable =
      ((releaseInfo latest).version ≠ "" && info.version ≠ "" &&
        compareVersions info.version.toList (releaseInfo latest).version.toList == .lt)

/-- No result, as in the beginning. -/
structure NoResult (state : ReleaseCheckState) : Prop where
  latest : state.latest = releaseInfo none
  updateAvailable : state.updateAvailable = false

namespace ReleaseRefreshes

/-- Result and ETag belong together, and the error tells of a failure. -/
structure Right (s : ReleaseRefreshes) : Prop where
  named : s.state.etag ≠ "" → ResultOf info (named s.state.etag) s.state
  unnamed : s.state.etag = "" →
    NoResult s.state ∨ ∃ releases, (releases, "") ∈ s.received ∧ ResultOf info releases s.state
  error : ∀ fetch, s.stored = some fetch → (s.state.error = "" ↔ fetch.Succeeded)

/-- What is claimed of the result: it is that of the list that the ETag names, and there is none
only when nothing was ever fetched. -/
def AsClaimed (s : ReleaseRefreshes) : Prop :=
  (s.state.etag ≠ "" ∧ ResultOf info (named s.state.etag) s.state) ∨
    (NoResult s.state ∧ s.received = [])

/-- The result of a state is none, or that of a list which was fetched with the state's ETag. -/
def StateOk (s : ReleaseRefreshes) (state : ReleaseCheckState) : Prop :=
  (state.etag = "" ∧ NoResult state) ∨
    ∃ releases, (releases, state.etag) ∈ s.received ∧ ResultOf info releases state

/-- The same for what a call has read, and its answer. -/
def CallOk (s : ReleaseRefreshes) : RefreshCall → Prop
  | .fetching prev => s.StateOk info prev
  | .answered prev fetch => s.StateOk info prev ∧
      (∀ releases etag, fetch = .fetched releases etag → (releases, etag) ∈ s.received) ∧
      ∀ err, fetch = .failed err → err ≠ ""
  | .done => True

structure Inv (s : ReleaseRefreshes) : Prop where
  state : s.StateOk info s.state
  calls : ∀ {i : ℕ} {call : RefreshCall}, s.calls[i]? = some call → s.CallOk info call
  received : ∀ {releases etag}, (releases, etag) ∈ s.received → etag ≠ "" → releases = named etag
  error : ∀ fetch, s.stored = some fetch → (s.state.error = "" ↔ fetch.Succeeded)

variable {info named} {s t : ReleaseRefreshes} {state prev next : ReleaseCheckState}
  {call : RefreshCall}

/-- The checker starts within the invariant. -/
theorem inv_new (current : String) : Inv info named (new current) where
  state := Or.inl ⟨rfl, rfl, rfl⟩
  calls h := nomatch h
  received h := nomatch h
  error _ h := nomatch h

/-- What was fetched stays fetched. -/
theorem StateOk.mono (h : s.StateOk info state) (hreceived : ∀ p ∈ s.received, p ∈ t.received) :
    t.StateOk info state := by
  refine h.imp_right ?_
  rintro ⟨releases, hmem, hresult⟩
  exact ⟨releases, hreceived _ hmem, hresult⟩

/-- It is the result and the ETag that count. -/
theorem StateOk.congr (h : s.StateOk info state) (hetag : next.etag = state.etag)
    (hlatest : next.latest = state.latest)
    (hupdate : next.updateAvailable = state.updateAvailable) : s.StateOk info next := by
  rcases h with ⟨hnone, hresult⟩ | ⟨releases, hmem, latest, hselect, hresult⟩
  · exact Or.inl ⟨hetag.trans hnone, hlatest.trans hresult.1, hupdate.trans hresult.2⟩
  · exact Or.inr ⟨releases, hetag ▸ hmem, latest, hselect, hlatest.trans hresult.1,
      hupdate.trans hresult.2⟩

/-- More answers do not make a call wrong. -/
theorem CallOk.mono (h : s.CallOk info call) (hreceived : ∀ p ∈ s.received, p ∈ t.received) :
    t.CallOk info call := by
  cases call with
  | fetching prev => exact StateOk.mono h hreceived
  | answered prev fetch =>
      exact ⟨h.1.mono hreceived, fun releases etag hfetch => hreceived _ (h.2.1 _ _ hfetch), h.2.2⟩
  | done => trivial

/-- An error of a fetch has a text. -/
theorem failed_ne {repo : String} {exchange : Exchange} {err : String}
    (h : fetchGitHubReleases repo exchange = .failed err) : err ≠ "" := by
  unfold fetchGitHubReleases at h
  split at h
  · exact Fetch.failed.inj h ▸ by decide
  · cases exchange with
    | refused err => exact Fetch.failed.inj h ▸ err.text_ne
    | unreachable err => exact Fetch.failed.inj h ▸ err.text_ne
    | response status etag body =>
        dsimp only at h
        split at h
        · cases h
        split at h
        · rw [← Fetch.failed.inj h]
          simp
        · cases body with
          | error err => exact Fetch.failed.inj h ▸ err.text_ne
          | ok releases => cases h

/-- A list that was fetched is the body of the answer. -/
theorem fetched_of_exchange {repo etag : String} {exchange : Exchange}
    {releases : List GithubRelease}
    (h : fetchGitHubReleases repo exchange = .fetched releases etag) :
    ∃ status, exchange = .response status etag (.ok releases) := by
  unfold fetchGitHubReleases at h
  split at h
  · cases h
  · cases exchange with
    | refused err => cases h
    | unreachable err => cases h
    | response status etag body =>
        dsimp only at h
        split at h
        · cases h
        split at h
        · cases h
        · cases body with
          | error err => cases h
          | ok releases =>
              obtain ⟨rfl, rfl⟩ := Fetch.fetched.inj h
              exact ⟨status, rfl⟩

/-- **A refresh keeps result and ETag together**: it keeps both of what it has read, or takes both
from the answer. -/
theorem stateOk_refresh {now : ℕ} {fetch : Fetch} (hcall : s.CallOk info (.answered prev fetch))
    (h : RefreshReleaseCheck info prev now fetch next) : s.StateOk info next := by
  obtain ⟨hprev, hfetched, -⟩ := hcall
  cases h with
  | failed => exact hprev.congr rfl rfl rfl
  | notModified => exact hprev.congr rfl rfl rfl
  | fetched hselect => exact Or.inr ⟨_, hfetched _ _ rfl, _, hselect, rfl, rfl⟩

/-- The error that a refresh stores. -/
theorem error_refresh {now : ℕ} {fetch : Fetch} (hcall : s.CallOk info (.answered prev fetch))
    (h : RefreshReleaseCheck info prev now fetch next) : next.error = "" ↔ fetch.Succeeded := by
  cases h with
  | failed => exact iff_of_false (hcall.2.2 _ rfl) id
  | notModified => exact iff_of_true rfl trivial
  | fetched => exact iff_of_true rfl trivial

/-- A reliable answer keeps the invariant. -/
theorem inv_answer {i : ℕ} {exchange : Exchange} (h : Inv info named s)
    (hi : s.calls[i]? = some (.fetching prev))
    (hreliable : Reliable named s.current prev.etag exchange) :
    Inv info named
      { s with
        calls := s.calls.set i (.answered prev (fetchGitHubReleases info.repo exchange))
        received := (fetchGitHubReleases info.repo exchange).received ++ s.received } where
  state := h.state.mono fun _ => List.mem_append_right _
  calls {j call} hj := by
    rcases Slots.of_set hi hj with ⟨-, rfl⟩ | ⟨-, hj⟩
    · refine ⟨(h.calls hi).mono fun _ => List.mem_append_right _, fun releases etag hfetch => ?_,
        fun err => failed_ne⟩
      rw [hfetch]
      exact List.mem_append_left _ (List.mem_singleton.mpr rfl)
    · exact (h.calls hj).mono fun _ => List.mem_append_right _
  received {releases etag} hmem hetag := by
    rcases List.mem_append.mp hmem with hmem | hmem
    · rcases hfetch : fetchGitHubReleases info.repo exchange with _ | _ | ⟨releases', etag'⟩
      · exact absurd (hfetch ▸ hmem) List.not_mem_nil
      · exact absurd (hfetch ▸ hmem) List.not_mem_nil
      · rw [hfetch] at hmem
        obtain ⟨rfl, rfl⟩ := Prod.mk.inj (List.mem_singleton.mp hmem)
        obtain ⟨status, rfl⟩ := fetched_of_exchange hfetch
        exact hreliable.2 releases rfl hetag
    · exact h.received hmem hetag
  error := h.error

/-- Every step keeps the invariant. -/
theorem inv_step {e : RefreshEvent} (h : Inv info named s)
    (hstep : RefreshStep info named s e t) : Inv info named t := by
  cases hstep with
  | publish => exact ⟨h.state, h.calls, h.received, h.error⟩
  | call =>
      refine ⟨h.state, fun hj => ?_, h.received, h.error⟩
      rcases Slots.of_append hj with ⟨-, rfl⟩ | hj
      · exact h.state
      · exact h.calls hj
  | answer hi hreliable => exact inv_answer h hi hreliable
  | store hi hnext =>
      refine ⟨stateOk_refresh (h.calls hi) hnext, fun hj => ?_, h.received, fun fetch hfetch => ?_⟩
      · rcases Slots.of_set hi hj with ⟨-, rfl⟩ | ⟨-, hj⟩
        · trivial
        · exact h.calls hj
      · exact Option.some.inj hfetch ▸ error_refresh (h.calls hi) hnext

/-- The invariant makes the state right. -/
theorem Inv.right (h : Inv info named s) : Right info named s where
  named hetag := by
    rcases h.state with ⟨hnone, -⟩ | ⟨releases, hmem, hresult⟩
    · exact absurd hnone hetag
    · exact h.received hmem hetag ▸ hresult
  unnamed hetag := by
    rcases h.state with ⟨-, hnone⟩ | ⟨releases, hmem, hresult⟩
    · exact Or.inl hnone
    · exact Or.inr ⟨releases, hetag ▸ hmem, hresult⟩
  error := h.error

end ReleaseRefreshes

open ReleaseRefreshes in
/-- **What is stored.** In every state, a stored ETag names the list that the stored result is of;
without one there is no result, or that of a list which came without an ETag. The error is empty
exactly if the last refresh that was stored has succeeded. -/
theorem run_stored_right {current : String} {es : List RefreshEvent} {s : ReleaseRefreshes}
    (h : Run (RefreshStep info named) (new current) es s) : Right info named s :=
  (h.state_invariant (Inv info named) (inv_new current) inv_step).right

end

/-! ### A success, and one that is forgotten -/

/-- A release of `main`. -/
def release140 : GithubRelease where
  tagName := "1.4.0"
  name := "1.4.0"
  targetCommitish := "main"
  htmlURL := "https://github.com/pbuzdygan/contiwatch/releases/tag/1.4.0"
  draft := false

/-- The metadata of an instance of `1.3.4`. -/
def info134 : ReleaseMeta := releaseMeta "1.3.4" "pbuzdygan/contiwatch"

/-- The sample's only release is the selected one. -/
theorem select_release140 :
    SelectReleaseForChannel [release140] info134.channel (some release140) := by
  have hcandidates : candidates [release140] info134.channel = [release140] := by decide
  rw [SelectReleaseForChannel, hcandidates]
  refine ⟨List.mem_singleton_self _, fun hweak y hy => ?_⟩
  rw [List.mem_singleton.mp hy]
  exact hweak.irrefl _ (List.mem_singleton_self _)

/-- What the server answers a check. -/
def answer140 : Exchange := .response 200 "W/140" (.ok [release140])

/-- The sample's answer is reliable. -/
theorem reliable_answer140 (etag : String) :
    Reliable (fun _ => [release140]) "W/140" etag answer140 :=
  ⟨fun h => absurd h (by decide), fun _ hbody _ => (Except.ok.inj hbody).symm⟩

/-- The state after a check that got this answer. -/
def checked140 : ReleaseCheckState where
  repo := info134.repo
  channel := info134.channel
  latest := releaseInfo (some release140)
  updateAvailable := (releaseInfo (some release140)).version ≠ "" && info134.version ≠ "" &&
    compareVersions info134.version.toList (releaseInfo (some release140)).version.toList == .lt
  checkedAt := 1
  error := ""
  etag := "W/140"

open ReleaseRefreshes in

/-- One check is stored right. -/
theorem run_stored_right_checked : ∃ es s,
    Run (RefreshStep info134 fun _ => [release140]) (new "W/140") es s ∧
      s.state = checked140 ∧ s.Right info134 fun _ => [release140] := by
  have hnew : Run (RefreshStep info134 fun _ => [release140]) (new "W/140") [] (new "W/140") := .nil
  have hrun := hnew |>.snoc .call
    |>.snoc (show RefreshStep _ _ _ (.answer 0 answer140) _ from
      .answer rfl (reliable_answer140 _))
    |>.snoc (show RefreshStep _ _ _ (.store 0 1) _ from .store rfl (.fetched select_release140))
  exact ⟨_, _, hrun, rfl, run_stored_right info134 _ hrun⟩

open ReleaseRefreshes in
/-- Two calls read the state of the beginning. One stores a success, then the other one fails and
writes the beginning back. -/
theorem success_can_be_forgotten : ∃ es s,
    Run (RefreshStep info134 fun _ => [release140]) (new "W/140") es s ∧
      ¬ s.AsClaimed info134 fun _ => [release140] := by
  have hnew : Run (RefreshStep info134 fun _ => [release140]) (new "W/140") [] (new "W/140") := .nil
  have hrun := hnew |>.snoc .call |>.snoc .call
    |>.snoc (show RefreshStep _ _ _ (.answer 0 answer140) _ from
      .answer rfl (reliable_answer140 _))
    |>.snoc (show RefreshStep _ _ _ (.answer 1 (.unreachable ⟨"EOF", by decide⟩)) _ from
      .answer rfl trivial)
    |>.snoc (show RefreshStep _ _ _ (.store 0 1) _ from .store rfl (.fetched select_release140))
    |>.snoc (show RefreshStep _ _ _ (.store 1 2) _ from .store rfl .failed)
  refine ⟨_, _, hrun, ?_⟩
  rintro (⟨hetag, -⟩ | ⟨-, hnever⟩)
  · exact hetag rfl
  · cases hnever

end Contiwatch
