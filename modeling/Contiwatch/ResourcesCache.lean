import Contiwatch.ContainerResources
import Contiwatch.Lib.Slots
import Contiwatch.ScanHandlers
import Contiwatch.StackActions

/-!
# The Cache of Container Resources

`handleContainersResources` answers with resources that were looked up before, as long as they are
not too old, and looks the others up. A cached answer may start a refresh in the background.
Requests and refreshes interleave in any order, and the time that is stored with an entry, or
compared with it, is read before the lock is taken.

## Main results

* `run_sources` — what is answered for a scope was looked up for this scope, by the request itself
  or at most half an hour before it read the cache.
* `run_complete` — an answer without an error has one resource for each of the IDs, if the look-ups
  have.
* `fleet_complete` — a controller that asks agents answers so, since they look their containers up
  with a pool of workers.
* `run_refreshes` — the background refreshes of a scope are at least two seconds apart.
-/

namespace Contiwatch

open GoStrings GoTime

namespace ResourcesCache

variable {Res : Type}

/-! ### The cache -/

/-- `containersResourcesCacheEntry`. -/
structure CacheEntry (Res : Type) where
  resource : Res
  fetchedAt : ℕ

abbrev Cache (Res : Type) := GoMap String (GoMap String (CacheEntry Res))

/-- What `getContainersResourcesCache` returns. -/
structure CacheRead (Res : Type) where
  resources : List Res
  missingIDs : List String
  needsRefresh : Bool

/-- The loop of `getContainersResourcesCache`. An age is negative when the entry was written after
the time was read. -/
def readEntries (byScope : GoMap String (CacheEntry Res)) (maxAge refreshAfter now : ℕ) :
    List String → CacheRead Res
  | [] => ⟨[], [], false⟩
  | id :: ids =>
      let rest := readEntries byScope maxAge refreshAfter now ids
      match byScope.lookup id with
      | none => ⟨rest.resources, id :: rest.missingIDs, true⟩
      | some entry =>
          if 0 < maxAge ∧ entry.fetchedAt + maxAge < now then
            ⟨rest.resources, id :: rest.missingIDs, true⟩
          else
            ⟨entry.resource :: rest.resources, rest.missingIDs,
              rest.needsRefresh || (0 < refreshAfter && entry.fetchedAt + refreshAfter < now)⟩

/-- `getContainersResourcesCache`. -/
def getContainersResourcesCache (cache : Cache Res) (scope : String) (ids : List String)
    (maxAge refreshAfter now : ℕ) : CacheRead Res :=
  if scope = "" ∨ ids = [] then ⟨[], ids, true⟩
  else match cache.lookup scope with
    | none => ⟨[], ids, true⟩
    | some byScope =>
        if byScope.len = 0 then ⟨[], ids, true⟩
        else readEntries byScope maxAge refreshAfter now ids

section

variable (idOf : Res → String)

def writeEntry (now : ℕ) (byScope : GoMap String (CacheEntry Res)) (res : Res) :
    GoMap String (CacheEntry Res) :=
  if idOf res = "" then byScope else byScope.insert (idOf res) ⟨res, now⟩

def writeEntries (now : ℕ) (byScope : GoMap String (CacheEntry Res)) (resources : List Res) :
    GoMap String (CacheEntry Res) :=
  resources.foldl (writeEntry idOf now) byScope

/-- `setContainersResourcesCache`. -/
def setContainersResourcesCache (cache : Cache Res) (scope : String) (resources : List Res)
    (now : ℕ) : Cache Res :=
  if scope = "" ∨ resources = [] then cache
  else cache.insert scope (writeEntries idOf now ((cache.lookup scope).getD ∅) resources)

end

/-- `shouldRefreshContainersResources`, with `containersResourcesRefresh` before and after. -/
def shouldRefreshContainersResources (refresh : GoMap String ℕ) (scope : String)
    (minInterval now : ℕ) : Bool × GoMap String ℕ :=
  if scope = "" then (false, refresh)
  else match refresh.lookup scope with
    | none => (true, refresh.insert scope now)
    | some last =>
        if 0 < minInterval ∧ now < last + minInterval then (false, refresh)
        else (true, refresh.insert scope now)

/-! ### Requests -/

/-- The loop of `normalizeContainerIDs`, with the IDs so far. -/
def collectIDs (unique : List String) : List String → List String
  | [] => unique
  | id :: ids =>
      let id := trimSpaceStr id
      if id = "" ∨ id ∈ unique then collectIDs unique ids else collectIDs (unique ++ [id]) ids

/-- `normalizeContainerIDs`. -/
def normalizeContainerIDs (ids : List String) : List String := collectIDs [] ids

def maxContainersResources : ℕ := 50

/-- `containersResourcesRequest`. -/
structure ContainersResourcesRequest where
  scope : String
  containerIDs : List String

/-- What the handler does with a request: it refuses it, answers with no resources, or looks in the
cache of a scope. -/
inductive Plan
  | refuse (text : String)
  | empty (scope : String)
  | look (scope : String) (server : ServerType × String) (ids : List String)
  deriving DecidableEq

/-- The server that an agent is asked about: the one in the URL, or the only one. -/
def agentServerName (locals : List LocalServer) (serverParam : String) : String :=
  let name := trimSpaceStr serverParam
  match locals with
  | [only] => if name = "" then only.name else name
  | _ => name

/-- `handleContainersResources` until it reads the cache; `serverParam` is the name in the URL. -/
def planResources (agentMode : Bool) (locals : List LocalServer) (serverParam : String)
    (payload : ContainersResourcesRequest) : Plan :=
  let ids := normalizeContainerIDs payload.containerIDs
  if maxContainersResources < ids.length then .refuse "too many containers requested"
  else if agentMode then
    let name := agentServerName locals serverParam
    if name = "" then .refuse "server name required"
    else if ids = [] then .empty ("local:" ++ name)
    else .look ("local:" ++ name) (.onHost, name) ids
  else
    let scope := trimSpaceStr payload.scope
    if scope = "" then .refuse "scope is required"
    else if ids = [] then .empty scope
    else match parseScope scope with
      | .error text => .refuse text
      | .ok server => .look scope server ids

/-- `containersResourcesResponse`, with the IDs and the time of the look in the cache; the resources
are those that were found there, and those that were not. -/
structure Answer (Res : Type) where
  scope : String
  ids : List String
  now : ℕ
  cached : List Res
  fetched : List Res
  error : String

def Answer.resources (a : Answer Res) : List Res := a.cached ++ a.fetched

/-- Where a request stands, and the refresh that it starts: at each reading of the clock, at each
lock, and at each look-up. -/
inductive Phase (Res : Type)
  | asked
  | reading (now : ℕ)
  | fetching (now : ℕ) (cached : List Res) (missing : List String)
  | storing (result : List Res) (reply : Option (ℕ × List Res))
  | storingAt (time : ℕ) (result : List Res) (reply : Option (ℕ × List Res))
  | replying (a : Answer Res) (needsRefresh : Bool)
  | deciding
  | decidingAt (now : ℕ)
  | refreshing
  | ended

structure Call (Res : Type) where
  scope : String
  server : ServerType × String
  ids : List String
  phase : Phase Res

/-- The answer after a look-up. -/
def Call.answer (k : Call Res) (now : ℕ) (cached fetched : List Res) (error : String) :
    Answer Res :=
  ⟨k.scope, k.ids, now, cached, fetched, error⟩

def cacheMaxAge : ℕ := 30 * minute

def cacheRefreshAfter : ℕ := 6 * second

def minRefreshInterval : ℕ := 2 * second

/-- What is done after the look in the cache. -/
def Call.afterRead (k : Call Res) (now : ℕ) (r : CacheRead Res) : Phase Res :=
  if r.missingIDs = [] then .replying (k.answer now r.resources [] "") r.needsRefresh
  else .fetching now r.resources r.missingIDs

/-- What is done after the result was stored: the request is answered, or a refresh ends. -/
def Call.afterStore (k : Call Res) (result : List Res) : Option (ℕ × List Res) → Phase Res
  | some (now, cached) => .replying (k.answer now cached result "") false
  | none => .ended

/-- The clock, the two maps of the `Server`, and the requests. -/
structure State (Res : Type) where
  clock : ℕ
  cache : Cache Res
  refresh : GoMap String ℕ
  calls : List (Call Res)

def State.start : State Res := ⟨0, ∅, ∅, []⟩

def State.setPhase (s : State Res) (i : ℕ) (k : Call Res) (phase : Phase Res) : State Res :=
  { s with calls := s.calls.set i { k with phase := phase } }

inductive Event (Res : Type)
  | tick (time : ℕ)
  | request (scope : String) (ids : List String)
  | readClock (i : ℕ)
  | read (i : ℕ)
  | looked (i : ℕ) (scope : String) (ids : List String) (outcome : Except String (List Res))
  | store (i : ℕ) (scope : String) (time : ℕ) (result : List Res)
  | answer (i : ℕ) (a : Answer Res)
  | decide (i : ℕ) (scope : String) (now : ℕ) (refreshes : Bool)

section

variable (idOf : Res → String) (agentMode : Bool)
  (Look : ServerType × String → List String → Except String (List Res) → Prop)

/-- The steps of a server, agent or not; `Look` says what a look-up at a server may come to. -/
inductive Step : State Res → Event Res → State Res → Prop
  | tick {s : State Res} (time : ℕ) :
      Step s (.tick time) { s with clock := s.clock + time }
  | request {s : State Res} {locals : List LocalServer} {serverParam scope : String}
      {payload : ContainersResourcesRequest} {server : ServerType × String} {ids : List String}
      (hplan : planResources agentMode locals serverParam payload = .look scope server ids) :
      Step s (.request scope ids) { s with calls := s.calls ++ [⟨scope, server, ids, .asked⟩] }
  | readClock {s : State Res} {i : ℕ} {k : Call Res} (hk : s.calls[i]? = some k)
      (hphase : k.phase = .asked) :
      Step s (.readClock i) (s.setPhase i k (.reading s.clock))
  | read {s : State Res} {i now : ℕ} {k : Call Res} (hk : s.calls[i]? = some k)
      (hphase : k.phase = .reading now) :
      Step s (.read i)
        (s.setPhase i k (k.afterRead now
          (getContainersResourcesCache s.cache k.scope k.ids cacheMaxAge cacheRefreshAfter now)))
  | fetched {s : State Res} {i now : ℕ} {k : Call Res} {cached result : List Res}
      {missing : List String} (hk : s.calls[i]? = some k)
      (hphase : k.phase = .fetching now cached missing)
      (hlook : Look k.server missing (.ok result)) :
      Step s (.looked i k.scope missing (.ok result))
        (s.setPhase i k (.storing result (some (now, cached))))
  | notFetched {s : State Res} {i now : ℕ} {k : Call Res} {cached : List Res}
      {missing : List String} {text : String} (hk : s.calls[i]? = some k)
      (hphase : k.phase = .fetching now cached missing)
      (hlook : Look k.server missing (.error text)) :
      Step s (.looked i k.scope missing (.error text))
        (s.setPhase i k (.replying (k.answer now cached [] text) false))
  | storeClock {s : State Res} {i : ℕ} {k : Call Res} {result : List Res}
      {reply : Option (ℕ × List Res)} (hk : s.calls[i]? = some k)
      (hphase : k.phase = .storing result reply) :
      Step s (.readClock i) (s.setPhase i k (.storingAt s.clock result reply))
  | store {s : State Res} {i time : ℕ} {k : Call Res} {result : List Res}
      {reply : Option (ℕ × List Res)} (hk : s.calls[i]? = some k)
      (hphase : k.phase = .storingAt time result reply) :
      Step s (.store i k.scope time result)
        { s.setPhase i k (k.afterStore result reply) with
          cache := setContainersResourcesCache idOf s.cache k.scope result time }
  | answer {s : State Res} {i : ℕ} {k : Call Res} {a : Answer Res} {needsRefresh : Bool}
      (hk : s.calls[i]? = some k) (hphase : k.phase = .replying a needsRefresh) :
      Step s (.answer i a) (s.setPhase i k (if needsRefresh then .deciding else .ended))
  | decideClock {s : State Res} {i : ℕ} {k : Call Res} (hk : s.calls[i]? = some k)
      (hphase : k.phase = .deciding) :
      Step s (.readClock i) (s.setPhase i k (.decidingAt s.clock))
  | decide {s : State Res} {i now : ℕ} {k : Call Res} (hk : s.calls[i]? = some k)
      (hphase : k.phase = .decidingAt now) :
      Step s
        (.decide i k.scope now
          (shouldRefreshContainersResources s.refresh k.scope minRefreshInterval now).1)
        { s.setPhase i k
            (if (shouldRefreshContainersResources s.refresh k.scope minRefreshInterval now).1
              then .refreshing else .ended) with
          refresh :=
            (shouldRefreshContainersResources s.refresh k.scope minRefreshInterval now).2 }
  | refreshed {s : State Res} {i : ℕ} {k : Call Res} {result : List Res}
      (hk : s.calls[i]? = some k) (hphase : k.phase = .refreshing)
      (hlook : Look k.server k.ids (.ok result)) :
      Step s (.looked i k.scope k.ids (.ok result)) (s.setPhase i k (.storing result none))
  | notRefreshed {s : State Res} {i : ℕ} {k : Call Res} {text : String}
      (hk : s.calls[i]? = some k) (hphase : k.phase = .refreshing)
      (hlook : Look k.server k.ids (.error text)) :
      Step s (.looked i k.scope k.ids (.error text)) (s.setPhase i k .ended)

end

/-! ### The entries of the cache -/

section

variable {idOf : Res → String} {byScope : GoMap String (CacheEntry Res)}
  {cache : Cache Res} {scope : String} {ids : List String} {maxAge refreshAfter now : ℕ}

/-- The entries are under the IDs of their resources. -/
def Keyed (idOf : Res → String) (byScope : GoMap String (CacheEntry Res)) : Prop :=
  ∀ id entry, byScope.lookup id = some entry → idOf entry.resource = id

/-- What is read is there, and not too old. -/
theorem mem_readEntries {res : Res}
    (h : res ∈ (readEntries byScope maxAge refreshAfter now ids).resources) :
    ∃ id entry, byScope.lookup id = some entry ∧ entry.resource = res ∧
      (0 < maxAge → now ≤ entry.fetchedAt + maxAge) := by
  induction ids with
  | nil => cases h
  | cons id ids ih =>
      rw [readEntries] at h
      cases hentry : byScope.lookup id with
      | none =>
          rw [hentry] at h
          exact ih h
      | some entry =>
          rw [hentry] at h
          by_cases hold : 0 < maxAge ∧ entry.fetchedAt + maxAge < now
          · simp only [if_pos hold] at h
            exact ih h
          · simp only [if_neg hold] at h
            rcases List.mem_cons.mp h with rfl | h
            · exact ⟨id, entry, hentry, rfl, fun hpos => by omega⟩
            · exact ih h

/-- Every ID is answered from the cache or missing. -/
theorem perm_readEntries (hkeyed : Keyed idOf byScope) :
    ((readEntries byScope maxAge refreshAfter now ids).resources.map idOf ++
      (readEntries byScope maxAge refreshAfter now ids).missingIDs).Perm ids := by
  induction ids with
  | nil => exact List.Perm.refl _
  | cons id ids ih =>
      have hmissing : ∀ rest : CacheRead Res,
          (rest.resources.map idOf ++ rest.missingIDs).Perm ids →
          (rest.resources.map idOf ++ id :: rest.missingIDs).Perm (id :: ids) :=
        fun rest hrest => List.perm_middle.trans (hrest.cons id)
      rw [readEntries]
      cases hentry : byScope.lookup id with
      | none => exact hmissing _ ih
      | some entry =>
          by_cases hold : 0 < maxAge ∧ entry.fetchedAt + maxAge < now
          · simp only [if_pos hold]
            exact hmissing _ ih
          · simp only [if_neg hold, List.map_cons, List.cons_append, hkeyed id entry hentry]
            exact ih.cons id

/-- The missing IDs are some of those that were asked for, in their order. -/
theorem sublist_readEntries :
    (readEntries byScope maxAge refreshAfter now ids).missingIDs.Sublist ids := by
  induction ids with
  | nil => exact List.Sublist.refl _
  | cons id ids ih =>
      rw [readEntries]
      cases hentry : byScope.lookup id with
      | none => exact ih.cons_cons id
      | some entry =>
          by_cases hold : 0 < maxAge ∧ entry.fetchedAt + maxAge < now
          · simp only [if_pos hold]
            exact ih.cons_cons id
          · simp only [if_neg hold]
            exact ih.cons id

/-- What `getContainersResourcesCache` finds is in the entries of its scope. -/
theorem mem_getContainersResourcesCache {res : Res}
    (h : res ∈ (getContainersResourcesCache cache scope ids maxAge refreshAfter now).resources) :
    ∃ byScope id entry, cache.lookup scope = some byScope ∧ byScope.lookup id = some entry ∧
      entry.resource = res ∧ (0 < maxAge → now ≤ entry.fetchedAt + maxAge) := by
  unfold getContainersResourcesCache at h
  split at h
  · cases h
  · split at h
    · cases h
    · rename_i byScope hscope
      split at h
      · cases h
      · obtain ⟨id, entry, hentry, hres, hage⟩ := mem_readEntries h
        exact ⟨byScope, id, entry, hscope, hentry, hres, hage⟩

/-- Every ID is found or missing, and none is both. -/
theorem perm_getContainersResourcesCache
    (hkeyed : ∀ byScope, cache.lookup scope = some byScope → Keyed idOf byScope) :
    ((getContainersResourcesCache cache scope ids maxAge refreshAfter now).resources.map idOf ++
      (getContainersResourcesCache cache scope ids maxAge refreshAfter now).missingIDs).Perm
        ids := by
  unfold getContainersResourcesCache
  split
  · exact List.Perm.refl _
  · split
    · exact List.Perm.refl _
    · rename_i byScope hscope
      split
      · exact List.Perm.refl _
      · exact perm_readEntries (hkeyed byScope hscope)

/-- The missing IDs of a look in the cache are in the order of the request. -/
theorem sublist_getContainersResourcesCache :
    (getContainersResourcesCache cache scope ids maxAge refreshAfter now).missingIDs.Sublist
      ids := by
  unfold getContainersResourcesCache
  split
  · exact List.Sublist.refl _
  · split
    · exact List.Sublist.refl _
    · split
      · exact List.Sublist.refl _
      · exact sublist_readEntries

/-- An entry after a write is an old one or one of those that were written. -/
theorem lookup_writeEntries {resources : List Res} {id : String} {entry : CacheEntry Res}
    (h : (writeEntries idOf now byScope resources).lookup id = some entry) :
    byScope.lookup id = some entry ∨
      entry.fetchedAt = now ∧ entry.resource ∈ resources ∧ idOf entry.resource = id := by
  induction resources generalizing byScope with
  | nil => exact Or.inl h
  | cons res resources ih =>
      rcases ih h with hold | ⟨htime, hmem, hid⟩
      · by_cases hblank : idOf res = ""
        · rw [writeEntry, if_pos hblank] at hold
          exact Or.inl hold
        · rw [writeEntry, if_neg hblank] at hold
          by_cases hres : id = idOf res
          · rw [hres, Finmap.lookup_insert] at hold
            obtain rfl := Option.some.inj hold
            exact Or.inr ⟨rfl, List.mem_cons_self, hres.symm⟩
          · rw [Finmap.lookup_insert_of_ne _ hres] at hold
            exact Or.inl hold
      · exact Or.inr ⟨htime, List.mem_cons_of_mem _ hmem, hid⟩

/-- An entry was there before, or is one of the resources that were stored now. -/
theorem lookup_setContainersResourcesCache {resources : List Res} {scope' id : String}
    {byScope' : GoMap String (CacheEntry Res)} {entry : CacheEntry Res}
    (hscope : (setContainersResourcesCache idOf cache scope resources now).lookup scope' =
      some byScope') (hentry : byScope'.lookup id = some entry) :
    (∃ byScope, cache.lookup scope' = some byScope ∧ byScope.lookup id = some entry) ∨
      scope' = scope ∧ entry.fetchedAt = now ∧ entry.resource ∈ resources ∧
        idOf entry.resource = id := by
  unfold setContainersResourcesCache at hscope
  split at hscope
  · exact Or.inl ⟨byScope', hscope, hentry⟩
  · by_cases hsame : scope' = scope
    · rw [hsame, Finmap.lookup_insert] at hscope
      obtain rfl := Option.some.inj hscope
      rcases lookup_writeEntries hentry with hold | hnew
      · cases hcache : cache.lookup scope with
        | none =>
            rw [hcache, Option.getD_none, Finmap.lookup_empty] at hold
            cases hold
        | some byScope =>
            rw [hcache, Option.getD_some] at hold
            exact Or.inl ⟨byScope, hsame ▸ hcache, hold⟩
      · exact Or.inr ⟨hsame, hnew⟩
    · rw [Finmap.lookup_insert_of_ne _ hsame] at hscope
      exact Or.inl ⟨byScope', hscope, hentry⟩

end

/-! ### The IDs of a request -/

/-- IDs as `normalizeContainerIDs` makes them. -/
structure Normal (ids : List String) : Prop where
  nodup : ids.Nodup
  trimmed : ∀ id ∈ ids, id ≠ "" ∧ trimSpaceStr id = id

/-- Some of normalized IDs are normalized. -/
theorem Normal.sublist {ids sub : List String} (h : Normal ids) (hsub : sub.Sublist ids) :
    Normal sub where
  nodup := h.nodup.sublist hsub
  trimmed id hid := h.trimmed id (hsub.subset hid)

/-- The loop keeps the IDs normalized. -/
theorem Normal.collect {unique : List String} (h : Normal unique) (ids : List String) :
    Normal (collectIDs unique ids) := by
  induction ids generalizing unique with
  | nil => exact h
  | cons id ids ih =>
      rw [collectIDs]
      split
      · exact ih h
      · rename_i hnew
        rw [not_or] at hnew
        refine ih ⟨?_, ?_⟩
        · exact List.nodup_append.mpr ⟨h.nodup, List.nodup_singleton _, fun a ha b hb hab =>
            hnew.2 (List.mem_singleton.mp hb ▸ hab ▸ ha)⟩
        · intro other hother
          rcases List.mem_append.mp hother with hother | hother
          · exact h.trimmed other hother
          · rw [List.mem_singleton.mp hother]
            exact ⟨hnew.1, trimSpaceStr_trimSpaceStr id⟩

/-- The IDs of a request are normalized. -/
theorem normal_normalizeContainerIDs (ids : List String) : Normal (normalizeContainerIDs ids) :=
  Normal.collect ⟨List.nodup_nil, nofun⟩ ids

/-- IDs that are normalized stay as they are. -/
theorem normalizeContainerIDs_of_normal {ids : List String} (h : Normal ids) :
    normalizeContainerIDs ids = ids := by
  have hcollect : ∀ unique rest : List String, Normal (unique ++ rest) →
      collectIDs unique rest = unique ++ rest := by
    intro unique rest hnormal
    induction rest generalizing unique with
    | nil => exact (List.append_nil _).symm
    | cons id rest ih =>
        obtain ⟨hne, htrim⟩ := hnormal.trimmed id (by simp)
        have hnew : id ∉ unique := fun hmem =>
          (List.nodup_append.mp hnormal.nodup).2.2 id hmem id List.mem_cons_self rfl
        rw [← List.singleton_append, ← List.append_assoc] at hnormal ⊢
        rw [← ih _ hnormal, List.singleton_append, collectIDs, htrim, if_neg (by simp [hne, hnew])]
  exact hcollect [] ids h

/-- A pool of workers looks all of them up. -/
theorem trimmed_of_normal {ids : List String} (h : Normal ids) :
    ResourceLookup.trimmed ids = ids := by
  have hmap : ids.map trimSpaceStr = ids := by
    conv_rhs => rw [← List.map_id ids]
    exact List.map_congr_left fun id hid => (h.trimmed id hid).2
  rw [ResourceLookup.trimmed, hmap, List.filter_eq_self]
  exact fun id hid => decide_eq_true (h.trimmed id hid).1

/-! ### Where answers come from -/

/-- The scopes and the IDs of the requests, in the order in which they came. -/
def requested (es : List (Event Res)) : List (String × List String) :=
  es.filterMap fun
    | .request scope ids => some (scope, ids)
    | _ => none

/-- A resource that was looked up for the scope and stored with this time. -/
def Stored (es : List (Event Res)) (scope : String) (time : ℕ) (res : Res) : Prop :=
  ∃ i ids result, .looked i scope ids (.ok result) ∈ es ∧ .store i scope time result ∈ es ∧
    res ∈ result

/-- Resources that may be answered from the cache. -/
def Recent (es : List (Event Res)) (scope : String) (now : ℕ) (resources : List Res) : Prop :=
  ∀ res ∈ resources, ∃ time, Stored es scope time res ∧ now ≤ time + cacheMaxAge

section

variable (idOf : Res → String) (Look : ServerType × String → List String →
  Except String (List Res) → Prop)

/-- The IDs are answered from the cache or looked up. -/
structure Divided (cached : List Res) (missing ids : List String) : Prop where
  perm : (cached.map idOf ++ missing).Perm ids
  sublist : missing.Sublist ids

/-- What an answer of a request is made of. -/
structure AnswerRight (es : List (Event Res)) (i : ℕ) (server : ServerType × String)
    (a : Answer Res) : Prop where
  cached : Recent es a.scope a.now a.cached
  fetched : a.fetched = [] ∨ ∃ ids, .looked i a.scope ids (.ok a.fetched) ∈ es
  divided : ∃ missing, Divided idOf a.cached missing a.ids ∧
    (missing = [] ∧ a.fetched = [] ∨ Look server missing (.ok a.fetched) ∨
      Look server missing (.error a.error))

/-- What the history says of a request. -/
def PhaseRight (es : List (Event Res)) (i : ℕ) (k : Call Res) : Prop :=
  match k.phase with
  | .fetching now cached missing =>
      Recent es k.scope now cached ∧ Divided idOf cached missing k.ids
  | .storing result reply | .storingAt _ result reply =>
      (∃ ids, .looked i k.scope ids (.ok result) ∈ es) ∧
        ∀ now cached, reply = some (now, cached) → Recent es k.scope now cached ∧
          ∃ missing, Divided idOf cached missing k.ids ∧ Look k.server missing (.ok result)
  | .replying a _ => a.scope = k.scope ∧ a.ids = k.ids ∧ AnswerRight idOf Look es i k.server a
  | _ => True

/-- The entries are under the IDs of their resources, and were stored as they say. -/
def CacheRight (es : List (Event Res)) (cache : Cache Res) : Prop :=
  ∀ scope byScope, cache.lookup scope = some byScope → ∀ id entry,
    byScope.lookup id = some entry →
      idOf entry.resource = id ∧ Stored es scope entry.fetchedAt entry.resource

/-- What the history says of the state. -/
structure History (es : List (Event Res)) (s : State Res) : Prop where
  cache : CacheRight idOf es s.cache
  requested : ResourcesCache.requested es = s.calls.map fun k => (k.scope, k.ids)
  normal : ∀ {i : ℕ} {k : Call Res}, s.calls[i]? = some k → Normal k.ids
  phases : ∀ {i : ℕ} {k : Call Res}, s.calls[i]? = some k → PhaseRight idOf Look es i k

end

section

variable {idOf : Res → String} {agentMode : Bool}
  {Look : ServerType × String → List String → Except String (List Res) → Prop}
  {es : List (Event Res)} {e : Event Res} {s t : State Res} {i : ℕ} {k : Call Res}

/-- What was stored stays so in a longer history. -/
theorem Stored.mono {scope : String} {time : ℕ} {res : Res} (h : Stored es scope time res)
    (fs : List (Event Res)) : Stored (es ++ fs) scope time res := by
  obtain ⟨i, ids, result, hlooked, hstore, hmem⟩ := h
  exact ⟨i, ids, result, List.mem_append_left _ hlooked, List.mem_append_left _ hstore, hmem⟩

/-- What could be answered from the cache at a time stays so. -/
theorem Recent.mono {scope : String} {now : ℕ} {resources : List Res}
    (h : Recent es scope now resources) (fs : List (Event Res)) :
    Recent (es ++ fs) scope now resources := by
  intro res hres
  obtain ⟨time, hstored, hage⟩ := h res hres
  exact ⟨time, hstored.mono fs, hage⟩

/-- What an answer is made of stays so. -/
theorem AnswerRight.mono {server : ServerType × String} {a : Answer Res}
    (h : AnswerRight idOf Look es i server a) (fs : List (Event Res)) :
    AnswerRight idOf Look (es ++ fs) i server a where
  cached := h.cached.mono fs
  fetched := h.fetched.imp_right fun ⟨ids, hlooked⟩ => ⟨ids, List.mem_append_left _ hlooked⟩
  divided := h.divided

/-- What the history says of a request stays so. -/
theorem PhaseRight.mono (h : PhaseRight idOf Look es i k) (fs : List (Event Res)) :
    PhaseRight idOf Look (es ++ fs) i k := by
  have hstoring : ∀ (result : List Res) (reply : Option (ℕ × List Res)),
      ((∃ ids, .looked i k.scope ids (.ok result) ∈ es) ∧
        ∀ now cached, reply = some (now, cached) → Recent es k.scope now cached ∧
          ∃ missing, Divided idOf cached missing k.ids ∧ Look k.server missing (.ok result)) →
      (∃ ids, .looked i k.scope ids (.ok result) ∈ es ++ fs) ∧
        ∀ now cached, reply = some (now, cached) → Recent (es ++ fs) k.scope now cached ∧
          ∃ missing, Divided idOf cached missing k.ids ∧ Look k.server missing (.ok result) := by
    rintro result reply ⟨⟨ids, hlooked⟩, hreply⟩
    exact ⟨⟨ids, List.mem_append_left _ hlooked⟩, fun now cached heq =>
      ⟨(hreply now cached heq).1.mono fs, (hreply now cached heq).2⟩⟩
  unfold PhaseRight at h ⊢
  cases hphase : k.phase with
  | fetching now cached missing =>
      rw [hphase] at h
      exact ⟨h.1.mono fs, h.2⟩
  | storing result reply | storingAt time result reply =>
      rw [hphase] at h
      exact hstoring result reply h
  | replying a needsRefresh =>
      rw [hphase] at h
      exact ⟨h.1, h.2.1, h.2.2.mono fs⟩
  | asked | reading | deciding | decidingAt | refreshing | ended => trivial

/-- What it says of the cache stays so. -/
theorem CacheRight.mono {cache : Cache Res} (h : CacheRight idOf es cache)
    (fs : List (Event Res)) : CacheRight idOf (es ++ fs) cache := by
  intro scope byScope hscope id entry hentry
  obtain ⟨hid, hstored⟩ := h scope byScope hscope id entry hentry
  exact ⟨hid, hstored.mono fs⟩

/-- At the start there is nothing to say. -/
theorem history_start : History idOf Look [] (State.start : State Res) where
  cache scope byScope h := by
    rw [State.start, Finmap.lookup_empty] at h
    cases h
  requested := rfl
  normal h := by cases h
  phases h := by cases h

/-- The requests of two histories, one after the other. -/
theorem requested_append (es fs : List (Event Res)) :
    requested (es ++ fs) = requested es ++ requested fs := List.filterMap_append

/-- A step that takes a request to another phase. -/
theorem History.setPhase (h : History idOf Look es s) (hk : s.calls[i]? = some k)
    {phase : Phase Res} {cache : Cache Res} {refresh : GoMap String ℕ} {clock : ℕ}
    (he : ResourcesCache.requested [e] = []) (hcache : CacheRight idOf (es ++ [e]) cache)
    (hphase : PhaseRight idOf Look (es ++ [e]) i { k with phase := phase }) :
    History idOf Look (es ++ [e])
      ⟨clock, cache, refresh, s.calls.set i { k with phase := phase }⟩ where
  cache := hcache
  requested := by
    have hsame : (s.calls.map fun k => (k.scope, k.ids))[i]? = some (k.scope, k.ids) := by
      rw [List.getElem?_map, hk]
      rfl
    obtain ⟨hlt, hget⟩ := List.getElem?_eq_some_iff.mp hsame
    rw [requested_append, he, List.append_nil, h.requested, List.map_set, ← hget,
      List.set_getElem_self]
  normal hj := by
    obtain ⟨-, rfl⟩ | ⟨-, hj⟩ := Slots.of_set hk hj
    · exact h.normal (k := k) hk
    · exact h.normal hj
  phases hj := by
    obtain ⟨rfl, rfl⟩ | ⟨-, hj⟩ := Slots.of_set hk hj
    · exact hphase
    · exact (h.phases hj).mono [e]

/-- The IDs that are looked up are those of the request, normalized. -/
theorem ids_of_planResources {locals : List LocalServer} {serverParam scope : String}
    {payload : ContainersResourcesRequest} {server : ServerType × String} {ids : List String}
    (h : planResources agentMode locals serverParam payload = .look scope server ids) :
    ids = normalizeContainerIDs payload.containerIDs := by
  simp only [planResources] at h
  split_ifs at h
  · exact (Plan.look.inj h).2.2.symm
  · split at h
    · cases h
    · exact (Plan.look.inj h).2.2.symm

/-- What is found in the cache for a request. -/
theorem CacheRight.read (h : CacheRight idOf es s.cache) (scope : String) (ids : List String)
    (now : ℕ) :
    Recent es scope now (getContainersResourcesCache s.cache scope ids cacheMaxAge
        cacheRefreshAfter now).resources ∧
      Divided idOf
        (getContainersResourcesCache s.cache scope ids cacheMaxAge cacheRefreshAfter now).resources
        (getContainersResourcesCache s.cache scope ids cacheMaxAge cacheRefreshAfter now).missingIDs
        ids := by
  refine ⟨fun res hres => ?_, ?_, sublist_getContainersResourcesCache⟩
  · obtain ⟨byScope, id, entry, hscope, hentry, rfl, hage⟩ := mem_getContainersResourcesCache hres
    exact ⟨entry.fetchedAt, (h scope byScope hscope id entry hentry).2, hage (by decide)⟩
  · exact perm_getContainersResourcesCache fun byScope hscope id entry hentry =>
      (h scope byScope hscope id entry hentry).1

/-- What was looked up and is stored now. -/
theorem CacheRight.store (h : CacheRight idOf es s.cache) {scope : String} {time : ℕ}
    {result : List Res} (hlooked : ∃ ids, .looked i scope ids (.ok result) ∈ es) :
    CacheRight idOf (es ++ [.store i scope time result])
      (setContainersResourcesCache idOf s.cache scope result time) := by
  intro scope' byScope hscope id entry hentry
  rcases lookup_setContainersResourcesCache hscope hentry with
    ⟨old, hold, hentry⟩ | ⟨rfl, rfl, hmem, hid⟩
  · exact h.mono _ scope' old hold id entry hentry
  · obtain ⟨ids, hlooked⟩ := hlooked
    exact ⟨hid, i, ids, result, List.mem_append_left _ hlooked,
      List.mem_append_right _ List.mem_cons_self, hmem⟩

/-- **A step keeps what the history says**: what is in the cache was stored for its scope, and what
an answer is made of was found there or looked up. -/
theorem step_history (h : History idOf Look es s) (hstep : Step idOf agentMode Look s e t) :
    History idOf Look (es ++ [e]) t := by
  have hcache := h.cache.mono [e]
  cases hstep with
  | tick time =>
      exact ⟨hcache, by rw [requested_append, h.requested]; exact List.append_nil _, h.normal,
        fun hk => (h.phases hk).mono _⟩
  | request hplan =>
      refine ⟨hcache, ?_, fun hk => ?_, fun hk => ?_⟩
      · rw [requested_append, h.requested, List.map_append]
        rfl
      · obtain ⟨-, rfl⟩ | hk := Slots.of_append hk
        · rw [ids_of_planResources hplan]
          exact normal_normalizeContainerIDs _
        · exact h.normal hk
      · obtain ⟨-, rfl⟩ | hk := Slots.of_append hk
        · exact trivial
        · exact (h.phases hk).mono _
  | readClock hk hphase => exact h.setPhase hk rfl hcache trivial
  | @read i now k hk hphase =>
      obtain ⟨hrecent, hdivided⟩ := hcache.read k.scope k.ids now
      refine h.setPhase hk rfl hcache ?_
      unfold Call.afterRead
      by_cases hmissing : (getContainersResourcesCache s.cache k.scope k.ids cacheMaxAge
          cacheRefreshAfter now).missingIDs = []
      · rw [if_pos hmissing]
        exact ⟨rfl, rfl, hrecent, Or.inl rfl, [], hmissing ▸ hdivided, Or.inl ⟨rfl, rfl⟩⟩
      · rw [if_neg hmissing]
        exact ⟨hrecent, hdivided⟩
  | @fetched i now k cached result missing hk hphase hlook =>
      have hold := (h.phases hk).mono [.looked i k.scope missing (.ok result)]
      rw [PhaseRight, hphase] at hold
      refine h.setPhase hk rfl hcache ⟨⟨missing, List.mem_append_right _ List.mem_cons_self⟩, ?_⟩
      rintro now' cached' heq
      obtain ⟨rfl, rfl⟩ := Prod.mk.inj (Option.some.inj heq)
      exact ⟨hold.1, missing, hold.2, hlook⟩
  | @notFetched i now k cached missing text hk hphase hlook =>
      have hold := (h.phases hk).mono [.looked i k.scope missing (.error text)]
      rw [PhaseRight, hphase] at hold
      exact h.setPhase hk rfl hcache
        ⟨rfl, rfl, hold.1, Or.inl rfl, missing, hold.2, Or.inr (Or.inr hlook)⟩
  | @storeClock i k result reply hk hphase =>
      have hold := (h.phases hk).mono [.readClock i]
      rw [PhaseRight, hphase] at hold
      exact h.setPhase hk rfl hcache hold
  | @store i time k result reply hk hphase =>
      have hold := h.phases hk
      rw [PhaseRight, hphase] at hold
      refine h.setPhase hk rfl (h.cache.store hold.1) ?_
      have hnew := (h.phases hk).mono [.store i k.scope time result]
      rw [PhaseRight, hphase] at hnew
      cases reply with
      | none => exact trivial
      | some reply =>
          obtain ⟨now, cached⟩ := reply
          obtain ⟨hrecent, missing, hdivided, hlook⟩ := hnew.2 now cached rfl
          exact ⟨rfl, rfl, hrecent, Or.inr hnew.1, missing, hdivided, Or.inr (Or.inl hlook)⟩
  | @answer i k a needsRefresh hk hphase =>
      refine h.setPhase hk rfl hcache ?_
      cases needsRefresh <;> exact trivial
  | decideClock hk hphase => exact h.setPhase hk rfl hcache trivial
  | @decide i now k hk hphase =>
      refine h.setPhase hk rfl hcache ?_
      cases (shouldRefreshContainersResources s.refresh k.scope minRefreshInterval now).1 <;>
        exact trivial
  | @refreshed i k result hk hphase hlook =>
      exact h.setPhase hk rfl hcache
        ⟨⟨k.ids, List.mem_append_right _ List.mem_cons_self⟩, nofun⟩
  | notRefreshed hk hphase hlook => exact h.setPhase hk rfl hcache trivial

/-- After every run the history says where the state comes from. -/
theorem run_history (h : Run (Step idOf agentMode Look) .start es t) : History idOf Look es t :=
  h.invariant (fun es t => History idOf Look es t) history_start step_history

/-- What a request knows when it is answered. -/
theorem answer_right {a : Answer Res} (h : Run (Step idOf agentMode Look) .start es s)
    (hstep : Step idOf agentMode Look s (.answer i a) t) :
    ∃ server, (requested es)[i]? = some (a.scope, a.ids) ∧ Normal a.ids ∧
      AnswerRight idOf Look es i server a := by
  have hhistory := run_history h
  cases hstep with
  | @answer i k a needsRefresh hk hphase =>
      have hold := hhistory.phases hk
      rw [PhaseRight, hphase] at hold
      obtain ⟨hscope, hids, hright⟩ := hold
      refine ⟨k.server, ?_, hids ▸ hhistory.normal hk, hright⟩
      rw [hhistory.requested, List.getElem?_map, hk, hscope, hids]
      rfl

/-- Where the resources of an answer come from: the scope and the IDs are those of the request, the
resources were looked up by it, or stored for the same scope at most half an hour before it read
the cache. -/
structure Sourced (es : List (Event Res)) (i : ℕ) (a : Answer Res) : Prop where
  asked : (requested es)[i]? = some (a.scope, a.ids)
  cached : ∀ res ∈ a.cached, ∃ time, Stored es a.scope time res ∧ a.now ≤ time + 30 * minute
  fetched : a.fetched = [] ∨ ∃ ids, .looked i a.scope ids (.ok a.fetched) ∈ es

/-! ### A container that is asked for twice -/

section

variable {agentMode : Bool} {locals : List LocalServer} {serverParam scope : String}
  {payload : ContainersResourcesRequest} {server : ServerType × String}
  {Look : ServerType × String → List String → Except String (List String) → Prop}

/-- The first request looks the container up. -/
def firstEvents (scope : String) : List (Event String) :=
  [.request scope ["c"], .readClock 0, .read 0, .looked 0 scope ["c"] (.ok ["c"]), .readClock 0,
    .store 0 scope 0 ["c"], .answer 0 ⟨scope, ["c"], 0, [], ["c"], ""⟩]

/-- The request in a phase, after what it may have stored. -/
def firstState (scope : String) (server : ServerType × String) (cache : Cache String)
    (phase : Phase String) : State String :=
  ⟨0, cache, ∅, [⟨scope, server, ["c"], phase⟩]⟩

def firstEntries : GoMap String (CacheEntry String) := Finmap.insert "c" ⟨"c", 0⟩ ∅

def firstCache (scope : String) : Cache String :=
  setContainersResourcesCache id ∅ scope ["c"] 0

theorem read_empty (scope : String) (ids : List String) (now : ℕ) :
    getContainersResourcesCache (∅ : Cache String) scope ids cacheMaxAge cacheRefreshAfter now =
      ⟨[], ids, true⟩ := by
  unfold getContainersResourcesCache
  split
  · rfl
  · rw [Finmap.lookup_empty]

/-- The first request stores what it has looked up. -/
theorem run_first
    (hplan : planResources agentMode locals serverParam payload = .look scope server ["c"])
    (hlook : Look server ["c"] (.ok ["c"])) :
    Run (Step id agentMode Look) .start (firstEvents scope)
      (firstState scope server (firstCache scope) .ended) := by
  have hrequest : Run (Step id agentMode Look) .start _ (firstState scope server ∅ .asked) :=
    .single (.request hplan)
  have hclock := hrequest.snoc (.readClock (i := 0) rfl rfl)
  have hread : Step id agentMode Look (firstState scope server ∅ (.reading 0)) (.read 0)
      (firstState scope server ∅ (.fetching 0 [] ["c"])) := by
    have hstep : Step id agentMode Look (firstState scope server ∅ (.reading 0)) (.read 0) _ :=
      .read (i := 0) rfl rfl
    rwa [show (firstState scope server ∅ (.reading 0)).cache = ∅ from rfl, read_empty] at hstep
  have hlooked := (hclock.snoc hread).snoc (.fetched (i := 0) rfl rfl hlook)
  have hstoring : Step id agentMode Look
      (firstState scope server ∅ (.storing ["c"] (some (0, [])))) (.readClock 0)
      (firstState scope server ∅ (.storingAt 0 ["c"] (some (0, [])))) :=
    .storeClock (k := ⟨scope, server, ["c"], .storing ["c"] (some (0, []))⟩) rfl rfl
  have hstored : Run (Step id agentMode Look) .start _ (firstState scope server (firstCache scope)
      (.replying ⟨scope, ["c"], 0, [], ["c"], ""⟩ false)) :=
    (hlooked.snoc hstoring).snoc
      (.store (i := 0) (k := ⟨scope, server, ["c"], .storingAt 0 ["c"] (some (0, []))⟩) rfl rfl)
  exact hstored.snoc (.answer (i := 0) (k := ⟨scope, server, ["c"], .replying _ false⟩) rfl rfl)

/-- The second request comes seven seconds later, is answered from the cache, and starts a
refresh. -/
def secondEvents (scope : String) : List (Event String) :=
  [.tick (7 * second), .request scope ["c"], .readClock 1, .read 1,
    .answer 1 ⟨scope, ["c"], 7 * second, ["c"], [], ""⟩, .readClock 1,
    .decide 1 scope (7 * second) true]

def secondState (scope : String) (server : ServerType × String) (refresh : GoMap String ℕ)
    (phase : Phase String) : State String :=
  ⟨7 * second, firstCache scope, refresh,
    [⟨scope, server, ["c"], .ended⟩, ⟨scope, server, ["c"], phase⟩]⟩

/-- Seven seconds later its entry is found, and is to be refreshed. -/
theorem read_firstCache (hscope : scope ≠ "") :
    getContainersResourcesCache (firstCache scope) scope ["c"] cacheMaxAge cacheRefreshAfter
      (7 * second) = ⟨["c"], [], true⟩ := by
  have hcache : firstCache scope = Finmap.insert scope firstEntries ∅ := by
    rw [firstCache, setContainersResourcesCache, if_neg (by simp [hscope]), Finmap.lookup_empty]
    rfl
  have hentry : firstEntries.lookup "c" = some ⟨"c", 0⟩ := Finmap.lookup_insert _
  have hlen : firstEntries.len ≠ 0 := fun hzero => by
    rw [GoMap.len_eq_zero.mp hzero] at hentry
    cases hentry
  have hfresh : ¬ (0 < cacheMaxAge ∧ 0 + cacheMaxAge < 7 * second) := by decide
  rw [hcache, getContainersResourcesCache, if_neg (by simp [hscope]), Finmap.lookup_insert]
  simp only [if_neg hlen, readEntries, hentry, if_neg hfresh]
  rfl

/-- The second request is answered from the cache and starts a refresh. -/
theorem run_second (hscope : scope ≠ "")
    (hplan : planResources agentMode locals serverParam payload = .look scope server ["c"])
    (hlook : Look server ["c"] (.ok ["c"])) :
    Run (Step id agentMode Look) .start (firstEvents scope ++ secondEvents scope)
      (secondState scope server (Finmap.insert scope (7 * second) ∅) .refreshing) := by
  have htick : Step id agentMode Look (firstState scope server (firstCache scope) .ended)
      (.tick (7 * second)) ⟨7 * second, firstCache scope, ∅, [⟨scope, server, ["c"], .ended⟩]⟩ := by
    have hstep : Step id agentMode Look (firstState scope server (firstCache scope) .ended)
      (.tick (7 * second)) _ := .tick (7 * second)
    rwa [show (firstState scope server (firstCache scope) .ended).clock + 7 * second = 7 * second
      from Nat.zero_add _] at hstep
  have hasked : Run (Step id agentMode Look) .start _ (secondState scope server ∅ .asked) :=
    ((run_first hplan hlook).snoc htick).snoc (.request hplan)
  have hclock : Run (Step id agentMode Look) .start _
      (secondState scope server ∅ (.reading (7 * second))) :=
    hasked.snoc (.readClock (i := 1) (k := ⟨scope, server, ["c"], .asked⟩) rfl rfl)
  have hread : Step id agentMode Look (secondState scope server ∅ (.reading (7 * second)))
      (.read 1) (secondState scope server ∅
        (.replying ⟨scope, ["c"], 7 * second, ["c"], [], ""⟩ true)) := by
    have hstep : Step id agentMode Look (secondState scope server ∅ (.reading (7 * second)))
      (.read 1) _ := .read (k := ⟨scope, server, ["c"], .reading (7 * second)⟩) rfl rfl
    rwa [show (secondState scope server ∅ (.reading (7 * second))).cache = firstCache scope
      from rfl, read_firstCache hscope] at hstep
  have hanswer : Run (Step id agentMode Look) .start _ (secondState scope server ∅ .deciding) :=
    (hclock.snoc hread).snoc
      (.answer (i := 1) (k := ⟨scope, server, ["c"], .replying _ true⟩) rfl rfl)
  have hdeciding : Run (Step id agentMode Look) .start _
      (secondState scope server ∅ (.decidingAt (7 * second))) :=
    hanswer.snoc (.decideClock (i := 1) (k := ⟨scope, server, ["c"], .deciding⟩) rfl rfl)
  have hstarts : shouldRefreshContainersResources (∅ : GoMap String ℕ) scope minRefreshInterval
      (7 * second) = (true, Finmap.insert scope (7 * second) ∅) := by
    rw [shouldRefreshContainersResources, if_neg hscope, Finmap.lookup_empty]
  have hdecide : Step id agentMode Look (secondState scope server ∅ (.decidingAt (7 * second)))
      (.decide 1 scope (7 * second) true)
      (secondState scope server (Finmap.insert scope (7 * second) ∅) .refreshing) := by
    have hstep : Step id agentMode Look
        (secondState scope server ∅ (.decidingAt (7 * second))) _ _ :=
      .decide (i := 1) (k := ⟨scope, server, ["c"], .decidingAt (7 * second)⟩) rfl rfl
    rwa [show (secondState scope server ∅ (.decidingAt (7 * second))).refresh = ∅ from rfl,
      hstarts] at hstep
  exact hdeciding.snoc hdecide

end

/-- **No answer mixes scopes or is older than half an hour**, whatever the interleaving of requests
and refreshes, and whatever the look-ups come to. -/
theorem run_sources (h : Run (Step idOf agentMode Look) .start es t)
    {before after : List (Event Res)} {a : Answer Res}
    (hes : es = before ++ .answer i a :: after) : Sourced before i a := by
  rw [hes] at h
  obtain ⟨u, v, hbefore, hstep⟩ := h.step_at
  obtain ⟨server, hasked, -, hright⟩ := answer_right hbefore hstep
  exact ⟨hasked, hright.cached, hright.fetched⟩

/-- The request for a container of an agent. -/
theorem planResources_nas :
    planResources false [] "" ⟨"remote:nas", ["c"]⟩ =
      .look "remote:nas" (.remote, "nas") ["c"] := by
  decide

/-- A look-up that finds everything. -/
def sampleLook (_ : ServerType × String) (ids : List String)
    (outcome : Except String (List String)) : Prop :=
  outcome = .ok ids

/-- Both requests, for that agent. -/
theorem run_nas :
    Run (Step id false sampleLook) .start (firstEvents "remote:nas" ++ secondEvents "remote:nas")
      (secondState "remote:nas" (.remote, "nas")
        (Finmap.insert "remote:nas" (7 * second) ∅) .refreshing) :=
  run_second (by decide) planResources_nas rfl

/-- An answer from the cache. -/
theorem run_sources_nas :
    Sourced (firstEvents "remote:nas" ++ (secondEvents "remote:nas").take 4) 1
      ⟨"remote:nas", ["c"], 7 * second, ["c"], [], ""⟩ :=
  run_sources run_nas rfl

/-- Look-ups that say so when they fail, and otherwise find one resource for each of the IDs. -/
def LooksRight (idOf : Res → String)
    (Look : ServerType × String → List String → Except String (List Res) → Prop) : Prop :=
  ∀ server ids outcome, Normal ids → Look server ids outcome →
    match outcome with
    | .ok result => (result.map idOf).Perm ids
    | .error text => text ≠ ""

/-- **An answer without an error is complete**, when the look-ups are: it has one resource for each
of the IDs of the request, however many come from the cache. -/
theorem run_complete (hlooks : LooksRight idOf Look)
    (h : Run (Step idOf agentMode Look) .start es t) {a : Answer Res} (ha : .answer i a ∈ es)
    (herror : a.error = "") : (a.resources.map idOf).Perm a.ids := by
  obtain ⟨before, after, rfl⟩ := List.append_of_mem ha
  obtain ⟨u, v, hbefore, hstep⟩ := h.step_at
  obtain ⟨server, -, hnormal, hright⟩ := answer_right hbefore hstep
  obtain ⟨missing, hdivided, hmissing⟩ := hright.divided
  have hnormal' := hnormal.sublist hdivided.sublist
  rw [Answer.resources, List.map_append]
  rcases hmissing with ⟨rfl, hfetched⟩ | hlook | hlook
  · rw [hfetched]
    exact hdivided.perm
  · exact ((hlooks server missing _ hnormal' hlook).append_left _).trans hdivided.perm
  · exact absurd herror (hlooks server missing _ hnormal' hlook)

/-! ### Refreshes in the background -/

/-- The times of the refreshes that were started for the scope. -/
def started (scope : String) (es : List (Event Res)) : List ℕ :=
  es.filterMap fun
    | .decide _ scope' now true => if scope' = scope then some now else none
    | _ => none

/-- The refreshes of two histories, one after the other. -/
theorem started_append (scope : String) (es fs : List (Event Res)) :
    started scope (es ++ fs) = started scope es ++ started scope fs := List.filterMap_append

/-- The last refresh is known, and the refreshes were apart. -/
def Apart (scope : String) (es : List (Event Res)) (s : State Res) : Prop :=
  s.refresh.lookup scope = (started scope es).getLast? ∧
    (started scope es).Pairwise fun a b => a + minRefreshInterval ≤ b

/-- A refresh that is started comes after the ones before. -/
theorem pairwise_concat {times : List ℕ} {d now : ℕ}
    (h : times.Pairwise fun a b => a + d ≤ b) (hlast : ∀ last ∈ times.getLast?, last + d ≤ now) :
    (times ++ [now]).Pairwise fun a b => a + d ≤ b := by
  refine List.pairwise_append.mpr ⟨h, List.pairwise_singleton _ _, ?_⟩
  intro a ha b hb
  obtain rfl := List.mem_singleton.mp hb
  have hne : times ≠ [] := List.ne_nil_of_mem ha
  have hle := hlast _ (List.getLast?_eq_some_getLast hne)
  rw [← List.dropLast_append_getLast hne] at h ha
  rcases List.mem_append.mp ha with ha | ha
  · have hbefore := (List.pairwise_append.mp h).2.2 a ha _ List.mem_cons_self
    omega
  · rw [List.mem_singleton.mp ha]
    exact hle

/-- A step that starts no refresh keeps the refreshes apart. -/
theorem Apart.same {scope : String} (h : Apart scope es s)
    (hrefresh : t.refresh.lookup scope = s.refresh.lookup scope)
    (he : started scope [e] = []) : Apart scope (es ++ [e]) t := by
  rw [Apart, started_append, he, List.append_nil, hrefresh]
  exact h

/-- A refresh is refused, or starts long enough after the one before. -/
theorem shouldRefresh_cases (refresh : GoMap String ℕ) (scope : String) {minInterval : ℕ}
    (hpos : 0 < minInterval) (now : ℕ) :
    shouldRefreshContainersResources refresh scope minInterval now = (false, refresh) ∨
      shouldRefreshContainersResources refresh scope minInterval now =
          (true, refresh.insert scope now) ∧
        ∀ last ∈ refresh.lookup scope, last + minInterval ≤ now := by
  unfold shouldRefreshContainersResources
  split
  · exact Or.inl rfl
  · split
    · rename_i hnone
      exact Or.inr ⟨rfl, fun last hlast => by rw [hnone] at hlast; cases hlast⟩
    · rename_i last hsome
      split
      · exact Or.inl rfl
      · rename_i hlate
        refine Or.inr ⟨rfl, fun last' hlast => ?_⟩
        obtain rfl := Option.some.inj (hsome.symm.trans hlast)
        omega

/-- So does every step. -/
theorem step_apart {scope : String} (h : Apart scope es s)
    (hstep : Step idOf agentMode Look s e t) : Apart scope (es ++ [e]) t := by
  cases hstep with
  | @decide i now k hk hphase =>
      have hpos : 0 < minRefreshInterval := by decide
      rcases shouldRefresh_cases s.refresh k.scope hpos now with hrefuse | ⟨hstart, hlate⟩
      · rw [hrefuse]
        exact h.same rfl rfl
      · rw [hstart]
        by_cases hscope : k.scope = scope
        · subst hscope
          have hnew : started k.scope [(.decide i k.scope now true : Event Res)] = [now] := by
            simp [started]
          rw [Apart, started_append, hnew, List.getLast?_concat]
          exact ⟨Finmap.lookup_insert _, pairwise_concat h.2 (h.1 ▸ hlate)⟩
        · exact h.same (Finmap.lookup_insert_of_ne _ (Ne.symm hscope)) (by simp [started, hscope])
  | tick | request | readClock | read | fetched | notFetched | storeClock | store | answer
  | decideClock | refreshed | notRefreshed => exact h.same rfl rfl

/-- **Refreshes do not pile up**: those that are started in the background for one scope are at
least two seconds apart, whichever requests start them. -/
theorem run_refreshes (h : Run (Step idOf agentMode Look) .start es t) (scope : String) :
    (started scope es).Pairwise fun a b => a + 2 * second ≤ b :=
  (h.invariant (Apart scope) ⟨Finmap.lookup_empty _, List.Pairwise.nil⟩ step_apart).2

/-- The refreshes of the sample are two seconds apart. -/
theorem run_refreshes_nas :
    (started "remote:nas" (firstEvents "remote:nas" ++ secondEvents "remote:nas")).Pairwise
      fun a b => a + 2 * second ≤ b :=
  run_refreshes run_nas _

/-! ### A controller and its agents -/

section

variable (idOf) (canceled : String) (ids : List String)

/-- What `listLocalContainersResources` comes to: an error, which has a text, or what the pool of
workers of `ContainerResources` returns, where a container is looked up under its ID. -/
def PoolLook : Except String (List Res) → Prop
  | .error text => text ≠ ""
  | .ok result => ∃ (es : List (ResourceLookup.Event Res String))
      (t : ResourceLookup.State Res String),
      Run (ResourceLookup.Step canceled (ResourceLookup.trimmed ids)) (ResourceLookup.start ids)
        es t ∧
      t.main = .returned (.ok result) ∧
      ∀ idx id value, .answer idx id (.ok value) ∈ es → idOf value = id

/-- What `listRemoteContainersResources` comes to: an error, or the resources of an answer that an
agent gives at some time to a request for the IDs, without an error. -/
def AgentLook : Except String (List Res) → Prop
  | .error text => text ≠ ""
  | .ok result => ∃ (es : List (Event Res)) (t : State Res) (i : ℕ) (a : Answer Res),
      Run (Step idOf true fun _ ids => PoolLook idOf canceled ids) .start es t ∧
      .answer i a ∈ es ∧ a.ids = normalizeContainerIDs ids ∧ a.error = "" ∧ a.resources = result

/-- `fetchResources` of a controller. -/
def ControllerLook (server : ServerType × String) (ids : List String) :
    Except String (List Res) → Prop :=
  match server.1 with
  | .onHost => PoolLook idOf canceled ids
  | .remote => AgentLook idOf canceled ids

end

end

section

variable {idOf : Res → String} {canceled : String}

/-- A pool of workers finds one resource for each of the IDs. -/
theorem looksRight_pool : LooksRight idOf fun _ ids => PoolLook idOf canceled ids := by
  rintro server ids (text | result) hnormal hlook
  · exact hlook
  · obtain ⟨es, t, hrun, hr, hid⟩ := hlook
    obtain ⟨hlength, hvalues, -⟩ := ResourceLookup.returns_ok hrun hr
    rw [trimmed_of_normal hnormal] at hlength hvalues
    have hmap : result.map idOf = ids := by
      refine List.ext_getElem? fun idx => ?_
      rw [List.getElem?_map]
      cases hget : ids[idx]? with
      | none =>
          have hle := List.getElem?_eq_none_iff.mp hget
          rw [List.getElem?_eq_none_iff.mpr (by omega)]
          rfl
      | some id =>
          obtain ⟨value, hvalue, hanswer⟩ := hvalues idx id hget
          rw [hvalue, Option.map_some, hid idx id value hanswer]
    exact List.Perm.of_eq hmap

/-- The look-ups of a controller say so when they fail. -/
theorem looksRight_controller : LooksRight idOf (ControllerLook idOf canceled) := by
  rintro ⟨serverType, name⟩ ids outcome hnormal hlook
  cases serverType with
  | onHost => exact looksRight_pool (.onHost, name) ids outcome hnormal hlook
  | remote =>
      cases outcome with
      | error text => exact hlook
      | ok result =>
          obtain ⟨es, t, i, a, hrun, ha, hids, herror, rfl⟩ := hlook
          rw [← normalizeContainerIDs_of_normal hnormal, ← hids]
          exact run_complete looksRight_pool hrun ha herror

/-- **A controller's answer is complete**: in every run of a controller, whatever the runs of the
agents that it asks and of their workers, an answer without an error has exactly one resource for
each of the IDs. -/
theorem fleet_complete {es : List (Event Res)} {t : State Res}
    (h : Run (Step idOf false (ControllerLook idOf canceled)) .start es t) {i : ℕ}
    {a : Answer Res} (ha : .answer i a ∈ es) (herror : a.error = "") :
    (a.resources.map idOf).Perm a.ids ∧ a.ids.Nodup := by
  refine ⟨run_complete looksRight_controller h ha herror, ?_⟩
  obtain ⟨before, after, rfl⟩ := List.append_of_mem ha
  obtain ⟨u, v, hbefore, hstep⟩ := h.step_at
  obtain ⟨server, -, hnormal, -⟩ := answer_right hbefore hstep
  exact hnormal.nodup

/-- A pool that finds the container. -/
theorem poolLook_container : PoolLook id "context canceled" ["c"] (.ok ["c"]) := by
  have hids : ResourceLookup.trimmed ["c"] = ["c"] := by decide
  have hstart : (ResourceLookup.start ["c"] : ResourceLookup.State String String) =
      { shared := { sent := 0, taken := 0, closed := false, results := [], firstErr := none,
                    ctxErr := none, callerErr := none }
        workers := [.idle]
        main := .sending } := by
    rw [ResourceLookup.start, hids]
    rfl
  have hsent := Run.single (@ResourceLookup.Step.send String String "context canceled" ["c"]
    ⟨0, 0, false, [], none, none, none⟩ [.idle] Nat.one_pos)
  have hclosed := hsent.snoc (ResourceLookup.Step.close rfl)
  have hlooking := (hclosed.snoc (ResourceLookup.Step.one (.receive Nat.one_pos))).snoc
    (ResourceLookup.Step.one (.look rfl))
  have hfound := (hlooking.snoc (ResourceLookup.Step.one
    (@ResourceLookup.WorkerStep.found String String _ _ _ 0 "c" "c" rfl))).snoc
    (ResourceLookup.Step.one .append)
  have hdone := (hfound.snoc (ResourceLookup.Step.one (.leave rfl rfl))).snoc
    (.finish fun w hw => List.mem_singleton.mp hw)
  refine ⟨_, ⟨⟨1, 1, true, [(0, "c")], none, none, none⟩, [.done], _⟩,
    by rw [hids, hstart]; exact hdone, ?_, ?_⟩
  · simp [ResourceLookup.Shared.outcome, ResourceLookup.ordered]
  · intro idx id' value hanswer
    simp only [List.nil_append, List.cons_append, List.mem_cons, List.not_mem_nil, or_false,
      reduceCtorEq, false_or, ResourceLookup.Event.answer.injEq, Except.ok.injEq] at hanswer
    rw [hanswer.2.1, hanswer.2.2]
    rfl

/-- A controller asks an agent for a container. -/
theorem fleet_complete_nas : ["c"].Perm ["c"] ∧ ["c"].Nodup := by
  have hplan : planResources true [] "db" ⟨"", ["c"]⟩ = .look "local:db" (.onHost, "db") ["c"] := by
    decide
  have hagent : AgentLook id "context canceled" ["c"] (.ok ["c"]) :=
    ⟨firstEvents "local:db", _, 0, ⟨"local:db", ["c"], 0, [], ["c"], ""⟩,
      run_first hplan poolLook_container, by simp [firstEvents],
      (normalizeContainerIDs_of_normal ⟨by simp, by decide⟩).symm, rfl, rfl⟩
  exact fleet_complete (i := 0) (a := ⟨"remote:nas", ["c"], 0, [], ["c"], ""⟩)
    (run_first planResources_nas hagent) (by simp [firstEvents]) rfl

end

end ResourcesCache

end Contiwatch
