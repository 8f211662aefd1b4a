import Contiwatch.PinTickets
import Contiwatch.PinVerify
import Contiwatch.ServerAddresses
import Contiwatch.StackLimits

/-!
# The Gate in Front of the Handlers

`ServeHTTP` of `internal/server/server.go` decides whether a request comes to a handler at all: on
an agent by the token of the controller and a list of paths, on a controller by the PIN guard, and
on both by the length of the body. It reads the path without its escapes. The `ServeMux` behind it
reads the path as it was sent, segment by segment, so the two could take one request for two
different ones.

## Main results

* `serveHTTP_agent` — which handlers an agent lets a request come to.
* `run_handled` — in any run of a controller, a request for a handler that is not public was bound
  to a session in use when it was checked.
-/

namespace Contiwatch

open GoTime GoStrings ServeMux

/-! ### Requests -/

/-- The path of a URL, as it is escaped and as it is read. -/
structure UrlPath where
  escaped : List Char
  path : String
  rooted : ∀ c ∈ escaped.head?, c = '/'
  read : unescape escaped = some path

/-- What `ServeHTTP` and `ServeMux` read of a request. -/
structure HttpRequest where
  method : String
  url : UrlPath
  authorization : String
  pinSessionHeader : String
  pinSessionQuery : String
  wsTicketQuery : String
  /-- Of the body, or less than zero if it is not known. -/
  contentLength : ℤ

/-- The part of a request that the PIN guard reads. -/
def HttpRequest.pin (r : HttpRequest) : PinRequest :=
  ⟨r.url.path, r.pinSessionHeader, r.pinSessionQuery, r.wsTicketQuery⟩

/-- What the gate reads of a `Server`, and the hash of `authorize`. -/
structure GateConfig where
  agentMode : Bool
  agentToken : String
  pinGuardEnabled : Bool
  sha256 : String → List UInt8

/-! ### The start -/

/-- `parsePinGuardFromEnv`: whether the PIN guard is on, and its PIN; `APP_PIN` goes before
`CONTIWATCH_APP_PIN`. -/
def parsePinGuardFromEnv (agentMode : Bool) (appPin contiwatchAppPin : String) :
    Except String (Bool × String) :=
  if agentMode then .ok (false, "")
  else
    let pin :=
      if trimSpaceStr appPin = "" then trimSpaceStr contiwatchAppPin else trimSpaceStr appPin
    if pin = "" then .error "controller mode requires APP_PIN (4-8 digits)"
    else .ok (true, pin)

/-- `validateStartupPin`. -/
def validateStartupPin (pin : String) : Except String Unit :=
  let value := trimSpaceStr pin
  if value = "" then .error "pin is required"
  else if !isValidPinValue value then .error "pin must contain 4-8 digits"
  else .ok ()

/-- `New`, as far as the gate goes. It may also fail for want of random bytes, or for the list of
trusted proxies. -/
def GateConfig.new (agentMode : Bool) (agentToken appPin contiwatchAppPin : String)
    (sha256 : String → List UInt8) : Except String GateConfig :=
  match parsePinGuardFromEnv agentMode appPin contiwatchAppPin with
  | .error err => .error err
  | .ok (pinGuardEnabled, configuredPin) =>
      match if pinGuardEnabled then validateStartupPin configuredPin else .ok () with
      | .error err => .error err
      | .ok () => .ok ⟨agentMode, agentToken, pinGuardEnabled, sha256⟩

/-- A controller that has started has the PIN guard on. -/
theorem pinGuardEnabled_of_new {agentToken appPin contiwatchAppPin : String}
    {sha256 : String → List UInt8} {srv : GateConfig}
    (h : GateConfig.new false agentToken appPin contiwatchAppPin sha256 = .ok srv) :
    srv.agentMode = false ∧ srv.pinGuardEnabled = true := by
  have hparse : ∀ parsed, parsePinGuardFromEnv false appPin contiwatchAppPin = .ok parsed →
      parsed.1 = true := by
    intro parsed hparsed
    rw [parsePinGuardFromEnv, if_neg Bool.false_ne_true] at hparsed
    dsimp only at hparsed
    split_ifs at hparsed
    all_goals rw [← Except.ok.inj hparsed]
  rw [GateConfig.new] at h
  cases hparsed : parsePinGuardFromEnv false appPin contiwatchAppPin with
  | error err =>
      rw [hparsed] at h
      cases h
  | ok parsed =>
      rw [hparsed] at h
      dsimp only at h
      split at h
      · cases h
      · obtain rfl := Except.ok.inj h
        exact ⟨rfl, hparse parsed hparsed⟩

/-! ### The parts of the gate -/

/-- `authorize`. -/
def authorize (srv : GateConfig) (r : HttpRequest) : Bool :=
  if srv.agentToken = "" then false
  else if !hasPrefix r.authorization "Bearer " then false
  else
    let token := trimSpaceStr (trimPrefix r.authorization "Bearer ")
    srv.sha256 token = srv.sha256 srv.agentToken

/-- The paths of `agentAllowed`. -/
def agentPaths : List String :=
  ["/api/health", "/api/version", "/api/meta", "/api/release", "/api/status", "/api/config",
    "/api/scan", "/api/scan/stop", "/api/scheduler/status", "/api/scheduler/preview/basic",
    "/api/scheduler/preview/cron", "/api/logs", "/api/notifications/test", "/api/containers",
    "/api/containers/action", "/api/containers/resources", "/api/servers/health",
    "/api/containers/shell", "/api/containers/logs", "/api/self-update"]

/-- The beginnings of paths of `agentAllowed`. -/
def agentPrefixes : List String :=
  ["/api/images", "/api/networks", "/api/volumes", "/api/stacks", "/api/update/"]

/-- `agentAllowed`. -/
def agentAllowed (path : String) : Bool :=
  path ∈ agentPaths || agentPrefixes.any (hasPrefix path)

/-- The paths of `pinPublicAPIPath`. -/
def pinPublicPaths : List String :=
  ["/api/health", "/api/version", "/api/meta", "/api/release", "/api/pin/status",
    "/api/pin/verify", "/api/pin/logout"]

/-- `pinPublicAPIPath`. -/
def pinPublicAPIPath (path : String) : Bool := path ∈ pinPublicPaths

/-- `applyRequestBodyLimit`: how much of the body may be read, unless its length is known to be
more. -/
def limitBody (r : HttpRequest) : Option (Option ℕ) :=
  if r.method ∈ ["POST", "PUT", "PATCH", "DELETE"] then
    let limit := requestBodyLimit r.url.path
    if (limit : ℤ) < r.contentLength then none else some (some limit)
  else some none

/-- The table of `routes`: the handler of a pattern is known by it. The files below `/` are those
of a controller. -/
def handlers (agentMode : Bool) : List (String × String) :=
  (routes.filter fun r => !(agentMode && r.1 = "/")).map fun r => (r.1, r.1)

/-- What a request comes to. -/
inductive GateAnswer
  | notFound
  | unauthorized
  | pinRequired
  | tooLarge
  | redirect
  /-- The handler, and how much of the body it may read. -/
  | handled (route : String) (limit : Option ℕ)
  deriving DecidableEq, Repr

/-- The first part of `ServeHTTP`: an answer, or whether the PIN guard is asked. -/
def checkMode (srv : GateConfig) (r : HttpRequest) : Except GateAnswer Bool :=
  let path := r.url.path
  if srv.agentMode then
    if !hasPrefix path "/api/" then .error .notFound
    else if path ≠ "/api/health" ∧ !authorize srv r then .error .unauthorized
    else if !agentAllowed path then .error .notFound
    else .ok false
  else .ok (srv.pinGuardEnabled && hasPrefix path "/api/" && !pinPublicAPIPath path)

/-- `ServeMux.ServeHTTP`. -/
def serveMux (srv : GateConfig) (r : HttpRequest) (limit : Option ℕ) : GateAnswer :=
  let found :=
    if r.method = "CONNECT" then dispatchUncleaned (handlers srv.agentMode) r.url.escaped
    else dispatch (handlers srv.agentMode) r.url.escaped
  match found with
  | .redirect => .redirect
  | .notFound => .notFound
  | .handler route => .handled route limit

/-- The rest of `ServeHTTP`. -/
def serveLimited (srv : GateConfig) (r : HttpRequest) : GateAnswer :=
  match limitBody r with
  | none => .tooLarge
  | some limit => serveMux srv r limit

/-- `ServeHTTP`, with the clock of the two checks of the PIN guard. -/
def serveHTTP (srv : GateConfig) (now now' : ℕ) (r : HttpRequest) (s : PinSessionState) :
    GateAnswer × PinSessionState :=
  match checkMode srv r with
  | .error answer => (answer, s)
  | .ok false => (serveLimited srv r, s)
  | .ok true =>
      match pinRequestAuthorized srv.pinGuardEnabled now now' r.pin s with
      | (none, s) => (.pinRequired, s)
      | (some _, s) => (serveLimited srv r, s)

/-! ### The path and the pattern -/

/-- A registered pattern has its own name as handler, and is one of the routes. -/
theorem mem_handlers {agentMode : Bool} {r : String × String} (h : r ∈ handlers agentMode) :
    r.2 = r.1 ∧ r.1 ∈ routes.map Prod.fst := by
  obtain ⟨r', hr', rfl⟩ := List.mem_map.mp h
  exact ⟨rfl, List.mem_map_of_mem (List.mem_of_mem_filter hr')⟩

/-- The patterns for all paths below one. -/
def subtrees : List String := ["/", "/api/servers/", "/api/locals/", "/api/update/"]

/-- What the patterns have in common. -/
theorem routes_plain : ∀ text ∈ routes.map Prod.fst,
    text.toList.head? = some '/' ∧ '%' ∉ text.toList ∧
      (text.toList.getLast? = some '/' → text ∈ subtrees) ∧
      (text ≠ "/" → hasPrefix text "/api/" = true) := by
  decide +kernel

/-- There is no handler for an empty path. -/
theorem handlers_empty (agentMode : Bool) {route : String} :
    dispatchUncleaned (handlers agentMode) [] ≠ .handler route := by
  have hnone : handlerOf (handlers agentMode) [] = none := by
    rcases hfound : handlerOf (handlers agentMode) [] with _ | h
    · rfl
    obtain ⟨r, hr, -, hpattern | ⟨-, below, name, more, hnames, -⟩⟩ := exists_of_handlerOf hfound
    · have hroot := (routes_plain _ (mem_handlers hr).2).1
      rw [toList_of_pattern hroot hpattern] at hroot
      exact absurd hroot (by decide)
    · exact absurd hnames (by simp)
  have hnames : (segments []).map unescapeSegment = [] := rfl
  rw [dispatchUncleaned, hnames, hnone]
  split <;> simp

/-- The pattern of the handler stands for the path that the gate has read. -/
theorem covers_of_serveMux {srv : GateConfig} {r : HttpRequest} {limit limit' : Option ℕ}
    {route : String} (h : serveMux srv r limit = .handled route limit') :
    limit' = limit ∧ route ∈ (handlers srv.agentMode).map Prod.fst ∧
      Covers (handlers srv.agentMode) route r.url.path := by
  have hfound : limit' = limit ∧
      dispatchUncleaned (handlers srv.agentMode) r.url.escaped = .handler route := by
    rw [serveMux] at h
    have hdispatch : ∀ route', dispatch (handlers srv.agentMode) r.url.escaped = .handler route' →
        dispatchUncleaned (handlers srv.agentMode) r.url.escaped = .handler route' := by
      intro route' hroute
      rw [dispatch_eq] at hroute
      split at hroute
      · exact absurd hroute (by simp)
      · exact hroute
    split at h
    · exact absurd h (by simp)
    · exact absurd h (by simp)
    · rename_i route' hroute
      obtain ⟨rfl, rfl⟩ := GateAnswer.handled.inj h
      refine ⟨rfl, ?_⟩
      split at hroute
      · exact hroute
      · exact hdispatch _ hroute
  obtain ⟨hlimit, hfound⟩ := hfound
  have hroot : r.url.escaped.head? = some '/' := by
    rcases hescaped : r.url.escaped with _ | ⟨c, rest⟩
    · rw [hescaped] at hfound
      exact absurd hfound (handlers_empty _)
    · have hc := r.url.rooted c (by rw [hescaped]; rfl)
      rw [hc]
      rfl
  obtain ⟨entry, hentry, hroute, hcovers⟩ := exists_covers
    (fun entry hentry => ⟨(routes_plain _ (mem_handlers hentry).2).1,
      (routes_plain _ (mem_handlers hentry).2).2.1⟩) hroot r.url.read hfound
  obtain rfl : entry.1 = route := (mem_handlers hentry).1 ▸ hroute
  exact ⟨hlimit, List.mem_map_of_mem hentry, hcovers⟩

/-- Only the patterns of `subtrees` end in a slash. -/
theorem mem_subtrees {agentMode : Bool} {r : String × String} (h : r ∈ handlers agentMode)
    (hlast : r.1.toList.getLast? = some '/') : r.1 ∈ subtrees :=
  (routes_plain _ (mem_handlers h).2).2.2.1 hlast

/-- A prefix of `path ++ q` is a prefix of `path` or begins with it. -/
theorem hasPrefix_append {path p q : String} :
    hasPrefix (path ++ q) p = true → hasPrefix p path = true ∨ hasPrefix path p = true := by
  simp only [hasPrefix, List.isPrefixOf_iff_prefix, String.toList_append]
  intro h
  exact (List.prefix_or_prefix_of_prefix (List.prefix_append _ _) h)

/-- A path is a prefix of every path that continues it. -/
theorem hasPrefix_self_append (path q : String) : hasPrefix (path ++ q) path = true := by
  rw [hasPrefix, String.toList_append]
  exact List.isPrefixOf_iff_prefix.mpr (List.prefix_append _ _)

/-- An agent has no handler for `/`. -/
theorem ne_slash_of_mem {r : String × String} (h : r ∈ handlers true) : r.1 ≠ "/" := by
  obtain ⟨r', hr', rfl⟩ := List.mem_map.mp h
  simpa using List.of_mem_filter hr'

/-- Which paths below one are on the list of `agentAllowed`. -/
theorem agentAllowed_below {front tail : String} (h : agentAllowed (front ++ tail) = true) :
    (∃ path ∈ agentPaths, path = front ++ tail ∧ hasPrefix path front = true) ∨
      ∃ p ∈ agentPrefixes, hasPrefix p front = true ∨ hasPrefix front p = true := by
  rw [agentAllowed, Bool.or_eq_true, decide_eq_true_eq, List.any_eq_true] at h
  rcases h with hpath | ⟨p, hp, hpart⟩
  · exact .inl ⟨_, hpath, rfl, hasPrefix_self_append _ _⟩
  · exact .inr ⟨p, hp, hasPrefix_append hpart⟩

/-- **A path that an agent allows leads to a handler whose own pattern it allows.** -/
theorem agentAllowed_of_covers {route path : String}
    (hroute : route ∈ (handlers true).map Prod.fst) (hcovers : Covers (handlers true) route path)
    (hallowed : agentAllowed path = true) : agentAllowed route = true := by
  obtain ⟨entry, hentry, rfl⟩ := List.mem_map.mp hroute
  rcases hcovers with rfl | ⟨tail, rfl, hlast, hnone⟩
  · exact hallowed
  have hmem := mem_subtrees hentry hlast
  have hslash := ne_slash_of_mem hentry
  simp only [subtrees, List.mem_cons, List.not_mem_nil, or_false, hslash, false_or] at hmem
  rcases hmem with hservers | hlocals | hupdate
  · -- only the path of the health check is below that of the servers
    rw [hservers] at hallowed hnone
    rcases agentAllowed_below hallowed with ⟨path, hpath, htail, hbelow⟩ | ⟨p, hp, hbelow⟩
    · have hhealth : ∀ path ∈ agentPaths, hasPrefix path "/api/servers/" = true →
          path = "/api/servers/" ++ "health" := by decide +kernel
      have hmem : ("/api/servers/health", "/api/servers/health") ∈ handlers true :=
        List.mem_map.mpr ⟨("/api/servers/health", .other),
          List.mem_filter.mpr ⟨by simp [routes], by decide⟩, rfl⟩
      obtain rfl : tail = "health" := by
        have heq := congrArg String.toList (htail.symm.trans (hhealth path hpath hbelow))
        rw [String.toList_append, String.toList_append] at heq
        exact String.toList_injective (List.append_cancel_left heq)
      have hpattern : pattern "/api/servers/health" =
          ⟨(pattern "/api/servers/").segs ++ ["health"], false⟩ := by decide +kernel
      exact absurd hpattern (pattern_ne_of_registered (hnone (by decide +kernel)) hmem)
    · have hfalse : ∀ p ∈ agentPrefixes, hasPrefix p "/api/servers/" = false ∧
          hasPrefix "/api/servers/" p = false := by decide +kernel
      simp [hfalse p hp] at hbelow
  · rw [hlocals] at hallowed
    have hpaths : ∀ path ∈ agentPaths, hasPrefix path "/api/locals/" = false := by decide +kernel
    have hprefixes : ∀ p ∈ agentPrefixes, hasPrefix p "/api/locals/" = false ∧
        hasPrefix "/api/locals/" p = false := by decide +kernel
    rcases agentAllowed_below hallowed with ⟨path, hpath, -, hbelow⟩ | ⟨p, hp, hbelow⟩
    · exact absurd hbelow (by simp [hpaths path hpath])
    · simp [hprefixes p hp] at hbelow
  · rw [hupdate]
    decide +kernel

/-- Below the patterns for all paths below one, a body has the usual limit. -/
theorem requestBodyLimit_below {front : String} (hfront : front ∈ subtrees) (hne : front ≠ "/")
    (tail : String) : requestBodyLimit (front ++ tail) = defaultRequestBodyLimit := by
  have hpart := hasPrefix_self_append front tail
  have hfixed : ∀ front ∈ subtrees, front ≠ "/" → ∀ path ∈ ["/api/pin/verify", "/api/config",
      "/api/servers", "/api/locals"], hasPrefix path front = false := by decide +kernel
  have hstacks : ∀ front ∈ subtrees, front ≠ "/" → hasPrefix "/api/stacks" front = false ∧
      hasPrefix front "/api/stacks" = false := by decide +kernel
  have hnot : ∀ path ∈ ["/api/pin/verify", "/api/config", "/api/servers", "/api/locals"],
      front ++ tail ≠ path := by
    rintro path hpath rfl
    exact absurd hpart (by simp [hfixed front hfront hne _ hpath])
  have hstack : ¬ hasPrefix (front ++ tail) "/api/stacks" = true := by
    intro h
    rcases hasPrefix_append h with h | h
    · exact absurd h (by simp [hstacks front hfront hne])
    · exact absurd h (by simp [hstacks front hfront hne])
  rw [requestBodyLimit, if_neg (hnot _ (List.mem_cons_self ..)), if_neg, if_neg hstack]
  exact fun h => hnot _ (List.mem_cons_of_mem _ h) rfl

/-- The limit that the gate sets is that of the handler's own path. -/
theorem requestBodyLimit_of_covers {agentMode : Bool} {route path : String}
    (hroute : route ∈ (handlers agentMode).map Prod.fst)
    (hcovers : Covers (handlers agentMode) route path) (hne : route ≠ "/") :
    requestBodyLimit path = requestBodyLimit route := by
  obtain ⟨entry, hentry, rfl⟩ := List.mem_map.mp hroute
  rcases hcovers with rfl | ⟨tail, rfl, hlast, -⟩
  · rfl
  have hmem := mem_subtrees hentry hlast
  have hown := requestBodyLimit_below hmem hne ""
  rw [String.append_empty] at hown
  rw [requestBodyLimit_below hmem hne, hown]

/-- How much of the body a handler may read. -/
def bodyLimit (method route : String) : Option ℕ :=
  if method ∈ ["POST", "PUT", "PATCH", "DELETE"] then some (requestBodyLimit route) else none

/-- What is known of a request that comes to a handler behind the gate. -/
theorem serveLimited_handled {srv : GateConfig} {r : HttpRequest} {route : String}
    {limit : Option ℕ} (h : serveLimited srv r = .handled route limit) :
    route ∈ (handlers srv.agentMode).map Prod.fst ∧
      Covers (handlers srv.agentMode) route r.url.path ∧
      (route ≠ "/" → limit = bodyLimit r.method route) := by
  rw [serveLimited] at h
  split at h
  · exact absurd h (by simp)
  rename_i limit' hlimit
  obtain ⟨rfl, hroute, hcovers⟩ := covers_of_serveMux h
  refine ⟨hroute, hcovers, fun hne => ?_⟩
  rw [limitBody, requestBodyLimit_of_covers hroute hcovers hne] at hlimit
  rw [bodyLimit]
  split at hlimit
  · rename_i hmethod
    rw [if_pos hmethod]
    dsimp only at hlimit
    split at hlimit
    · exact absurd hlimit (by simp)
    · exact (Option.some.inj hlimit).symm
  · rename_i hmethod
    rw [if_neg hmethod]
    exact (Option.some.inj hlimit).symm

/-! ### Agents -/

/-- The request carries the token of the agent. -/
def HasToken (srv : GateConfig) (r : HttpRequest) : Prop :=
  srv.agentToken ≠ "" ∧ ∃ text, r.authorization = "Bearer " ++ text ∧
    srv.sha256 (trimSpaceStr text) = srv.sha256 srv.agentToken

/-- A request that `authorize` accepts has one of the tokens. -/
theorem hasToken_of_authorize {srv : GateConfig} {r : HttpRequest}
    (h : authorize srv r = true) : HasToken srv r := by
  rw [authorize] at h
  split at h
  · exact absurd h Bool.false_ne_true
  rename_i hne
  split at h
  · exact absurd h Bool.false_ne_true
  rename_i hbearer
  rw [Bool.not_eq_true', Bool.not_eq_false] at hbearer
  obtain ⟨rest, hrest⟩ := List.isPrefixOf_iff_prefix.mp hbearer
  have htext : r.authorization = "Bearer " ++ String.ofList rest := by
    rw [← String.ofList_toList (s := r.authorization), ← hrest, String.ofList_append,
      String.ofList_toList]
  refine ⟨hne, String.ofList rest, htext, ?_⟩
  have htrim : trimPrefix r.authorization "Bearer " = String.ofList rest := by
    rw [trimPrefix, if_pos hbearer, ← hrest, List.drop_left]
  rw [htrim] at h
  exact of_decide_eq_true h

/-- A path that is below none of the patterns for more than one path has a handler of its own. -/
theorem eq_of_covers {agentMode : Bool} {route path : String}
    (hroute : route ∈ (handlers agentMode).map Prod.fst) (hne : route ≠ "/")
    (hcovers : Covers (handlers agentMode) route path)
    (hbelow : ∀ front ∈ subtrees, front ≠ "/" → hasPrefix path front = false) : route = path := by
  obtain ⟨entry, hentry, rfl⟩ := List.mem_map.mp hroute
  rcases hcovers with hexact | ⟨tail, htail, hlast, -⟩
  · exact hexact.symm
  have hpart := hasPrefix_self_append entry.1 tail
  rw [← htail, hbelow _ (mem_subtrees hentry hlast) hne] at hpart
  exact absurd hpart Bool.false_ne_true

/-- In agent mode a request that passes is for an allowed path, asks for no PIN, and has a token
unless it is for the health of the agent. -/
theorem checkMode_agent {srv : GateConfig} (hagent : srv.agentMode = true) {r : HttpRequest}
    {ask : Bool} (h : checkMode srv r = .ok ask) : ask = false ∧
      agentAllowed r.url.path = true ∧ (r.url.path = "/api/health" ∨ authorize srv r = true) := by
  rw [checkMode, if_pos hagent] at h
  split_ifs at h with hapi hauth hallowed
  rw [not_and_or, not_not] at hauth
  refine ⟨(Except.ok.inj h).symm, by simpa using hallowed, hauth.imp_right fun h => ?_⟩
  simpa using h

/-- A request that does not pass is never handled. -/
theorem checkMode_error {srv : GateConfig} {r : HttpRequest} {answer : GateAnswer}
    (h : checkMode srv r = .error answer) (route : String) (limit : Option ℕ) :
    answer ≠ .handled route limit := by
  rw [checkMode] at h
  split_ifs at h <;> obtain rfl := Except.error.inj h <;> simp

/-- **The gate of an agent.** However its path is escaped, a request comes to a handler only if the
agent allows the handler's own pattern, and, but for the health check, with the agent's token; and
the handler reads no more than the limit of its own path. -/
theorem serveHTTP_agent (srv : GateConfig) (hagent : srv.agentMode = true) (now now' : ℕ)
    (r : HttpRequest) (s : PinSessionState) {route : String} {limit : Option ℕ}
    (h : (serveHTTP srv now now' r s).1 = .handled route limit) :
    route ∈ routes.map Prod.fst ∧ agentAllowed route = true ∧
      (route = "/api/health" ∨ HasToken srv r) ∧ limit = bodyLimit r.method route := by
  rw [serveHTTP] at h
  rcases hcheck : checkMode srv r with answer | ask
  · rw [hcheck] at h
    exact absurd h (checkMode_error hcheck route limit)
  obtain ⟨rfl, hallowed, htoken⟩ := checkMode_agent hagent hcheck
  rw [hcheck] at h
  obtain ⟨hroute, hcovers, hlimit⟩ := serveLimited_handled h
  rw [hagent] at hroute hcovers
  obtain ⟨entry, hentry, hfst⟩ := List.mem_map.mp hroute
  refine ⟨hfst ▸ (mem_handlers hentry).2, agentAllowed_of_covers hroute hcovers hallowed, ?_,
    hlimit (hfst ▸ ne_slash_of_mem hentry)⟩
  rcases htoken with hhealth | htoken
  · rw [hhealth] at hcovers
    exact .inl (eq_of_covers hroute (hfst ▸ ne_slash_of_mem hentry) hcovers (by decide +kernel))
  · exact .inr (hasToken_of_authorize htoken)

/-- A request for the configuration, with a letter of its path escaped. -/
def configRequest : HttpRequest where
  method := "GET"
  url := ⟨"/api/%63onfig".toList, "/api/config", by simp, by decide +kernel⟩
  authorization := "Bearer secret"
  pinSessionHeader := "token"
  pinSessionQuery := ""
  wsTicketQuery := ""
  contentLength := 0

/-- An agent, or a controller, that does not hash at all. -/
def sampleGate (agentMode : Bool) : GateConfig where
  agentMode := agentMode
  agentToken := "secret"
  pinGuardEnabled := !agentMode
  sha256 := Unicode.bytesOf

/-- An agent answers whom has its token. -/
theorem serveHTTP_agent_config : HasToken (sampleGate true) configRequest := by
  have hanswer : (serveHTTP (sampleGate true) 0 0 configRequest PinSessionState.new).1 =
      .handled "/api/config" none := by
    decide +kernel
  obtain ⟨-, -, htoken, -⟩ := serveHTTP_agent (sampleGate true) rfl 0 0 configRequest
    PinSessionState.new hanswer
  exact htoken.resolve_left (by decide)

/-! ### Controllers -/

/-- What happens at the gate of a controller: a critical section of the PIN guard, or an answer to
a request. -/
inductive GateEvent
  | session (e : RequestEvent)
  | answer (i : ℕ) (a : GateAnswer)

/-- The critical section of an event. -/
def GateEvent.request? : GateEvent → Option RequestEvent
  | .session e => some e
  | .answer _ _ => none

/-- The operations on sessions in a history. -/
def sessionsOf (es : List GateEvent) : List SessionEvent :=
  (es.filterMap GateEvent.request?).map RequestEvent.toSession

/-- The PIN guard checks a request as it came, and only if the gate asks it to. -/
def RequestEvent.Of (srv : GateConfig) (reqs : ℕ → HttpRequest) : RequestEvent → Prop
  | .check i _ r _ => r = (reqs i).pin ∧ checkMode srv (reqs i) = .ok true
  | _ => True

/-- One step of the gate, where `reqs` are the requests that come. Others may go on between the
critical sections of one. -/
inductive GateStep (srv : GateConfig) (reqs : ℕ → HttpRequest) (s : RequestSystem) :
    GateEvent → RequestSystem → Prop
  | session {e : RequestEvent} {s' : RequestSystem} (hstep : RequestStep s e s')
      (hof : e.Of srv reqs) : GateStep srv reqs s (.session e) s'
  | stopped {i : ℕ} {a : GateAnswer} (hcheck : checkMode srv (reqs i) = .error a) :
      GateStep srv reqs s (.answer i a) s
  | refused {i : ℕ} (hcheck : checkMode srv (reqs i) = .ok true) (hi : s.request i = .refused) :
      GateStep srv reqs s (.answer i .pinRequired) s
  | passed {i : ℕ} (hcheck : checkMode srv (reqs i) = .ok false) :
      GateStep srv reqs s (.answer i (serveLimited srv (reqs i))) s
  | bound {i : ℕ} {token : String} (hcheck : checkMode srv (reqs i) = .ok true)
      (hi : s.request i = .bound token) :
      GateStep srv reqs s (.answer i (serveLimited srv (reqs i))) s

/-- A session is in use at `now`, after this history. -/
def InUse (es : List GateEvent) (now : ℕ) (token : String) : Prop :=
  ∃ u, lastUse token (sessionsOf es) = some u ∧ now ≤ u + 24 * hour

/-- The last critical section of a request that was bound to a session. -/
def RequestEvent.Binds (i : ℕ) (token : String) : RequestEvent → Prop
  | .check j _ r ok => j = i ∧ ok = true ∧ token = pinSessionTokenFromRequest r
  | .redeem j _ _ sessionToken => j = i ∧ sessionToken = token ∧ token ≠ ""
  | _ => False

variable {srv : GateConfig} {reqs : ℕ → HttpRequest}

/-- **The gate only does what the PIN guard does.** -/
theorem run_request_steps {s t : RequestSystem} {es : List GateEvent}
    (hrun : Run (GateStep srv reqs) s es t) :
    Run RequestStep s (es.filterMap GateEvent.request?) t := by
  induction hrun with
  | nil => exact .nil
  | snoc _ hstep ih =>
      rw [List.filterMap_append]
      cases hstep with
      | session hstep _ => exact ih.snoc hstep
      | stopped _ => exact (List.append_nil _).symm ▸ ih
      | refused _ _ => exact (List.append_nil _).symm ▸ ih
      | passed _ => exact (List.append_nil _).symm ▸ ih
      | bound _ _ => exact (List.append_nil _).symm ▸ ih

/-- Where one critical section leaves a request. -/
theorem RequestStep.request_cases {s s' : RequestSystem} {e : RequestEvent}
    (hstep : RequestStep s e s') (i : ℕ) : s'.request i = s.request i ∨
      (∃ now r ok, e = .check i now r ok ∧ s'.request i = afterCheck r ok) ∨
      ∃ now ticket token, e = .redeem i now ticket token ∧ s'.request i = afterRedeem token := by
  rw [hstep.request]
  cases e with
  | check j now r ok =>
      simp only [RequestEvent.request, Function.update_apply]
      split_ifs with hi
      · exact .inr (.inl ⟨now, r, ok, by rw [hi], rfl⟩)
      · exact .inl rfl
  | redeem j now ticket token =>
      simp only [RequestEvent.request, Function.update_apply]
      split_ifs with hi
      · exact .inr (.inr ⟨now, ticket, token, by rw [hi], rfl⟩)
      · exact .inl rfl
  | unlock => exact .inl rfl
  | logout => exact .inl rfl
  | status => exact .inl rfl
  | openStream => exact .inl rfl
  | requestTicket => exact .inl rfl
  | issueTicket => exact .inl rfl

/-- A request waits for its ticket as it came. -/
theorem run_awaits {start : ℕ} {s : RequestSystem} {es : List GateEvent}
    (hrun : Run (GateStep srv reqs) (RequestSystem.new start) es s) :
    ∀ i r, s.request i = .awaitingTicket r → r = (reqs i).pin := by
  refine hrun.state_invariant (fun t => ∀ i r, t.request i = .awaitingTicket r →
    r = (reqs i).pin) (fun i r hi => absurd hi (by simp [RequestSystem.new])) ?_
  intro t e u ht hstep i r hi
  cases hstep with
  | session hstep hof =>
      rcases hstep.request_cases i with hsame | ⟨now, r', ok, rfl, hcheck⟩ |
        ⟨now, ticket, token, rfl, hredeem⟩
      · exact ht i r (hsame ▸ hi)
      · rw [hcheck, afterCheck] at hi
        split_ifs at hi
        obtain rfl := RequestPhase.awaitingTicket.inj hi
        exact hof.1
      · rw [hredeem, afterRedeem] at hi
        split_ifs at hi
  | stopped _ => exact ht i r hi
  | refused _ _ => exact ht i r hi
  | passed _ => exact ht i r hi
  | bound _ _ => exact ht i r hi

/-- **Where a bound request was bound.** -/
theorem run_bound {start : ℕ} {s : RequestSystem} {es : List GateEvent}
    (hrun : Run (GateStep srv reqs) (RequestSystem.new start) es s) {i : ℕ} {token : String}
    (hi : s.request i = .bound token) :
    ∃ before e after t u, es = before ++ .session e :: after ∧
      Run (GateStep srv reqs) (RequestSystem.new start) before t ∧ RequestStep t e u ∧
      e.Of srv reqs ∧ e.Binds i token := by
  induction hrun with
  | nil => exact absurd hi (by simp [RequestSystem.new])
  | @snoc es t s e hbefore hstep ih =>
      have hold : t.request i = .bound token → ∃ before e' after t u,
          es ++ [e] = before ++ .session e' :: after ∧
            Run (GateStep srv reqs) (RequestSystem.new start) before t ∧ RequestStep t e' u ∧
            e'.Of srv reqs ∧ e'.Binds i token := by
        intro ht
        obtain ⟨before, e', after, t, u, rfl, hrest⟩ := ih ht
        exact ⟨before, e', after ++ [e], t, u, by simp, hrest⟩
      cases hstep with
      | session hstep hof =>
          rcases hstep.request_cases i with hsame | ⟨now, r, ok, rfl, hcheck⟩ |
            ⟨now, ticket, token', rfl, hredeem⟩
          · exact hold (hsame ▸ hi)
          · refine ⟨es, _, [], t, s, rfl, hbefore, hstep, hof, rfl, ?_⟩
            rw [hcheck, afterCheck] at hi
            split_ifs at hi with hok
            exact ⟨hok, (RequestPhase.bound.inj hi).symm⟩
          · refine ⟨es, _, [], t, s, rfl, hbefore, hstep, hof, rfl, ?_⟩
            rw [hredeem, afterRedeem] at hi
            split_ifs at hi with hne
            obtain rfl := RequestPhase.bound.inj hi
            exact ⟨rfl, hne⟩
      | stopped _ => exact hold hi
      | refused _ _ => exact hold hi
      | passed _ => exact hold hi
      | bound _ _ => exact hold hi

/-- A request was bound to the session it names, or by a ticket. -/
inductive BoundBy (r : HttpRequest) (i : ℕ) (route : String) (before : List GateEvent)
    (now : ℕ) (token : String) : RequestEvent → Prop
  | session (htoken : token = pinSessionTokenFromRequest r.pin) :
      BoundBy r i route before now token (.check i now r.pin true)
  | ticket {j n : ℕ} {ticket : String}
      (hroute : route = "/api/containers/shell" ∨ route = "/api/containers/logs")
      (hticket : ticket = trimSpaceStr r.wsTicketQuery)
      (hissued : .session (.issueTicket j n token ticket) ∈ before) (hage : now < n + 30 * second) :
      BoundBy r i route before now token (.redeem i now ticket token)

/-- A handler that is not public is asked for by a path that is not. -/
theorem private_of_covers {route path : String}
    (hroute : route ∈ (handlers false).map Prod.fst) (hcovers : Covers (handlers false) route path)
    (hne : route ≠ "/") (hprivate : pinPublicAPIPath route = false) :
    hasPrefix path "/api/" = true ∧ pinPublicAPIPath path = false := by
  obtain ⟨entry, hentry, rfl⟩ := List.mem_map.mp hroute
  have hpart := (routes_plain _ (mem_handlers hentry).2).2.2.2 hne
  rcases hcovers with rfl | ⟨tail, rfl, hlast, -⟩
  · exact ⟨hpart, hprivate⟩
  have hmem := mem_subtrees hentry hlast
  constructor
  · rw [hasPrefix, List.isPrefixOf_iff_prefix] at hpart ⊢
    rw [String.toList_append]
    exact hpart.trans (List.prefix_append _ _)
  · have hpublic : ∀ front ∈ subtrees, front ≠ "/" → ∀ path ∈ pinPublicPaths,
        hasPrefix path front = false := by decide +kernel
    rw [pinPublicAPIPath, decide_eq_false_iff_not]
    intro hin
    have hbelow := hasPrefix_self_append entry.1 tail
    rw [hpublic _ hmem hne _ hin] at hbelow
    exact absurd hbelow Bool.false_ne_true

/-- A request that comes to a handler which is not public is bound to a session. -/
theorem bound_of_handled (hcontroller : srv.agentMode = false) (hpin : srv.pinGuardEnabled = true)
    {s s' : RequestSystem} {i : ℕ} {route : String} {limit : Option ℕ}
    (hstep : GateStep srv reqs s (.answer i (.handled route limit)) s')
    (hne : route ≠ "/") (hprivate : pinPublicAPIPath route = false) :
    (∃ token, s.request i = .bound token) ∧
      serveLimited srv (reqs i) = .handled route limit := by
  generalize ha : GateAnswer.handled route limit = a at hstep
  cases hstep with
  | stopped hcheck => exact absurd ha.symm (checkMode_error hcheck route limit)
  | refused hcheck hi => exact absurd ha (by simp)
  | bound hcheck hi => exact ⟨⟨_, hi⟩, rfl⟩
  | passed hcheck =>
      obtain ⟨hroute, hcovers, -⟩ := serveLimited_handled ha.symm
      rw [hcontroller] at hroute hcovers
      obtain ⟨hapi, hpath⟩ := private_of_covers hroute hcovers hne hprivate
      rw [checkMode, hcontroller, if_neg Bool.false_ne_true, hpin, hapi, hpath] at hcheck
      exact absurd hcheck (by simp)

/-- A session that is accepted is in use. -/
theorem inUse_of_check {start : ℕ} (hstart : 0 < start) {es : List GateEvent}
    {t u : RequestSystem} (hrun : Run (GateStep srv reqs) (RequestSystem.new start) es t)
    {i now : ℕ} {r : PinRequest} (hstep : RequestStep t (.check i now r true) u) :
    InUse es now (pinSessionTokenFromRequest r) := by
  have hsession := sessionInv_run hstart (run_sessions (run_request_steps hrun))
  obtain ⟨-, hauthorize, -, -⟩ := hstep
  rw [RequestEvent.toSession] at hauthorize
  generalize u.sessions = v at hauthorize
  cases hauthorize with
  | authorize hnow hok => exact (hsession.authorized_iff hnow _).mp hok

/-- A ticket that is redeemed is a new one, of a session in use. -/
theorem inUse_of_redeem {start : ℕ} (hstart : 0 < start) {es : List GateEvent}
    {t u : RequestSystem} (hrun : Run (GateStep srv reqs) (RequestSystem.new start) es t)
    {i now : ℕ} {ticket token : String} (hstep : RequestStep t (.redeem i now ticket token) u)
    (htoken : token ≠ "") : InUse es now token ∧
      ∃ j n, .session (.issueTicket j n token ticket) ∈ es ∧ now < n + 30 * second := by
  have hsession := sessionInv_run hstart (run_sessions (run_request_steps hrun))
  have hticket := ticketInv_run (run_sessions (run_request_steps hrun))
  obtain ⟨-, hconsume, -, -⟩ := hstep
  obtain ⟨⟨n, hcreated, hage⟩, hused⟩ := redeemed_ticket hsession hticket hconsume htoken
  obtain ⟨j, hissued⟩ := issueTicket_of_createTicket hcreated
  obtain ⟨e, he, hissued⟩ := List.mem_filterMap.mp hissued
  rcases e with e | ⟨k, a⟩
  · obtain rfl := Option.some.inj hissued
    exact ⟨hused, j, n, he, hage⟩
  · exact absurd hissued (by simp [GateEvent.request?])

/-- **The gate of a controller.** In every run of a controller that has started, however paths are
escaped and whatever else is going on, a request that comes to a handler which is not public was
bound before to a session that was in use at that time: the session that it names, or, on one of the
two WebSocket paths, that of a ticket issued less than 30 seconds before. The handler reads no more
than the limit of its own path. -/
theorem run_handled {agentToken appPin contiwatchAppPin : String} {sha256 : String → List UInt8}
    (hnew : GateConfig.new false agentToken appPin contiwatchAppPin sha256 = .ok srv)
    {start : ℕ} (hstart : 0 < start) {es : List GateEvent} {s s' : RequestSystem}
    (hrun : Run (GateStep srv reqs) (RequestSystem.new start) es s) {i : ℕ} {route : String}
    {limit : Option ℕ} (hstep : GateStep srv reqs s (.answer i (.handled route limit)) s')
    (hne : route ≠ "/") (hprivate : pinPublicAPIPath route = false) :
    limit = bodyLimit (reqs i).method route ∧
      ∃ before e after now token, es = before ++ .session e :: after ∧
        BoundBy (reqs i) i route before now token e ∧ InUse before now token := by
  obtain ⟨hcontroller, hpin⟩ := pinGuardEnabled_of_new hnew
  obtain ⟨⟨token, hi⟩, hlimited⟩ :=
    bound_of_handled hcontroller hpin hstep hne hprivate
  obtain ⟨hroute, hcovers, hlimit⟩ := serveLimited_handled hlimited
  refine ⟨hlimit hne, ?_⟩
  obtain ⟨before, e, after, t, u, rfl, hbefore, hbind, hof, hbinds⟩ := run_bound hrun hi
  cases e with
  | check j now r ok =>
      obtain ⟨rfl, rfl, rfl⟩ := hbinds
      obtain ⟨rfl, -⟩ := hof
      exact ⟨before, _, after, now, _, rfl, .session rfl, inUse_of_check hstart hbefore hbind⟩
  | redeem j now ticket sessionToken =>
      obtain ⟨rfl, rfl, htoken⟩ := hbinds
      obtain ⟨hused, j, n, hissued, hage⟩ := inUse_of_redeem hstart hbefore hbind htoken
      obtain ⟨r, hwaits, hticket⟩ := hbind.enabled
      obtain rfl := run_awaits hbefore _ r hwaits
      refine ⟨before, _, after, now, _, rfl, .ticket ?_ hticket hissued hage, hused⟩
      have hpath := awaitingTicket_path (run_request_steps hbefore) hwaits
      have hbelow : ∀ path, pinWebSocketAPIPath path = true → ∀ front ∈ subtrees, front ≠ "/" →
          hasPrefix path front = false := by
        simp only [pinWebSocketAPIPath, Bool.or_eq_true, decide_eq_true_eq]
        rintro path (rfl | rfl) <;> decide +kernel
      obtain rfl := eq_of_covers hroute hne hcovers (hbelow _ hpath)
      rw [pinWebSocketAPIPath, Bool.or_eq_true, decide_eq_true_eq, decide_eq_true_eq] at hpath
      exact hpath
  | unlock => exact hbinds.elim
  | logout => exact hbinds.elim
  | status => exact hbinds.elim
  | openStream => exact hbinds.elim
  | requestTicket => exact hbinds.elim
  | issueTicket => exact hbinds.elim

/-- A session that was just opened may read the configuration. -/
theorem run_handled_config : ∃ before e after now token,
    [GateEvent.session (.unlock second "token"),
      .session (.check 0 second configRequest.pin true)] = before ++ .session e :: after ∧
      BoundBy configRequest 0 "/api/config" before now token e ∧ InUse before now token := by
  have hask : checkMode (sampleGate false) configRequest = .ok true := by decide +kernel
  have hunlock : GateStep (sampleGate false) (fun _ => configRequest) _ _ _ := .session
    (.of_session (s := RequestSystem.new second) (e := .unlock second "token") trivial
      (.create (by decide) ⟨by decide, by decide⟩)) trivial
  have hcheck := (Run.single hunlock).snoc <| .session
    (.of_session (e := .check 0 second configRequest.pin true) rfl
      (.authorize (by decide) (by decide +kernel))) ⟨rfl, hask⟩
  have hconfig : serveLimited (sampleGate false) configRequest =
      .handled "/api/config" none := by decide +kernel
  obtain ⟨s, hrun, hi⟩ : ∃ s, Run (GateStep (sampleGate false) fun _ => configRequest)
      (RequestSystem.new second) _ s ∧ s.request 0 = .bound "token" := ⟨_, hcheck, rfl⟩
  have hanswer : GateStep (sampleGate false) (fun _ => configRequest) s
      (.answer 0 (.handled "/api/config" none)) s :=
    hconfig ▸ .bound hask hi
  have hnew : GateConfig.new false "secret" "" " 2468 " Unicode.bytesOf =
      .ok (sampleGate false) := rfl
  exact (run_handled hnew (by decide) hrun hanswer (by decide) (by decide)).2

end Contiwatch
