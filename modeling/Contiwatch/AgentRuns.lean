import Contiwatch.ComposeRuns

/-!
# Stack Actions on an Agent

The controller reads the stored files of a stack as texts, and the agent gets them as JSON, cleans
the environment file when it reads the request, and cleans it again when it writes the file. On
its own host the controller cleans it once, and Docker Compose reads the Compose file as it is
stored.

## Main results

* `OnHost.seen_runLocalStackAction`, `OnHost.seen_runComposeFromPayload` — what Docker Compose
  works on when an action succeeds, on the own host and on an agent.
* `OnHost.executeStackAction_agent_same_iff` — it is the same for one stack exactly if the
  Compose file has no invalid byte and the lines of the environment file are clean.
-/

namespace Contiwatch

open GoStrings

namespace OnHost

/-! ### The same action on the own host and on an agent -/

/-- A stack that is stored with these files, both within the limit. -/
structure StackAt (disk : StackDisk) (serverName name : String) (composeYml : ByteArray)
    (env : Option ByteArray) : Prop where
  openable : Openable serverName name disk
  storedYml : disk.stored (stackPath serverName name) "docker-compose.yml" =
    some (.regular composeYml)
  storedEnv : disk.stored (stackPath serverName name) ".env" = env.map .regular
  size : composeYml.size ≤ stackFileLimit
  sizeEnv : ∀ e, env = some e → e.size ≤ stackFileLimit

/-- The arguments without the path of the environment file. -/
def plainArgs : List String → List String
  | "compose" :: "--env-file" :: _ :: rest => "compose" :: rest
  | args => args

/-- What Docker Compose works on: its arguments, the Compose file and the environment file. -/
def seen (c : ComposeCall) : List String × Option GoText × Option GoText :=
  (plainArgs c.args, c.compose, c.envFile)

/-- The arguments for a step when there is no environment file. -/
def stepArgs (projectName step : String) : List String :=
  (buildComposeArgs projectName step "").toOption.getD []

/-- The arguments of a step are the plain ones and the file of the environment. -/
theorem buildComposeArgs_ok {projectName step envFile : String} {args : List String}
    (h : buildComposeArgs projectName step envFile = .ok args) :
    plainArgs args = stepArgs projectName step ∧
      envFileArg args = if trimSpaceStr envFile = "" then none else some envFile := by
  have hempty : trimSpaceStr "" = "" := by decide
  by_cases hblank : trimSpaceStr envFile = ""
  · simp only [buildComposeArgs, stepArgs, hblank, hempty, ne_eq, not_true_eq_false, if_false,
      if_true] at h ⊢
    split at h
    all_goals first
      | cases h
        exact ⟨rfl, rfl⟩
      | cases h
  · simp only [buildComposeArgs, stepArgs, hblank, hempty, ne_eq, not_true_eq_false,
      not_false_eq_true, if_false, if_true] at h ⊢
    split at h
    all_goals first
      | cases h
        exact ⟨rfl, rfl⟩
      | cases h

section

variable {may : HostOp → Prop} {environ : List GoText} {u : Host} {dir : WorkDir}
  {projectName dockerHost envFile step : String} {c : ComposeCall}

/-- What a call works on. -/
theorem CallIn.seen_eq {compose envText : Option GoText}
    (h : CallIn may environ u dir projectName dockerHost envFile step c)
    (hcompose : ∀ text, u.Shows dir "docker-compose.yml" text → text = compose)
    (hblank : trimSpaceStr envFile = "" → ∀ text, u.Shows dir ".env" text → text = envText)
    (hfile : trimSpaceStr envFile ≠ "" → u.content envFile = envText) :
    seen c = (stepArgs projectName step, compose, envText) := by
  obtain ⟨hplain, harg⟩ := buildComposeArgs_ok h.args
  have hshows := h.file
  rw [Host.ShowsEnv, harg] at hshows
  rw [seen, hplain, hcompose _ h.compose]
  split at hshows
  · rename_i path hpath
    split at hpath
    · cases hpath
    · rename_i hne
      cases hpath
      rw [hshows, hfile hne]
  · rename_i hpath
    split at hpath
    · rename_i hb
      rw [hblank hb _ hshows]
    · cases hpath

/-- What Compose sees is settled by the stack, the action and the two files. -/
theorem CallsOf.seen_eq {name action : String} {cs : List ComposeCall}
    {compose envText : Option GoText}
    (h : CallsOf may environ u dir name action dockerHost envFile cs (.ok ()))
    (hvalid : isValidStackAction action = true)
    (hcompose : ∀ text, u.Shows dir "docker-compose.yml" text → text = compose)
    (hblank : trimSpaceStr envFile = "" → ∀ text, u.Shows dir ".env" text → text = envText)
    (hfile : trimSpaceStr envFile ≠ "" → u.content envFile = envText) :
    cs.map seen = (composeSteps action).map fun step =>
      (stepArgs (composeProjectName name) step, compose, envText) := by
  obtain ⟨-, hne⟩ | hturn := h
  · exact absurd rfl hne
  obtain ⟨ok, hturn, hok⟩ := hturn hvalid
  obtain rfl := hok.mp rfl
  exact hturn.map_eq fun step c hcall => hcall.seen_eq hcompose hblank hfile

end

section

variable {tempDir : String} {may : HostOp → Prop} {environ : List GoText} {s t : Host}
  {fold : Char → Char} {cfg : Config} {serverName name action : String} {composeYml : ByteArray}
  {env : Option ByteArray}

/-- The calls on the own host work on the stored files. -/
theorem seen_runLocalStackAction (hstack : StackAt s.disk serverName name composeYml env)
    (hvalid : isValidStackAction action = true)
    (h : Prog.Exec (HostSem tempDir may)
      (runLocalStackAction environ fold cfg serverName name action).run s (.ok ()) t) :
    ∃ cs, t.calls = s.calls ++ cs ∧ cs.map seen = (composeSteps action).map fun step =>
      (stepArgs (composeProjectName name) step, some (storedText composeYml),
        env.map fun data => (sanitizeEnvContent (storedText data)).1) := by
  obtain ⟨cs, hcalls, -, ⟨-, hne⟩ | ⟨env', u, dockerHost, envFile, hread, hdisk, hnone, hsome,
    hturn⟩⟩ := exec_runLocalStackAction h
  · exact absurd rfl hne
  refine ⟨cs, hcalls, ?_⟩
  have hreads : Reads (fun o => may (.stack o)) s.disk (readStoredEnv serverName name) (.ok env) :=
    (reads_openStackRoot hstack.openable).bind
      (reads_readEnv hstack.storedEnv hstack.sizeEnv hstack.openable.dir)
  obtain ⟨-, heq | ⟨⟨⟩, -⟩⟩ := hreads _ _ hread
  obtain rfl := Except.ok.inj heq
  have hempty : trimSpaceStr "" = "" := by decide
  refine hturn.seen_eq hvalid (fun text htext => ?_) (fun hblank text htext => ?_) fun hne => ?_
  · simpa only [Host.Shows, hdisk, hstack.storedYml] using htext
  · cases env' with
    | none => simpa only [Host.Shows, hdisk, hstack.storedEnv, Option.map_none] using htext
    | some data => exact absurd hblank (hsome data rfl).1
  · cases env' with
    | none => exact absurd (by rw [hnone rfl, hempty]) hne
    | some data => exact (hsome data rfl).2

/-- The calls on an agent work on the files of the request. -/
theorem seen_runComposeFromPayload {payload : StackActionRequest} {dockerHost : String}
    (hvalid : isValidStackAction payload.action = true)
    (h : Prog.Exec (HostSem tempDir may)
      (runComposeFromPayload environ payload dockerHost).run s (.ok ()) t) :
    ∃ cs, t.calls = s.calls ++ cs ∧ cs.map seen = (composeSteps payload.action).map fun step =>
      (stepArgs (composeProjectName payload.name) step,
        some (GoText.ofString payload.composeYml),
        if payload.useEnv then some (sanitizeEnvContent payload.env).1 else none) := by
  obtain ⟨cs, hcalls, -, ⟨-, hne⟩ | ⟨u, dir, envFile, hyml, htrue, hfalse, hturn⟩⟩ :=
    exec_runComposeFromPayload h
  · exact absurd rfl hne
  refine ⟨cs, hcalls, ?_⟩
  have hempty : trimSpaceStr "" = "" := by decide
  have hshows (file : String) : dir ++ "/" ++ file = dir ++ ("/" ++ file) :=
    String.append_assoc ..
  refine hturn.seen_eq hvalid (fun text htext => ?_) (fun hblank text htext => ?_) fun hne => ?_
  · rw [Host.Shows, hshows] at htext
    exact htext.trans hyml
  · cases huse : payload.useEnv with
    | true => exact absurd hblank (htrue huse).1
    | false =>
        rw [Host.Shows, hshows] at htext
        exact htext.trans (hfalse huse).2
  · cases huse : payload.useEnv with
    | true => exact (htrue huse).2
    | false => exact absurd (by rw [(hfalse huse).1, hempty]) hne

end

section

variable {lower : Char → Char} {agentMode : Bool} {body : StackActionRequest}
  {payload : ParsedStackActionRequest}

/-- What is accepted of a request. -/
structure Decoded (lower : Char → Char) (agentMode : Bool) (body : StackActionRequest)
    (payload : ParsedStackActionRequest) : Prop where
  name : payload.request.name = trimSpaceStr body.name
  action : payload.request.action =
    trimSpaceStr (String.ofList (body.action.toList.map lower))
  valid : isValidStackAction payload.request.action = true
  composeYml : payload.request.composeYml = body.composeYml
  useEnv : payload.request.useEnv = body.useEnv
  env : payload.request.env = if agentMode then (sanitizeEnvContent body.env).1 else body.env

/-- What the decoder answers is a decoded request. -/
theorem decoded (h : decodeStackActionRequest lower agentMode body = .ok payload) :
    Decoded lower agentMode body payload := by
  rw [decodeStackActionRequest] at h
  split at h
  · cases h
  split at h
  · cases h
  rename_i hvalid
  rcases hname : validateStackSegment (trimSpaceStr body.name) "stack" with e | _ <;>
    rw [hname] at h
  · cases h
  cases agentMode with
  | true =>
      rw [if_pos rfl] at h
      split at h
      · cases h
      · cases h
        exact ⟨rfl, rfl, not_not.mp hvalid, rfl, rfl, rfl⟩
  | false =>
      rw [if_neg Bool.false_ne_true] at h
      split at h
      · cases h
      rcases hscope : parseScope (trimSpaceStr body.scope) with e | server <;> rw [hscope] at h
      · cases h
      change (do
        validateStackSegment server.2 "server"
        Except.ok _) = _ at h
      rcases hserver : validateStackSegment server.2 "server" with e | _ <;> rw [hserver] at h
      · cases h
      · cases h
        exact ⟨rfl, rfl, not_not.mp hvalid, rfl, rfl, rfl⟩

/-- An agent reads the name and the action as the controller has read them. -/
theorem Decoded.again {request : StackActionRequest} {payload' : ParsedStackActionRequest}
    (hlower : ∀ c, lower (lower c) = lower c) (h : Decoded lower false body payload)
    (hname : request.name = payload.request.name)
    (haction : request.action = payload.request.action)
    (h' : Decoded lower true request payload') :
    payload'.request.name = payload.request.name ∧
      payload'.request.action = payload.request.action := by
  rw [h'.name, h'.action, hname, haction, h.name, h.action]
  refine ⟨trimSpaceStr_trimSpaceStr _, ?_⟩
  simp only [trimSpaceStr, String.toList_ofList]
  rw [Scoped.lower_trimmed hlower, trimSpace_trimSpace]

end

/-- A text sent as JSON arrives valid. -/
theorem ofString_jsonText (text : GoText) : GoText.ofString (jsonText text) = text.toValid := by
  rw [GoText.ofString, jsonText, String.toList_ofList, List.map_map, GoText.toValid]
  refine List.map_congr_left fun a _ => ?_
  cases a with
  | char c => rfl
  | byte b => rfl

/-- The environment file on an agent is that of the own host exactly if its lines are clean. -/
theorem agentEnvFile_eq_iff (content : GoText) :
    agentEnvFile (some content) = some (sanitizeEnvContent content).1 ↔ CleanLines content := by
  rw [cleanLines_iff, agentEnvFile_some, sanitizeEnvContent_fst, Option.some.injEq]
  by_cases hne : keptLines content = []
  · rw [hne]
    exact iff_of_true rfl ⟨rfl, rfl⟩
  · exact GoText.toValid_unlines_dropCRs_iff (nl_not_mem_keptLines content) hne

/-- The same for the environment file of a stack, if it has one. -/
theorem agentEnvFile_same_iff (env : Option ByteArray) :
    (env.bind fun data => agentEnvFile (some (storedText data))) =
        (env.map fun data => (sanitizeEnvContent (storedText data)).1) ↔
      ∀ data, env = some data → CleanLines (storedText data) := by
  cases env with
  | none => simp
  | some data => simp [← agentEnvFile_eq_iff]

section

variable {tempDir : String} {may : HostOp → Prop} {s t : Host} {fold : Char → Char} {cfg : Config}
  {serverName : String} {composeYml : ByteArray} {env : Option ByteArray}
  {payload : StackActionRequest} {remote : RemoteServer} {request : StackActionRequest}

/-- The request to an agent has the stored files. -/
theorem exec_buildRemoteStackActionRequest
    (hstack : StackAt s.disk serverName payload.name composeYml env)
    (h : Prog.Exec (HostSem tempDir may)
      (buildRemoteStackActionRequest fold cfg serverName payload).run s (.ok (remote, request)) t) :
    request.name = payload.name ∧ request.action = payload.action ∧
      request.composeYml = jsonText (storedText composeYml) ∧
      request.useEnv = env.isSome ∧
      ∀ data, env = some data → request.env = (storedText data).toValid := by
  rw [buildRemoteStackActionRequest] at h
  split at h
  · cases (Prog.exec_run_throw.mp h).1
  split at h
  · cases (Prog.exec_run_throw.mp h).1
  rcases Prog.exec_run_bind.mp h with ⟨e, ⟨⟩, -⟩ | ⟨detail, u, hload, hpure⟩
  obtain ⟨-, hexec⟩ := exec_onDisk_inert (inert_loadStackDetail _ _) hload
  obtain ⟨hr, -⟩ := Prog.exec_run_pure.mp hpure
  cases hr
  obtain ⟨updatedAt, heq⟩ | ⟨⟨⟩, -⟩ := exec_loadStackDetail hstack.openable hstack.storedYml
    hstack.storedEnv hstack.size hstack.sizeEnv hexec
  cases heq
  exact ⟨rfl, rfl, rfl, rfl, fun data hdata => by rw [hdata]; rfl⟩

end

/-- **The same action on the own host and on an agent.** A request is accepted with the scope of
the own host and with that of a remote server, and the same files are stored for both; either may be
a job. When both actions succeed, and the agent with one of the requests that were posted to it,
Docker Compose has worked on the same exactly if the Compose file has no invalid byte and the lines
of the environment file are clean. -/
theorem executeStackAction_agent_same_iff (lower fold fold' : Char → Char)
    (hlower : ∀ c, lower (lower c) = lower c) (tempDir tempDir' : String)
    (may may' : HostOp → Prop) (environ environ' : List GoText) (cfg cfg' : Config)
    (body : StackActionRequest) (scope serverName serverName' : String)
    (payload payload' payload'' : ParsedStackActionRequest) (composeYml : ByteArray)
    (env : Option ByteArray) (s t s' t' a b : Host) (cs cs' : List ComposeCall)
    (job job' job'' : Bool) (posts : List AgentPost) (post : AgentPost)
    -- the request with the scope of the own host
    (hdecode : decodeStackActionRequest lower false body = .ok payload)
    (hserver : payload.server = some (.onHost, serverName))
    (hstack : StackAt s.disk serverName payload.request.name composeYml env)
    (hlocal : Prog.Exec (HostSem tempDir may)
      (executeStackAction environ fold false cfg payload job).run s (.ok ()) t)
    (hcalls : t.calls = s.calls ++ cs)
    -- the request with the scope of a remote server
    (hdecode' : decodeStackActionRequest lower false { body with scope := scope } = .ok payload')
    (hserver' : payload'.server = some (.remote, serverName'))
    (hstack' : StackAt s'.disk serverName' payload'.request.name composeYml env)
    (hremote : Prog.Exec (HostSem tempDir may)
      (executeStackAction environ fold false cfg payload' job').run s' (.ok ()) t')
    (hsent : t'.sent = s'.sent ++ posts) (hpost : post ∈ posts)
    -- and what the agent makes of it
    (hdecode'' : decodeStackActionRequest lower true post.request = .ok payload'')
    (hagent : Prog.Exec (HostSem tempDir' may')
      (executeStackAction environ' fold' true cfg' payload'' job'').run a (.ok ()) b)
    (hcalls' : b.calls = a.calls ++ cs') :
    cs'.map seen = cs.map seen ↔
      (∀ b, Rune.byte b ∉ storedText composeYml) ∧
        ∀ data, env = some data → CleanLines (storedText data) := by
  have hd := decoded hdecode
  have hd' := decoded hdecode'
  have hd'' := decoded hdecode''
  -- the request is that of the stored stack
  obtain ⟨hne, -⟩ | ⟨remote, request, posts', u, hbuild, rfl, hposts, hend⟩ :=
    exec_executeStackAction_remote hserver' hremote
  · exact absurd rfl hne
  have hsent' : t'.sent = s'.sent ++ posts' := by
    obtain ⟨-, rfl⟩ | ⟨-, ⟨-, rfl⟩ | ⟨-, hrest, -⟩⟩ := hend
    · rfl
    · rfl
    · rw [hrest]
  rw [hsent, List.append_cancel_left_eq] at hsent'
  subst hsent'
  obtain ⟨-, rfl⟩ := hposts.request hpost
  obtain ⟨hname, haction, hyml, huse, henv⟩ := exec_buildRemoteStackActionRequest hstack' hbuild
  obtain ⟨hname', haction'⟩ := hd'.again hlower hname haction hd''
  have hnames : payload''.request.name = payload.request.name := by
    rw [hname', hd'.name, hd.name]
  have hactions : payload''.request.action = payload.request.action := by
    rw [haction', hd'.action, hd.action]
  -- what the calls have worked on
  obtain ⟨v, hrun, hafter⟩ := exec_executeStackAction_local (by simp [hserver]) hlocal
  have hv : v.calls = t.calls := by
    obtain ⟨-, rfl⟩ | ⟨-, -, hrest, -⟩ := hafter
    · rfl
    · rw [hrest]
  rw [hserver] at hrun
  obtain ⟨ds, hds, hseen⟩ := seen_runLocalStackAction hstack hd.valid hrun
  rw [hv, hcalls, List.append_cancel_left_eq] at hds
  obtain ⟨ds', hds', hseen'⟩ := seen_runComposeFromPayload hd''.valid hagent
  rw [hcalls', List.append_cancel_left_eq] at hds'
  subst hds hds'
  have hfile : (if payload''.request.useEnv then
      some (sanitizeEnvContent payload''.request.env).1 else none) =
      env.bind fun data => agentEnvFile (some (storedText data)) := by
    rw [hd''.useEnv, huse, hd''.env, if_pos rfl]
    cases env with
    | none => rfl
    | some data =>
        rw [henv data rfl]
        rfl
  have hsteps : composeSteps payload.request.action ≠ [] := by
    rw [composeSteps]
    split <;> simp
  obtain ⟨step, hstep⟩ := List.exists_mem_of_ne_nil _ hsteps
  rw [hseen, hseen', hnames, hactions, hfile, hd''.composeYml, hyml, ofString_jsonText,
    List.map_inj_left, ← GoText.toValid_eq_iff, ← agentEnvFile_same_iff]
  constructor
  · intro h
    have heq := h step hstep
    rw [Prod.mk.injEq, Prod.mk.injEq, Option.some.injEq] at heq
    exact heq.2
  · rintro ⟨hcompose, henv⟩ step -
    rw [hcompose, henv]

/-! ### A stack for both -/

/-- The sample stack lies on both disks. -/
theorem stackAt_web {serverName : String} (h : serverName = "local" ∨ serverName = "nas") :
    StackAt webHost.disk serverName "web" "image: a".toUTF8 (some "TAG=a".toUTF8) := by
  rcases h with rfl | rfl <;>
    exact ⟨⟨rfl, rfl, rfl, rfl⟩, rfl, rfl, by decide, fun e he => by cases he; decide⟩

/-- The request to the agent. -/
def webRequest : StackActionRequest :=
  ⟨"", "web", "up", "image: a", GoText.ofString "TAG=a", true⟩

/-- A job of the stack on the own host. -/
theorem exec_web_up : ∃ t cs,
    Prog.Exec (HostSem "/tmp" refusesTemp) (executeStackAction [] id false webServers
      ⟨webAction "local:local" "up", some (.onHost, "local")⟩ true).run webHost (.ok ()) t ∧
    t.calls = webHost.calls ++ cs :=
  ⟨_, _, @exec_web_local "up" true _ (exec_answer _ webEnvHost), rfl⟩

/-- A job of the stack on the remote server, whose agent has no jobs. -/
theorem exec_web_remote : ∃ t,
    Prog.Exec (HostSem "/tmp" refusesTemp) (executeStackAction [] id false webServers
      ⟨webAction "remote:nas" "up", some (.remote, "nas")⟩ true).run webHost (.ok ()) t ∧
    t.sent = webHost.sent ++ [⟨⟨"nas", "http://nas", "", false⟩, .jobs, webRequest⟩,
      ⟨⟨"nas", "http://nas", "", false⟩, .action, webRequest⟩] :=
  ⟨_, exec_answer _ _, rfl⟩

/-- The agent, with a directory for the request. -/
def agentHost : Host where
  disk := { base := false, dirs := fun _ => none }
  temp := fun _ => none
  calls := []
  sent := []

/-- The request, as the agent has read it. -/
def readRequest : ParsedStackActionRequest :=
  ⟨{ webRequest with env := (sanitizeEnvContent webRequest.env).1 }, none⟩

/-- The sample run on the agent. -/
theorem exec_web_agent : ∃ t cs,
    Prog.Exec (HostSem "/tmp" refusesTemp) (executeStackAction [] id true webServers
      readRequest false).run agentHost (.ok ()) t ∧
    t.calls = agentHost.calls ++ cs := by
  have hnew : agentHost.NewPath "/tmp" "contiwatch-stack-" "/tmp/contiwatch-stack-1" :=
    ⟨⟨"1", rfl⟩, fun _ _ => rfl⟩
  have hrest := exec_answer (Prog.deferring
    (do
      let envFile ← writePayload "/tmp/contiwatch-stack-1" readRequest.request.composeYml
        readRequest.request.env readRequest.request.useEnv
      runComposeAction [] (.temporary "/tmp/contiwatch-stack-1") "web" "up"
        (agentDockerHost webServers) envFile)
    (do
      let _ ← Prog.call (.removeAll "/tmp/contiwatch-stack-1")))
    (agentHost.setTemp "/tmp/contiwatch-stack-1" (some .dir))
  exact ⟨_, _, Prog.exec_run_bind.mpr <|
    .inr ⟨_, _, exec_host.mpr (.inl ⟨_, rfl, hnew, rfl⟩), hrest⟩, rfl⟩

/-- The sample stack is started alike on both. -/
theorem executeStackAction_agent_same_iff_web : ∃ t b cs cs',
    Prog.Exec (HostSem "/tmp" refusesTemp) (executeStackAction [] id false webServers
      ⟨webAction "local:local" "up", some (.onHost, "local")⟩ true).run webHost (.ok ()) t ∧
    t.calls = webHost.calls ++ cs ∧
    Prog.Exec (HostSem "/tmp" refusesTemp) (executeStackAction [] id true webServers
      readRequest false).run agentHost (.ok ()) b ∧
    b.calls = agentHost.calls ++ cs' ∧ cs'.map seen = cs.map seen := by
  obtain ⟨t, cs, hlocal, hcalls⟩ := exec_web_up
  obtain ⟨t', hremote, hsent⟩ := exec_web_remote
  obtain ⟨b, cs', hagent, hcalls'⟩ := exec_web_agent
  -- the agent carries out the second post
  have hiff := executeStackAction_agent_same_iff id id id (fun _ => rfl) _ _ _ _ _ _ _ _
    (webAction "local:local" "up") "remote:nas" "local" "nas" _ _ _ _ _ _ _ _ _ _ _ cs cs' _ _ _
    _ _ rfl rfl (stackAt_web (.inl rfl)) hlocal hcalls rfl rfl (stackAt_web (.inr rfl)) hremote
    hsent (List.mem_cons_of_mem _ (List.mem_singleton_self _)) rfl hagent hcalls'
  refine ⟨t, b, cs, cs', hlocal, hcalls, hagent, hcalls', hiff.mpr ⟨?_, fun data hdata => ?_⟩⟩
  · exact GoText.toValid_eq_iff.mp (by decide)
  · cases hdata
    exact (cleanLines_iff _).mpr (by decide)

end OnHost

end Contiwatch
