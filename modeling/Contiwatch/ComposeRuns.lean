import Contiwatch.ComposeEnv
import Contiwatch.Lib.GoBytes
import Contiwatch.ScopedRequests
import Contiwatch.StackActions
import Contiwatch.StackFiles

/-!
# Stack Actions on a Host

How a stack action is carried out, in `internal/server/stack_jobs.go` and
`internal/server/stacks.go`. On its own host the controller writes the environment file of the
stored stack into a temporary file and calls Docker Compose in the directory of the stack. For a
remote server it sends the stored files to the agent, which writes them into a temporary directory
and calls Docker Compose there; a job asks the agent for a job first. After `rm` the controller
removes the directory of the stack.

The code is a program that asks the host: for the stored stacks with the operations of the stack
storage, for temporary files, for a call of Docker Compose, and for exchanges with an agent.
Every operation may fail and may have done a part of its work then; a call of Docker Compose may
end in any way. The log is left out, and so is what is printed by a command that succeeds.

## Main results

* `OnHost.exec_runComposeAction` — the calls of an action are those of its steps, one after the
  other until one does not succeed.
* `OnHost.executeStackAction_leaves` — whatever fails, no temporary file is left but one that
  could not be written or removed, and no stored stack is changed but the one that a successful
  `rm` removes; that one is gone, unless the host refuses it.
-/

namespace Contiwatch

open GoStrings

/-! ### The host -/

/-- Why a context has ended: at its deadline, or for another cause. -/
inductive ContextEnd
  | timedOut
  | cancelled (cause : String)
  deriving DecidableEq, Repr

/-- How a call of Docker Compose has ended: whether the context has ended by then, and what was
printed if the command failed. -/
structure ComposeEnd where
  context : Option ContextEnd
  failure : Option String
  deriving DecidableEq, Repr

/-- The command has succeeded in time. -/
def ComposeEnd.Succeeded (e : ComposeEnd) : Prop := e.context = none ∧ e.failure = none

/-- The directory in which Docker Compose is called: that of a stored stack, or a temporary one. -/
inductive WorkDir
  | stored (root : String)
  | temporary (path : String)

/-- What is found under a path of the temporary directory. -/
inductive TempNode
  | dir
  | file (content : GoText)

def TempNode.content : TempNode → Option GoText
  | .dir => none
  | .file content => some content

/-- A call of Docker Compose: its arguments and environment, the Compose file and the environment
file as they were, and how it has ended. -/
structure ComposeCall where
  args : List String
  env : List GoText
  compose : Option GoText
  envFile : Option GoText
  ended : ComposeEnd

/-- The paths of an agent to which a stack action is posted. -/
inductive AgentPath
  | jobs | action
  deriving DecidableEq, Repr

/-- A stack action that is posted to an agent. -/
structure AgentPost where
  remote : RemoteServer
  path : AgentPath
  request : StackActionRequest

/-- The stored stacks, the temporary files by their paths, the calls of Docker Compose so far, and
the stack actions posted to agents. -/
structure Host where
  disk : StackDisk
  temp : String → Option TempNode
  calls : List ComposeCall
  sent : List AgentPost

/-- What is asked of the host. `startJob` is `startRemoteStackJob`, whose answer is the ID of the
job, or none from an agent without jobs; `pollJob` is all of `pollRemoteStackJob`, `postAction` is
`postRemoteStackAction`. -/
inductive HostOp
  | stack (o : FileOp)
  | statStack (root name : String)
  | removeAllStack (root : String)
  | mkdirTemp (pattern : String)
  | createTemp (pattern : String)
  | writeString (path : String) (content : GoText)
  | writeFile (path : String) (content : GoText)
  | readFile (path : String)
  | remove (path : String)
  | removeAll (path : String)
  | compose (args : List String) (dir : WorkDir) (env : List GoText)
  | startJob (remote : RemoteServer) (request : StackActionRequest)
  | pollJob (remote : RemoteServer) (id : String)
  | postAction (remote : RemoteServer) (request : StackActionRequest)

abbrev HostOp.Out : HostOp → Type
  | stack o => o.Out
  | startJob .. => Option String
  | mkdirTemp _ | createTemp _ => String
  | readFile _ => GoText
  | compose .. => ComposeEnd
  | _ => Unit

abbrev HostOp.Answer (o : HostOp) : Type := Except StackError o.Out

/-- The text of a stored file. -/
def storedText (data : ByteArray) : GoText := GoBytes.runes data.data.toList

/-- The path is `dir`, or leads into it. -/
def within (dir path : String) : Bool := path = dir || hasPrefix path (dir ++ "/")

/-- The file that the argument `--env-file` names. -/
def envFileArg : List String → Option String
  | "compose" :: "--env-file" :: path :: _ => some path
  | _ => none

namespace Host

variable (s : Host)

def content (path : String) : Option GoText := (s.temp path).bind TempNode.content

/-- What may be read under the name in the directory. Of a link or a device nothing is known. -/
def Shows : WorkDir → String → Option GoText → Prop
  | .temporary path, name, text => text = s.content (path ++ "/" ++ name)
  | .stored root, name, text =>
      match s.disk.stored root name with
      | some (.regular data) => text = some (storedText data)
      | some .other => True
      | none => text = none

/-- The environment file of a call. Without the argument, Docker Compose takes the one in its
directory. -/
def ShowsEnv (args : List String) (dir : WorkDir) (text : Option GoText) : Prop :=
  match envFileArg args with
  | some path => text = s.content path
  | none => s.Shows dir ".env" text

def setTemp (path : String) (node : Option TempNode) : Host :=
  { s with temp := Function.update s.temp path node }

def setDir (root : String) (dir : Option StackDir) : Host :=
  { s with disk := { s.disk with dirs := Function.update s.disk.dirs root dir } }

/-- A stack action is posted. -/
def post (remote : RemoteServer) (path : AgentPath) (request : StackActionRequest) : Host :=
  { s with sent := s.sent ++ [⟨remote, path, request⟩] }

/-- A new name for the pattern: nothing is there, and nothing in it. -/
def NewPath (tempDir pattern path : String) : Prop :=
  (∃ token, path = tempDir ++ "/" ++ pattern ++ token) ∧
    ∀ p, within path p = true → s.temp p = none

end Host

section

variable (tempDir : String) (may : HostOp → Prop)

/-- **What the operations do.** Those for which `may` holds may fail, and may have done a part of
their work then. Docker Compose changes none of these files. -/
def HostSem : (o : HostOp) → Host → o.Answer → Host → Prop
  | .stack o, s, r, t =>
      ∃ disk, FileSem (fun o => may (.stack o)) o s.disk r disk ∧ t = { s with disk := disk }
  | .statStack root name, s, r, t => t = s ∧
      (r = (if (s.disk.stored root name).isSome then .ok () else .error .notExist) ∨
        may (.statStack root name) ∧ r = .error .failed)
  | .removeAllStack root, s, r, t =>
      r = .ok () ∧ t = s.setDir root none ∨
        may (.removeAllStack root) ∧ r = .error .failed ∧ ∃ dir, t = s.setDir root dir
  | .mkdirTemp pattern, s, r, t =>
      (∃ path, r = .ok path ∧ s.NewPath tempDir pattern path ∧ t = s.setTemp path (some .dir)) ∨
        may (.mkdirTemp pattern) ∧ r = .error .failed ∧ t = s
  | .createTemp pattern, s, r, t =>
      (∃ path, r = .ok path ∧ s.NewPath tempDir pattern path ∧
        t = s.setTemp path (some (.file []))) ∨
        may (.createTemp pattern) ∧ r = .error .failed ∧ t = s
  | .writeString path content, s, r, t =>
      r = .ok () ∧ t = s.setTemp path (some (.file content)) ∨
        may (.writeString path content) ∧ r = .error .failed ∧
          ∃ part, t = s.setTemp path (some (.file part))
  | .writeFile path content, s, r, t =>
      r = .ok () ∧ t = s.setTemp path (some (.file content)) ∨
        may (.writeFile path content) ∧ r = .error .failed ∧
          ∃ node, t = s.setTemp path node
  | .readFile path, s, r, t => t = s ∧
      (r = (s.content path).elim (.error .notExist) .ok ∨
        may (.readFile path) ∧ r = .error .failed)
  | .remove path, s, r, t =>
      r = .ok () ∧ t = s.setTemp path none ∨ may (.remove path) ∧ r = .error .failed ∧ t = s
  | .removeAll path, s, r, t =>
      r = .ok () ∧
        t = { s with temp := fun p => if within path p = true then none else s.temp p } ∨
        may (.removeAll path) ∧ r = .error .failed ∧
          ∃ temp, (∀ p, ¬ within path p = true → temp p = s.temp p) ∧ t = { s with temp := temp }
  | .compose args dir env, s, r, t =>
      ∃ ended compose envFile, r = .ok ended ∧ s.Shows dir "docker-compose.yml" compose ∧
        s.ShowsEnv args dir envFile ∧
        t = { s with calls := s.calls ++ [⟨args, env, compose, envFile, ended⟩] }
  | .startJob remote request, s, _, t => t = s.post remote .jobs request
  | .pollJob _ _, s, _, t => t = s
  | .postAction remote request, s, _, t => t = s.post remote .action request

end

/-! ### The code -/

/-- Code that asks the host and may return an error. -/
abbrev HostM : Type → Type := ExceptT StackError (Prog HostOp.Answer)

def host (o : HostOp) : HostM o.Out := .mk (Prog.call o)

/-- Code that asks for stored stacks only. -/
def onDisk {α : Type} (p : FileM α) : HostM α :=
  .mk (p.run.through fun o => Prog.call (HostOp.stack o))

/-- `stackContextError`, for a context that has ended. -/
def stackContextError : ContextEnd → String
  | .timedOut =>
      "stack action timed out before completion; the host or registry may be slow — " ++
        "extend the timeout while it runs or retry"
  | .cancelled cause => "stack action cancelled: " ++ cause

namespace OnHost

section

variable (environ : List GoText)

/-- The override for a Docker host, if there is one. -/
def dockerOverrides (dockerHost : String) : GoMap GoText GoText :=
  if dockerHost = "" then ∅
  else Finmap.singleton (GoText.ofString "DOCKER_HOST") (GoText.ofString dockerHost)

/-- The environment of a call, with what can be read of the environment file. -/
def composeEnv (dockerHost : String) (read : Option GoText) (envFile : String) : List GoText :=
  mergeComposeEnv environ (dockerOverrides dockerHost)
    (if dockerHost = "" then [] else [GoText.ofString "DOCKER_HOST"]) (fun _ => read)
    (GoText.ofString envFile)

/-- The end of `runComposeSingleAction`. -/
def checkEnd (ended : ComposeEnd) : HostM Unit :=
  match ended.context, ended.failure with
  | some c, _ => throw (.message (stackContextError c))
  | none, some output => throw (.message ("compose failed: " ++ trimSpaceStr output))
  | none, none => pure ()

/-- What `mergeComposeEnv` reads of the environment file. -/
def readEnvFile (envFile : String) : HostM (Option GoText) :=
  if trimSpaceStr envFile = "" then pure none
  else
    tryCatch (do
      let content ← host (.readFile envFile)
      pure (some content)) fun _ => pure none

/-- `runComposeSingleAction`. -/
def runComposeSingleAction (dir : WorkDir) (projectName action dockerHost envFile : String) :
    HostM Unit :=
  match buildComposeArgs projectName action envFile with
  | .error text => throw (.message text)
  | .ok args => do
      let read ← readEnvFile envFile
      let ended ← host (.compose args dir (composeEnv environ dockerHost read envFile))
      checkEnd ended

/-- An error, with a text in front. -/
def wrapping (text : String) (p : HostM Unit) : HostM Unit :=
  tryCatch p fun
    | .message rest => throw (.message (text ++ rest))
    | e => throw e

/-- `runComposeAction`. -/
def runComposeAction (dir : WorkDir) (projectName action dockerHost envFile : String) :
    HostM Unit :=
  let projectName := composeProjectName projectName
  if action = "redeploy" then do
    wrapping "compose pull failed: " <|
      runComposeSingleAction environ dir projectName "pull" dockerHost envFile
    wrapping "compose up failed: " <|
      runComposeSingleAction environ dir projectName "up" dockerHost envFile
  else runComposeSingleAction environ dir projectName action dockerHost envFile

/-- `writeTempEnvFile`. -/
def writeTempEnvFile (content : GoText) : HostM String := do
  let path ← host (.createTemp "contiwatch-env-")
  host (.writeString path content)
  pure path

/-- `prepareEnvFileFromDisk`: the path, or the empty text. -/
def prepareEnvFileFromDisk (serverName stackName : String) : HostM String := do
  let env ← onDisk do
    let root ← openStackRoot serverName stackName false
    readEnv root
  match env with
  | none => pure ""
  | some data => writeTempEnvFile (sanitizeEnvContent (storedText data)).1

section

variable (fold : Char → Char) (cfg : Config)

/-- `runComposeFromStorage`. -/
def runComposeFromStorage (serverName stackName action envFile : String) : HostM Unit :=
  match findLocalServer fold cfg.localServers serverName with
  | none => throw (.message "local server not found")
  | some srv => do
      let root := stackPath serverName stackName
      host (.statStack root "docker-compose.yml")
      runComposeAction environ (.stored root) stackName action
        (dockerHostFromSocket srv.socket) envFile

/-- `runLocalStackAction`. -/
def runLocalStackAction (serverName stackName action : String) : HostM Unit := do
  let envFile ← prepareEnvFileFromDisk serverName stackName
  let run := runComposeFromStorage environ fold cfg serverName stackName action envFile
  if envFile = "" then run
  else Prog.deferring run do
    let _ ← Prog.call (.remove envFile)

end

/-- The files that `runComposeFromPayload` writes: the path of the environment file, or the empty
text. -/
def writePayload (dir : String) (composeYml : String) (env : GoText) (useEnv : Bool) :
    HostM String := do
  host (.writeFile (dir ++ "/docker-compose.yml") (GoText.ofString composeYml))
  if useEnv then do
    host (.writeFile (dir ++ "/.env") (sanitizeEnvContent env).1)
    pure (dir ++ "/.env")
  else pure ""

/-- `runComposeFromPayload`. -/
def runComposeFromPayload (payload : StackActionRequest) (dockerHost : String) : HostM Unit := do
  let dir ← host (.mkdirTemp "contiwatch-stack-")
  Prog.deferring
    (do
      let envFile ← writePayload dir payload.composeYml payload.env payload.useEnv
      runComposeAction environ (.temporary dir) payload.name payload.action dockerHost envFile)
    (do
      let _ ← Prog.call (.removeAll dir))

/-- `deleteStackDir`. -/
def deleteStackDir (serverName stackName : String) : HostM Unit := do
  onDisk do
    checkSegment serverName "server"
    checkSegment stackName "stack"
    file .openBase
  host (.removeAllStack (stackPath serverName stackName))

/-- `agentDockerHost`. -/
def agentDockerHost (cfg : Config) : String :=
  match cfg.localServers with
  | [srv] => dockerHostFromSocket srv.socket
  | _ => ""

/-- A text after it was written as JSON and read again. -/
def jsonText (text : GoText) : String :=
  String.ofList (text.map fun
    | .char c => c
    | .byte _ => '\uFFFD')

/-- `buildRemoteStackActionRequest`, with the request as the agent reads it. -/
def buildRemoteStackActionRequest (fold : Char → Char) (cfg : Config) (serverName : String)
    (payload : StackActionRequest) : HostM (RemoteServer × StackActionRequest) :=
  match findRemoteServer fold cfg.remoteServers serverName with
  | none => throw (.message "remote server not found")
  | some remote =>
      if remote.url = "" then throw (.message "remote url missing")
      else do
        let detail ← onDisk (loadStackDetail serverName payload.name)
        pure (remote,
          { scope := ""
            name := payload.name
            action := payload.action
            composeYml := jsonText (storedText detail.composeYml)
            env := GoText.toValid (storedText detail.env)
            useEnv := detail.hasEnv })

/-- The end of `executeStackAction`: an error of the removal is only logged. -/
def removeAfter (serverName stackName action : String) : HostM Unit :=
  if action = "rm" then tryCatch (deleteStackDir serverName stackName) fun _ => pure ()
  else pure ()

/-- `runRemoteStackJob`. An agent without jobs gets the action itself. -/
def runRemoteStackJob (remote : RemoteServer) (request : StackActionRequest) : HostM Unit := do
  match ← host (.startJob remote request) with
  | some id => host (.pollJob remote id)
  | none => host (.postAction remote request)

/-- `executeStackAction`, for a job or without one. A controller has a server in every request that
it has accepted. -/
def executeStackAction (fold : Char → Char) (agentMode : Bool) (cfg : Config)
    (payload : ParsedStackActionRequest) (job : Bool) : HostM Unit :=
  let name := payload.request.name
  let action := payload.request.action
  match agentMode, payload.server with
  | true, _ => runComposeFromPayload environ payload.request (agentDockerHost cfg)
  | false, some (.remote, serverName) => do
      let (remote, request) ← buildRemoteStackActionRequest fold cfg serverName payload.request
      (if job then runRemoteStackJob remote request else host (.postAction remote request))
      removeAfter serverName name action
  | false, server => do
      let serverName := (server.map Prod.snd).getD ""
      runLocalStackAction environ fold cfg serverName name action
      removeAfter serverName name action

end

/-! ### Calls of Docker Compose -/

section

variable {tempDir : String} {may : HostOp → Prop} {environ : List GoText} {s t : Host}
  {dir : WorkDir} {projectName action dockerHost envFile : String} {r : Except StackError Unit}

/-- A program of one operation of the host. -/
theorem exec_host {o : HostOp} {r : Except StackError o.Out} :
    Prog.Exec (HostSem tempDir may) (host o).run s r t ↔ HostSem tempDir may o s r t :=
  Prog.exec_call

/-- Code that asks for stored stacks changes nothing else. -/
theorem exec_onDisk {α : Type} {p : FileM α} {r : Except StackError α}
    (h : Prog.Exec (HostSem tempDir may) (onDisk p).run s r t) :
    Prog.Exec (FileSem fun o => may (.stack o)) p.run s.disk r t.disk ∧
      t = { s with disk := t.disk } := by
  refine Prog.Exec.of_through Host.disk (fun s t => t = { s with disk := t.disk })
    (fun _ => rfl) (fun hst htu => ?_) (fun {o u r v} hcall => ?_) h
  · rw [htu, hst]
  · obtain ⟨disk, hsem, rfl⟩ := Prog.exec_call.mp hcall
    exact ⟨hsem, rfl⟩

/-- The end of a call changes nothing, and is no error exactly if the call succeeded. -/
theorem exec_checkEnd {ended : ComposeEnd}
    (h : Prog.Exec (HostSem tempDir may) (checkEnd ended).run s r t) :
    t = s ∧ (r = .ok () ↔ ended.Succeeded) := by
  obtain ⟨context, failure⟩ := ended
  rw [checkEnd] at h
  rcases context with _ | c
  · rcases failure with _ | output
    · obtain ⟨rfl, rfl⟩ := Prog.exec_run_pure.mp h
      exact ⟨rfl, by simp [ComposeEnd.Succeeded]⟩
    · obtain ⟨rfl, rfl⟩ := Prog.exec_run_throw.mp h
      exact ⟨rfl, by simp [ComposeEnd.Succeeded]⟩
  · obtain ⟨rfl, rfl⟩ := Prog.exec_run_throw.mp h
    exact ⟨rfl, by simp [ComposeEnd.Succeeded]⟩

/-- The environment file is read, or it can not be read. -/
theorem exec_readEnvFile {r : Except StackError (Option GoText)}
    (h : Prog.Exec (HostSem tempDir may) (readEnvFile envFile).run s r t) :
    t = s ∧ ∃ read, r = .ok read ∧ (trimSpaceStr envFile = "" → read = none) ∧
      (trimSpaceStr envFile ≠ "" → read = s.content envFile ∨ may (.readFile envFile)) := by
  rw [readEnvFile] at h
  split at h
  · rename_i hblank
    obtain ⟨rfl, rfl⟩ := Prog.exec_run_pure.mp h
    exact ⟨rfl, none, rfl, fun _ => rfl, fun hne => absurd hblank hne⟩
  rename_i hne
  rcases Prog.exec_run_tryCatch.mp h with ⟨read, rfl, hok⟩ | ⟨e, u, herror, hcaught⟩
  · rcases Prog.exec_run_bind.mp hok with ⟨e, ⟨⟩, -⟩ | ⟨content, u, hread, hpure⟩
    obtain ⟨hr, rfl⟩ := Prog.exec_run_pure.mp hpure
    obtain rfl := Except.ok.inj hr
    obtain ⟨rfl, hcontent | ⟨-, ⟨⟩⟩⟩ := exec_host.mp hread
    refine ⟨rfl, some content, rfl, fun hblank => absurd hblank hne, fun _ => .inl ?_⟩
    rcases hfound : t.content envFile with _ | found
    · rw [hfound] at hcontent
      cases hcontent
    · rw [hfound] at hcontent
      exact congrArg some (Except.ok.inj hcontent)
  · obtain ⟨rfl, rfl⟩ := Prog.exec_run_pure.mp hcaught
    rcases Prog.exec_run_bind.mp herror with ⟨e', -, hread⟩ | ⟨content, v, -, hpure⟩
    · obtain ⟨rfl, hcontent | ⟨hmay, -⟩⟩ := exec_host.mp hread
      · refine ⟨rfl, none, rfl, fun hblank => absurd hblank hne, fun _ => .inl ?_⟩
        rcases hfound : t.content envFile with _ | found
        · rfl
        · rw [hfound] at hcontent
          cases hcontent
      · exact ⟨rfl, none, rfl, fun hblank => absurd hblank hne, fun _ => .inr hmay⟩
    · obtain ⟨⟨⟩, -⟩ := Prog.exec_run_pure.mp hpure

end

/-- The calls of the steps, one after the other until one does not succeed; the last argument says
that all of them have been made and have succeeded. -/
inductive InTurn (call : String → ComposeCall → Prop) : List String → List ComposeCall → Bool → Prop
  | done : InTurn call [] [] true
  | fails {step : String} {rest : List String} {c : ComposeCall} (hcall : call step c)
      (hend : ¬ c.ended.Succeeded) : InTurn call (step :: rest) [c] false
  | goesOn {step : String} {rest : List String} {c : ComposeCall} {cs : List ComposeCall}
      {ok : Bool} (hcall : call step c) (hend : c.ended.Succeeded)
      (hrest : InTurn call rest cs ok) : InTurn call (step :: rest) (c :: cs) ok

/-- When all steps have succeeded, there is one call for each. -/
theorem InTurn.map_eq {β : Type} {call : String → ComposeCall → Prop} {view : ComposeCall → β}
    {value : String → β} {steps : List String} {cs : List ComposeCall}
    (h : InTurn call steps cs true) (hview : ∀ step c, call step c → view c = value step) :
    cs.map view = steps.map value := by
  generalize hok : true = ok at h
  induction h with
  | done => rfl
  | fails hc hend => cases hok
  | goesOn hc hend _ ih => rw [List.map_cons, List.map_cons, hview _ _ hc, ih hok]

section

variable {tempDir : String} {may : HostOp → Prop} {environ : List GoText} {s t : Host}
  {dir : WorkDir} {projectName action dockerHost envFile : String} {r : Except StackError Unit}

variable (may environ) in
/-- A call of Docker Compose for a step, made in the state `s`. -/
structure CallIn (s : Host) (dir : WorkDir) (projectName dockerHost envFile step : String)
    (c : ComposeCall) : Prop where
  args : buildComposeArgs projectName step envFile = .ok c.args
  compose : s.Shows dir "docker-compose.yml" c.compose
  file : s.ShowsEnv c.args dir c.envFile
  env : ∃ read, c.env = composeEnv environ dockerHost read envFile ∧
    (trimSpaceStr envFile ≠ "" → read = s.content envFile ∨ may (.readFile envFile))

/-- The host after more calls. -/
def calling (s : Host) (cs : List ComposeCall) : Host := { s with calls := s.calls ++ cs }

/-- One call, if there are arguments for it. -/
theorem exec_runComposeSingleAction {step : String}
    (h : Prog.Exec (HostSem tempDir may)
      (runComposeSingleAction environ dir projectName step dockerHost envFile).run s r t) :
    ((buildComposeArgs projectName step envFile).isOk = false ∧ r ≠ .ok () ∧ t = s) ∨
      ∃ c, t = calling s [c] ∧
        CallIn may environ s dir projectName dockerHost envFile step c ∧
        (r = .ok () ↔ c.ended.Succeeded) := by
  rw [runComposeSingleAction] at h
  rcases hargs : buildComposeArgs projectName step envFile with text | args <;> rw [hargs] at h
  · obtain ⟨rfl, rfl⟩ := Prog.exec_run_throw.mp h
    exact .inl ⟨rfl, by simp, rfl⟩
  rcases Prog.exec_run_bind.mp h with ⟨e, -, hread⟩ | ⟨read, u, hread, hrest⟩
  · obtain ⟨-, _, ⟨⟩, -⟩ := exec_readEnvFile hread
  obtain ⟨rfl, _, hread, -, hcontent⟩ := exec_readEnvFile hread
  obtain rfl := Except.ok.inj hread
  rcases Prog.exec_run_bind.mp hrest with ⟨e, -, hcall⟩ | ⟨ended, v, hcall, hcheck⟩
  · obtain ⟨_, _, _, ⟨⟩, -⟩ := exec_host.mp hcall
  obtain ⟨_, compose, text, hended, hcompose, htext, rfl⟩ := exec_host.mp hcall
  obtain rfl := Except.ok.inj hended
  obtain ⟨rfl, hok⟩ := exec_checkEnd hcheck
  exact .inr ⟨_, rfl, ⟨hargs, hcompose, htext, read, rfl, hcontent⟩, hok⟩

/-- A text in front of an error changes nothing else. -/
theorem exec_wrapping {text : String} {p : HostM Unit}
    (h : Prog.Exec (HostSem tempDir may) (wrapping text p).run s r t) :
    ∃ r', Prog.Exec (HostSem tempDir may) p.run s r' t ∧ (r = .ok () ↔ r' = .ok ()) := by
  rcases Prog.exec_run_tryCatch.mp h with ⟨_, rfl, hok⟩ | ⟨e, u, herror, hcaught⟩
  · exact ⟨_, hok, Iff.rfl⟩
  · cases e with
    | message rest =>
        obtain ⟨rfl, rfl⟩ := Prog.exec_run_throw.mp hcaught
        exact ⟨_, herror, by simp⟩
    | notExist =>
        obtain ⟨rfl, rfl⟩ := Prog.exec_run_throw.mp hcaught
        exact ⟨_, herror, by simp⟩
    | failed =>
        obtain ⟨rfl, rfl⟩ := Prog.exec_run_throw.mp hcaught
        exact ⟨_, herror, by simp⟩

/-- A step of `redeploy` makes one call. -/
theorem exec_wrapping_step {text step : String} (hstep : step = "pull" ∨ step = "up")
    (h : Prog.Exec (HostSem tempDir may) (wrapping text
      (runComposeSingleAction environ dir projectName step dockerHost envFile)).run s r t) :
    ∃ c, t = calling s [c] ∧ CallIn may environ s dir projectName dockerHost envFile step c ∧
      (r = .ok () ↔ c.ended.Succeeded) := by
  obtain ⟨r', hrun, hr⟩ := exec_wrapping h
  obtain ⟨hnone, -, -⟩ | ⟨c, ht, hcall, hend⟩ := exec_runComposeSingleAction hrun
  · obtain rfl | rfl := hstep <;> cases hnone
  · exact ⟨c, ht, hcall, hr.trans hend⟩

/-- One call is all calls of one step. -/
theorem inTurn_singleton {call : String → ComposeCall → Prop} {step : String} {c : ComposeCall}
    (hcall : call step c) (hr : r = .ok () ↔ c.ended.Succeeded) :
    ∃ ok, InTurn call [step] [c] ok ∧ (r = .ok () ↔ ok = true) := by
  by_cases hend : c.ended.Succeeded
  · exact ⟨true, .goesOn hcall hend .done, by simp [hr, hend]⟩
  · exact ⟨false, .fails hcall hend, by simp [hr, hend]⟩

/-- **The calls of an action.** -/
theorem exec_runComposeAction
    (h : Prog.Exec (HostSem tempDir may)
      (runComposeAction environ dir projectName action dockerHost envFile).run s r t) :
    ∃ cs, t = calling s cs ∧ (isValidStackAction action = true → ∃ ok,
      InTurn (CallIn may environ s dir (composeProjectName projectName) dockerHost envFile)
        (composeSteps action) cs ok ∧ (r = .ok () ↔ ok = true)) := by
  rw [runComposeAction] at h
  by_cases hredeploy : action = "redeploy"
  · subst hredeploy
    rw [if_pos rfl] at h
    have hsteps : composeSteps "redeploy" = ["pull", "up"] := rfl
    rw [hsteps]
    rcases Prog.exec_run_bind.mp h with ⟨e, rfl, hpull⟩ | ⟨_, u, hpull, hup⟩
    · obtain ⟨c, rfl, hcall, hend⟩ := exec_wrapping_step (.inl rfl) hpull
      have hfails : ¬ c.ended.Succeeded := fun hok => by simpa using hend.mpr hok
      exact ⟨[c], rfl, fun _ => ⟨false, .fails hcall hfails, by simp⟩⟩
    · obtain ⟨c, rfl, hcall, hend⟩ := exec_wrapping_step (.inl rfl) hpull
      obtain ⟨c', rfl, hcall', hend'⟩ := exec_wrapping_step (.inr rfl) hup
      -- a call changes nothing that the next one sees
      have hsame : CallIn may environ s dir (composeProjectName projectName) dockerHost envFile
          "up" c' := ⟨hcall'.args, hcall'.compose, hcall'.file, hcall'.env⟩
      refine ⟨[c, c'], by simp [calling], fun _ => ?_⟩
      obtain ⟨ok, hturn, hok⟩ := inTurn_singleton hsame hend'
      exact ⟨ok, .goesOn hcall (hend.mp rfl) hturn, hok⟩
  · rw [if_neg hredeploy] at h
    rw [composeSteps, if_neg hredeploy]
    obtain ⟨hnone, -, rfl⟩ | ⟨c, rfl, hcall, hend⟩ := exec_runComposeSingleAction h
    · refine ⟨[], by simp [calling], fun hvalid => ?_⟩
      have hok := composeSteps_of_valid hvalid (composeProjectName projectName) envFile action
        (by simp [composeSteps, hredeploy])
      rw [hnone] at hok
      cases hok
    · exact ⟨[c], rfl, fun _ => inTurn_singleton hcall hend⟩

end

/-! ### Reading the stored stack -/

section

variable {G : FileOp → Prop} {α β : Type}

/-- Two parts whose operations are allowed, one after the other. -/
theorem ops_run_bind {p : FileM α} {f : α → FileM β} (hp : p.run.Ops G)
    (hf : ∀ a, (f a).run.Ops G) : (p >>= f).run.Ops G := by
  refine Prog.Ops.bind hp fun r => ?_
  cases r with
  | error e => exact .done _
  | ok a => exact hf a

/-- So is a part with the code that catches its errors. -/
theorem ops_run_tryCatch {p : FileM α} {f : StackError → FileM α} (hp : p.run.Ops G)
    (hf : ∀ e, (f e).run.Ops G) : (tryCatch p f).run.Ops G := by
  refine Prog.Ops.bind hp fun r => ?_
  cases r with
  | error e => exact hf e
  | ok a => exact .done _

/-- So is one operation that is allowed. -/
theorem ops_file {o : FileOp} (ho : G o) : (file o).run.Ops G := Prog.ops_call ho

/-- A check does no operation. -/
theorem ops_failIf {c : Prop} [Decidable c] {text : String} : (failIf c text).run.Ops G := by
  rw [failIf]
  split
  · exact .done _
  · exact .done _

/-- Nor does the check of a name. -/
theorem ops_checkSegment {value label : String} : (checkSegment value label).run.Ops G := by
  rw [checkSegment]
  split
  · exact .done _
  · exact .done _

/-- Opening the directory of a stack only looks. -/
theorem inert_openStackRoot (serverName stackName : String) :
    (openStackRoot serverName stackName false).run.Ops FileOp.Inert := by
  rw [openStackRoot]
  simp only [Bool.false_eq_true, if_false]
  exact ops_run_bind ops_checkSegment fun _ => ops_run_bind ops_checkSegment fun _ =>
    ops_run_bind (ops_file trivial) fun _ => ops_file trivial

/-- So does reading a file. -/
theorem inert_readStackFile (root name : String) :
    (readStackFile root name).run.Ops FileOp.Inert :=
  ops_run_bind (ops_file trivial) fun _ => ops_run_bind ops_failIf fun _ =>
    ops_run_bind (ops_file trivial) fun _ => ops_run_bind (ops_file trivial) fun _ =>
      ops_run_bind ops_failIf fun _ => ops_run_bind (ops_file trivial) fun _ =>
        ops_run_bind (ops_file trivial) fun _ => ops_run_bind ops_failIf fun _ => .done _

/-- So does reading the environment file. -/
theorem inert_readEnv (root : String) : (readEnv root).run.Ops FileOp.Inert := by
  refine ops_run_tryCatch (ops_run_bind (inert_readStackFile root ".env") fun _ => .done _)
    fun e => ?_
  split
  · exact .done _
  · exact .done _

/-- So does loading a stack. -/
theorem inert_loadStackDetail (serverName stackName : String) :
    (loadStackDetail serverName stackName).run.Ops FileOp.Inert :=
  ops_run_bind (inert_openStackRoot serverName stackName) fun root =>
    ops_run_bind (ops_file trivial) fun _ =>
      ops_run_bind (inert_readStackFile root "docker-compose.yml") fun _ =>
        ops_run_bind (inert_readEnv root) fun _ =>
          ops_run_bind (ops_run_tryCatch (ops_file trivial) fun _ => .done _) fun _ => .done _

/-- Code that only looks at the stored stacks changes nothing at all. -/
theorem exec_onDisk_inert {tempDir : String} {may : HostOp → Prop} {s t : Host} {p : FileM α}
    {r : Except StackError α} (hp : p.run.Ops FileOp.Inert)
    (h : Prog.Exec (HostSem tempDir may) (onDisk p).run s r t) :
    t = s ∧ Prog.Exec (FileSem fun o => may (.stack o)) p.run s.disk r s.disk := by
  obtain ⟨hexec, ht⟩ := exec_onDisk h
  have hdisk : t.disk = s.disk := hexec.invariant (I := fun disk => disk = s.disk) hp rfl
    fun ho hs hsem => (hsem.inert ho).trans hs
  rw [hdisk] at hexec ht
  exact ⟨ht, hexec⟩

end

/-! ### Temporary files -/

/-- A directory is within itself. -/
theorem within_self (path : String) : within path path = true := by simp [within]

/-- So is what lies below it. -/
theorem within_append (dir rest : String) : within dir (dir ++ "/" ++ rest) = true := by
  simp [within, hasPrefix]

/-- A text that is trimmed to nothing is blank. -/
theorem isSpace_of_trimSpaceStr {text : String} (h : trimSpaceStr text = "") :
    ∀ c ∈ text.toList, isSpace c = true := by
  have hnil : trimSpace text.toList = [] := by
    rw [← String.toList_ofList (l := trimSpace _)]
    exact congrArg String.toList h
  rw [trimSpace, List.reverse_eq_nil_iff, List.dropWhile_eq_nil_iff] at hnil
  intro c hc
  rw [← List.takeWhile_append_dropWhile (p := isSpace) (l := text.toList), List.mem_append] at hc
  rcases hc with hc | hc
  · exact List.mem_takeWhile_imp hc
  · exact hnil c (List.mem_reverse.mpr hc)

/-- A text with a character that is no blank is not. -/
theorem trimSpaceStr_ne {text : String} {c : Char} (hc : c ∈ text.toList)
    (hspace : isSpace c = false) : trimSpaceStr text ≠ "" := fun h => by
  rw [isSpace_of_trimSpaceStr h c hc] at hspace
  cases hspace

/-- What may be left of temporary files: a part of one that could not be written, whose path is
lost, and what could not be removed. -/
def Leftover (may : HostOp → Prop) (p : String) : Prop :=
  ∃ q, within q p = true ∧
    (may (.remove q) ∨ may (.removeAll q) ∨ ∃ content, may (.writeString q content))

section

variable {tempDir : String} {may : HostOp → Prop} {environ : List GoText} {s t : Host}

/-- `s` is the host before the action, as far as temporary files and stacks are concerned. -/
structure Tidy (may : HostOp → Prop) (s t : Host) : Prop where
  disk : t.disk = s.disk
  sent : t.sent = s.sent
  temp : ∀ p, t.temp p = s.temp p ∨ Leftover may p

/-- Calls leave no temporary file and no change of the stacks. -/
theorem tidy_calling (cs : List ComposeCall) : Tidy may s (calling s cs) :=
  ⟨rfl, rfl, fun _ => .inl rfl⟩

/-- A temporary environment file is there with its content, or a part of it is left behind. -/
theorem exec_writeTempEnvFile {content : GoText} {r : Except StackError String}
    (h : Prog.Exec (HostSem tempDir may) (writeTempEnvFile content).run s r t) :
    (∃ e, r = .error e ∧ Tidy may s t ∧ t.calls = s.calls) ∨
      ∃ path, r = .ok path ∧ s.NewPath tempDir "contiwatch-env-" path ∧
        t = s.setTemp path (some (.file content)) := by
  have htwice (path : String) (a b : Option TempNode) :
      (s.setTemp path a).setTemp path b = s.setTemp path b := by
    simp [Host.setTemp]
  rcases Prog.exec_run_bind.mp h with ⟨e, rfl, hcreate⟩ | ⟨path, u, hcreate, hrest⟩
  · obtain ⟨_, ⟨⟩, -⟩ | ⟨-, -, rfl⟩ := exec_host.mp hcreate
    exact .inl ⟨e, rfl, ⟨rfl, rfl, fun _ => .inl rfl⟩, rfl⟩
  obtain ⟨path', hpath, hnew, rfl⟩ | ⟨-, ⟨⟩, -⟩ := exec_host.mp hcreate
  obtain rfl := Except.ok.inj hpath
  rcases Prog.exec_run_bind.mp hrest with ⟨e, rfl, hwrite⟩ | ⟨_, v, hwrite, hpure⟩
  · obtain ⟨⟨⟩, -⟩ | ⟨hmay, -, part, rfl⟩ := exec_host.mp hwrite
    rw [htwice]
    refine .inl ⟨e, rfl, ⟨rfl, rfl, fun p => ?_⟩, rfl⟩
    by_cases hp : p = path
    · exact .inr ⟨path, hp ▸ within_self p, .inr (.inr ⟨content, hmay⟩)⟩
    · exact .inl (Function.update_of_ne hp ..)
  · obtain ⟨rfl, rfl⟩ := Prog.exec_run_pure.mp hpure
    obtain ⟨-, rfl⟩ | ⟨-, ⟨⟩, -⟩ := exec_host.mp hwrite
    exact .inr ⟨path, rfl, hnew, htwice path _ _⟩

/-- Reading the environment file of a stored stack. -/
def readStoredEnv (serverName stackName : String) : FileM (Option ByteArray) := do
  let root ← openStackRoot serverName stackName false
  readEnv root

/-- The preparation fails and is tidy, or gives the path of a file with the stored environment, or
none if there is none. -/
theorem exec_prepareEnvFileFromDisk {serverName stackName : String} {r : Except StackError String}
    (h : Prog.Exec (HostSem tempDir may) (prepareEnvFileFromDisk serverName stackName).run s r t) :
    (∃ e, r = .error e ∧ Tidy may s t ∧ t.calls = s.calls) ∨
      ∃ env, Prog.Exec (FileSem fun o => may (.stack o)) (readStoredEnv serverName stackName).run
          s.disk (.ok env) s.disk ∧
        (env = none ∧ r = .ok "" ∧ t = s ∨
          ∃ data path, env = some data ∧ r = .ok path ∧
            s.NewPath tempDir "contiwatch-env-" path ∧
            t = s.setTemp path (some (.file (sanitizeEnvContent (storedText data)).1))) := by
  have hinert : (readStoredEnv serverName stackName).run.Ops FileOp.Inert :=
    ops_run_bind (inert_openStackRoot serverName stackName) fun root => inert_readEnv root
  rcases Prog.exec_run_bind.mp h with ⟨e, rfl, hread⟩ | ⟨env, u, hread, hrest⟩
  · obtain ⟨rfl, -⟩ := exec_onDisk_inert hinert hread
    exact .inl ⟨e, rfl, ⟨rfl, rfl, fun _ => .inl rfl⟩, rfl⟩
  obtain ⟨rfl, hexec⟩ := exec_onDisk_inert hinert hread
  cases env with
  | none =>
      obtain ⟨rfl, rfl⟩ := Prog.exec_run_pure.mp hrest
      exact .inr ⟨none, hexec, .inl ⟨rfl, rfl, rfl⟩⟩
  | some data =>
      obtain ⟨e, rfl, htidy, hcalls⟩ | ⟨path, rfl, hnew, rfl⟩ := exec_writeTempEnvFile hrest
      · exact .inl ⟨e, rfl, htidy, hcalls⟩
      · exact .inr ⟨some data, hexec, .inr ⟨data, path, rfl, rfl, hnew, rfl⟩⟩

end

/-! ### Actions -/

section

variable {tempDir : String} {may : HostOp → Prop} {environ : List GoText} {s t : Host}
  {r : Except StackError Unit}

/-- Calls of an action, made in the state `u`: none if something failed before, or those of the
steps in turn. -/
def CallsOf (may : HostOp → Prop) (environ : List GoText) (u : Host) (dir : WorkDir)
    (name action dockerHost envFile : String) (cs : List ComposeCall) (r : Except StackError Unit) :
    Prop :=
  cs = [] ∧ r ≠ .ok () ∨
    (isValidStackAction action = true → ∃ ok,
      InTurn (CallIn may environ u dir (composeProjectName name) dockerHost envFile)
        (composeSteps action) cs ok ∧ (r = .ok () ↔ ok = true))

variable {fold : Char → Char} {cfg : Config} {serverName name action envFile : String}

/-- An action on a stored stack only makes calls in its directory. -/
theorem exec_runComposeFromStorage
    (h : Prog.Exec (HostSem tempDir may)
      (runComposeFromStorage environ fold cfg serverName name action envFile).run s r t) :
    ∃ cs dockerHost, t = calling s cs ∧ CallsOf may environ s
      (.stored (stackPath serverName name)) name action dockerHost envFile cs r := by
  have hnothing {e : StackError} : ∃ cs dockerHost, s = calling s cs ∧ CallsOf may environ s
      (.stored (stackPath serverName name)) name action dockerHost envFile cs (.error e) :=
    ⟨[], "", by simp [calling], .inl ⟨rfl, by simp⟩⟩
  rw [runComposeFromStorage] at h
  rcases hfind : findLocalServer fold cfg.localServers serverName with _ | srv <;> rw [hfind] at h
  · obtain ⟨rfl, rfl⟩ := Prog.exec_run_throw.mp h
    exact hnothing
  rcases Prog.exec_run_bind.mp h with ⟨e, rfl, hstat⟩ | ⟨_, u, hstat, hrun⟩
  · obtain ⟨rfl, -⟩ := exec_host.mp hstat
    exact hnothing
  obtain ⟨rfl, -⟩ := exec_host.mp hstat
  obtain ⟨cs, rfl, hturn⟩ := exec_runComposeAction hrun
  exact ⟨cs, _, rfl, .inr hturn⟩

/-- What an action on the own host does: what Docker Compose finds, the temporary file, and the
calls. -/
theorem exec_runLocalStackAction
    (h : Prog.Exec (HostSem tempDir may)
      (runLocalStackAction environ fold cfg serverName name action).run s r t) :
    ∃ cs, t.calls = s.calls ++ cs ∧ Tidy may s t ∧
      (cs = [] ∧ r ≠ .ok () ∨
        ∃ env u dockerHost envFile,
          Prog.Exec (FileSem fun o => may (.stack o)) (readStoredEnv serverName name).run
            s.disk (.ok env) s.disk ∧
          u.disk = s.disk ∧ (env = none → envFile = "") ∧
          (∀ data, env = some data → trimSpaceStr envFile ≠ "" ∧
            u.content envFile = some (sanitizeEnvContent (storedText data)).1) ∧
          CallsOf may environ u (.stored (stackPath serverName name)) name action dockerHost
            envFile cs r) := by
  rcases Prog.exec_run_bind.mp h with ⟨e, rfl, hprepare⟩ | ⟨path, u, hprepare, hrest⟩
  · obtain ⟨_, -, htidy, hcalls⟩ | ⟨env, -, ⟨-, ⟨⟩, -⟩ | ⟨_, _, -, ⟨⟩, -⟩⟩ :=
      exec_prepareEnvFileFromDisk hprepare
    exact ⟨[], by simp [hcalls], htidy, .inl ⟨rfl, by simp⟩⟩
  obtain ⟨_, ⟨⟩, -⟩ | ⟨env, hexec, ⟨rfl, hpath, rfl⟩ | ⟨data, path', rfl, hpath, hnew, rfl⟩⟩ :=
    exec_prepareEnvFileFromDisk hprepare
  · obtain rfl := Except.ok.inj hpath
    dsimp only at hrest
    rw [if_pos rfl] at hrest
    obtain ⟨cs, dockerHost, rfl, hcalls⟩ := exec_runComposeFromStorage hrest
    exact ⟨cs, rfl, tidy_calling cs, .inr ⟨none, u, dockerHost, "", hexec, rfl, fun _ => rfl,
      by simp, hcalls⟩⟩
  · obtain rfl := Except.ok.inj hpath
    have hblank : trimSpaceStr path ≠ "" := by
      obtain ⟨⟨token, rfl⟩, -⟩ := hnew
      exact trimSpaceStr_ne (c := 'c') (by simp) (by decide)
    have hne : path ≠ "" := by
      rintro rfl
      exact hblank rfl
    dsimp only at hrest
    rw [if_neg hne] at hrest
    obtain ⟨u, hrun, hcleanup⟩ := Prog.exec_deferring.mp hrest
    obtain ⟨_, v, hremove, hdone⟩ := Prog.exec_bind.mp hcleanup
    obtain ⟨-, rfl⟩ := Prog.exec_done.mp hdone
    obtain ⟨cs, dockerHost, rfl, hcalls⟩ := exec_runComposeFromStorage hrun
    have hfresh : s.temp path = none := hnew.2 path (within_self path)
    have hcontent : (s.setTemp path
        (some (.file (sanitizeEnvContent (storedText data)).1))).content path =
        some (sanitizeEnvContent (storedText data)).1 := by
      simp [Host.content, Host.setTemp, TempNode.content]
    refine ⟨cs, ?_, ?_, .inr ⟨some data, s.setTemp path _, dockerHost, path, hexec, rfl, by simp,
      fun data' heq => Option.some.inj heq ▸ ⟨hblank, hcontent⟩, hcalls⟩⟩
    · obtain ⟨-, rfl⟩ | ⟨-, -, rfl⟩ := Prog.exec_call.mp hremove <;> rfl
    obtain ⟨-, rfl⟩ | ⟨hmay, -, rfl⟩ := Prog.exec_call.mp hremove
    · refine ⟨rfl, rfl, fun p => .inl ?_⟩
      by_cases hp : p = path
      · rw [hp, hfresh]
        exact Function.update_self ..
      · simp [Host.setTemp, calling, Function.update_of_ne hp]
    · refine ⟨rfl, rfl, fun p => ?_⟩
      by_cases hp : p = path
      · exact .inr ⟨path, hp ▸ within_self p, .inl hmay⟩
      · exact .inl (by simp [Host.setTemp, calling, Function.update_of_ne hp])

end

section

variable {tempDir : String} {may : HostOp → Prop} {environ : List GoText} {s t : Host}

/-- A path outside of a directory is none of those within it. -/
theorem not_within_of_ne {dir p q : String} (hp : within dir p = true)
    (hq : ¬ within dir q = true) : q ≠ p := fun h => hq (h ▸ hp)

/-- The files of a payload are written into the directory, or a part of them is. -/
theorem exec_writePayload {dir composeYml : String} {env : GoText} {useEnv : Bool}
    {r : Except StackError String} (hnew : ∀ p, p ≠ dir → within dir p = true → s.temp p = none)
    (h : Prog.Exec (HostSem tempDir may) (writePayload dir composeYml env useEnv).run s r t) :
    t.disk = s.disk ∧ t.sent = s.sent ∧ t.calls = s.calls ∧
      (∀ p, ¬ within dir p = true → t.temp p = s.temp p) ∧
      ∀ envFile, r = .ok envFile →
        t.content (dir ++ "/docker-compose.yml") = some (GoText.ofString composeYml) ∧
        (useEnv = true → trimSpaceStr envFile ≠ "" ∧
          t.content envFile = some (sanitizeEnvContent env).1) ∧
        (useEnv = false → envFile = "" ∧ t.content (dir ++ "/.env") = none) := by
  have hyml : within dir (dir ++ "/docker-compose.yml") = true := by
    simpa [String.append_assoc] using within_append dir "docker-compose.yml"
  have henv : within dir (dir ++ "/.env") = true := by
    simpa [String.append_assoc] using within_append dir ".env"
  have hne : dir ++ "/.env" ≠ dir ++ "/docker-compose.yml" := fun heq => by
    simpa using congrArg String.toList heq
  have hdir : dir ++ "/.env" ≠ dir := fun heq => by simpa using congrArg String.toList heq
  have hset (s : Host) (q : String) (node : Option TempNode) (p : String) (hp : p ≠ q) :
      (s.setTemp q node).temp p = s.temp p := Function.update_of_ne hp ..
  have hself (s : Host) (q : String) (text : GoText) :
      (s.setTemp q (some (.file text))).content q = some text := by
    simp [Host.content, Host.setTemp, TempNode.content]
  rcases Prog.exec_run_bind.mp h with ⟨e, rfl, hwrite⟩ | ⟨_, u, hwrite, hrest⟩
  · obtain ⟨⟨⟩, -⟩ | ⟨-, -, node, rfl⟩ := exec_host.mp hwrite
    exact ⟨rfl, rfl, rfl, fun p hp => hset s _ node p (not_within_of_ne hyml hp), by simp⟩
  obtain ⟨-, rfl⟩ | ⟨-, ⟨⟩, -⟩ := exec_host.mp hwrite
  cases useEnv with
  | false =>
      obtain ⟨rfl, rfl⟩ := Prog.exec_run_pure.mp hrest
      refine ⟨rfl, rfl, rfl, fun p hp => hset s _ _ p (not_within_of_ne hyml hp),
        fun envFile heq => ⟨hself s _ _, by simp, fun _ => ⟨(Except.ok.inj heq).symm, ?_⟩⟩⟩
      rw [Host.content, hset s _ _ _ hne, hnew _ hdir henv]
      rfl
  | true =>
      rcases Prog.exec_run_bind.mp hrest with ⟨e, rfl, hwriteEnv⟩ | ⟨_, v, hwriteEnv, hpure⟩
      · obtain ⟨⟨⟩, -⟩ | ⟨-, -, node, rfl⟩ := exec_host.mp hwriteEnv
        refine ⟨rfl, rfl, rfl, fun p hp => ?_, by simp⟩
        rw [hset _ _ node p (not_within_of_ne henv hp), hset s _ _ p (not_within_of_ne hyml hp)]
      obtain ⟨rfl, rfl⟩ := Prog.exec_run_pure.mp hpure
      obtain ⟨-, rfl⟩ | ⟨-, ⟨⟩, -⟩ := exec_host.mp hwriteEnv
      refine ⟨rfl, rfl, rfl, fun p hp => ?_, fun envFile heq => ?_⟩
      · rw [hset _ _ _ p (not_within_of_ne henv hp), hset s _ _ p (not_within_of_ne hyml hp)]
      obtain rfl := Except.ok.inj heq
      refine ⟨?_, fun _ => ⟨trimSpaceStr_ne (c := '.') (by simp) (by decide), hself _ _ _⟩,
        by simp⟩
      rw [Host.content, hset _ _ _ _ hne.symm]
      exact hself s _ _

variable (may environ) in
/-- Calls of an action on an agent: none if something failed before, or those that are made when
the files of the payload are there. -/
def PayloadCalls (payload : StackActionRequest) (dockerHost : String) (cs : List ComposeCall)
    (r : Except StackError Unit) : Prop :=
  cs = [] ∧ r ≠ .ok () ∨
    ∃ u dir envFile,
      u.content (dir ++ "/docker-compose.yml") = some (GoText.ofString payload.composeYml) ∧
      (payload.useEnv = true → trimSpaceStr envFile ≠ "" ∧
        u.content envFile = some (sanitizeEnvContent payload.env).1) ∧
      (payload.useEnv = false → envFile = "" ∧ u.content (dir ++ "/.env") = none) ∧
      CallsOf may environ u (.temporary dir) payload.name payload.action dockerHost envFile cs r

variable {payload : StackActionRequest} {dockerHost : String} {r : Except StackError Unit}

/-- The calls of an action on an agent change files in its directory only. -/
theorem exec_payloadCalls {dir : String} (hnew : ∀ p, p ≠ dir → within dir p = true →
      s.temp p = none)
    (h : Prog.Exec (HostSem tempDir may) (do
      let envFile ← writePayload dir payload.composeYml payload.env payload.useEnv
      runComposeAction environ (.temporary dir) payload.name payload.action dockerHost
        envFile : HostM Unit).run s r t) :
    ∃ cs, t.calls = s.calls ++ cs ∧ t.disk = s.disk ∧ t.sent = s.sent ∧
      (∀ p, ¬ within dir p = true → t.temp p = s.temp p) ∧
      PayloadCalls may environ payload dockerHost cs r := by
  rcases Prog.exec_run_bind.mp h with ⟨e, rfl, hwrite⟩ | ⟨envFile, u, hwrite, hcompose⟩
  · obtain ⟨hdisk, hsent, hcalls, htemp, -⟩ := exec_writePayload hnew hwrite
    exact ⟨[], by simp [hcalls], hdisk, hsent, htemp, .inl ⟨rfl, by simp⟩⟩
  · obtain ⟨hdisk, hsent, hcalls, htemp, hfiles⟩ := exec_writePayload hnew hwrite
    obtain ⟨hyml, henv, hnone⟩ := hfiles envFile rfl
    obtain ⟨cs, rfl, hturn⟩ := exec_runComposeAction hcompose
    exact ⟨cs, by simp [calling, hcalls], hdisk, hsent, htemp,
      .inr ⟨u, dir, envFile, hyml, henv, hnone, .inr hturn⟩⟩

/-- What an action on an agent does: its calls, and what is left of the temporary directory. -/
theorem exec_runComposeFromPayload
    (h : Prog.Exec (HostSem tempDir may)
      (runComposeFromPayload environ payload dockerHost).run s r t) :
    ∃ cs, t.calls = s.calls ++ cs ∧ Tidy may s t ∧
      PayloadCalls may environ payload dockerHost cs r := by
  rcases Prog.exec_run_bind.mp h with ⟨e, rfl, hmkdir⟩ | ⟨dir, u, hmkdir, hrest⟩
  · obtain ⟨_, ⟨⟩, -⟩ | ⟨-, -, rfl⟩ := exec_host.mp hmkdir
    exact ⟨[], by simp, ⟨rfl, rfl, fun _ => .inl rfl⟩, .inl ⟨rfl, by simp⟩⟩
  obtain ⟨path, hpath, ⟨-, hfresh⟩, rfl⟩ | ⟨-, ⟨⟩, -⟩ := exec_host.mp hmkdir
  obtain rfl := Except.ok.inj hpath
  obtain ⟨v, hrun, hcleanup⟩ := Prog.exec_deferring.mp hrest
  obtain ⟨_, w, hremove, hdone⟩ := Prog.exec_bind.mp hcleanup
  obtain ⟨-, rfl⟩ := Prog.exec_done.mp hdone
  obtain ⟨cs, hcalls, hdisk, hsent, htemp, hwhat⟩ := exec_payloadCalls
    (fun p hp hwithin => (Function.update_of_ne hp ..).trans (hfresh p hwithin)) hrun
  have hout (p : String) (hp : ¬ within dir p = true) : v.temp p = s.temp p :=
    (htemp p hp).trans (Function.update_of_ne (not_within_of_ne (within_self dir) hp) ..)
  obtain ⟨-, rfl⟩ | ⟨hmay, -, temp, hrest', rfl⟩ := Prog.exec_call.mp hremove
  · refine ⟨cs, hcalls, ⟨hdisk, hsent, fun p => .inl ?_⟩, hwhat⟩
    dsimp only
    split
    · rename_i hwithin
      exact (hfresh p hwithin).symm
    · rename_i hp
      exact hout p hp
  · refine ⟨cs, hcalls, ⟨hdisk, hsent, fun p => ?_⟩, hwhat⟩
    by_cases hwithin : within dir p = true
    · exact .inr ⟨dir, hwithin, .inr (.inl hmay)⟩
    · exact .inl ((hrest' p hwithin).trans (hout p hwithin))

end

/-! ### What an action leaves -/

section

variable {tempDir : String} {may : HostOp → Prop} {environ : List GoText} {s t : Host}
  {serverName name action : String}

/-- `deleteStackDir` does not accept the names, or cannot open the directory of the stacks. -/
def Unopened (may : HostOp → Prop) (serverName name : String) (disk : StackDisk) : Prop :=
  validateStackSegment serverName "server" ≠ .ok () ∨ validateStackSegment name "stack" ≠ .ok () ∨
    disk.base = false ∨ may (.stack .openBase)

/-- What `deleteStackDir` leaves of the stored stacks: the directory is gone, or its removal was
refused on the way, or it could not be opened; the other directories are as they were. -/
def Removed (may : HostOp → Prop) (serverName name : String) (disk disk' : StackDisk) : Prop :=
  let root := stackPath serverName name
  (∃ dir, disk' = { disk with dirs := Function.update disk.dirs root dir } ∧
      (dir = none ∨ may (.removeAllStack root))) ∨
    disk' = disk ∧ Unopened may serverName name disk

/-- Nothing else has changed. -/
def OnlyRemoved (may : HostOp → Prop) (serverName name : String) (s t : Host) : Prop :=
  t = { s with disk := t.disk } ∧ Removed may serverName name s.disk t.disk

/-- The check of a name changes nothing, and passes unless the name is not accepted. -/
theorem exec_checkSegment {value label : String} {disk disk' : StackDisk}
    {sem : (o : FileOp) → StackDisk → o.Answer → StackDisk → Prop} {r : Except StackError Unit}
    (h : Prog.Exec sem (checkSegment value label).run disk r disk') :
    disk' = disk ∧ (r = .ok () ∨ validateStackSegment value label ≠ .ok ()) := by
  rw [checkSegment] at h
  rcases hvalid : validateStackSegment value label with text | _ <;> rw [hvalid] at h
  · exact ⟨(Prog.exec_run_throw.mp h).2, .inr (by simp)⟩
  · obtain ⟨rfl, rfl⟩ := Prog.exec_run_pure.mp h
    exact ⟨rfl, .inl rfl⟩

/-- The directory of the stacks is opened, or it is one of the refusals. -/
theorem exec_openBase {disk disk' : StackDisk} {r : Except StackError Unit}
    (h : Prog.Exec (FileSem fun o => may (.stack o)) (do
      checkSegment serverName "server"
      checkSegment name "stack"
      file .openBase : FileM Unit).run disk r disk') :
    r = .ok () ∨ Unopened may serverName name disk := by
  rcases Prog.exec_run_bind.mp h with ⟨e, rfl, hserver⟩ | ⟨_, _, hserver, hrest⟩
  · obtain ⟨-, hok | hinvalid⟩ := exec_checkSegment hserver
    · cases hok
    · exact .inr (.inl hinvalid)
  obtain ⟨rfl, -⟩ := exec_checkSegment hserver
  rcases Prog.exec_run_bind.mp hrest with ⟨e, rfl, hname⟩ | ⟨_, _, hname, hopen⟩
  · obtain ⟨-, hok | hinvalid⟩ := exec_checkSegment hname
    · cases hok
    · exact .inr (.inr (.inl hinvalid))
  obtain ⟨rfl, -⟩ := exec_checkSegment hname
  obtain ⟨token, modTime, hperform⟩ | ⟨hmay, -, -⟩ := Prog.exec_call.mp hopen
  · obtain ⟨rfl, rfl⟩ := Prod.mk.inj hperform
    cases hbase : StackDisk.base _ with
    | true => exact .inl rfl
    | false => exact .inr (.inr (.inr (.inl hbase)))
  · exact .inr (.inr (.inr (.inr hmay)))

/-- The removal of a stack changes nothing else. -/
theorem exec_deleteStackDir {r : Except StackError Unit}
    (h : Prog.Exec (HostSem tempDir may) (deleteStackDir serverName name).run s r t) :
    OnlyRemoved may serverName name s t := by
  have hinert : (do
      checkSegment serverName "server"
      checkSegment name "stack"
      file .openBase : FileM Unit).run.Ops FileOp.Inert :=
    ops_run_bind ops_checkSegment fun _ => ops_run_bind ops_checkSegment fun _ =>
      ops_file trivial
  rcases Prog.exec_run_bind.mp h with ⟨e, rfl, hopen⟩ | ⟨_, u, hopen, hremove⟩
  · obtain ⟨rfl, hexec⟩ := exec_onDisk_inert hinert hopen
    obtain hok | hunopened := exec_openBase hexec
    · cases hok
    · exact ⟨rfl, .inr ⟨rfl, hunopened⟩⟩
  obtain ⟨rfl, -⟩ := exec_onDisk_inert hinert hopen
  obtain ⟨-, rfl⟩ | ⟨hmay, -, dir, rfl⟩ := exec_host.mp hremove
  · exact ⟨rfl, .inl ⟨none, rfl, .inl rfl⟩⟩
  · exact ⟨rfl, .inl ⟨dir, rfl, .inr hmay⟩⟩

/-- The end never fails, and changes nothing but for the removal. -/
theorem exec_removeAfter {r : Except StackError Unit}
    (h : Prog.Exec (HostSem tempDir may) (removeAfter serverName name action).run s r t) :
    r = .ok () ∧ (action ≠ "rm" ∧ t = s ∨ action = "rm" ∧ OnlyRemoved may serverName name s t) := by
  rw [removeAfter] at h
  split at h
  · rename_i hrm
    rcases Prog.exec_run_tryCatch.mp h with ⟨_, rfl, hok⟩ | ⟨e, u, herror, hcaught⟩
    · exact ⟨rfl, .inr ⟨hrm, exec_deleteStackDir hok⟩⟩
    · obtain ⟨rfl, rfl⟩ := Prog.exec_run_pure.mp hcaught
      exact ⟨rfl, .inr ⟨hrm, exec_deleteStackDir herror⟩⟩
  · rename_i hrm
    obtain ⟨rfl, rfl⟩ := Prog.exec_run_pure.mp h
    exact ⟨rfl, .inl ⟨hrm, rfl⟩⟩

variable {fold : Char → Char} {cfg : Config} {payload : ParsedStackActionRequest}
  {r : Except StackError Unit}

/-- What is posted to the agent: the action, or for a job first the job, and the action too if the
agent has no jobs. -/
def Posted (job : Bool) (remote : RemoteServer) (request : StackActionRequest)
    (posts : List AgentPost) : Prop :=
  if job then
    posts = [⟨remote, .jobs, request⟩] ∨
      posts = [⟨remote, .jobs, request⟩, ⟨remote, .action, request⟩]
  else posts = [⟨remote, .action, request⟩]

/-- The same request is posted, once or twice. -/
theorem Posted.request {job : Bool} {remote : RemoteServer} {request : StackActionRequest}
    {posts : List AgentPost} {post : AgentPost} (h : Posted job remote request posts)
    (hpost : post ∈ posts) : post.remote = remote ∧ post.request = request := by
  cases job with
  | true =>
      obtain rfl | rfl := h
      · obtain rfl := List.mem_singleton.mp hpost
        exact ⟨rfl, rfl⟩
      · rcases List.mem_cons.mp hpost with rfl | hpost
        · exact ⟨rfl, rfl⟩
        · obtain rfl := List.mem_singleton.mp hpost
          exact ⟨rfl, rfl⟩
  | false =>
      obtain rfl : posts = _ := h
      obtain rfl := List.mem_singleton.mp hpost
      exact ⟨rfl, rfl⟩

/-- The exchange with an agent changes nothing but what is posted. -/
theorem exec_exchange {job : Bool} {remote : RemoteServer} {request : StackActionRequest}
    (h : Prog.Exec (HostSem tempDir may)
      (if job then runRemoteStackJob remote request else host (.postAction remote request)).run
      s r t) :
    ∃ posts, t = { s with sent := s.sent ++ posts } ∧ Posted job remote request posts := by
  cases job with
  | false => exact ⟨_, exec_host.mp h, rfl⟩
  | true =>
      rw [if_pos rfl, runRemoteStackJob] at h
      rcases Prog.exec_run_bind.mp h with ⟨e, rfl, hstart⟩ | ⟨id, u, hstart, hrest⟩
      · exact ⟨_, exec_host.mp hstart, .inl rfl⟩
      obtain rfl := exec_host.mp hstart
      rcases id with _ | id
      · refine ⟨_, ?_, .inr rfl⟩
        rw [exec_host.mp hrest, Host.post, Host.post, List.append_assoc]
        rfl
      · exact ⟨_, exec_host.mp hrest, .inl rfl⟩

/-- An action on a remote server: at most one request, and then the end. -/
theorem exec_executeStackAction_remote {job : Bool}
    (hserver : payload.server = some (.remote, serverName))
    (h : Prog.Exec (HostSem tempDir may)
      (executeStackAction environ fold false cfg payload job).run s r t) :
    (r ≠ .ok () ∧ t = s) ∨
      ∃ remote request posts u, Prog.Exec (HostSem tempDir may)
          (buildRemoteStackActionRequest fold cfg serverName payload.request).run s
          (.ok (remote, request)) s ∧
        u = { s with sent := s.sent ++ posts } ∧ Posted job remote request posts ∧
        (r ≠ .ok () ∧ t = u ∨ r = .ok () ∧
          (payload.request.action ≠ "rm" ∧ t = u ∨ payload.request.action = "rm" ∧
            OnlyRemoved may serverName payload.request.name u t)) := by
  have hbuild {r : Except StackError (RemoteServer × StackActionRequest)} {u : Host}
      (h : Prog.Exec (HostSem tempDir may)
        (buildRemoteStackActionRequest fold cfg serverName payload.request).run s r u) : u = s := by
    rw [buildRemoteStackActionRequest] at h
    split at h
    · exact (Prog.exec_run_throw.mp h).2
    split at h
    · exact (Prog.exec_run_throw.mp h).2
    rcases Prog.exec_run_bind.mp h with ⟨e, rfl, hload⟩ | ⟨detail, v, hload, hpure⟩
    · exact (exec_onDisk_inert (inert_loadStackDetail _ _) hload).1
    · obtain ⟨-, rfl⟩ := Prog.exec_run_pure.mp hpure
      exact (exec_onDisk_inert (inert_loadStackDetail _ _) hload).1
  simp only [executeStackAction, hserver] at h
  rcases Prog.exec_run_bind.mp h with ⟨e, rfl, hfails⟩ | ⟨⟨remote, request⟩, u, hsend, hrest⟩
  · exact .inl ⟨by simp, hbuild hfails⟩
  obtain rfl := hbuild hsend
  rcases Prog.exec_run_bind.mp hrest with ⟨e, rfl, hagent⟩ | ⟨_, v, hagent, hend⟩
  · obtain ⟨posts, rfl, hposts⟩ := exec_exchange hagent
    exact .inr ⟨remote, request, posts, _, hsend, rfl, hposts, .inl ⟨by simp, rfl⟩⟩
  · obtain ⟨posts, rfl, hposts⟩ := exec_exchange hagent
    exact .inr ⟨remote, request, posts, _, hsend, rfl, hposts, .inr (exec_removeAfter hend)⟩

/-- An action on the own host: the calls, and then the end. -/
theorem exec_executeStackAction_local {job : Bool}
    (hserver : ∀ name, payload.server ≠ some (.remote, name))
    (h : Prog.Exec (HostSem tempDir may)
      (executeStackAction environ fold false cfg payload job).run s r t) :
    ∃ u, (Prog.Exec (HostSem tempDir may) (runLocalStackAction environ fold cfg
        ((payload.server.map Prod.snd).getD "") payload.request.name payload.request.action).run
        s r u) ∧
      ((r ≠ .ok () ∨ payload.request.action ≠ "rm") ∧ t = u ∨
        r = .ok () ∧ payload.request.action = "rm" ∧
          OnlyRemoved may ((payload.server.map Prod.snd).getD "") payload.request.name u t) := by
  have hlocal : executeStackAction environ fold false cfg payload job = (do
      runLocalStackAction environ fold cfg ((payload.server.map Prod.snd).getD "")
        payload.request.name payload.request.action
      removeAfter ((payload.server.map Prod.snd).getD "") payload.request.name
        payload.request.action) := by
    rcases hs : payload.server with _ | ⟨_ | _, name⟩
    · simp only [executeStackAction, hs]
    · simp only [executeStackAction, hs]
    · exact absurd hs (hserver name)
  rw [hlocal] at h
  rcases Prog.exec_run_bind.mp h with ⟨e, rfl, hrun⟩ | ⟨_, u, hrun, hend⟩
  · exact ⟨t, hrun, .inl ⟨.inl nofun, rfl⟩⟩
  · obtain ⟨rfl, ⟨hother, hsame⟩ | ⟨hrm, hdir⟩⟩ := exec_removeAfter hend
    · exact ⟨u, hrun, .inl ⟨.inr hother, hsame⟩⟩
    · exact ⟨u, hrun, .inr ⟨rfl, hrm, hdir⟩⟩

end

/-! ### An action on a host -/

/-- What is read under the name. -/
def shown (s : Host) : WorkDir → String → Option GoText
  | .temporary path, name => s.content (path ++ "/" ++ name)
  | .stored root, name =>
      match s.disk.stored root name with
      | some (.regular data) => some (storedText data)
      | _ => none

/-- What is shown may be read. -/
theorem shows_shown (s : Host) (dir : WorkDir) (name : String) :
    s.Shows dir name (shown s dir name) := by
  cases dir with
  | temporary path => rfl
  | stored root =>
      rw [Host.Shows, shown]
      rcases s.disk.stored root name with _ | ⟨data⟩ | _ <;> trivial

/-- Only a temporary name may be refused. -/
def refusesTemp : HostOp → Prop
  | .mkdirTemp _ | .createTemp _ => True
  | _ => False

/-- A host that refuses every temporary name, and on which everything else succeeds. -/
def answer : (o : HostOp) → Host → o.Answer × Host
  | .stack o, s => ((o.perform "0" "" s.disk).1, { s with disk := (o.perform "0" "" s.disk).2 })
  | .statStack root name, s =>
      (if (s.disk.stored root name).isSome then .ok () else .error .notExist, s)
  | .removeAllStack root, s => (.ok (), s.setDir root none)
  | .mkdirTemp _, s => (.error .failed, s)
  | .createTemp _, s => (.error .failed, s)
  | .writeString path content, s => (.ok (), s.setTemp path (some (.file content)))
  | .writeFile path content, s => (.ok (), s.setTemp path (some (.file content)))
  | .readFile path, s => ((s.content path).elim (.error .notExist) .ok, s)
  | .remove path, s => (.ok (), s.setTemp path none)
  | .removeAll path, s =>
      (.ok (), { s with temp := fun p => if within path p = true then none else s.temp p })
  | .compose args dir env, s =>
      (.ok ⟨none, none⟩, { s with calls := s.calls ++
        [⟨args, env, shown s dir "docker-compose.yml",
          (envFileArg args).elim (shown s dir ".env") s.content, ⟨none, none⟩⟩] })
  | .startJob remote request, s => (.ok none, s.post remote .jobs request)
  | .pollJob _ _, s => (.ok (), s)
  | .postAction remote request, s => (.ok (), s.post remote .action request)

/-- The answers are those of a host that may refuse temporary names. -/
theorem sem_answer (o : HostOp) (s : Host) :
    HostSem "/tmp" refusesTemp o s (answer o s).1 (answer o s).2 := by
  cases o with
  | stack o => exact ⟨_, .inl ⟨"0", "", rfl⟩, rfl⟩
  | statStack root name => exact ⟨rfl, .inl rfl⟩
  | mkdirTemp pattern => exact .inr ⟨trivial, rfl, rfl⟩
  | createTemp pattern => exact .inr ⟨trivial, rfl, rfl⟩
  | readFile path => exact ⟨rfl, .inl rfl⟩
  | compose args dir env =>
      refine ⟨_, _, _, rfl, shows_shown .., ?_, rfl⟩
      rw [Host.ShowsEnv]
      rcases envFileArg args with _ | path
      · exact shows_shown ..
      · rfl
  | startJob remote request | pollJob remote id | postAction remote request => rfl
  | _ => exact .inl ⟨rfl, rfl⟩

/-- A run on such a host. -/
theorem exec_answer {α : Type} (p : HostM α) (s : Host) :
    Prog.Exec (HostSem "/tmp" refusesTemp) p.run s (p.run.eval answer s).1
      (p.run.eval answer s).2 :=
  Prog.exec_eval sem_answer _ _

/-- The stack `web` of the own host and of the server `nas`. -/
def webHost : Host where
  disk :=
    { base := true
      dirs := fun root =>
        let compose := (StackDir.empty.create "docker-compose.yml").2.write 0 "image: a".toUTF8
        if root = "local/web" ∨ root = "nas/web" then
          some ((compose.create ".env").2.write 1 "TAG=a".toUTF8)
        else none }
  temp := fun _ => none
  calls := []
  sent := []

def webServers : Config where
  globalPolicy := ""
  updateStoppedContainers := false
  pruneDanglingImages := false
  localServers := [⟨"local", "/var/run/docker.sock", false⟩]
  remoteServers := [⟨"nas", "http://nas", "", false⟩]

/-- A request for an action with the stack. -/
def webAction (scope action : String) : StackActionRequest := ⟨scope, "web", action, "", [], false⟩

/-- A new path is taken, and what follows goes on from there. -/
theorem exec_createTemp {content : GoText} {s : Host} {path : String}
    (hnew : s.NewPath "/tmp" "contiwatch-env-" path) :
    Prog.Exec (HostSem "/tmp" refusesTemp) (writeTempEnvFile content).run s (.ok path)
      ((s.setTemp path (some (.file []))).setTemp path (some (.file content))) :=
  Prog.exec_run_bind.mpr <| .inr ⟨path, _, exec_host.mpr (.inl ⟨path, rfl, hnew, rfl⟩),
    exec_answer (do
      host (.writeString path content)
      pure path) _⟩

/-- The environment file of the stack on the own host. -/
def webEnvHost : Host :=
  (webHost.setTemp "/tmp/contiwatch-env-1" (some (.file []))).setTemp "/tmp/contiwatch-env-1"
    (some (.file (sanitizeEnvContent (storedText "TAG=a".toUTF8)).1))

/-- A run on the own host: the environment file has a name, and the rest succeeds. -/
theorem exec_web_local {action : String} {job : Bool} {t : Host}
    (hrest : Prog.Exec (HostSem "/tmp" refusesTemp) (do
      Prog.deferring
        (runComposeFromStorage [] id webServers "local" "web" action "/tmp/contiwatch-env-1") do
          let _ ← Prog.call (.remove "/tmp/contiwatch-env-1")
      removeAfter "local" "web" action : HostM Unit).run webEnvHost (.ok ()) t) :
    Prog.Exec (HostSem "/tmp" refusesTemp) (executeStackAction [] id false webServers
      ⟨webAction "local:local" action, some (.onHost, "local")⟩ job).run webHost (.ok ()) t := by
  have hread : Prog.Exec (HostSem "/tmp" refusesTemp)
      (onDisk (readStoredEnv "local" "web")).run webHost (.ok (some "TAG=a".toUTF8)) webHost :=
    exec_answer _ _
  have hnew : webHost.NewPath "/tmp" "contiwatch-env-" "/tmp/contiwatch-env-1" :=
    ⟨⟨"1", rfl⟩, fun _ _ => rfl⟩
  have hprepare : Prog.Exec (HostSem "/tmp" refusesTemp)
      (prepareEnvFileFromDisk "local" "web").run webHost (.ok "/tmp/contiwatch-env-1")
      webEnvHost :=
    Prog.exec_run_bind.mpr <| .inr ⟨_, _, hread, exec_createTemp hnew⟩
  rcases Prog.exec_run_bind.mp hrest with ⟨e, ⟨⟩, -⟩ | ⟨_, u, hcalls, hend⟩
  exact Prog.exec_run_bind.mpr <| .inr
    ⟨(), u, Prog.exec_run_bind.mpr <| .inr ⟨_, _, hprepare, hcalls⟩, hend⟩

end OnHost

end Contiwatch
