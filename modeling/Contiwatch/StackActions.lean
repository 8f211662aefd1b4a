import Contiwatch.EnvContent
import Contiwatch.ScanHandlers
import Contiwatch.StackJobs
import Contiwatch.Stacks

/-!
# Stack Actions

How a stack action request is read, where it leads, and how long it may take, in
`internal/server/stacks.go` and `internal/server/stack_jobs.go`. Two endpoints take the same
request: `POST /api/stacks/jobs` gives it to the job manager, `POST /api/stacks/action` runs it at
once. The texts of the log are left out.

## Main results

* `decodeStackActionRequest` — what is accepted.
* `composeSteps_of_valid` — Docker Compose can be called for every step of an accepted action.
-/

namespace Contiwatch

open GoStrings GoTime

/-! ### How long an action may take -/

/-- `stackActionTimeout`. -/
def stackActionTimeout : ℕ := 3 * minute

/-- `stackImageActionTimeout`. -/
def stackImageActionTimeout : ℕ := 10 * minute

/-- `remoteStackActionGraceDuration`. -/
def remoteStackActionGraceDuration : ℕ := 30 * second

/-- `composeActionTimeout`. -/
def composeActionTimeout (action : String) : ℕ :=
  if action = "up" ∨ action = "pull" then stackImageActionTimeout else stackActionTimeout

/-- `stackActionBudget`. -/
def stackActionBudget (action : String) : ℕ :=
  if action = "redeploy" then composeActionTimeout "pull" + composeActionTimeout "up"
  else composeActionTimeout action

/-- `remoteStackActionTimeout`. -/
def remoteStackActionTimeout (action : String) : ℕ :=
  stackActionBudget action + remoteStackActionGraceDuration

/-! ### Docker Compose -/

/-- `buildComposeArgs`. -/
def buildComposeArgs (projectName action envFile : String) : Except String (List String) :=
  let envArgs := if trimSpaceStr envFile ≠ "" then ["--env-file", envFile] else []
  let args := ["compose"] ++ envArgs ++ ["--project-name", projectName]
  match action with
  | "up" => .ok (args ++ ["up", "-d"])
  | "down" => .ok (args ++ ["down"])
  | "pull" => .ok (args ++ ["pull"])
  | "restart" => .ok (args ++ ["restart"])
  | "start" => .ok (args ++ ["start"])
  | "stop" => .ok (args ++ ["stop"])
  | "kill" => .ok (args ++ ["kill"])
  | "rm" => .ok (args ++ ["rm", "-f", "-s"])
  | _ => .error "unknown action"

/-- `isValidStackAction`. -/
def isValidStackAction (action : String) : Bool :=
  if action = "redeploy" then true else (buildComposeArgs "stack" action "").isOk

/-- The calls of Docker Compose that `runComposeAction` makes, one after the other until one
fails. -/
def composeSteps (action : String) : List String :=
  if action = "redeploy" then ["pull", "up"] else [action]

/-- Docker Compose can be called for every step of an accepted action. -/
theorem composeSteps_of_valid {action : String} (h : isValidStackAction action = true)
    (projectName envFile : String) :
    ∀ step ∈ composeSteps action, (buildComposeArgs projectName step envFile).isOk = true := by
  rw [isValidStackAction] at h
  split at h
  · subst_vars
    intro step hstep
    simp [composeSteps] at hstep
    rcases hstep with rfl | rfl <;> rfl
  · rename_i hredeploy
    rw [composeSteps, if_neg hredeploy, List.forall_mem_singleton]
    simp only [buildComposeArgs] at h ⊢
    split at h
    all_goals first | rfl | cases h

/-! ### Requests -/

/-- `stackActionRequest`. -/
structure StackActionRequest where
  scope : String
  name : String
  action : String
  composeYml : String
  env : GoText
  useEnv : Bool
  deriving DecidableEq

/-- The values of the first part of a scope that are accepted. -/
inductive ServerType
  | onHost
  | remote
  deriving DecidableEq, Repr

/-- `parsedStackActionRequest`; an agent sets no server. -/
structure ParsedStackActionRequest where
  request : StackActionRequest
  server : Option (ServerType × String)
  deriving DecidableEq

/-- `parseScope`. -/
def parseScope (scope : String) : Except String (ServerType × String) :=
  match cut ':' scope with
  | none => .error "invalid scope"
  | some (first, second) =>
      let serverType := trimSpaceStr first
      let name := trimSpaceStr second
      if name = "" then .error "scope name required"
      else if serverType = "local" then .ok (.onHost, name)
      else if serverType = "remote" then .ok (.remote, name)
      else .error "scope must be local or remote"

section

variable (lower : Char → Char) (agentMode : Bool)

/-- `decodeStackActionRequest`, after the body was decoded. -/
def decodeStackActionRequest (body : StackActionRequest) :
    Except String ParsedStackActionRequest :=
  let payload := { body with
    action := trimSpaceStr (String.ofList (body.action.toList.map lower))
    name := trimSpaceStr body.name
    scope := trimSpaceStr body.scope }
  if payload.name = "" ∨ payload.action = "" then .error "name and action are required"
  else if ¬ isValidStackAction payload.action then
    .error ("unknown stack action: " ++ payload.action)
  else do
    validateStackSegment payload.name "stack"
    if agentMode then
      if trimSpaceStr payload.composeYml = "" then .error "compose_yaml is required"
      else
        .ok
          { request := { payload with env := (sanitizeEnvContent payload.env).1 }, server := none }
    else if payload.scope = "" then .error "scope is required"
    else do
      let server ← parseScope payload.scope
      validateStackSegment server.2 "server"
      .ok { request := payload, server := some server }

/-- `stackActionTimeout` of the server. -/
def requestTimeout (payload : ParsedStackActionRequest) : ℕ :=
  if ¬ agentMode ∧ payload.server.map Prod.fst = some .remote then
    remoteStackActionTimeout payload.request.action
  else stackActionBudget payload.request.action

/-- The specification of the job that `handleStackJobStart` starts. -/
def jobSpec (payload : ParsedStackActionRequest) : StackJobSpec where
  key := payload.request.scope ++ "/" ++ payload.request.name
  name := payload.request.name
  action := payload.request.action
  scope := payload.request.scope
  timeout := requestTimeout agentMode payload

end

end Contiwatch
