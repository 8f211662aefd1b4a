import Contiwatch.EnvDiagnostics
import Contiwatch.StackActions
import Contiwatch.StackFiles
import Contiwatch.Lib.JsonText
import Contiwatch.Lib.Unicode

/-!
# The Size of a Stack on Its Way

A stack for a remote server is saved at the controller and sent to the agent with every action:
`handleStackSave` and `buildRemoteStackActionRequest` of `internal/server/stacks.go`. Both requests
have the same limit of `internal/server/security.go`. The first one is written by a browser, the
second one by `json.Marshal`, which writes `<`, `>`, `&` and two line separators as six bytes each.

## Main results

* `remote_action_fits_iff` — a stack that was saved can be sent exactly if its texts fit as
  `json.Marshal` writes them.
* `saved_stack_not_sent` — a comment of many `<`, which can be saved, but not sent.
-/

namespace Contiwatch

open GoJson GoStrings JsonText

/-! ### Limits -/

def defaultRequestBodyLimit : ℕ := 128 * 1024
def configRequestBodyLimit : ℕ := 512 * 1024
def stackRequestBodyLimit : ℕ := 4 * 1024 * 1024
def pinRequestBodyLimit : ℕ := 1024

/-- `requestBodyLimit`. -/
def requestBodyLimit (path : String) : ℕ :=
  if path = "/api/pin/verify" then pinRequestBodyLimit
  else if path ∈ ["/api/config", "/api/servers", "/api/locals"] then configRequestBodyLimit
  else if hasPrefix path "/api/stacks" then stackRequestBodyLimit
  else defaultRequestBodyLimit

/-- The bytes of a text. -/
def bodySize (text : List Char) : ℕ := (Unicode.encode text).length

/-- `applyRequestBodyLimit` lets a request with this body pass, whose length is known. -/
def applyRequestBodyLimit (method path : String) (body : List Char) : Bool :=
  if method ∈ ["POST", "PUT", "PATCH", "DELETE"] then bodySize body ≤ requestBodyLimit path
  else true

/-! ### To save a stack -/

/-- `stackSaveRequest`. -/
structure StackSaveRequest where
  scope : String
  name : String
  composeYml : String
  env : String
  useEnv : Bool
  deriving DecidableEq

def stackSaveCodec (fold : Char → Char) : Codec StackSaveRequest :=
  structCodec fold ⟨"", "", "", "", false⟩
    [field "scope" stringCodec (·.scope) fun v t => { t with scope := v },
      field "name" stringCodec (·.name) fun v t => { t with name := v },
      field "compose_yaml" stringCodec (·.composeYml) fun v t => { t with composeYml := v },
      field "env" stringCodec (·.env) fun v t => { t with env := v },
      field "use_env" boolCodec (·.useEnv) fun v t => { t with useEnv := v }]
    (by simp) (by simp)

/-- What `saveStackFromModal` sends. -/
def saveBody (request : StackSaveRequest) : List Char :=
  stringify ("scope", .str request.scope)
    [("name", .str request.name), ("compose_yaml", .str request.composeYml),
      ("env", .str request.env), ("use_env", .bool request.useEnv)]

/-- The body of a request, decoded. -/
def decodeSave (fold : Char → Char) (body : List Char) : Option StackSaveRequest :=
  (JsonText.parse (String.ofList body)).bind fun doc =>
    (stackSaveCodec fold).decode doc ⟨"", "", "", "", false⟩

/-- `handleStackSave`, after the body was decoded and up to `saveStackFiles`: for which server
what is saved. -/
def handleStackSave (agentMode : Bool) (request : StackSaveRequest) :
    Except String ((ServerType × String) × StackSaveRequest) :=
  if agentMode then .error "stacks are disabled in agent mode"
  else
    let payload := { request with
      scope := trimSpaceStr request.scope
      name := trimSpaceStr request.name }
    if payload.scope = "" ∨ payload.name = "" then .error "scope and name are required"
    else if trimSpaceStr payload.composeYml = "" then .error "compose_yaml is required"
    else if payload.useEnv ∧ ¬ validateEnvContent (GoText.ofString payload.env) then
      .error "invalid .env entries"
    else do
      let server ← parseScope payload.scope
      validateStackSegment server.2 "server"
      validateStackSegment payload.name "stack"
      pure (server, payload)

/-! ### To send a stack -/

/-- `buildRemoteStackActionRequest`, with what `loadStackDetail` has read. The files are texts:
nothing else is ever saved. -/
def buildRemoteStackActionRequest (fold : Char → Char) (remotes : List RemoteServer)
    (serverName : String) (payload : StackActionRequest) (composeYml env : String)
    (hasEnv : Bool) : Except String (RemoteServer × StackActionRequest) :=
  match findRemoteServer fold remotes serverName with
  | none => .error "remote server not found"
  | some remote =>
      if remote.url = "" then .error "remote url missing"
      else .ok (remote,
        { scope := ""
          name := payload.name
          action := payload.action
          composeYml := composeYml
          env := GoText.ofString env
          useEnv := hasEnv })

/-- A string of any bytes, as `json.Marshal` writes it. -/
def marshalText (text : GoText) : List Char :=
  let rune
    | Rune.char c => escapeChar c
    | Rune.byte _ => ['\\', 'u', 'f', 'f', 'f', 'd']
  '"' :: text.flatMap rune ++ ['"']

/-- An object, as `json.Marshal` writes it. -/
def marshalObject (members : List (String × List Char)) : List Char :=
  '{' :: [','].intercalate (members.map fun m => renderString m.1 ++ ':' :: m.2) ++ ['}']

/-- The body that `doRemoteStackRequest` sends. -/
def actionBody (request : StackActionRequest) : List Char :=
  marshalObject [("scope", renderString request.scope), ("name", renderString request.name),
    ("action", renderString request.action), ("compose_yaml", renderString request.composeYml),
    ("env", marshalText request.env),
    ("use_env", if request.useEnv then ['t', 'r', 'u', 'e'] else ['f', 'a', 'l', 's', 'e'])]

/-! ### Sizes -/

/-- Sizes of bodies add up. -/
@[simp] theorem bodySize_append (a b : List Char) :
    bodySize (a ++ b) = bodySize a + bodySize b := by
  simp [bodySize, Unicode.encode_append]

/-- A character adds its bytes. -/
theorem bodySize_cons (c : Char) (text : List Char) :
    bodySize (c :: text) = c.utf8Size + bodySize text := by
  simp [bodySize, Unicode.encode_cons, String.length_utf8EncodeChar]

/-- The bytes of a character as `json.Marshal` writes it. -/
def literalBytes (c : Char) : ℕ :=
  if c ∈ ['"', '\\', '\x08', '\x0c', '\n', '\r', '\t'] then 2
  else if isUnit c then 6
  else c.utf8Size

/-- The bytes of a text as `json.Marshal` writes it, without the quotes. -/
def literalSize (text : String) : ℕ := (text.toList.map literalBytes).sum

/-- A hexadecimal digit takes one byte. -/
theorem utf8Size_hexDigit : ∀ n < 16, (hexDigit n).utf8Size = 1 := by
  decide

/-- `literalBytes` is what an escaped character takes. -/
theorem bodySize_escapeChar (c : Char) : bodySize (escapeChar c) = literalBytes c := by
  rw [escapeChar, literalBytes]
  by_cases hletter : c ∈ ['"', '\\', '\x08', '\x0c', '\n', '\r', '\t']
  · rw [if_pos hletter]
    simp only [List.mem_cons, List.not_mem_nil, or_false] at hletter
    rcases hletter with rfl | rfl | rfl | rfl | rfl | rfl | rfl <;> rfl
  rw [if_neg hletter]
  simp only [List.mem_cons, List.not_mem_nil, or_false, not_or] at hletter
  obtain ⟨hquote, hslash, hb, hf, hn, hr, ht⟩ := hletter
  simp only [hquote, hslash, hb, hf, hn, hr, ht, if_false]
  split
  · rename_i hunit
    have hsmall := escapes_isUnit.small c hunit
    have hdigit (n : ℕ) (hn : n < 16) := utf8Size_hexDigit n hn
    simp only [bodySize_cons, hdigit _ (show c.toNat / 4096 < 16 by omega),
      hdigit _ (Nat.mod_lt _ (by decide : 16 > 0))]
    rfl
  · simp [bodySize, Unicode.encode]

/-- A string's literal is its characters and two quotes. -/
theorem bodySize_renderString (text : String) :
    bodySize (renderString text) = literalSize text + 2 := by
  have hchars (cs : List Char) : bodySize (cs.flatMap escapeChar) = (cs.map literalBytes).sum := by
    induction cs with
    | nil => rfl
    | cons c cs ih =>
        rw [List.flatMap_cons, bodySize_append, bodySize_escapeChar, ih, List.map_cons,
          List.sum_cons]
  rw [renderString, List.cons_append, bodySize_cons, bodySize_append, hchars, literalSize]
  exact Nat.add_comm ..

/-- What the request to the agent takes: its four texts, the `.env` and the keys around them. -/
theorem bodySize_actionBody (request : StackActionRequest) (env : String)
    (henv : request.env = GoText.ofString env) :
    bodySize (actionBody request) = literalSize request.scope + literalSize request.name +
      literalSize request.action + literalSize request.composeYml + literalSize env +
      (if request.useEnv then 76 else 77) := by
  have htext : marshalText request.env = renderString env := by
    rw [marshalText, renderString, henv, GoText.ofString, List.flatMap_map]
  have hkeys : literalSize "scope" = 5 ∧ literalSize "name" = 4 ∧ literalSize "action" = 6 ∧
      literalSize "compose_yaml" = 12 ∧ literalSize "env" = 3 ∧ literalSize "use_env" = 7 := by
    decide
  have hvalue : bodySize (if request.useEnv then ['t', 'r', 'u', 'e'] else
      ['f', 'a', 'l', 's', 'e']) = if request.useEnv then 4 else 5 := by
    split <;> rfl
  have hmarks : bodySize [','] = 1 ∧ bodySize ['}'] = 1 ∧ '{'.utf8Size = 1 ∧ ':'.utf8Size = 1 := by
    decide
  simp only [actionBody, marshalObject, List.map_cons, List.map_nil, List.intercalate,
    List.intersperse, List.flatten_cons, List.flatten_nil, List.append_nil, bodySize_append,
    bodySize_cons, bodySize_renderString, htext, hvalue, hkeys, hmarks]
  split <;> omega

/-! ### What is saved can or cannot be sent -/

/-- Texts with the same bytes are the same. -/
theorem toUTF8_inj {s t : String} (h : s.toUTF8 = t.toUTF8) : s = t := by
  have hback := Unicode.fromUTF8_toUTF8 s
  rw [h, Unicode.fromUTF8_toUTF8] at hback
  exact (Option.some.inj hback).symm

/-- The texts are saved as they came. -/
theorem handleStackSave_eq_ok {agentMode : Bool} {request saved : StackSaveRequest}
    {server : ServerType × String} (h : handleStackSave agentMode request = .ok (server, saved)) :
    saved.composeYml = request.composeYml ∧ saved.env = request.env ∧
      saved.useEnv = request.useEnv := by
  rw [handleStackSave] at h
  split at h
  · cases h
  dsimp only at h
  split at h
  · cases h
  split at h
  · cases h
  split at h
  · cases h
  simp only [bind, Except.bind, pure, Except.pure] at h
  split at h
  · cases h
  split at h
  · cases h
  split at h
  · cases h
  obtain rfl := (Prod.mk.inj (Except.ok.inj h)).2
  exact ⟨rfl, rfl, rfl⟩

/-- Where the controller builds a request at all, it is one with the saved files. -/
theorem buildRemoteStackActionRequest_eq_ok {fold : Char → Char} {remotes : List RemoteServer}
    {serverName composeYml env : String} {payload action : StackActionRequest} {hasEnv : Bool}
    {remote : RemoteServer}
    (h : buildRemoteStackActionRequest fold remotes serverName payload composeYml env hasEnv =
      .ok (remote, action)) :
    action = ⟨"", payload.name, payload.action, composeYml, GoText.ofString env, hasEnv⟩ := by
  rw [buildRemoteStackActionRequest] at h
  split at h
  · cases h
  split at h
  · cases h
  · exact (Prod.mk.inj (Except.ok.inj h)).2.symm

/-- A path of an agent to which a stack action is sent is within the limit for stacks. -/
theorem requestBodyLimit_action {path : String}
    (hpath : path ∈ ["/api/stacks/jobs", "/api/stacks/action"]) :
    requestBodyLimit path = stackRequestBodyLimit := by
  simp only [List.mem_cons, List.not_mem_nil, or_false] at hpath
  rcases hpath with rfl | rfl <;> decide

/-- **A saved stack can be sent exactly if its texts fit as `json.Marshal` writes them.** -/
theorem remote_action_fits_iff {fold : Char → Char} {may may' : FileOp → Prop}
    {request saved : StackSaveRequest} {serverName composeYml env path : String}
    {disk disk' disk'' : StackDisk} {detail : StackDetail} {remotes : List RemoteServer}
    {remote : RemoteServer} {payload action : StackActionRequest}
    (haccept : handleStackSave false request = .ok ((.remote, serverName), saved))
    (hsave : Prog.Exec (FileSem may) (saveStackFiles serverName saved.name saved.composeYml.toUTF8
      saved.env.toUTF8 saved.useEnv).run disk (.ok ()) disk')
    (hname : payload.name = saved.name)
    (hload : Prog.Exec (FileSem may') (loadStackDetail serverName payload.name).run disk'
      (.ok detail) disk'')
    (hcompose : detail.composeYml = composeYml.toUTF8) (henv : detail.env = env.toUTF8)
    (hbuild : buildRemoteStackActionRequest fold remotes serverName payload composeYml env
      detail.hasEnv = .ok (remote, action))
    (hpath : path ∈ ["/api/stacks/jobs", "/api/stacks/action"]) :
    applyRequestBodyLimit "POST" path (actionBody action) = true ↔
      literalSize payload.name + literalSize payload.action + literalSize request.composeYml +
        (if request.useEnv then literalSize request.env + 76 else 77) ≤
          stackRequestBodyLimit := by
  have hgives := (exec_saveStackFiles hsave).gives rfl
  rw [hname] at hload
  obtain ⟨updatedAt, hdetail⟩ | ⟨⟨⟩, -⟩ := hgives.2 _ _ _ hload
  obtain rfl := Except.ok.inj hdetail
  obtain ⟨hcomposeSaved, henvSaved, huseSaved⟩ := handleStackSave_eq_ok haccept
  obtain rfl := toUTF8_inj hcompose
  have hsizes : literalSize env + (if (if saved.useEnv then some saved.env.toUTF8 else none).isSome
      then 76 else 77) = if request.useEnv then literalSize request.env + 76 else 77 := by
    rw [← huseSaved, ← henvSaved]
    cases huse : saved.useEnv with
    | false =>
        rw [huse] at henv
        obtain rfl : "" = env := toUTF8_inj henv
        rfl
    | true =>
        rw [huse] at henv
        obtain rfl := toUTF8_inj henv
        rfl
  obtain rfl := buildRemoteStackActionRequest_eq_ok hbuild
  have hempty : literalSize "" = 0 := rfl
  rw [applyRequestBodyLimit, if_pos (by decide), decide_eq_true_eq, requestBodyLimit_action hpath,
    bodySize_actionBody _ env rfl, ← hcomposeSaved]
  dsimp only
  omega

/-! ### A Compose file with a comment -/

/-- A Compose file with a comment of `n` characters `<`. -/
def commentStart : List Char := "services:\n  web:\n    image: a\n#".toList

def markedCompose (n : ℕ) : String := String.ofList (commentStart ++ List.replicate n '<')

/-- The request of a browser to save it. -/
def markedRequest (n : ℕ) : StackSaveRequest :=
  ⟨"remote:nas", "web", markedCompose n, "", false⟩

def nas : RemoteServer := ⟨"nas", "http://nas:8080", "", false⟩

def noStacks : StackDisk := ⟨true, fun _ => none⟩

/-- A run of `<` as it is typed: one byte each. -/
theorem bodySize_replicate (n : ℕ) : bodySize (List.replicate n '<') = n := by
  induction n with
  | zero => rfl
  | succ n ih =>
      rw [List.replicate_succ, bodySize_cons, ih]
      exact Nat.add_comm ..

/-- The sample Compose file on disk. -/
theorem size_markedCompose (n : ℕ) : (markedCompose n).toUTF8.size = n + 31 := by
  have hsize : (markedCompose n).toUTF8.size =
      bodySize (commentStart ++ List.replicate n '<') := by
    rw [String.toUTF8_eq_toByteArray, markedCompose, String.toByteArray_ofList, bodySize]
    exact List.size_toByteArray ..
  have hstart : bodySize commentStart = 31 := by decide
  rw [hsize, bodySize_append, hstart, bodySize_replicate, Nat.add_comm]

/-- In the literal each `<` takes six bytes. -/
theorem literalSize_markedCompose (n : ℕ) : literalSize (markedCompose n) = 6 * n + 34 := by
  have hstart : (commentStart.map literalBytes).sum = 34 := by decide
  have hmark : literalBytes '<' = 6 := rfl
  rw [literalSize, markedCompose, String.toList_ofList, List.map_append, List.sum_append, hstart,
    List.map_replicate, List.sum_replicate_nat, hmark]
  omega

/-- The body the browser saves it with. -/
theorem bodySize_saveBody_marked (n : ℕ) : bodySize (saveBody (markedRequest n)) = n + 112 := by
  have hmarks : (List.replicate n '<').flatMap (escapeWith isControl) = List.replicate n '<' := by
    have hmark : escapeWith isControl '<' = ['<'] := by decide
    rw [List.flatMap_replicate, hmark, List.flatten_replicate_singleton]
  have hcompose : bodySize (scriptString (markedCompose n)) = n + 36 := by
    have hstart : bodySize (commentStart.flatMap (escapeWith isControl)) = 34 := by decide
    have hquote : bodySize ['"'] = 1 ∧ '"'.utf8Size = 1 := by decide
    rw [scriptString, markedCompose, String.toList_ofList, List.flatMap_append, hmarks]
    simp only [List.cons_append, bodySize_append, bodySize_cons, hstart, hquote,
      bodySize_replicate]
    omega
  have hscope : bodySize (scriptMember ("scope", .str "remote:nas")) = 20 := by decide
  have hname : bodySize (scriptMember ("name", .str "web")) = 12 := by decide
  have henv : bodySize (scriptMember ("env", .str "")) = 8 := by decide
  have huse : bodySize (scriptMember ("use_env", .bool false)) = 15 := by decide
  have hkey : bodySize (scriptString "compose_yaml") = 14 := by decide
  have hmarks : bodySize ['}'] = 1 ∧ '{'.utf8Size = 1 ∧ ','.utf8Size = 1 ∧ ':'.utf8Size = 1 := by
    decide
  have hmember : bodySize (scriptMember ("compose_yaml", .str (markedCompose n))) = n + 51 := by
    rw [scriptMember, bodySize_append, bodySize_cons, scriptValue]
    simp only [hkey, hmarks, hcompose]
    omega
  simp only [saveBody, markedRequest, stringify, List.flatMap_cons, List.flatMap_nil,
    List.append_nil, bodySize_append, bodySize_cons, List.cons_append, hscope, hname, henv, huse,
    hmember, hmarks]
  omega

/-- The save handler reads what the browser sent. -/
theorem decodeSave_saveBody (fold : Char → Char) (request : StackSaveRequest) :
    decodeSave fold (saveBody request) = some request := by
  rw [decodeSave, saveBody, parse_stringify (by simp [IsFlat])]
  exact (stackSaveCodec fold).decode_encode request

/-- The save itself is accepted. -/
theorem handleStackSave_marked (n : ℕ) :
    handleStackSave false (markedRequest n) = .ok ((.remote, "nas"), markedRequest n) := by
  have htext : trimSpaceStr (markedCompose n) ≠ "" := by
    intro hempty
    have hfirst : (markedCompose n).toList =
        's' :: (commentStart.tail ++ List.replicate n '<') := by
      have hstart : commentStart = 's' :: commentStart.tail := by decide
      rw [markedCompose, String.toList_ofList]
      exact congrArg (· ++ List.replicate n '<') hstart
    have hhead := head?_trim GoStrings.isSpace (markedCompose n).toList
    have hnil := congrArg String.toList hempty
    rw [trimSpaceStr, String.toList_ofList, trimSpace] at hnil
    rw [hnil, hfirst, List.dropWhile_cons_of_neg (by decide)] at hhead
    cases hhead
  have hscope : trimSpaceStr "remote:nas" = "remote:nas" := by decide
  have hname : trimSpaceStr "web" = "web" := by decide
  have hparse : parseScope "remote:nas" = .ok (.remote, "nas") := by decide
  have hserver : validateStackSegment "nas" "server" = .ok () := by decide
  have hstack : validateStackSegment "web" "stack" = .ok () := by decide
  rw [handleStackSave, if_neg Bool.false_ne_true]
  simp only [markedRequest, hscope, hname, hparse, if_neg htext]
  simp only [bind, Except.bind, hserver, hstack]
  rfl

/-- Nothing fails, and the file is within the limit. -/
theorem exists_save {composeYml : ByteArray} (h : composeYml.size ≤ stackFileLimit) :
    ∃ disk', Prog.Exec (FileSem fun _ => False)
      (saveStackFiles "nas" "web" composeYml ByteArray.empty false).run
      noStacks (.ok ()) disk' := by
  have hexec := Prog.exec_eval (FileOp.sem_answer fun _ => false)
    (saveStackFiles "nas" "web" composeYml ByteArray.empty false).run noStacks
  have hpasses {c : Prop} [Decidable c] (hc : ¬ c) (text : String) : failIf c text = pure () := by
    rw [failIf, if_neg hc]
  have hr : (Prog.eval (FileOp.answer fun _ => false)
      (saveStackFiles "nas" "web" composeYml ByteArray.empty false).run noStacks).1 = .ok () := by
    rw [saveStackFiles, hpasses (by simpa using h)]
    simp only [writePrivateFileInRoot, hpasses (Nat.not_lt.mpr h)]
    rfl
  rw [hr] at hexec
  exact ⟨_, by simpa using hexec⟩

/-- The stack is saved, and loaded again. -/
theorem exists_save_load {n : ℕ} (h : n + 31 ≤ stackFileLimit) : ∃ disk' detail disk'',
    Prog.Exec (FileSem fun _ => False) (saveStackFiles "nas" "web" (markedCompose n).toUTF8
      "".toUTF8 false).run noStacks (.ok ()) disk' ∧
    Prog.Exec (FileSem fun _ => False) (loadStackDetail "nas" "web").run disk' (.ok detail) disk'' ∧
    detail.composeYml = (markedCompose n).toUTF8 ∧ detail.env = "".toUTF8 ∧
      detail.hasEnv = false := by
  have hsize : (markedCompose n).toUTF8.size ≤ stackFileLimit := by
    rw [size_markedCompose]
    exact h
  obtain ⟨disk', hsave⟩ := exists_save hsize
  obtain ⟨updatedAt, disk'', hload⟩ := ((exec_saveStackFiles hsave).gives rfl).1
  exact ⟨disk', _, disk'', hsave, hload, rfl, rfl, rfl⟩

def upWeb : StackActionRequest := ⟨"remote:nas", "web", "up", "", [], false⟩

def sentWeb (n : ℕ) : StackActionRequest := ⟨"", "web", "up", markedCompose n, [], false⟩

/-- The controller then builds the request of the saved stack. -/
theorem build_marked (n : ℕ) : buildRemoteStackActionRequest id [nas] "nas" upWeb
    (markedCompose n) "" false = .ok (nas, sentWeb n) := by
  have hfind : findRemoteServer id [nas] "nas" = some nas := by decide
  rw [buildRemoteStackActionRequest, hfind]
  rfl

/-- The body of the save is within its limit. -/
theorem applyRequestBodyLimit_save {n : ℕ} (h : n + 112 ≤ stackRequestBodyLimit) :
    applyRequestBodyLimit "PUT" "/api/stacks/save" (saveBody (markedRequest n)) = true := by
  have hpath : requestBodyLimit "/api/stacks/save" = stackRequestBodyLimit := by decide
  rw [applyRequestBodyLimit, if_pos (by decide), bodySize_saveBody_marked, hpath]
  exact decide_eq_true h

/-- The equivalence for the sample without a single `<`. -/
theorem remote_action_fits_iff_small :
    applyRequestBodyLimit "POST" "/api/stacks/jobs" (actionBody (sentWeb 0)) = true ↔
      literalSize "web" + literalSize "up" + literalSize (markedCompose 0) + 77 ≤
        stackRequestBodyLimit := by
  obtain ⟨disk', detail, disk'', hsave, hload, hcompose, henv, huse⟩ :=
    exists_save_load (n := 0) (by decide)
  have hbuild := build_marked 0
  rw [← huse] at hbuild
  have hpath : "/api/stacks/jobs" ∈ ["/api/stacks/jobs", "/api/stacks/action"] := by decide
  have hname : upWeb.name = (markedRequest 0).name := rfl
  have hiff := remote_action_fits_iff (handleStackSave_marked 0) hsave hname hload hcompose henv
    hbuild hpath
  simpa only [upWeb, markedRequest, Bool.false_eq_true, if_false] using hiff

/-- A browser saves the stack, and an agent refuses the action request for it. -/
def SavedNotSent (n : ℕ) : Prop := ∃ disk' detail disk'',
  applyRequestBodyLimit "PUT" "/api/stacks/save" (saveBody (markedRequest n)) = true ∧
  decodeSave id (saveBody (markedRequest n)) = some (markedRequest n) ∧
  handleStackSave false (markedRequest n) = .ok ((.remote, "nas"), markedRequest n) ∧
  Prog.Exec (FileSem fun _ => False) (saveStackFiles "nas" "web" (markedCompose n).toUTF8
    "".toUTF8 false).run noStacks (.ok ()) disk' ∧
  Prog.Exec (FileSem fun _ => False) (loadStackDetail "nas" "web").run disk' (.ok detail) disk'' ∧
  detail.composeYml = (markedCompose n).toUTF8 ∧ detail.env = "".toUTF8 ∧
  buildRemoteStackActionRequest id [nas] "nas" upWeb (markedCompose n) "" detail.hasEnv =
    .ok (nas, sentWeb n) ∧
  ∀ path ∈ ["/api/stacks/jobs", "/api/stacks/action"],
    applyRequestBodyLimit "POST" path (actionBody (sentWeb n)) = false

/-- Between the two sizes a stack is saved and its action cannot be sent. -/
theorem savedNotSent_of_size {n : ℕ} (hsave : n + 112 ≤ stackRequestBodyLimit)
    (hsend : stackRequestBodyLimit < 6 * n + 116) : SavedNotSent n := by
  have hfile : n + 31 ≤ stackFileLimit := by
    have hlimits : stackFileLimit = stackRequestBodyLimit := rfl
    omega
  obtain ⟨disk', detail, disk'', hsaved, hload, hcompose, henv, huse⟩ := exists_save_load hfile
  refine ⟨disk', detail, disk'', applyRequestBodyLimit_save hsave, decodeSave_saveBody _ _,
    handleStackSave_marked _, hsaved, hload, hcompose, henv, ?_, fun path hpath => ?_⟩
  · rw [huse]
    exact build_marked n
  have hsize : bodySize (actionBody (sentWeb n)) = 6 * n + 116 := by
    have hfixed : literalSize "" = 0 ∧ literalSize "web" = 3 ∧ literalSize "up" = 2 := by decide
    rw [bodySize_actionBody _ "" rfl]
    simp only [sentWeb, literalSize_markedCompose, hfixed, Bool.false_eq_true, if_false]
    omega
  rw [applyRequestBodyLimit, if_pos (by decide), requestBodyLimit_action hpath, hsize]
  exact decide_eq_false (Nat.not_le.mpr hsend)

/-- **A stack that can be saved and not be sent.** Its Compose file has a comment of 700000
characters `<`. -/
theorem saved_stack_not_sent : SavedNotSent 700000 :=
  savedNotSent_of_size (by decide) (by decide)

end Contiwatch
