import Contiwatch.Lib.Js
import Contiwatch.Lib.JsonText
import Contiwatch.Lib.Unicode

/-!
# Container Logs on Their Way to the Browser

`wsTextWriter` and `sendLogsError` of `internal/server/containers_logs.go` send a log as text
messages, and an error as one more text message, on the same connection; a controller copies the
messages of an agent one by one. `openContainersLogs` of `web/static/app.js` receives them: a
message that is a JSON text is taken for a control message, anything else is appended to the log.
An error is shown by `notify`, without the white space around it, and not at all if it is blank.

## Main results

* `write_bytesOf` — the writer cuts a frame into texts that together are the frame.
* `decoded_iff` — the browser shows what was sent exactly if no message cut from a frame is taken
  for a control message, and no error message is blank.
-/

namespace Contiwatch

open JsonText Unicode

/-! ### Sending -/

/-- The loop that moves the end of a message back to where a character starts. -/
def cutBack (p : List UInt8) : ℕ → ℕ
  | 0 => 0
  | size + 1 =>
      if (p[size + 1]?).all runeStart then size + 1 else cutBack p size

/-- The size of the next message. -/
def messageSize (p : List UInt8) : ℕ :=
  if 32 * 1024 < p.length then cutBack p (32 * 1024) else p.length

/-- A cut goes back, never on. -/
theorem cutBack_le (p : List UInt8) (size : ℕ) : cutBack p size ≤ size := by
  induction size with
  | zero => exact Nat.le_refl _
  | succ size ih =>
      rw [cutBack]
      split
      · exact Nat.le_refl _
      · exact Nat.le_succ_of_le ih

/-- `wsTextWriter.Write`: the messages it sends and its error. -/
def wsTextWriter (p : List UInt8) : List (List UInt8) × Option String :=
  if p = [] then ([], none)
  else if messageSize p = 0 then ([], some "invalid UTF-8 log output")
  else
    let rest := wsTextWriter (p.drop (messageSize p))
    (p.take (messageSize p) :: rest.1, rest.2)
termination_by p.length
decreasing_by
  rw [List.length_drop]
  have hpos := List.length_pos_of_ne_nil ‹¬p = []›
  omega

/-- `logsErrorMessage`. -/
def logsErrorMessage (message : String) : Json :=
  .obj [("type", .str "error"), ("message", .str message)]

/-- `sendLogsError`: the message it sends. -/
def sendLogsError (message : String) : List UInt8 :=
  bytesOf (String.ofList (render compact 0 (logsErrorMessage message)))

/-- What is sent: a frame of the log, or an error. -/
inductive LogItem
  | frame (text : String)
  | error (message : String)

def LogItem.messages : LogItem → List (List UInt8)
  | .frame text => (wsTextWriter (bytesOf text)).1
  | .error message => [sendLogsError message]

/-! ### Receiving -/

/-- The log view of the browser. Texts that are cut at a number of code units are lists of these. -/
structure LogsView where
  socket : Option ℕ
  paused : Bool
  timestamps : Bool
  buffer : List UInt16
  pending : List UInt16
  lineBuffer : List Char
  toasts : List String

/-- `containersLogsMaxBytes`. -/
def containersLogsMaxBytes : ℕ := 300000

/-- The last `max` code units. -/
def lastUnits (max : ℕ) (units : List UInt16) : List UInt16 := units.drop (units.length - max)

/-- `appendContainersLogs`. -/
def appendContainersLogs (data : String) (v : LogsView) : LogsView :=
  if data = "" then v
  else if v.paused then
    { v with pending := lastUnits (containersLogsMaxBytes / 2) (v.pending ++ utf16 data) }
  else { v with buffer := lastUnits containersLogsMaxBytes (v.buffer ++ utf16 data) }

/-- The value of a property of an object: that of its last member with this key. -/
def property (members : List (String × Json)) (key : String) : Option Json :=
  (members.reverse.find? fun m => m.1 = key).map Prod.snd

section

-- how a number is shown, given its literal, and a line of the log with its time
variable (numberText : String → String) (normalizeLogLineTimestamp : List Char → String)

/-- The values that count as true. Of the numbers only zero is shown as `0`. -/
def isTruthy : Json → Bool
  | .null => false
  | .bool b => b
  | .int n => n ≠ 0
  | .real literal => numberText literal ≠ "0"
  | .str s => s ≠ ""
  | .arr _ | .obj _ => true

mutual

/-- `String(value)`. It throws where an object has a `toString` of its own, which is no function. -/
def valueText : Json → Option String
  | .null => some "null"
  | .bool b => some (if b then "true" else "false")
  | .int n => some (numberText (toString n))
  | .real literal => some (numberText literal)
  | .str s => some s
  | .arr items => (elementTexts items).map (",".intercalate ·)
  | .obj members => if (property members "toString").isSome then none else some "[object Object]"

/-- The texts of the elements of an array, in which `null` is empty. -/
def elementTexts : List Json → Option (List String)
  | [] => some []
  | .null :: items => (elementTexts items).map ("" :: ·)
  | item :: items => do
      let text ← valueText item
      let texts ← elementTexts items
      some (text :: texts)

end

/-- `notify`: the toasts that it adds. -/
def notify (message : Json) : Option (List String) :=
  if isTruthy numberText message then
    (valueText numberText message).map fun text =>
      if Js.trim text = "" then [] else [Js.trim text]
  else some []

/-- The toasts that a payload is answered with. -/
def errorToast : Json → Option (List String)
  | .obj members =>
      if (property members "type").any (fun j => j matches .str "error") then
        match property members "message" with
        | some message => if isTruthy numberText message then notify numberText message else some []
        | none => some []
      else some []
  | _ => some []

/-- A message as a control message: the toasts it is answered with, and nothing if it throws. -/
def controlToasts (data : String) : Option (List String) :=
  (JsonText.parse data).bind (errorToast numberText)

/-- `processContainersLogsChunk`. -/
def processContainersLogsChunk (chunk : String) (v : LogsView) : LogsView :=
  if chunk = "" then v
  else if !v.timestamps then appendContainersLogs chunk v
  else
    let lines := (v.lineBuffer ++ chunk.toList).splitOn '\n'
    lines.dropLast.foldl
      (fun v line => appendContainersLogs (normalizeLogLineTimestamp line ++ "\n") v)
      { v with lineBuffer := lines.getLastD [] }

/-- The `message` listener of the socket `ws`. -/
def onLogsMessage (ws : ℕ) (data : String) (v : LogsView) : LogsView :=
  if v.socket ≠ some ws then v
  else
    match controlToasts numberText data with
    | none => processContainersLogsChunk normalizeLogLineTimestamp data v
    | some toasts => { v with toasts := v.toasts ++ toasts }

/-- The messages arrive. One that is not UTF-8 ends the connection. -/
def receive (ws : ℕ) : List (List UInt8) → LogsView → LogsView
  | [], v => v
  | message :: messages, v =>
      match textOf message with
      | none => v
      | some data =>
          receive ws messages (onLogsMessage numberText normalizeLogLineTimestamp ws data v)

end

/-! ### The writer cuts frames into texts -/

/-- It is at the start of a character, unless there is none. -/
theorem cutBack_cases (p : List UInt8) (size : ℕ) :
    (0 < cutBack p size ∧ (p[cutBack p size]?).all runeStart = true) ∨
      ∀ k, 0 < k → k ≤ size → (p[k]?).all runeStart = false := by
  induction size with
  | zero => exact Or.inr fun k hpos hle => absurd hpos (Nat.not_lt.mpr hle)
  | succ size ih =>
      by_cases hstart : (p[size + 1]?).all runeStart = true
      · rw [cutBack, if_pos hstart]
        exact Or.inl ⟨Nat.succ_pos _, hstart⟩
      rw [cutBack, if_neg hstart]
      refine ih.imp_right fun hnone k hpos hle => ?_
      rcases Nat.lt_or_eq_of_le hle with hlt | rfl
      · exact hnone k hpos (Nat.le_of_lt_succ hlt)
      · simpa using hstart

/-- The next message ends where a character does, and is not empty. -/
theorem messageSize_encode {cs : List Char} (hcs : cs ≠ []) :
    ∃ before after, cs = before ++ after ∧ before ≠ [] ∧
      messageSize (encode cs) = (encode before).length := by
  rw [messageSize]
  by_cases hlong : 32 * 1024 < (encode cs).length
  · rw [if_pos hlong]
    rcases cutBack_cases (encode cs) (32 * 1024) with ⟨hpos, hstart⟩ | hnone
    · have hlt := Nat.lt_of_le_of_lt (cutBack_le (encode cs) (32 * 1024)) hlong
      rw [List.getElem?_eq_getElem hlt, Option.all_some] at hstart
      obtain ⟨before, after, rfl, hlength⟩ :=
        cut_of_runeStart (List.getElem?_eq_getElem hlt) hstart
      refine ⟨before, after, rfl, ?_, hlength.symm⟩
      rintro rfl
      exact absurd hpos (Nat.not_lt.mpr (Nat.le_of_eq hlength.symm))
    · -- the text has a second character, which starts within four bytes
      obtain ⟨c, cs, rfl⟩ := List.exists_cons_of_ne_nil hcs
      have htail : cs ≠ [] := by
        rintro rfl
        obtain ⟨b, bs, hchar, -, -, hlength⟩ := utf8EncodeChar_shape c
        rw [encode_cons, hchar] at hlong
        simp only [encode, List.flatMap_nil, List.append_nil, List.length_cons] at hlong
        omega
      obtain ⟨k, b, hpos, hle, hk, hstart⟩ := exists_runeStart c htail
      have hall := hnone k hpos (by omega)
      rw [hk, Option.all_some, hstart] at hall
      cases hall
  · rw [if_neg hlong]
    exact ⟨cs, [], (List.append_nil cs).symm, hcs, rfl⟩

/-- A valid text is sent in valid pieces. -/
theorem write_encode (cs : List Char) : ∃ texts : List (List Char),
    wsTextWriter (encode cs) = (texts.map encode, none) ∧ texts.flatten = cs ∧
      ∀ t ∈ texts, t ≠ [] := by
  induction hn : cs.length using Nat.strong_induction_on generalizing cs with
  | h n ih =>
  by_cases hcs : cs = []
  · subst hcs
    exact ⟨[], by rw [wsTextWriter]; rfl, rfl, by simp⟩
  obtain ⟨before, after, rfl, hbefore, hsize⟩ := messageSize_encode hcs
  have hshorter : after.length < n := by
    have hpos := List.length_pos_of_ne_nil hbefore
    rw [List.length_append] at hn
    omega
  obtain ⟨texts, hwrite, hjoin, hne⟩ := ih _ hshorter after rfl
  have hbytes : encode before ≠ [] := by
    obtain ⟨c, cs, rfl⟩ := List.exists_cons_of_ne_nil hbefore
    obtain ⟨b, bs, hchar, -⟩ := utf8EncodeChar_shape c
    rw [encode_cons, hchar]
    exact List.cons_ne_nil _ _
  refine ⟨before :: texts, ?_, by rw [List.flatten_cons, hjoin], List.forall_mem_cons.mpr
    ⟨hbefore, hne⟩⟩
  rw [wsTextWriter, if_neg (by simp [encode_append, hbytes]), hsize,
    if_neg (mt List.length_eq_zero_iff.mp hbytes), encode_append, List.take_left, List.drop_left,
    hwrite]
  rfl

/-- **The writer cuts a frame into texts**, none of them empty. -/
theorem write_bytesOf (text : String) : ∃ texts : List String,
    wsTextWriter (bytesOf text) = (texts.map bytesOf, none) ∧
      texts.flatMap utf16 = utf16 text ∧ ∀ t ∈ texts, t ≠ "" := by
  obtain ⟨texts, hwrite, hjoin, hne⟩ := write_encode text.toList
  refine ⟨texts.map String.ofList, ?_, ?_, ?_⟩
  · rw [bytesOf, hwrite, List.map_map]
    simp [bytesOf, Function.comp_def]
  · rw [utf16, ← hjoin, List.flatMap_map, List.flatten_eq_flatMap, List.flatMap_assoc]
    simp [utf16]
  · intro t ht
    obtain ⟨cs, hcs, rfl⟩ := List.mem_map.mp ht
    simpa using hne cs hcs

/-! ### What the browser makes of it -/

/-- The text of the frames. -/
def LogItem.shown : LogItem → List UInt16
  | .frame text => utf16 text
  | .error _ => []

/-- The errors, as they are shown. -/
def LogItem.errors : LogItem → List String
  | .frame _ => []
  | .error message => [Js.trim message]

/-- The browser's decoding undoes the sending: the text appended to the log is that of the frames,
and the errors shown are those sent. -/
structure Decoded (items : List LogItem) (v t : LogsView) : Prop where
  buffer : t.buffer = v.buffer ++ items.flatMap LogItem.shown
  toasts : t.toasts = v.toasts ++ items.flatMap LogItem.errors

/-- The errors that are shown if the frames are. -/
def LogItem.toasts : LogItem → List String
  | .frame _ => []
  | .error message => if Js.trim message = "" then [] else [Js.trim message]

section

variable (numberText : String → String) (normalizeLogLineTimestamp : List Char → String)

/-- No message that is cut from a frame is taken for a control message. -/
def LogItem.NoControl : LogItem → Prop
  | .frame text => ∀ message ∈ (wsTextWriter (bytesOf text)).1, ∀ data,
      textOf message = some data → controlToasts numberText data = none
  | .error _ => True

/-- What a text that arrives adds to the log. -/
def addedText (data : String) : List UInt16 :=
  if controlToasts numberText data = none then utf16 data else []

/-- The errors that are shown when a text arrives. -/
def addedToasts (data : String) : List String := (controlToasts numberText data).getD []

/-- One text arrives. -/
theorem onLogsMessage_eq {ws : ℕ} {v : LogsView} (hsocket : v.socket = some ws)
    (hpaused : v.paused = false) (htimestamps : v.timestamps = false) (data : String)
    (hlimit : (v.buffer ++ addedText numberText data).length ≤ containersLogsMaxBytes) :
    onLogsMessage numberText normalizeLogLineTimestamp ws data v =
      { v with
        buffer := v.buffer ++ addedText numberText data
        toasts := v.toasts ++ addedToasts numberText data } := by
  rw [onLogsMessage, if_neg (not_not_intro hsocket), addedToasts]
  rw [addedText] at hlimit ⊢
  rcases hcontrol : controlToasts numberText data with _ | toasts
  · rw [if_pos hcontrol] at hlimit
    have hkept : lastUnits containersLogsMaxBytes (v.buffer ++ utf16 data) =
        v.buffer ++ utf16 data := by
      rw [lastUnits, Nat.sub_eq_zero_of_le hlimit, List.drop_zero]
    by_cases hempty : data = ""
    · simp [processContainersLogsChunk, hempty]
    · simp [processContainersLogsChunk, hempty, htimestamps, appendContainersLogs, hpaused, hkept]
  · simp

/-- Several texts arrive. -/
theorem receive_texts {ws : ℕ} {v : LogsView} (hsocket : v.socket = some ws)
    (hpaused : v.paused = false) (htimestamps : v.timestamps = false) (texts : List String)
    (hlimit : (v.buffer ++ texts.flatMap (addedText numberText)).length ≤
      containersLogsMaxBytes) :
    receive numberText normalizeLogLineTimestamp ws (texts.map bytesOf) v =
      { v with
        buffer := v.buffer ++ texts.flatMap (addedText numberText)
        toasts := v.toasts ++ texts.flatMap (addedToasts numberText) } := by
  induction texts generalizing v with
  | nil => simp [receive]
  | cons data texts ih =>
      rw [List.flatMap_cons, ← List.append_assoc] at hlimit
      have hfirst : (v.buffer ++ addedText numberText data).length ≤ containersLogsMaxBytes := by
        rw [List.length_append] at hlimit
        omega
      rw [List.map_cons, receive, textOf_bytesOf]
      dsimp only
      have hrest := ih (v := { v with
        buffer := v.buffer ++ addedText numberText data
        toasts := v.toasts ++ addedToasts numberText data }) hsocket hpaused htimestamps hlimit
      rw [onLogsMessage_eq numberText normalizeLogLineTimestamp hsocket hpaused htimestamps data
        hfirst, hrest]
      simp

/-- What is added is never longer than what was sent. -/
theorem length_addedText_le (texts : List String) :
    (texts.flatMap (addedText numberText)).length ≤ (texts.flatMap utf16).length := by
  induction texts with
  | nil => exact Nat.le_refl _
  | cons data texts ih =>
      rw [List.flatMap_cons, List.flatMap_cons, List.length_append, List.length_append]
      refine Nat.add_le_add ?_ ih
      rw [addedText]
      split
      · exact Nat.le_refl _
      · exact Nat.zero_le _

/-- It is as long only if nothing that was sent is taken for a control message. -/
theorem controlToasts_eq_none_of_length {texts : List String} (hne : ∀ t ∈ texts, t ≠ "")
    (h : (texts.flatMap (addedText numberText)).length = (texts.flatMap utf16).length) :
    ∀ t ∈ texts, controlToasts numberText t = none := by
  induction texts with
  | nil => exact fun t ht => nomatch ht
  | cons data texts ih =>
      rw [List.flatMap_cons, List.flatMap_cons, List.length_append, List.length_append] at h
      have hle := length_addedText_le numberText texts
      have hdata : controlToasts numberText data = none := by
        by_contra hcontrol
        have hpos : 0 < (utf16 data).length :=
          List.length_pos_of_ne_nil (mt utf16_eq_nil.mp (hne data (List.mem_cons_self ..)))
        rw [addedText, if_neg hcontrol, List.length_nil] at h
        omega
      rw [addedText, if_pos hdata] at h
      exact List.forall_mem_cons.mpr
        ⟨hdata, ih (fun t ht => hne t (List.mem_cons_of_mem _ ht)) (by omega)⟩

/-- Only objects and arrays can be without a text, and these count as true. -/
theorem isTruthy_of_valueText {message : Json} (h : valueText numberText message = none) :
    isTruthy numberText message = true := by
  cases message with
  | null | bool b | int n | real literal | str s => simp [valueText] at h
  | arr items => rfl
  | obj members => rfl

/-- A message is appended to the log if it is no JSON text, or an error whose message has no
text. -/
theorem controlToasts_eq_none_iff (data : String) :
    controlToasts numberText data = none ↔
      JsonText.parse data = none ∨ ∃ members message, JsonText.parse data = some (.obj members) ∧
        property members "type" = some (.str "error") ∧
          property members "message" = some message ∧ valueText numberText message = none := by
  rw [controlToasts, Option.bind_eq_none_iff]
  constructor
  · intro h
    rcases hparse : JsonText.parse data with _ | payload
    · exact Or.inl rfl
    have hthrows := h payload hparse
    refine Or.inr ?_
    unfold errorToast at hthrows
    split at hthrows
    · rename_i members
      split_ifs at hthrows with htype
      obtain ⟨type, htype, hstr⟩ := (Option.any_eq_true _ _).mp htype
      split at hthrows
      · rename_i message hmessage
        split_ifs at hthrows with htruthy
        rw [notify, if_pos htruthy, Option.map_eq_none_iff] at hthrows
        refine ⟨members, message, rfl, ?_, hmessage, hthrows⟩
        rw [htype]
        split at hstr
        · rfl
        · cases hstr
      · cases hthrows
    · cases hthrows
  · rintro (hnone | ⟨members, message, hparse, htype, hmessage, htext⟩) payload hpayload
    · rw [hnone] at hpayload
      cases hpayload
    · have htruthy := isTruthy_of_valueText numberText htext
      cases hparse.symm.trans hpayload
      simp [errorToast, htype, hmessage, htruthy, notify, htext]

/-- A text is shown without the white space around it, unless it is blank. -/
theorem notify_str (message : String) :
    notify numberText (.str message) =
      some (if Js.trim message = "" then [] else [Js.trim message]) := by
  by_cases hempty : message = ""
  · simp [notify, isTruthy, hempty]
  · simp [notify, isTruthy, valueText, hempty]

/-- The browser reads an error that was sent, and shows it unless it is blank. -/
theorem controlToasts_logsErrorMessage (message : String) :
    controlToasts numberText (String.ofList (render compact 0 (logsErrorMessage message))) =
      some (LogItem.error message).toasts := by
  have hparse : JsonText.parse (String.ofList (render compact 0 (logsErrorMessage message))) =
      some (logsErrorMessage message) := parse_render ⟨trivial, trivial, trivial⟩
  rw [controlToasts, hparse, Option.bind_some]
  by_cases hempty : message = ""
  · simp [errorToast, logsErrorMessage, property, isTruthy, LogItem.toasts, hempty]
  · simp [errorToast, logsErrorMessage, property, isTruthy, LogItem.toasts, notify_str, hempty]

/-- An item as the texts of its messages. -/
structure Texts (item : LogItem) (texts : List String) : Prop where
  messages : item.messages = texts.map bytesOf
  length : (texts.flatMap (addedText numberText)).length ≤ item.shown.length
  noControl : (texts.flatMap (addedText numberText)).length = item.shown.length →
    item.NoControl numberText
  added : item.NoControl numberText → texts.flatMap (addedText numberText) = item.shown ∧
    texts.flatMap (addedToasts numberText) = item.toasts

/-- The messages of an item are texts. -/
theorem exists_texts (item : LogItem) : ∃ texts, Texts numberText item texts := by
  cases item with
  | frame text =>
      obtain ⟨texts, hwrite, hjoin, hne⟩ := write_bytesOf text
      refine ⟨texts, ⟨by rw [LogItem.messages, hwrite], ?_, fun hlength => ?_, fun hplain => ?_⟩⟩
      · rw [LogItem.shown, ← hjoin]
        exact length_addedText_le numberText texts
      · rw [LogItem.shown, ← hjoin] at hlength
        rw [LogItem.NoControl, hwrite]
        intro message hmessage data hdata
        obtain ⟨t, ht, rfl⟩ := List.mem_map.mp hmessage
        rw [textOf_bytesOf] at hdata
        exact Option.some.inj hdata ▸ controlToasts_eq_none_of_length numberText hne hlength t ht
      · rw [LogItem.NoControl, hwrite] at hplain
        have hnone : ∀ t ∈ texts, controlToasts numberText t = none :=
          fun t ht => hplain _ (List.mem_map_of_mem ht) t (textOf_bytesOf t)
        constructor
        · rw [LogItem.shown, ← hjoin]
          exact List.flatMap_congr fun t ht => if_pos (hnone t ht)
        · rw [LogItem.toasts, List.flatMap_eq_nil_iff]
          intro t ht
          rw [addedToasts, hnone t ht]
          rfl
  | error message =>
      have hcontrol := controlToasts_logsErrorMessage numberText message
      have hadded : addedText numberText
          (String.ofList (render compact 0 (logsErrorMessage message))) = [] :=
        if_neg (by rw [hcontrol]; exact Option.some_ne_none _)
      refine ⟨[String.ofList (render compact 0 (logsErrorMessage message))], ⟨rfl, ?_,
        fun _ => trivial, fun _ => ⟨?_, ?_⟩⟩⟩
      · simp [hadded]
      · simp [hadded, LogItem.shown]
      · rw [List.flatMap_singleton, addedToasts, hcontrol, Option.getD_some]

/-- So are those of many items, and no more is added than should be shown. -/
theorem exists_texts_all (items : List LogItem) : ∃ texts : List String,
    items.flatMap LogItem.messages = texts.map bytesOf ∧
      (texts.flatMap (addedText numberText)).length ≤ (items.flatMap LogItem.shown).length ∧
      ((texts.flatMap (addedText numberText)).length = (items.flatMap LogItem.shown).length →
        ∀ item ∈ items, item.NoControl numberText) ∧
      ((∀ item ∈ items, item.NoControl numberText) →
        texts.flatMap (addedText numberText) = items.flatMap LogItem.shown ∧
          texts.flatMap (addedToasts numberText) = items.flatMap LogItem.toasts) := by
  induction items with
  | nil => exact ⟨[], rfl, Nat.le_refl _, by simp, fun _ => ⟨rfl, rfl⟩⟩
  | cons item items ih =>
      obtain ⟨first, hfirst⟩ := exists_texts numberText item
      obtain ⟨rest, hmessages, hlength, hnoControl, hadded⟩ := ih
      have hle := hfirst.length
      refine ⟨first ++ rest, ?_, ?_, fun heq => ?_, fun hall => ?_⟩
      · rw [List.flatMap_cons, List.map_append, hfirst.messages, hmessages]
      · rw [List.flatMap_append, List.flatMap_cons, List.length_append, List.length_append]
        exact Nat.add_le_add hle hlength
      · rw [List.flatMap_append, List.flatMap_cons, List.length_append, List.length_append] at heq
        exact List.forall_mem_cons.mpr ⟨hfirst.noControl (by omega), hnoControl (by omega)⟩
      · obtain ⟨hitem, hitems⟩ := List.forall_mem_cons.mp hall
        rw [List.flatMap_append, List.flatMap_append, List.flatMap_cons, List.flatMap_cons,
          (hfirst.added hitem).1, (hfirst.added hitem).2, (hadded hitems).1, (hadded hitems).2]
        exact ⟨rfl, rfl⟩

/-- The errors shown are those sent exactly if none of these is blank. -/
theorem toasts_eq_errors_iff (items : List LogItem) :
    items.flatMap LogItem.toasts = items.flatMap LogItem.errors ↔
      ∀ message, .error message ∈ items → Js.trim message ≠ "" := by
  have hle : ∀ items : List LogItem, (items.flatMap LogItem.toasts).length ≤
      (items.flatMap LogItem.errors).length := by
    intro items
    induction items with
    | nil => exact Nat.le_refl _
    | cons item items ih =>
        rw [List.flatMap_cons, List.flatMap_cons, List.length_append, List.length_append]
        refine Nat.add_le_add ?_ ih
        cases item with
        | frame text => exact Nat.le_refl _
        | error message =>
            rw [LogItem.toasts]
            split
            · exact Nat.zero_le _
            · exact Nat.le_refl _
  constructor
  · intro heq message hmem hempty
    obtain ⟨before, after, rfl⟩ := List.append_of_mem hmem
    have hlength := congrArg List.length heq
    simp only [List.flatMap_append, List.flatMap_cons, List.length_append, LogItem.toasts,
      LogItem.errors, if_pos hempty, List.length_nil, List.length_singleton] at hlength
    have hbefore := hle before
    have hafter := hle after
    omega
  · intro hne
    refine List.flatMap_congr fun item hitem => ?_
    cases item with
    | frame text => rfl
    | error message => exact if_neg (hne message hitem)

/-- **What the browser shows.** The view of a socket that is open, not paused and without times
shows the frames and the errors that were sent exactly if no message that is cut from a frame is
taken for a control message, and no error is blank. -/
theorem decoded_iff {ws : ℕ} {v : LogsView} (hsocket : v.socket = some ws)
    (hpaused : v.paused = false) (htimestamps : v.timestamps = false) (items : List LogItem)
    (hlimit : (v.buffer ++ items.flatMap LogItem.shown).length ≤ containersLogsMaxBytes) :
    Decoded items v
        (receive numberText normalizeLogLineTimestamp ws (items.flatMap LogItem.messages) v) ↔
      (∀ item ∈ items, item.NoControl numberText) ∧
        ∀ message, .error message ∈ items → Js.trim message ≠ "" := by
  obtain ⟨texts, hmessages, hlength, hnoControl, hadded⟩ := exists_texts_all numberText items
  have hkept : (v.buffer ++ texts.flatMap (addedText numberText)).length ≤
      containersLogsMaxBytes := by
    rw [List.length_append] at hlimit ⊢
    omega
  rw [hmessages, receive_texts numberText normalizeLogLineTimestamp hsocket hpaused htimestamps
    texts hkept]
  constructor
  · rintro ⟨hbuffer, htoasts⟩
    have hall := hnoControl (congrArg List.length (List.append_cancel_left hbuffer))
    refine ⟨hall, (toasts_eq_errors_iff items).mp ?_⟩
    rw [← (hadded hall).2]
    exact List.append_cancel_left htoasts
  · rintro ⟨hall, hne⟩
    refine ⟨?_, ?_⟩
    · rw [(hadded hall).1]
    · rw [(hadded hall).2, (toasts_eq_errors_iff items).mpr hne]

end

/-! ### A log that is shown, and one that is not -/

/-- A short frame is one message. -/
theorem wsTextWriter_short {p : List UInt8} (hne : p ≠ []) (hshort : p.length ≤ 32 * 1024) :
    wsTextWriter p = ([p], none) := by
  have hsize : messageSize p = p.length := if_neg (Nat.not_lt.mpr hshort)
  rw [wsTextWriter, if_neg hne, hsize, if_neg (mt List.length_eq_zero_iff.mp hne), List.take_length,
    List.drop_length, wsTextWriter, if_pos rfl]

/-- The log view after a connection has been opened. -/
def openedView : LogsView where
  socket := some 0
  paused := false
  timestamps := false
  buffer := utf16 "Connecting to \"web\"...\n"
  pending := []
  lineBuffer := []
  toasts := []

/-- A plain line and an error are shown right. -/
theorem decoded_plain : Decoded [.frame "ready\n", .error "timeout"] openedView
    (receive id String.ofList 0
      ([LogItem.frame "ready\n", .error "timeout"].flatMap LogItem.messages) openedView) := by
  refine (decoded_iff id String.ofList rfl rfl rfl _ (by decide)).mpr ⟨?_, ?_⟩
  · refine List.forall_mem_cons.mpr ⟨?_, List.forall_mem_singleton.mpr trivial⟩
    rw [LogItem.NoControl, wsTextWriter_short (by decide) (by decide)]
    intro message hmessage data hdata
    rw [List.mem_singleton.mp hmessage, textOf_bytesOf] at hdata
    exact Option.some.inj hdata ▸ rfl
  · intro message hmem
    simp only [List.mem_cons, reduceCtorEq, LogItem.error.injEq, List.not_mem_nil, or_false,
      false_or] at hmem
    rw [hmem]
    decide +kernel

/-- A line that is a JSON value, as an application logs it. -/
def jsonLine : String := "\x7b\"level\":\"info\"\x7d\n"

/-- A line that looks like an error message of the server is not shown. -/
theorem json_line_lost : ¬ Decoded [.frame jsonLine] openedView
    (receive id String.ofList 0
      ([LogItem.frame jsonLine].flatMap LogItem.messages) openedView) := by
  rintro ⟨hbuffer, -⟩
  rw [List.flatMap_singleton, LogItem.messages, wsTextWriter_short (by decide) (by decide),
    receive, textOf_bytesOf] at hbuffer
  exact absurd hbuffer (by decide)

end Contiwatch
