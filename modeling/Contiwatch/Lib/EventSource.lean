import Mathlib.Data.List.Basic

/-!
# Event Streams

A text of the type `text/event-stream`, as the `EventSource` of a browser reads it: character by
character, line by line, and a message at every blank line after data. Of the fields, `id` and
`retry` do not change the messages.

## Main results

* `read_frame` — a message that was written with its type and its data on one line each is read as
  that message.
* `read_comment` — a comment is not read as anything.
* `messages_prefix` — what is read off the first part of a text is the first part of what is read
  off the text.
-/

namespace EventSource

structure Message where
  type : List Char
  data : List Char
  deriving DecidableEq

/-- The buffers of the type and of the data, and the messages that were read. -/
structure Buffers where
  type : List Char
  data : List Char
  messages : List Message

/-- The buffers between two messages. -/
def Buffers.between (messages : List Message) : Buffers where
  type := []
  data := []
  messages := messages

/-- What a reader keeps besides: the line so far, and whether a carriage return has just ended
one. -/
structure Reader where
  line : List Char
  afterReturn : Bool
  buffers : Buffers

/-- A reader at the beginning of a line. -/
def Reader.atLine (b : Buffers) : Reader where
  line := []
  afterReturn := false
  buffers := b

def eventField : List Char := ['e', 'v', 'e', 'n', 't']

def dataField : List Char := ['d', 'a', 't', 'a']

/-- The value of a field, without the blank that may follow the colon. -/
def fieldValue : List Char → List Char
  | ' ' :: value => value
  | value => value

/-- A blank line. -/
def Buffers.dispatch (b : Buffers) : Buffers :=
  if b.data = [] then .between b.messages
  else .between (b.messages ++
    [⟨if b.type = [] then "message".toList else b.type, b.data.dropLast⟩])

def Buffers.field (b : Buffers) (name value : List Char) : Buffers :=
  if name = eventField then { b with type := value }
  else if name = dataField then { b with data := b.data ++ value ++ ['\n'] }
  else b

/-- A line that is complete. -/
def Buffers.interpret (b : Buffers) (line : List Char) : Buffers :=
  match line with
  | [] => b.dispatch
  | ':' :: _ => b
  | line =>
      b.field (line.takeWhile (· ≠ ':')) (fieldValue ((line.dropWhile (· ≠ ':')).drop 1))

/-- The end of a line. -/
def Reader.endLine (r : Reader) (afterReturn : Bool) : Reader where
  line := []
  afterReturn := afterReturn
  buffers := r.buffers.interpret r.line

/-- A line ends with a line feed, a carriage return, or both. -/
def Reader.char (r : Reader) (c : Char) : Reader :=
  if c = '\n' then
    if r.afterReturn then { r with afterReturn := false } else r.endLine false
  else if c = '\r' then r.endLine true
  else { r with line := r.line ++ [c], afterReturn := false }

def Reader.read (r : Reader) (text : List Char) : Reader := text.foldl Reader.char r

/-- What is read off a text. -/
def read (text : List Char) : Reader := (Reader.atLine (.between [])).read text

/-- The messages in a text. -/
def messages (text : List Char) : List Message := (read text).buffers.messages

/-! ### Reading a part of a text -/

variable {r : Reader} {b : Buffers}

/-- Reading in two parts is reading at once. -/
theorem read_append (text rest : List Char) : r.read (text ++ rest) = (r.read text).read rest :=
  List.foldl_append

/-- A line takes no message back. -/
theorem interpret_messages (line : List Char) : b.messages <+: (b.interpret line).messages := by
  unfold Buffers.interpret
  split
  · unfold Buffers.dispatch
    split
    · exact List.prefix_rfl
    · exact List.prefix_append _ _
  · exact List.prefix_rfl
  · unfold Buffers.field
    split
    · exact List.prefix_rfl
    · split <;> exact List.prefix_rfl

/-- A message that was read stays. -/
theorem char_messages (c : Char) : r.buffers.messages <+: (r.char c).buffers.messages := by
  unfold Reader.char
  split
  · split
    · exact List.prefix_rfl
    · exact interpret_messages r.line
  · split
    · exact interpret_messages r.line
    · exact List.prefix_rfl

/-- Nor does any text. -/
theorem read_messages (text : List Char) :
    r.buffers.messages <+: (r.read text).buffers.messages := by
  induction text generalizing r with
  | nil => exact List.prefix_rfl
  | cons c cs ih => exact (char_messages c).trans ih

/-- **The first part of a text**: what has arrived is read as what will be read of it. -/
theorem messages_prefix {text whole : List Char} (h : text <+: whole) :
    messages text <+: messages whole := by
  obtain ⟨rest, rfl⟩ := h
  unfold messages read
  rw [read_append]
  exact read_messages rest

/-! ### Lines -/

/-- A text without a line break. -/
def OneLine (cs : List Char) : Prop := '\n' ∉ cs ∧ '\r' ∉ cs

instance (cs : List Char) : Decidable (OneLine cs) := inferInstanceAs (Decidable (_ ∧ _))

/-- Nothing is one line. -/
theorem oneLine_nil : OneLine [] := ⟨List.not_mem_nil, List.not_mem_nil⟩

/-- One line, character by character. -/
theorem oneLine_cons {c : Char} {cs : List Char} :
    OneLine (c :: cs) ↔ (c ≠ '\n' ∧ c ≠ '\r') ∧ OneLine cs := by
  simp only [OneLine, List.mem_cons, not_or]
  constructor
  · rintro ⟨⟨hn, hns⟩, hr, hrs⟩
    exact ⟨⟨Ne.symm hn, Ne.symm hr⟩, hns, hrs⟩
  · rintro ⟨⟨hn, hr⟩, hns, hrs⟩
    exact ⟨⟨Ne.symm hn, hns⟩, Ne.symm hr, hrs⟩

/-- Two parts of one line make one line. -/
theorem oneLine_append {cs ds : List Char} : OneLine (cs ++ ds) ↔ OneLine cs ∧ OneLine ds := by
  simp only [OneLine, List.mem_append, not_or]
  constructor
  · rintro ⟨⟨hn, hns⟩, hr, hrs⟩
    exact ⟨⟨hn, hr⟩, hns, hrs⟩
  · rintro ⟨⟨hn, hr⟩, hns, hrs⟩
    exact ⟨⟨hn, hns⟩, hr, hrs⟩

/-- A line that does not end is collected. -/
theorem read_oneLine {cs : List Char} (h : OneLine cs) (line : List Char) (b : Buffers) :
    (Reader.mk line false b).read cs = ⟨line ++ cs, false, b⟩ := by
  induction cs generalizing line with
  | nil => rw [List.append_nil]; rfl
  | cons c cs ih =>
      obtain ⟨⟨hn, hret⟩, hcs⟩ := oneLine_cons.mp h
      have hchar : (Reader.mk line false b).char c = ⟨line ++ [c], false, b⟩ := by
        rw [Reader.char, if_neg hn, if_neg hret]
      calc (Reader.mk line false b).read (c :: cs)
          = ((Reader.mk line false b).char c).read cs := rfl
        _ = (Reader.mk (line ++ [c]) false b).read cs := by rw [hchar]
        _ = ⟨line ++ [c] ++ cs, false, b⟩ := ih hcs (line ++ [c])
        _ = ⟨line ++ c :: cs, false, b⟩ := by rw [List.append_assoc, List.singleton_append]

/-- A line with its line feed. -/
theorem read_line {cs : List Char} (h : OneLine cs) (b : Buffers) :
    (Reader.atLine b).read (cs ++ ['\n']) = .atLine (b.interpret cs) := by
  rw [read_append, Reader.atLine, read_oneLine h]
  rfl

/-! ### Messages -/

/-- A message as a server writes it. -/
def frame (type data : List Char) : List Char :=
  eventField ++ ':' :: ' ' :: type ++ ['\n'] ++
    (dataField ++ ':' :: ' ' :: data ++ ['\n']) ++ ['\n']

/-- A comment as a server writes it. -/
def comment (text : List Char) : List Char := ':' :: text ++ ['\n'] ++ ['\n']

theorem interpret_event (type : List Char) :
    b.interpret (eventField ++ ':' :: ' ' :: type) = { b with type := type } := rfl

theorem interpret_data (data : List Char) :
    b.interpret (dataField ++ ':' :: ' ' :: data) = { b with data := b.data ++ data ++ ['\n'] } :=
  rfl

/-- An empty line dispatches the data without its last line break. -/
theorem dispatch_between {type : List Char} (htype : type ≠ []) (data : List Char)
    (ms : List Message) :
    (Buffers.mk type (data ++ ['\n']) ms).dispatch = .between (ms ++ [⟨type, data⟩]) := by
  rw [Buffers.dispatch, if_neg (by simp), if_neg htype, List.dropLast_concat]

/-- **A message is read as it was written.** -/
theorem read_frame {type data : List Char} (htype : OneLine type) (hne : type ≠ [])
    (hdata : OneLine data) (ms : List Message) :
    (Reader.atLine (.between ms)).read (frame type data) =
      .atLine (.between (ms ++ [⟨type, data⟩])) := by
  have hline : ∀ name value, OneLine name → OneLine value → OneLine (name ++ ':' :: ' ' :: value) :=
    fun name value hname hvalue => oneLine_append.mpr ⟨hname,
      oneLine_cons.mpr ⟨by decide, oneLine_cons.mpr ⟨by decide, hvalue⟩⟩⟩
  have hevent := hline eventField type (by decide) htype
  have hfield := hline dataField data (by decide) hdata
  rw [frame, read_append, read_append, read_line hevent, interpret_event, read_line hfield,
    interpret_data, ← List.nil_append ['\n'], read_line oneLine_nil]
  exact congrArg Reader.atLine (dispatch_between hne data ms)

/-- **A comment is not read as anything.** -/
theorem read_comment {text : List Char} (h : OneLine text) (ms : List Message) :
    (Reader.atLine (.between ms)).read (comment text) = .atLine (.between ms) := by
  have hline : OneLine (':' :: text) := oneLine_cons.mpr ⟨by decide, h⟩
  rw [comment, read_append, read_line hline, ← List.nil_append ['\n'], read_line oneLine_nil]
  rfl

end EventSource
