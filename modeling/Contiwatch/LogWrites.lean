import Contiwatch.LogFrames

/-!
# Logs Written in Pieces

`io.Copy` and `stdcopy.StdCopy` hand a log to `wsTextWriter` of
`internal/server/containers_logs.go` in the pieces in which they have read it, one call of `Write`
for each. `Write` looks for the start of a character where it cuts a piece itself, but not where the
piece ends.

## Main results

* `copyLog_complete` — a log in UTF-8 is sent whole, in messages of at most 32 KiB, wherever its
  pieces end.
* `copied_iff` — every message is a text by itself exactly if every piece is.
-/

namespace Contiwatch

open Unicode

/-! ### `Write` and its callers -/

/-- A connection: the error with which it refuses a message, after those that it has taken. -/
abbrev WsConn := List (List UInt8) → List UInt8 → Option String

/-- What a call of `Write` returns, and the messages that the connection has taken by then. -/
structure LogWrite where
  sent : List (List UInt8)
  n : ℕ
  err : Option String

/-- The loop of `wsTextWriter.Write`. -/
def writeChunks (conn : WsConn) (sent : List (List UInt8)) (written : ℕ) (p : List UInt8) :
    LogWrite :=
  if p = [] then ⟨sent, written, none⟩
  else if messageSize p = 0 then ⟨sent, written, some "invalid UTF-8 log output"⟩
  else
    match conn sent (p.take (messageSize p)) with
    | some err => ⟨sent, written, some err⟩
    | none =>
        writeChunks conn (sent ++ [p.take (messageSize p)]) (written + messageSize p)
          (p.drop (messageSize p))
termination_by p.length
decreasing_by
  rw [List.length_drop]
  have hpos := List.length_pos_of_ne_nil ‹¬p = []›
  omega

/-- `wsTextWriter.Write`; without a connection, it claims to have written everything. -/
def writeLog (conn : Option WsConn) (sent : List (List UInt8)) (p : List UInt8) : LogWrite :=
  match conn with
  | none => ⟨sent, p.length, none⟩
  | some conn => if p = [] then ⟨sent, p.length, none⟩ else writeChunks conn sent 0 p

/-- `io.Copy` and `stdcopy.StdCopy`: the results of their calls of `Write`, of which the first that
fails is the last, and the messages that the connection has taken. -/
def copyLog (conn : Option WsConn) (sent : List (List UInt8)) :
    List (List UInt8) → List (ℕ × Option String) × List (List UInt8)
  | [] => ([], sent)
  | p :: pieces =>
      let r := writeLog conn sent p
      if r.err.isSome then ([(r.n, r.err)], r.sent)
      else
        let rest := copyLog conn r.sent pieces
        ((r.n, r.err) :: rest.1, rest.2)

/-- The bytes are a text in UTF-8. -/
def IsText (p : List UInt8) : Prop := ∃ cs : List Char, encode cs = p

/-- The log has arrived: whole, in text messages of at most 32 KiB, and without an error. -/
structure Copied (conn : WsConn) (pieces : List (List UInt8)) : Prop where
  joined : (copyLog conn [] pieces).2.flatten = pieces.flatten
  texts : ∀ message ∈ (copyLog conn [] pieces).2, IsText message
  short : ∀ message ∈ (copyLog conn [] pieces).2, message.length ≤ 32 * 1024
  reported : (copyLog conn [] pieces).1 = pieces.map fun p => (p.length, none)

theorem isText_nil : IsText [] := ⟨[], rfl⟩

/-- Texts append. -/
theorem IsText.append {p q : List UInt8} (hp : IsText p) (hq : IsText q) : IsText (p ++ q) := by
  obtain ⟨cs, rfl⟩ := hp
  obtain ⟨ds, rfl⟩ := hq
  exact ⟨cs ++ ds, encode_append cs ds⟩

/-- Many of them do. -/
theorem isText_flatten {ps : List (List UInt8)} (h : ∀ p ∈ ps, IsText p) : IsText ps.flatten := by
  induction ps with
  | nil => exact isText_nil
  | cons p ps ih =>
      obtain ⟨hp, hps⟩ := List.forall_mem_cons.mp h
      rw [List.flatten_cons]
      exact hp.append (ih hps)

/-! ### A connection that takes every message -/

section

variable {conn : WsConn}

/-- `Write` sends the messages that `wsTextWriter` cuts, and reports their bytes. -/
theorem writeChunks_eq (hconn : ∀ sent message, conn sent message = none)
    (sent : List (List UInt8)) (written : ℕ) (p : List UInt8) :
    writeChunks conn sent written p =
      ⟨sent ++ (wsTextWriter p).1, written + (wsTextWriter p).1.flatten.length,
        (wsTextWriter p).2⟩ := by
  induction hn : p.length using Nat.strong_induction_on generalizing sent written p with
  | h n ih =>
  rw [writeChunks, wsTextWriter]
  by_cases hempty : p = []
  · simp [hempty]
  rw [if_neg hempty, if_neg hempty]
  by_cases hsize : messageSize p = 0
  · simp [hsize]
  rw [if_neg hsize, if_neg hsize, hconn]
  have hle : messageSize p ≤ p.length := by
    rw [messageSize]
    split_ifs with hlong
    · exact (cutBack_le p _).trans hlong.le
    · exact Nat.le_refl _
  have hshorter : (p.drop (messageSize p)).length < n := by
    rw [List.length_drop]
    omega
  dsimp only
  rw [ih _ hshorter _ _ _ rfl, List.flatten_cons, List.length_append, List.length_take,
    Nat.min_eq_left hle, List.append_assoc, Nat.add_assoc]
  rfl

/-- On a connection that takes everything, the whole write is sent. -/
theorem writeLog_eq (hconn : ∀ sent message, conn sent message = none)
    (sent : List (List UInt8)) (p : List UInt8) :
    writeLog (some conn) sent p =
      ⟨sent ++ (wsTextWriter p).1, (wsTextWriter p).1.flatten.length, (wsTextWriter p).2⟩ := by
  rw [writeLog]
  split_ifs with hempty
  · rw [hempty, wsTextWriter, if_pos rfl, List.append_nil]
    rfl
  · rw [writeChunks_eq hconn, Nat.zero_add]

/-! ### Where a piece can be cut -/

/-- No four bytes in a row continue characters. -/
def ShortRuns (p : List UInt8) : Prop :=
  ∀ q, q <:+: p → (∀ b ∈ q, runeStart b = false) → q.length ≤ 3

/-- A part has no longer runs than the whole. -/
theorem ShortRuns.part {p q : List UInt8} (h : ShortRuns p) (hq : q <:+: p) : ShortRuns q :=
  fun r hr => h r (hr.trans hq)

/-- The bytes of a text start a character at least at every fourth place. -/
theorem shortRuns_encode (cs : List Char) : ShortRuns (encode cs) := by
  induction cs with
  | nil =>
      intro q hq _
      rw [List.infix_nil.mp hq]
      exact Nat.zero_le 3
  | cons c cs ih =>
      intro q hq hcontinues
      obtain ⟨b, bs, hchar, hstart, -, hlength⟩ := utf8EncodeChar_shape c
      rw [encode_cons, hchar, List.infix_append_iff] at hq
      rcases hq with hq | hq | ⟨s, t, rfl, hs, ht⟩
      · rcases List.infix_cons_iff.mp hq with hq | hq
        · rcases List.prefix_cons_iff.mp hq with rfl | ⟨t, rfl, -⟩
          · exact Nat.zero_le 3
          · exact absurd (hcontinues b List.mem_cons_self) (ne_of_eq_of_ne hstart Bool.noConfusion)
        · exact hq.length_le.trans hlength
      · exact ih q hq hcontinues
      · rcases t with _ | ⟨a, t⟩
        · rw [List.append_nil] at hcontinues ⊢
          rcases List.suffix_cons_iff.mp hs with rfl | hs
          · exact absurd (hcontinues b List.mem_cons_self) (ne_of_eq_of_ne hstart Bool.noConfusion)
          · exact hs.length_le.trans hlength
        · -- the next character starts with `a`
          rcases cs with _ | ⟨d, ds⟩
          · cases List.prefix_nil.mp ht
          obtain ⟨b', bs', hchar', hstart', -⟩ := utf8EncodeChar_shape d
          rw [encode_cons, hchar', List.cons_append, List.cons_prefix_cons] at ht
          obtain ⟨rfl, -⟩ := ht
          have hfalse := hcontinues a (List.mem_append_right s List.mem_cons_self)
          rw [hstart'] at hfalse
          cases hfalse

/-- The next message is not empty. -/
theorem messageSize_pos {p : List UInt8} (h : ShortRuns p) (hne : p ≠ []) : 0 < messageSize p := by
  rw [messageSize]
  split_ifs with hlong
  · rcases cutBack_cases p (32 * 1024) with ⟨hpos, -⟩ | hnone
    · exact hpos
    · -- otherwise the four bytes before the limit and at it continue a character
      have hlength : ((p.drop 32765).take 4).length = 4 := by
        rw [List.length_take, List.length_drop]
        omega
      have hrun := h ((p.drop 32765).take 4)
        ((List.take_prefix 4 _).isInfix.trans (List.drop_suffix 32765 p).isInfix) ?_
      · omega
      · intro b hb
        obtain ⟨i, hi, rfl⟩ := List.mem_iff_getElem.mp hb
        rw [hlength] at hi
        have hget : p[32765 + i]? = some ((p.drop 32765).take 4)[i] := by
          rw [List.getElem_take, List.getElem_drop, List.getElem?_eq_getElem]
        have hstart := hnone (32765 + i) (by omega) (by omega)
        rwa [hget, Option.all_some] at hstart
  · exact List.length_pos_of_ne_nil hne

/-- No message is above 32 KiB. -/
theorem messageSize_le (p : List UInt8) : messageSize p ≤ 32 * 1024 := by
  rw [messageSize]
  split_ifs with hlong
  · exact cutBack_le p _
  · exact Nat.le_of_not_lt hlong

/-- Messages are at most 32 KiB long. -/
theorem wsTextWriter_short_messages (p : List UInt8) :
    ∀ message ∈ (wsTextWriter p).1, message.length ≤ 32 * 1024 := by
  induction hn : p.length using Nat.strong_induction_on generalizing p with
  | h n ih =>
  rw [wsTextWriter]
  split_ifs with hempty hsize
  · exact List.forall_mem_nil _
  · exact List.forall_mem_nil _
  · have hpos := List.length_pos_of_ne_nil hempty
    refine List.forall_mem_cons.mpr ⟨?_, ih _ ?_ _ rfl⟩
    · exact (List.length_take_le _ _).trans (messageSize_le p)
    · rw [List.length_drop]
      omega

/-- The writer cuts bytes without long runs, and loses none. -/
theorem wsTextWriter_joined {p : List UInt8} (h : ShortRuns p) :
    (wsTextWriter p).1.flatten = p ∧ (wsTextWriter p).2 = none := by
  induction hn : p.length using Nat.strong_induction_on generalizing p with
  | h n ih =>
  rw [wsTextWriter]
  by_cases hempty : p = []
  · simp [hempty]
  have hpos := messageSize_pos h hempty
  have hlength := List.length_pos_of_ne_nil hempty
  rw [if_neg hempty, if_neg hpos.ne']
  obtain ⟨hjoined, hnone⟩ := ih (p.drop (messageSize p)).length
    (by rw [List.length_drop]; omega) (h.part (List.drop_suffix _ p).isInfix) rfl
  refine ⟨?_, hnone⟩
  rw [List.flatten_cons, hjoined, List.take_append_drop]

/-! ### A log in pieces -/

/-- What a copy sends and reports, if none of its calls fails. -/
theorem copyLog_eq (hconn : ∀ sent message, conn sent message = none) {pieces : List (List UInt8)}
    (h : ∀ p ∈ pieces, ShortRuns p) (sent : List (List UInt8)) :
    copyLog conn sent pieces =
      (pieces.map fun p => (p.length, none),
        sent ++ pieces.flatMap fun p => (wsTextWriter p).1) := by
  induction pieces generalizing sent with
  | nil => simp [copyLog]
  | cons p pieces ih =>
      obtain ⟨hp, hpieces⟩ := List.forall_mem_cons.mp h
      obtain ⟨hjoined, hnone⟩ := wsTextWriter_joined hp
      rw [copyLog, writeLog_eq hconn, hjoined, hnone]
      dsimp only
      rw [ih hpieces, List.flatMap_cons, List.append_assoc, List.map_cons]
      rfl

/-- The pieces of a text have short runs. -/
theorem shortRuns_of_mem {pieces : List (List UInt8)} (h : IsText pieces.flatten) :
    ∀ p ∈ pieces, ShortRuns p := by
  obtain ⟨cs, hcs⟩ := h
  intro p hp
  obtain ⟨front, back, rfl⟩ := List.append_of_mem hp
  refine (shortRuns_encode cs).part ?_
  rw [hcs, List.flatten_append, List.flatten_cons]
  exact List.infix_append' _ _ _

/-- **A log is sent whole**, in messages of at most 32 KiB, and every call of `Write` reports its
full length, wherever the pieces end. -/
theorem copyLog_complete (hconn : ∀ sent message, conn sent message = none)
    {pieces : List (List UInt8)} (h : IsText pieces.flatten) :
    (copyLog conn [] pieces).2.flatten = pieces.flatten ∧
      (∀ message ∈ (copyLog conn [] pieces).2, message.length ≤ 32 * 1024) ∧
      (copyLog conn [] pieces).1 = pieces.map fun p => (p.length, none) := by
  have hruns := shortRuns_of_mem h
  rw [copyLog_eq hconn hruns, List.nil_append]
  refine ⟨?_, ?_, rfl⟩
  · clear h
    induction pieces with
    | nil => rfl
    | cons p pieces ih =>
        obtain ⟨hp, hpieces⟩ := List.forall_mem_cons.mp hruns
        rw [List.flatMap_cons, List.flatten_append, (wsTextWriter_joined hp).1, List.flatten_cons,
          ih hpieces]
  · intro message hmessage
    obtain ⟨p, -, hmem⟩ := List.mem_flatMap.mp hmessage
    exact wsTextWriter_short_messages p message hmem

/-- **Every message is a text exactly if every piece is**; everything else about the log is right
wherever its pieces end. -/
theorem copied_iff (hconn : ∀ sent message, conn sent message = none)
    {pieces : List (List UInt8)} (h : IsText pieces.flatten) :
    Copied conn pieces ↔ ∀ p ∈ pieces, IsText p := by
  have hruns := shortRuns_of_mem h
  obtain ⟨hjoined, hshort, hreported⟩ := copyLog_complete hconn h
  have hsent : (copyLog conn [] pieces).2 = pieces.flatMap fun p => (wsTextWriter p).1 := by
    rw [copyLog_eq hconn hruns, List.nil_append]
  constructor
  · rintro ⟨-, htexts, -, -⟩ p hp
    rw [← (wsTextWriter_joined (hruns p hp)).1]
    refine isText_flatten fun message hmessage => htexts message ?_
    rw [hsent]
    exact List.mem_flatMap.mpr ⟨p, hp, hmessage⟩
  · intro hpieces
    refine ⟨hjoined, fun message hmessage => ?_, hshort, hreported⟩
    rw [hsent] at hmessage
    obtain ⟨p, hp, hmem⟩ := List.mem_flatMap.mp hmessage
    obtain ⟨cs, rfl⟩ := hpieces p hp
    obtain ⟨texts, hwrite, -⟩ := write_encode cs
    rw [hwrite] at hmem
    obtain ⟨t, -, rfl⟩ := List.mem_map.mp hmem
    exact ⟨t, rfl⟩

end

/-- A connection that takes every message. -/
def openConn : WsConn := fun _ _ => none

theorem openConn_takes (sent : List (List UInt8)) (message : List UInt8) :
    openConn sent message = none := rfl

/-- A log whose pieces end where characters do. -/
theorem copied_pieces : Copied openConn [encode ['a', 'ż'], encode ['ó']] := by
  have hpieces : ∀ p ∈ [encode ['a', 'ż'], encode ['ó']], IsText p :=
    List.forall_mem_cons.mpr ⟨⟨_, rfl⟩, List.forall_mem_singleton.mpr ⟨_, rfl⟩⟩
  exact (copied_iff openConn_takes (isText_flatten hpieces)).mpr hpieces

/-- A character whose bytes are read in two pieces is sent as two messages that are no texts. -/
theorem character_can_be_split :
    ¬ ∀ (conn : WsConn) (pieces : List (List UInt8)), (∀ sent message, conn sent message = none) →
      IsText pieces.flatten → Copied conn pieces := by
  intro h
  have htext : IsText [[(0xC5 : UInt8)], [0xBC]].flatten := ⟨['ż'], by decide⟩
  have hcopied := h openConn [[0xC5], [0xBC]] openConn_takes htext
  have hsent : (copyLog openConn [] [[0xC5], [0xBC]]).2 = [[0xC5], [0xBC]] := by
    rw [copyLog_eq openConn_takes (shortRuns_of_mem htext), List.flatMap_cons, List.flatMap_cons,
      wsTextWriter_short (by decide) (by decide), wsTextWriter_short (by decide) (by decide)]
    rfl
  obtain ⟨cs, hcs⟩ := hcopied.texts [0xC5] (by rw [hsent]; exact List.mem_cons_self)
  have hnone : textOf [0xC5] = none := by decide
  rw [← hcs, textOf_encode] at hnone
  cases hnone

end Contiwatch
