import Contiwatch.Lib.GoBytes
import Mathlib.Data.List.DropRight
import Mathlib.Tactic.SplitIfs

/-!
# Lines of the Helper's Log

`streamContainerLogs` of `internal/dockerwatcher/watcher.go` follows the log of the container that
replaces Contiwatch, and has its lines logged. The log comes in pieces that end anywhere: within a
line, between `\r` and `\n`, or within a character. `logLineWriter` keeps the bytes after the last
`\n` for the next piece; what is left at the end is a line too, if it is not blank.

## Main results

* `logged_eq` — the lines that are logged are the lines of the whole stream that are not blank,
  wherever its pieces end.
* `last_line_is_trimmed` — the last line may lose more than the others.
* `streamContainerLogs_level` — the two outputs of the helper do not mix.
-/

namespace Contiwatch

open Unicode GoBytes

/-! ### `logLineWriter` -/

/-- A call of `logFn`. -/
structure LogCall where
  level : String
  message : List UInt8
  deriving DecidableEq

/-- `logLineWriter`, whose calls of `logFn` are results here. -/
structure LogLineWriter where
  level : String
  buf : List UInt8

/-- `\n`. -/
def newline : UInt8 := 0x0A

/-- `strings.TrimRight(line, "\r")`. -/
def trimCR (line : List UInt8) : List UInt8 := line.rdropWhile (· == 0x0D)

/-- The loop of `Write`. -/
def LogLineWriter.drain (w : LogLineWriter) : List LogCall × LogLineWriter :=
  match _h : w.buf.idxOf? newline with
  | none => ([], w)
  | some idx =>
      let line := trimCR (w.buf.take idx)
      let (calls, rest) := LogLineWriter.drain { w with buf := w.buf.drop (idx + 1) }
      (if trimSpace line ≠ [] then ⟨w.level, line⟩ :: calls else calls, rest)
termination_by w.buf.length
decreasing_by
  have hne : w.buf ≠ [] := fun hnil => by simp [hnil] at _h
  have hpos := List.length_pos_of_ne_nil hne
  rw [List.length_drop]
  omega

/-- `logLineWriter.Write`: the length that it reports, which comes without an error, and its calls
of `logFn`. -/
def LogLineWriter.write (w : LogLineWriter) (p : List UInt8) :
    ℕ × List LogCall × LogLineWriter :=
  (p.length, LogLineWriter.drain { w with buf := w.buf ++ p })

/-- `logLineWriter.Flush`. -/
def LogLineWriter.flush (w : LogLineWriter) : List LogCall × LogLineWriter :=
  let line := trimSpace w.buf
  (if line ≠ [] then [⟨w.level, line⟩] else [], { w with buf := [] })

/-- Calls of `Write` one after the other. -/
def LogLineWriter.writeAll (w : LogLineWriter) : List (List UInt8) → List LogCall × LogLineWriter
  | [] => ([], w)
  | p :: writes =>
      let (_, calls, w) := w.write p
      let (rest, w) := w.writeAll writes
      (calls ++ rest, w)

/-- The calls of `logFn` for writes that one `Flush` follows. -/
def logged (level : String) (writes : List (List UInt8)) : List LogCall :=
  let (calls, w) := LogLineWriter.writeAll ⟨level, []⟩ writes
  calls ++ w.flush.1

/-! ### The lines of a stream -/

/-- The lines of a stream. -/
def streamLines (stream : List UInt8) : List (List UInt8) := stream.splitOn newline

/-- A line has a rune that is not a blank. -/
def nonBlank (line : List UInt8) : Bool := (runes line).any fun a => !GoText.isSpace a

/-- The lines of a stream that are not blank, as they are to be logged: without the `\r` at their
ends and, if no `\n` ends the last one, that one without the blanks around it. -/
def loggedLines (stream : List UInt8) : List (List UInt8) :=
  ((streamLines stream).dropLast.filter nonBlank).map trimCR ++
    ((streamLines stream).getLast?.toList.filter nonBlank).map trimSpace

variable {line rest stream : List UInt8}

/-- Blank is what trimming leaves nothing of. -/
theorem nonBlank_iff : nonBlank line = true ↔ trimSpace line ≠ [] := by
  rw [ne_eq, trimSpace_eq_nil, nonBlank, List.any_eq_true]
  push Not
  simp only [Bool.not_eq_true', Bool.not_eq_true]

/-- The `\r` at the end of a line are blanks. -/
theorem nonBlank_trimCR (line : List UInt8) : nonBlank (trimCR line) = nonBlank line := by
  obtain ⟨n, hn⟩ : ∃ n, line.rtakeWhile (· == 0x0D) = encode (List.replicate n '\r') := by
    refine ⟨(line.rtakeWhile (· == 0x0D)).length, ?_⟩
    have hcr : ∀ n, encode (List.replicate n '\r') = List.replicate n 0x0D := by
      intro n
      induction n with
      | zero => rfl
      | succ n ih => rw [List.replicate_succ, List.replicate_succ, encode_cons, ih]; rfl
    rw [hcr]
    refine List.eq_replicate_of_mem fun b hb => ?_
    exact beq_iff_eq.mp (List.mem_rtakeWhile_imp (p := (· == 0x0D)) hb)
  have hruns : runes line = runes (trimCR line) ++ (List.replicate n '\r').map .char := by
    rw [← runes_encode, ← runes_append (runeStart_head_encode _), ← hn, trimCR,
      List.rdropWhile_append_rtakeWhile]
  have hblank :
      ((List.replicate n '\r').map Rune.char).any (fun a => !GoText.isSpace a) = false := by
    rw [List.any_eq_false]
    intro a ha
    rw [List.map_replicate] at ha
    rw [List.eq_of_mem_replicate ha]
    decide
  rw [nonBlank, nonBlank, hruns, List.any_append, hblank, Bool.or_false]

/-- **A stream by its lines**: a line and the stream after it, or a line that nothing ends. -/
theorem lines_induction {motive : List UInt8 → Prop}
    (last : ∀ stream, newline ∉ stream → motive stream)
    (line : ∀ line rest, newline ∉ line → motive rest → motive (line ++ newline :: rest))
    (stream : List UInt8) : motive stream := by
  induction hn : stream.length using Nat.strong_induction_on generalizing stream with
  | h n ih =>
  by_cases hmem : newline ∈ stream
  · obtain ⟨first, rest, rfl, hfirst⟩ := List.eq_append_cons_of_mem hmem
    have hshorter : rest.length < n := by
      rw [List.length_append, List.length_cons] at hn
      omega
    exact line first rest hfirst (ih _ hshorter rest rfl)
  · exact last stream hmem

/-- Without a line break there is one line. -/
theorem streamLines_of_not_mem (h : newline ∉ stream) : streamLines stream = [stream] :=
  List.splitOn_eq_singleton h

/-- A line break ends a line. -/
theorem streamLines_append (h : newline ∉ line) (rest : List UInt8) :
    streamLines (line ++ newline :: rest) = line :: streamLines rest :=
  List.splitOn_append_cons_self_of_not_mem h rest

/-- The last line is trimmed when it is flushed. -/
theorem loggedLines_of_not_mem (h : newline ∉ stream) :
    loggedLines stream = ([stream].filter nonBlank).map trimSpace := by
  rw [loggedLines, streamLines_of_not_mem h]
  rfl

/-- A line that is complete loses its `\r` only. -/
theorem loggedLines_append (h : newline ∉ line) (rest : List UInt8) :
    loggedLines (line ++ newline :: rest) =
      ([line].filter nonBlank).map trimCR ++ loggedLines rest := by
  have hne : streamLines rest ≠ [] := List.splitOn_ne_nil _ _
  rw [loggedLines, loggedLines, streamLines_append h, List.dropLast_cons_of_ne_nil hne,
    List.getLast?_cons_of_ne_nil hne, ← List.singleton_append, List.filter_append, List.map_append,
    List.append_assoc]

/-! ### The loop -/

/-- Without a line break nothing is logged yet. -/
theorem drain_of_not_mem {w : LogLineWriter} (h : newline ∉ w.buf) : w.drain = ([], w) := by
  rw [LogLineWriter.drain]
  split
  · rfl
  · rename_i idx hidx
    rw [List.idxOf?_eq_none_iff.mpr h] at hidx
    cases hidx

/-- The first line break is where the line ends. -/
theorem idxOf?_newline (h : newline ∉ line) (rest : List UInt8) :
    (line ++ newline :: rest).idxOf? newline = some line.length := by
  have hnone := List.idxOf?_eq_none_iff.mpr h
  rw [List.idxOf?] at hnone ⊢
  rw [List.findIdx?_append, hnone, List.findIdx?_cons, if_pos (beq_self_eq_true newline)]
  simp

/-- **One line**: it is logged if it is not blank, and the loop goes on after it. -/
theorem drain_append (h : newline ∉ line) (level : String) (rest : List UInt8) :
    LogLineWriter.drain ⟨level, line ++ newline :: rest⟩ =
      ((([line].filter nonBlank).map trimCR).map (⟨level, ·⟩) ++
        (LogLineWriter.drain ⟨level, rest⟩).1, (LogLineWriter.drain ⟨level, rest⟩).2) := by
  rw [LogLineWriter.drain]
  split
  · rename_i hnone
    rw [idxOf?_newline h] at hnone
    cases hnone
  · rename_i idx hidx
    rw [idxOf?_newline h, Option.some.injEq] at hidx
    subst hidx
    have hdrop : (line ++ newline :: rest).drop (line.length + 1) = rest := by
      rw [List.drop_length_add_append, List.drop_succ_cons, List.drop_zero]
    dsimp only
    rw [List.take_left, hdrop]
    have hblank : trimSpace (trimCR line) ≠ [] ↔ nonBlank line = true := by
      rw [← nonBlank_iff, nonBlank_trimCR]
    by_cases hline : nonBlank line = true
    · rw [if_pos (hblank.mpr hline), List.filter_cons_of_pos hline]
      rfl
    · rw [if_neg (fun hne => hline (hblank.mp hne)), List.filter_cons_of_neg hline]
      rfl

/-- The loop leaves what no `\n` ends. -/
theorem exists_drain_eq (level : String) (buf : List UInt8) :
    ∃ rest, newline ∉ rest ∧ (LogLineWriter.drain ⟨level, buf⟩).2 = ⟨level, rest⟩ := by
  induction buf using lines_induction with
  | last buf h => exact ⟨buf, h, by rw [drain_of_not_mem h]⟩
  | line line rest h ih => rwa [drain_append h]

/-- **A write after a loop** goes on as one loop over all bytes would have. -/
theorem drain_write (level : String) (buf p : List UInt8) :
    LogLineWriter.drain ⟨level, buf ++ p⟩ =
      ((LogLineWriter.drain ⟨level, buf⟩).1 ++ ((LogLineWriter.drain ⟨level, buf⟩).2.write p).2.1,
        ((LogLineWriter.drain ⟨level, buf⟩).2.write p).2.2) := by
  induction buf using lines_induction with
  | last buf h => rw [drain_of_not_mem (w := ⟨level, buf⟩) h, List.nil_append, LogLineWriter.write]
  | line line rest h ih =>
      rw [List.append_assoc, List.cons_append, drain_append h, drain_append h, ih,
        List.append_assoc]

/-- What the loop logs and leaves, with the last line at the end. -/
theorem drain_flush (level : String) (stream : List UInt8) :
    (LogLineWriter.drain ⟨level, stream⟩).1 ++ (LogLineWriter.drain ⟨level, stream⟩).2.flush.1 =
      (loggedLines stream).map (⟨level, ·⟩) := by
  induction stream using lines_induction with
  | last stream h =>
      rw [drain_of_not_mem h, loggedLines_of_not_mem h, List.nil_append, LogLineWriter.flush]
      by_cases hblank : nonBlank stream = true
      · rw [if_pos (nonBlank_iff.mp hblank), List.filter_cons_of_pos hblank]
        rfl
      · rw [if_neg (fun hne => hblank (nonBlank_iff.mpr hne)), List.filter_cons_of_neg hblank]
        rfl
  | line line rest h ih =>
      rw [drain_append h, loggedLines_append h, List.map_append, ← ih, List.append_assoc]

/-! ### Writes -/

/-- **Writes are one loop** over all of their bytes. -/
theorem writeAll_eq {level : String} {buf : List UInt8} (h : newline ∉ buf)
    (writes : List (List UInt8)) :
    LogLineWriter.writeAll ⟨level, buf⟩ writes =
      LogLineWriter.drain ⟨level, buf ++ writes.flatten⟩ := by
  induction writes generalizing buf with
  | nil => rw [List.flatten_nil, List.append_nil, drain_of_not_mem h, LogLineWriter.writeAll]
  | cons p writes ih =>
      obtain ⟨rest, hnewline, hrest⟩ := exists_drain_eq level (buf ++ p)
      rw [LogLineWriter.writeAll, LogLineWriter.write, List.flatten_cons, ← List.append_assoc,
        drain_write level (buf ++ p), hrest]
      dsimp only
      rw [hrest, ih hnewline, LogLineWriter.write]

/-- **The lines are logged wherever the writes end**: the calls of `logFn` are those for the whole
stream in one write, the lines of it that are not blank, in order. -/
theorem logged_eq (level : String) (writes : List (List UInt8)) :
    logged level writes = logged level [writes.flatten] ∧
      logged level writes = (loggedLines writes.flatten).map (⟨level, ·⟩) := by
  have hlogged : ∀ writes : List (List UInt8),
      logged level writes = (loggedLines writes.flatten).map (⟨level, ·⟩) := by
    intro writes
    rw [logged, writeAll_eq List.not_mem_nil, List.nil_append, ← drain_flush]
  refine ⟨?_, hlogged writes⟩
  rw [hlogged, hlogged, List.flatten_singleton]

/-- `" a"` is logged as it is if `\n` ends it, and without its blank if not: no text that a line
could be logged with makes the calls of `logFn` the lines that are not blank. -/
theorem last_line_is_trimmed :
    ¬ ∃ text : List UInt8 → List UInt8, ∀ level writes, logged level writes =
      (((streamLines writes.flatten).filter nonBlank).map text).map (⟨level, ·⟩) := by
  rintro ⟨text, h⟩
  have hended := h "info" [[0x20, 0x61, 0x0A]]
  have hopen := h "info" [[0x20, 0x61]]
  rw [(logged_eq _ _).2] at hended hopen
  have hlines : ((streamLines [0x20, 0x61, 0x0A]).filter nonBlank) = [[0x20, 0x61]] ∧
      ((streamLines [0x20, 0x61]).filter nonBlank) = [[0x20, 0x61]] := by decide
  have hlogged : loggedLines [0x20, 0x61, 0x0A] = [[0x20, 0x61]] ∧
      loggedLines [0x20, 0x61] = [[0x61]] := by decide
  rw [List.flatten_singleton, hlines.1, hlogged.1] at hended
  rw [List.flatten_singleton, hlines.2, hlogged.2] at hopen
  simp only [List.map_cons, List.map_nil, List.cons.injEq, LogCall.mk.injEq, true_and,
    and_true] at hended hopen
  rw [← hended] at hopen
  revert hopen
  decide

/-! ### Both outputs of the helper -/

/-- The level of an output of the helper: standard error is the output `true`. -/
def outputLevel (stderr : Bool) : String := if stderr then "warn" else "info"

/-- `stdcopy.StdCopy`: the frames of a log are written one after the other, each to the writer of
its output. -/
def copyFrames (writers : Bool → LogLineWriter) : List (Bool × List UInt8) →
    List LogCall × (Bool → LogLineWriter)
  | [] => ([], writers)
  | (stderr, p) :: frames =>
      let (_, calls, w) := (writers stderr).write p
      let (rest, writers) := copyFrames (Function.update writers stderr w) frames
      (calls ++ rest, writers)

/-- The writer of each output of the helper. -/
def helperWriters (stderr : Bool) : LogLineWriter := ⟨outputLevel stderr, []⟩

/-- `streamContainerLogs`, for the error or the frames that the daemon answers with. -/
def streamContainerLogs (logs : Except String (List (Bool × List UInt8))) : List LogCall :=
  match logs with
  | .error err => [⟨"warn", bytesOf ("self-update helper logs unavailable: " ++ err)⟩]
  | .ok frames =>
      let (calls, writers) := copyFrames helperWriters frames
      calls ++ (writers false).flush.1 ++ (writers true).flush.1

/-- What was written to an output. -/
def writtenTo (stderr : Bool) (frames : List (Bool × List UInt8)) : List (List UInt8) :=
  (frames.filter (·.1 == stderr)).map (·.2)

/-- Each frame goes to the writer of its stream. -/
theorem writtenTo_cons (stderr b : Bool) (p : List UInt8) (frames : List (Bool × List UInt8)) :
    writtenTo b ((stderr, p) :: frames) =
      if stderr = b then p :: writtenTo b frames else writtenTo b frames := by
  simp only [writtenTo, List.filter_cons, beq_iff_eq]
  split_ifs
  · rfl
  · rfl

/-- All calls of a loop have the level of its writer. -/
theorem level_of_mem_drain {level : String} {buf : List UInt8} {call : LogCall}
    (h : call ∈ (LogLineWriter.drain ⟨level, buf⟩).1) : call.level = level := by
  induction buf using lines_induction with
  | last buf hbuf =>
      rw [drain_of_not_mem hbuf] at h
      cases h
  | line line rest hline ih =>
      rw [drain_append hline, List.mem_append] at h
      rcases h with h | h
      · obtain ⟨message, -, rfl⟩ := List.mem_map.mp h
        rfl
      · exact ih h

/-- What is flushed is logged at the writer's level. -/
theorem level_of_mem_flush {w : LogLineWriter} {call : LogCall} (h : call ∈ w.flush.1) :
    call.level = w.level := by
  dsimp only [LogLineWriter.flush] at h
  by_cases hline : trimSpace w.buf ≠ []
  · rw [if_pos hline, List.mem_singleton] at h
    rw [h]
  · rw [if_neg hline] at h
    cases h

/-- A write keeps the level. -/
theorem level_write (w : LogLineWriter) (p : List UInt8) : (w.write p).2.2.level = w.level := by
  obtain ⟨rest, -, hrest⟩ := exists_drain_eq w.level (w.buf ++ p)
  rw [LogLineWriter.write, hrest]

/-- So do many. -/
theorem level_writeAll (w : LogLineWriter) (writes : List (List UInt8)) :
    (w.writeAll writes).2.level = w.level := by
  induction writes generalizing w with
  | nil => rfl
  | cons p writes ih =>
      rw [LogLineWriter.writeAll]
      exact (ih _).trans (level_write w p)

/-- The two streams have different levels. -/
theorem outputLevel_inj : ∀ {b b' : Bool}, outputLevel b = outputLevel b' → b = b' := by
  decide

/-- Calls of one writer are all of its level, and none of them is of another's. -/
theorem filter_level {calls : List LogCall} {b : Bool}
    (h : ∀ call ∈ calls, call.level = outputLevel b) (b' : Bool) :
    calls.filter (·.level == outputLevel b') = if b = b' then calls else [] := by
  split_ifs with heq
  · rw [List.filter_eq_self, ← heq]
    exact fun call hcall => beq_iff_eq.mpr (h call hcall)
  · rw [List.filter_eq_nil_iff]
    intro call hcall hlevel
    rw [beq_iff_eq, h call hcall] at hlevel
    exact heq (outputLevel_inj hlevel)

/-- **Each frame goes to its output**: a writer logs and keeps what it would have done if its frames
were the only ones. -/
theorem copyFrames_eq {writers : Bool → LogLineWriter}
    (hlevel : ∀ b, (writers b).level = outputLevel b) (frames : List (Bool × List UInt8))
    (b : Bool) :
    (copyFrames writers frames).1.filter (·.level == outputLevel b) =
        ((writers b).writeAll (writtenTo b frames)).1 ∧
      (copyFrames writers frames).2 b = ((writers b).writeAll (writtenTo b frames)).2 := by
  induction frames generalizing writers with
  | nil => exact ⟨rfl, rfl⟩
  | cons frame frames ih =>
      obtain ⟨stderr, p⟩ := frame
      have hwriters : ∀ b, (Function.update writers stderr ((writers stderr).write p).2.2 b).level =
          outputLevel b := by
        intro b
        rw [Function.update_apply]
        split_ifs with hb
        · rw [level_write, hb, hlevel]
        · exact hlevel b
      have hcalls : ∀ call ∈ ((writers stderr).write p).2.1, call.level = outputLevel stderr :=
        fun call hcall => (level_of_mem_drain hcall).trans (hlevel stderr)
      obtain ⟨hfilter, hwriter⟩ := ih hwriters
      rw [copyFrames]
      dsimp only
      rw [List.filter_append, hfilter, hwriter, filter_level hcalls, Function.update_apply,
        writtenTo_cons]
      by_cases hb : stderr = b
      · rw [if_pos hb, if_pos hb.symm, if_pos hb, LogLineWriter.writeAll, hb]
        exact ⟨rfl, rfl⟩
      · rw [if_neg hb, if_neg (Ne.symm hb), if_neg hb]
        exact ⟨rfl, rfl⟩

/-- **The outputs do not mix**: the calls of `logFn` with the level of an output are those for the
lines of that output, however its frames lie among those of the other. -/
theorem streamContainerLogs_level (frames : List (Bool × List UInt8)) (b : Bool) :
    (streamContainerLogs (.ok frames)).filter (·.level == outputLevel b) =
      (loggedLines (writtenTo b frames).flatten).map (⟨outputLevel b, ·⟩) := by
  have hlevel : ∀ b, (helperWriters b).level = outputLevel b := fun b => rfl
  have hcopy := copyFrames_eq hlevel frames
  have hflush : ∀ b, ∀ call ∈ ((copyFrames helperWriters frames).2 b).flush.1,
      call.level = outputLevel b := by
    intro b call hcall
    rw [level_of_mem_flush hcall, (hcopy b).2, level_writeAll]
    rfl
  rw [← (logged_eq _ _).2, logged, streamContainerLogs]
  dsimp only
  rw [List.filter_append, List.filter_append, (hcopy b).1, filter_level (hflush false),
    filter_level (hflush true), (hcopy false).2, (hcopy true).2]
  cases b with
  | false => rw [if_pos rfl, if_neg Bool.noConfusion, List.append_nil]; rfl
  | true => rw [if_neg Bool.noConfusion, if_pos rfl, List.append_nil]; rfl

end Contiwatch
