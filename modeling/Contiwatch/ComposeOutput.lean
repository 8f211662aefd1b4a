import Contiwatch.Lib.GoBytes
import Mathlib.Tactic.SplitIfs

/-!
# The Output of Docker Compose

`composeOutput` of `internal/server/compose_output.go` takes what Docker Compose prints and keeps
the last 64 KiB of it. `Write` appends to the bytes that are kept, drops some of them first, or
drops them all. An index of a slice may lie outside of it, and a run that got there would panic.

## Main results

* `run_writes` — after any writes the last 64 KiB of all of them are kept, `truncated` says whether
  there was more, every write reports its full length, and none panics.
* `boundedComposeOutput_short` — the diagnostics are a text of bounded length.
* `boundedComposeOutput_suffix` — they end as the output does.
-/

namespace Contiwatch

open Unicode GoBytes

/-! ### `Write` -/

/-- `composeOutputLimit`. -/
def composeOutputLimit : ℕ := 64 * 1024

/-- `composeOutput`. -/
structure ComposeOutput where
  data : List UInt8
  truncated : Bool
  deriving DecidableEq

/-- `&composeOutput{}`. -/
def ComposeOutput.new : ComposeOutput := ⟨[], false⟩

/-- `s[low:]`, which panics if `low` is greater than the length of `s`. -/
def sliceFrom (s : List UInt8) (low : ℕ) : Option (List UInt8) :=
  if low ≤ s.length then some (s.drop low) else none

/-- What a call of `Write` returns: the length that it reports, and its error. -/
abbrev WriteResult := ℕ × Option String

/-- `composeOutput.Write`; `none` is a panic. -/
def ComposeOutput.write (o : ComposeOutput) (data : List UInt8) :
    Option (WriteResult × ComposeOutput) :=
  let n := data.length
  if o.data.length + n > composeOutputLimit then
    if n ≥ composeOutputLimit then do
      let kept ← sliceFrom data (n - composeOutputLimit)
      return ((n, none), ⟨kept, true⟩)
    else do
      let kept ← sliceFrom o.data (o.data.length + n - composeOutputLimit)
      return ((n, none), ⟨kept ++ data, true⟩)
  else some ((n, none), { o with data := o.data ++ data })

/-- Calls of `Write` one after the other, with what they return. -/
def ComposeOutput.run (o : ComposeOutput) : List (List UInt8) →
    Option (List WriteResult × ComposeOutput)
  | [] => some ([], o)
  | data :: writes => do
      let (result, o) ← o.write data
      let (results, o) ← o.run writes
      return (result :: results, o)

/-! ### What is kept -/

/-- The output holds the last bytes of all that was written. -/
structure Retains (o : ComposeOutput) (written : List UInt8) : Prop where
  data : o.data = written.rtake composeOutputLimit
  truncated : o.truncated = decide (composeOutputLimit < written.length)

/-- The last `n` elements are at most `n`. -/
theorem length_rtake {α : Type} (l : List α) (n : ℕ) : (l.rtake n).length = min l.length n := by
  rw [List.rtake, List.length_drop]
  omega

/-- The last elements are in the part that is appended, if it is long enough. -/
theorem rtake_append_of_le {α : Type} {l m : List α} {n : ℕ} (h : n ≤ m.length) :
    (l ++ m).rtake n = m.drop (m.length - n) := by
  have hlength : (l ++ m).length - n = l.length + (m.length - n) := by
    rw [List.length_append]
    omega
  rw [List.rtake, hlength, List.drop_length_add_append]

/-- Otherwise they are the last ones of both parts. -/
theorem rtake_append_of_ge {α : Type} {l m : List α} {n : ℕ} (h : m.length ≤ n) :
    (l ++ m).rtake n = l.rtake (n - m.length) ++ m := by
  have hlength : (l ++ m).length - n = l.length - (n - m.length) := by
    rw [List.length_append]
    omega
  rw [List.rtake, hlength, List.drop_append_of_le_length (Nat.sub_le _ _), List.rtake]

/-- As many of the last elements, if both numbers leave out the same ones. -/
theorem rtake_congr {α : Type} {l : List α} {k n : ℕ} (h : l.length - k = l.length - n) :
    l.rtake k = l.rtake n := by
  rw [List.rtake, h, List.rtake]

/-- The last ones among the last ones. -/
theorem drop_rtake {α : Type} {l : List α} {k n : ℕ} (h : k ≤ n) :
    (l.rtake n).drop ((l.rtake n).length - k) = l.rtake k := by
  rw [length_rtake, List.rtake, List.drop_drop, List.rtake]
  congr 1
  omega

variable {o : ComposeOutput} {written : List UInt8}

/-- A new output retains nothing. -/
theorem retains_new : Retains .new [] := ⟨rfl, rfl⟩

/-- **A write** keeps what is to be kept, and reports its full length. -/
theorem Retains.write (h : Retains o written) (data : List UInt8) :
    ∃ o', o.write data = some ((data.length, none), o') ∧ Retains o' (written ++ data) := by
  have hkept : o.data.length = min written.length composeOutputLimit := by
    rw [h.data, length_rtake]
  by_cases hfits : o.data.length + data.length > composeOutputLimit
  · have hmore : composeOutputLimit < (written ++ data).length := by
      rw [List.length_append]
      omega
    by_cases hlong : data.length ≥ composeOutputLimit
    · -- only bytes of this write are left
      refine ⟨⟨data.drop (data.length - composeOutputLimit), true⟩, ?_, ?_, ?_⟩
      · simp only [ComposeOutput.write, if_pos hfits, if_pos hlong, sliceFrom,
          if_pos (Nat.sub_le _ _)]
        rfl
      · rw [rtake_append_of_le hlong]
      · exact (decide_eq_true hmore).symm
    · -- the first bytes of those that were kept make room
      have hroom : o.data.length + data.length - composeOutputLimit =
          o.data.length - (composeOutputLimit - data.length) := by
        omega
      have hdrop : o.data.drop (o.data.length + data.length - composeOutputLimit) =
          written.rtake (composeOutputLimit - data.length) := by
        rw [hroom, h.data]
        exact drop_rtake (Nat.sub_le _ _)
      refine ⟨⟨written.rtake (composeOutputLimit - data.length) ++ data, true⟩, ?_, ?_, ?_⟩
      · have hbound : o.data.length + data.length - composeOutputLimit ≤ o.data.length := by
          omega
        simp only [ComposeOutput.write, if_pos hfits, if_neg hlong, sliceFrom, if_pos hbound, hdrop]
        rfl
      · rw [rtake_append_of_ge (Nat.le_of_not_le hlong)]
      · exact (decide_eq_true hmore).symm
  · have hsame : written.length - composeOutputLimit =
        written.length - (composeOutputLimit - data.length) := by
      omega
    refine ⟨{ o with data := o.data ++ data }, ?_, ?_, ?_⟩
    · simp only [ComposeOutput.write, if_neg hfits]
    · have hle : data.length ≤ composeOutputLimit := by
        omega
      rw [rtake_append_of_ge hle, ← rtake_congr hsame, h.data]
    · have hmore : composeOutputLimit < written.length ↔
          composeOutputLimit < (written ++ data).length := by
        rw [List.length_append]
        omega
      exact h.truncated.trans (decide_eq_decide.mpr hmore)

/-- A run of writes retains the end of what was written. -/
theorem Retains.run (h : Retains o written) (writes : List (List UInt8)) :
    ∃ o', o.run writes = some (writes.map fun data => (data.length, none), o') ∧
      Retains o' (written ++ writes.flatten) := by
  induction writes generalizing o written with
  | nil => exact ⟨o, rfl, by rwa [List.flatten_nil, List.append_nil]⟩
  | cons data writes ih =>
      obtain ⟨o₁, hwrite, h₁⟩ := h.write data
      obtain ⟨o₂, hrun, h₂⟩ := ih h₁
      refine ⟨o₂, ?_, ?_⟩
      · rw [ComposeOutput.run, hwrite]
        simp only [Option.bind_eq_bind, Option.bind_some, hrun]
        rfl
      · rwa [List.append_assoc, ← List.flatten_cons] at h₂

/-- **The last 64 KiB are kept.** After any writes, the data is the last `65536` bytes of all of
them, `truncated` says whether there were more, and every write has reported its full length. -/
theorem run_writes (writes : List (List UInt8)) :
    ∃ o, ComposeOutput.new.run writes = some (writes.map fun data => (data.length, none), o) ∧
      o.data = writes.flatten.drop (writes.flatten.length - 65536) ∧
      o.data.length = min writes.flatten.length 65536 ∧
      (o.truncated = true ↔ 65536 < writes.flatten.length) := by
  obtain ⟨o, hrun, hdata, htruncated⟩ := retains_new.run writes
  rw [List.nil_append] at hdata htruncated
  refine ⟨o, hrun, hdata, ?_, ?_⟩
  · rw [hdata, length_rtake]
    rfl
  · rw [htruncated, decide_eq_true_iff]
    rfl

/-! ### Diagnostics -/

/-- What `cmd.Run` does: its calls of `Write`, since both outputs of the command are one writer, and
the error that it returns. -/
structure CommandRun where
  writes : List (List UInt8)
  err : Option String

/-- The line before diagnostics that have lost their beginning. -/
def truncatedNote : String := "[output truncated; showing final 64 KiB]\n"

/-- `boundedComposeOutput`; `none` is a panic. -/
def boundedComposeOutput (cmd : CommandRun) : Option (List UInt8 × Option String) := do
  let (_, output) ← ComposeOutput.new.run cmd.writes
  let text := toValidUTF8 output.data (bytesOf "?")
  return (if output.truncated then bytesOf truncatedNote ++ text else text, cmd.err)

/-- The diagnostics for everything that a command has printed. -/
def diagnostics (printed : List UInt8) : List UInt8 :=
  (if composeOutputLimit < printed.length then bytesOf truncatedNote else []) ++
    toValidUTF8 (printed.rtake composeOutputLimit) (bytesOf "?")

/-- The diagnostics depend on what was printed, not on the writes in which it came, and the command
ends as it would have. -/
theorem boundedComposeOutput_eq (cmd : CommandRun) :
    boundedComposeOutput cmd = some (diagnostics cmd.writes.flatten, cmd.err) := by
  obtain ⟨o, hrun, hdata, htruncated⟩ := retains_new.run cmd.writes
  rw [List.nil_append] at hdata htruncated
  rw [boundedComposeOutput, hrun]
  simp only [Option.bind_eq_bind, Option.bind_some, hdata, htruncated, diagnostics,
    decide_eq_true_eq]
  split_ifs with hmore
  · rfl
  · rw [List.nil_append]
    rfl

/-- **The diagnostics are short**: at most 64 KiB and the note. -/
theorem boundedComposeOutput_short {cmd : CommandRun} {text : List UInt8} {err : Option String}
    (h : boundedComposeOutput cmd = some (text, err)) :
    text.length ≤ composeOutputLimit + 41 ∧ ∃ cs, encode cs = text := by
  rw [boundedComposeOutput_eq, Option.some.injEq, Prod.mk.injEq] at h
  obtain ⟨rfl, -⟩ := h
  have hnote : (bytesOf truncatedNote).length = 41 := by decide
  obtain ⟨cs, hcs⟩ := exists_encode_toValidUTF8 "?".toList
    (cmd.writes.flatten.rtake composeOutputLimit)
  have hone : (bytesOf "?").length ≤ 1 := by decide
  have hshort := length_toValidUTF8_le hone (cmd.writes.flatten.rtake composeOutputLimit)
  rw [length_rtake] at hshort
  rw [diagnostics]
  split_ifs with hmore
  · refine ⟨?_, truncatedNote.toList ++ cs, ?_⟩
    · rw [List.length_append, hnote]
      omega
    · rw [encode_append, hcs]
      rfl
  · rw [List.nil_append]
    refine ⟨?_, cs, hcs⟩
    omega

/-- **The diagnostics end as the output does**: a text of at most 64 KiB that the command has
printed last is at their end. -/
theorem boundedComposeOutput_suffix {cmd : CommandRun} {text : List UInt8} {err : Option String}
    {cs : List Char} (h : boundedComposeOutput cmd = some (text, err))
    (hlast : encode cs <:+ cmd.writes.flatten) (hshort : (encode cs).length ≤ composeOutputLimit) :
    encode cs <:+ text := by
  rw [boundedComposeOutput_eq, Option.some.injEq, Prod.mk.injEq] at h
  obtain ⟨rfl, -⟩ := h
  have hkept : encode cs <:+ cmd.writes.flatten.rtake composeOutputLimit := by
    refine List.suffix_of_suffix_length_le hlast (List.drop_suffix _ _) ?_
    have hle := hlast.length_le
    rw [length_rtake]
    omega
  exact (suffix_toValidUTF8 hkept).trans (List.suffix_append _ _)

end Contiwatch
