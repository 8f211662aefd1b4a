import Contiwatch.Lib.GoStrings
import Mathlib.Data.List.Basic

/-!
# Text of Any Bytes

A Go string may hold any bytes. It is read here as its runes, in which a byte that is no part of
valid UTF-8 stands for itself. The functions are those of the `strings` package that work on lines.
A first pass that takes `\r\n` for a line break leaves `\r` alone where it stands before another
`\r\n`, and joining the lines again with `\n` makes a `\r\n` of it.

## Main results

* `replaceCRLF_unlines` — what the replacement of `\r\n` does to lines that were joined with `\n`.
* `unlines_dropCRs_iff` — when this changes nothing.
-/

/-- A rune of a Go string, or a byte that is no part of one. -/
inductive Rune
  | char (c : Char)
  | byte (b : UInt8)
  deriving DecidableEq, Repr

/-- A Go string of any bytes. -/
abbrev GoText := List Rune

namespace GoText

/-- Text without invalid bytes. -/
def ofString (s : String) : GoText := s.toList.map .char

/-- `\n`. -/
def nl : Rune := .char '\n'

/-- `\r`. -/
def cr : Rune := .char '\r'

/-- `unicode.IsSpace`; an invalid byte is no blank. -/
def isSpace : Rune → Bool
  | .char c => GoStrings.isSpace c
  | .byte _ => false

/-- `strings.TrimSpace`. -/
def trimSpace (t : GoText) : GoText :=
  ((t.dropWhile isSpace).reverse.dropWhile isSpace).reverse

/-- `strings.ReplaceAll(t, "\r\n", "\n")`. -/
def replaceCRLF : GoText → GoText
  | a :: b :: rest =>
      if a = cr ∧ b = nl then nl :: replaceCRLF rest else a :: replaceCRLF (b :: rest)
  | t => t

/-- `strings.Split(t, "\n")`. -/
def lines (t : GoText) : List GoText := t.splitOn nl

/-- `strings.Join(ls, "\n")`. -/
def unlines (ls : List GoText) : GoText := [nl].intercalate ls

/-- `strings.SplitN(t, sep, 2)`: the text before and after the first `sep`, if there is one. -/
def cut (sep : Rune) : GoText → Option (GoText × GoText)
  | [] => none
  | a :: rest => if a = sep then some ([], rest)
      else (cut sep rest).map fun p => (a :: p.1, p.2)

/-- What the encoding as JSON makes of a rune: an invalid byte is replaced by U+FFFD. -/
def validRune : Rune → Rune
  | .char c => .char c
  | .byte _ => .char '\uFFFD'

/-- Text after it was sent as JSON. -/
def toValid (t : GoText) : GoText := t.map validRune

/-! ### Blanks -/

variable {t l : GoText}

/-- A trimmed text begins with the first rune that is no blank. -/
theorem head?_trimSpace (t : GoText) : (trimSpace t).head? = (t.dropWhile isSpace).head? :=
  GoStrings.head?_trim isSpace t

/-- Only blanks are trimmed to nothing. -/
theorem trimSpace_eq_nil : trimSpace t = [] ↔ (t.dropWhile isSpace).head? = none := by
  rw [← head?_trimSpace, List.head?_eq_none_iff]

/-- A text without blanks is not trimmed. -/
theorem trimSpace_of_not_space (h : ∀ a ∈ t, isSpace a = false) : trimSpace t = t :=
  GoStrings.trim_of_forall h

/-- Trimming adds no rune. -/
theorem mem_of_mem_trimSpace {a : Rune} (h : a ∈ trimSpace t) : a ∈ t := by
  rw [trimSpace, List.mem_reverse] at h
  have hrev := (List.dropWhile_sublist isSpace).subset h
  rw [List.mem_reverse] at hrev
  exact (List.dropWhile_sublist isSpace).subset hrev

/-- Trimming takes only blanks. -/
theorem mem_trimSpace_of_not_space {a : Rune} (h : a ∈ t) (ha : isSpace a = false) :
    a ∈ trimSpace t := by
  have hdrop : ∀ l : GoText, a ∈ l → a ∈ l.dropWhile isSpace := by
    intro l hl
    rw [← List.takeWhile_append_dropWhile (p := isSpace) (l := l), List.mem_append] at hl
    refine hl.resolve_left fun htake => ?_
    rw [List.all_eq_true.mp List.all_takeWhile a htake] at ha
    cases ha
  rw [trimSpace, List.mem_reverse]
  exact hdrop _ (List.mem_reverse.mpr (hdrop t h))

/-! ### Line breaks -/

/-- A line without the `\r` at its end. -/
def dropCR (l : GoText) : GoText := if l.getLast? = some cr then l.dropLast else l

/-- All lines but the last without the `\r` at their ends. -/
def dropCRs : List GoText → List GoText
  | l :: l' :: rest => dropCR l :: dropCRs (l' :: rest)
  | ls => ls

/-- Only the last rune of a line may be dropped. -/
theorem dropCR_cons_cons (a b : Rune) (l : GoText) :
    dropCR (a :: b :: l) = a :: dropCR (b :: l) := by
  simp only [dropCR, List.getLast?_cons_cons, List.dropLast_cons_cons]
  split <;> rfl

/-- The `\r` at the end of a line that goes on after `a` is not before `a`. -/
theorem dropCR_append_cons {a : Rune} (ha : a ≠ cr) (t l : GoText) :
    dropCR (t ++ a :: l) = t ++ a :: dropCR l := by
  rcases l with _ | ⟨b, l⟩
  · simp [dropCR, ha]
  · have hlast : (t ++ a :: b :: l).getLast? = (b :: l).getLast? := by
      rw [List.getLast?_append, List.getLast?_cons_cons, List.getLast?_cons, Option.some_or]
    simp only [dropCR, hlast]
    split
    · rw [List.dropLast_append_of_ne_nil (List.cons_ne_nil _ _), List.dropLast_cons_cons]
    · rfl

/-- Dropping adds no rune. -/
theorem mem_of_mem_dropCR {a : Rune} (h : a ∈ dropCR l) : a ∈ l := by
  rw [dropCR] at h
  split at h
  · exact (List.dropLast_sublist l).subset h
  · exact h

/-- Within a line nothing is replaced. -/
theorem replaceCRLF_of_not_mem (h : nl ∉ t) : replaceCRLF t = t := by
  induction t with
  | nil => rfl
  | cons a t ih =>
      cases t with
      | nil => rfl
      | cons b t =>
          have hb : b ≠ nl := fun hb => h (by simp [hb])
          rw [replaceCRLF, if_neg fun hab => hb hab.2, ih (List.not_mem_of_not_mem_cons h)]

/-- A line feed at the start stays. -/
theorem replaceCRLF_nl_cons (t : GoText) : replaceCRLF (nl :: t) = nl :: replaceCRLF t := by
  cases t with
  | nil => rfl
  | cons b t =>
      have hne : nl ≠ cr := by decide
      rw [replaceCRLF, if_neg fun h => hne h.1]

/-- The replacement at the end of a line. -/
theorem replaceCRLF_append_nl (h : nl ∉ l) (t : GoText) :
    replaceCRLF (l ++ nl :: t) = dropCR l ++ nl :: replaceCRLF t := by
  induction l with
  | nil => exact replaceCRLF_nl_cons t
  | cons a l ih =>
      cases l with
      | nil =>
          by_cases ha : a = cr
          · subst ha
            simp [replaceCRLF, dropCR]
          · simp [replaceCRLF, dropCR, ha, replaceCRLF_nl_cons]
      | cons b l =>
          have hb : b ≠ nl := fun hb => h (by simp [hb])
          have hstep : replaceCRLF (a :: b :: (l ++ nl :: t)) =
              a :: replaceCRLF (b :: (l ++ nl :: t)) := by
            rw [replaceCRLF, if_neg fun hab => hb hab.2]
          have hrest := ih (List.not_mem_of_not_mem_cons h)
          rw [List.cons_append] at hrest
          rw [dropCR_cons_cons, List.cons_append, List.cons_append, hstep, hrest, List.cons_append]

/-- Lines are joined by line feeds. -/
theorem unlines_cons_cons (l l' : GoText) (rest : List GoText) :
    unlines (l :: l' :: rest) = l ++ nl :: unlines (l' :: rest) := by
  simp [unlines, List.intercalate_cons_cons]

/-- **Joined lines.** After lines are joined with `\n`, the replacement of `\r\n` takes a `\r` from
the end of every line but the last. -/
theorem replaceCRLF_unlines {ls : List GoText} (h : ∀ l ∈ ls, nl ∉ l) :
    replaceCRLF (unlines ls) = unlines (dropCRs ls) := by
  induction ls with
  | nil => rfl
  | cons l ls ih =>
      cases ls with
      | nil =>
          have hl : nl ∉ l := h l (List.mem_cons_self ..)
          simpa [unlines, dropCRs] using replaceCRLF_of_not_mem hl
      | cons l' rest =>
          have hrest : ∀ l ∈ l' :: rest, nl ∉ l := fun l hl => h l (List.mem_cons_of_mem _ hl)
          rw [unlines_cons_cons, replaceCRLF_append_nl (h l (List.mem_cons_self ..)), ih hrest,
            dropCRs]
          cases rest with
          | nil => rw [dropCRs, unlines_cons_cons]; simp
          | cons l'' rest => rw [dropCRs, unlines_cons_cons]

/-! ### When nothing changes -/

/-- What holds of every line with and without a `\r` at its end holds of all lines that are left. -/
theorem forall_mem_dropCRs {ls : List GoText} {p : GoText → Prop}
    (h : ∀ l ∈ ls, p l ∧ p (dropCR l)) : ∀ l ∈ dropCRs ls, p l := by
  induction ls with
  | nil => simp [dropCRs]
  | cons l ls ih =>
      rw [List.forall_mem_cons] at h
      cases ls with
      | nil => simpa [dropCRs] using h.1.1
      | cons l' rest => exact List.forall_mem_cons.mpr ⟨h.1.2, ih h.2⟩

/-- Lines without line feeds have none after dropping. -/
theorem nl_not_mem_dropCRs {ls : List GoText} (h : ∀ l ∈ ls, nl ∉ l) :
    ∀ l ∈ dropCRs ls, nl ∉ l :=
  forall_mem_dropCRs fun l hl => ⟨h l hl, fun hnl => h l hl (mem_of_mem_dropCR hnl)⟩

/-- No line is dropped. -/
theorem dropCRs_ne_nil {ls : List GoText} (h : ls ≠ []) : dropCRs ls ≠ [] := by
  rcases ls with _ | ⟨l, _ | ⟨l', rest⟩⟩
  · exact absurd rfl h
  · simp [dropCRs]
  · simp [dropCRs]

/-- Lines that are joined are split again. -/
theorem lines_unlines {ls : List GoText} (h : ∀ l ∈ ls, nl ∉ l) (hne : ls ≠ []) :
    lines (unlines ls) = ls :=
  List.splitOn_intercalate nl h hne

/-- No line contains a line break. -/
theorem nl_not_mem_of_mem_lines (h : l ∈ lines t) : nl ∉ l := by
  induction t generalizing l with
  | nil =>
      rw [lines, List.splitOn_nil, List.mem_singleton] at h
      simp [h]
  | cons a t ih =>
      rw [lines, List.splitOn_cons_eq_if_modifyHead] at h
      by_cases ha : (a == nl) = true
      · rw [if_pos ha, List.mem_cons] at h
        rcases h with rfl | h
        · exact List.not_mem_nil
        · exact ih h
      · rw [if_neg ha] at h
        rcases hlines : t.splitOn nl with _ | ⟨first, rest⟩
        · exact absurd hlines (List.splitOn_ne_nil nl t)
        · rw [hlines, List.modifyHead_cons, List.mem_cons] at h
          rcases h with rfl | h
          · have hfirst : nl ∉ first := ih (by rw [lines, hlines]; exact List.mem_cons_self ..)
            rw [List.mem_cons]
            rintro (rfl | hmem)
            · exact ha (beq_self_eq_true nl)
            · exact hfirst hmem
          · exact ih (by rw [lines, hlines]; exact List.mem_cons_of_mem _ h)

/-- Sent as JSON, lines stay lines. -/
theorem toValid_unlines (ls : List GoText) : toValid (unlines ls) = unlines (ls.map toValid) := by
  induction ls with
  | nil => rfl
  | cons l ls ih =>
      cases ls with
      | nil => simp [unlines]
      | cons l' rest =>
          rw [List.map_cons, List.map_cons, unlines_cons_cons, unlines_cons_cons, ← List.map_cons,
            ← ih, toValid, List.map_append, List.map_cons]
          rfl

/-- Only a character becomes a character, but for U+FFFD. -/
theorem validRune_eq_char {a : Rune} {c : Char} (hc : c ≠ '\uFFFD') :
    validRune a = .char c ↔ a = .char c := by
  cases a with
  | char d => exact Iff.rfl
  | byte b => simp [validRune, Ne.symm hc]

/-- So a text has it exactly if it had it before. -/
theorem mem_toValid {c : Char} (hc : c ≠ '\uFFFD') : Rune.char c ∈ toValid t ↔ Rune.char c ∈ t := by
  simp only [toValid, List.mem_map, validRune_eq_char hc]
  exact ⟨fun ⟨a, ha, heq⟩ => heq ▸ ha, fun h => ⟨_, h, rfl⟩⟩

/-- A line that is as long as before has lost nothing. -/
theorem length_dropCR_eq (h : (dropCR l).length = l.length) : dropCR l = l := by
  rw [dropCR] at h ⊢
  split
  · rename_i hlast
    rw [if_pos hlast, List.length_dropLast] at h
    have hne : l ≠ [] := fun hnil => by simp [hnil] at hlast
    have := List.length_pos_iff.mpr hne
    omega
  · rfl

/-- Lines that lose nothing at their ends and have no invalid bytes. -/
theorem map_toValid_dropCRs {ls : List GoText} (h : (dropCRs ls).map toValid = ls) :
    dropCRs ls = ls ∧ ls.map toValid = ls := by
  induction ls with
  | nil => exact ⟨rfl, rfl⟩
  | cons l ls ih =>
      cases ls with
      | nil => exact ⟨rfl, h⟩
      | cons l' rest =>
          rw [dropCRs, List.map_cons, List.cons.injEq] at h
          obtain ⟨hrest, hvalid⟩ := ih h.2
          have hl : dropCR l = l := by
            refine length_dropCR_eq ?_
            have hlength := congrArg List.length h.1
            rwa [toValid, List.length_map] at hlength
          rw [hl] at h
          exact ⟨by rw [dropCRs, hl, hrest], by rw [List.map_cons, h.1, hvalid]⟩

/-- **Joined lines, again.** The replacement of `\r\n` in joined lines changes nothing, and sending
them as JSON changes nothing either, exactly if no line but the last ends in `\r` and no line has
an invalid byte. -/
theorem toValid_unlines_dropCRs_iff {ls : List GoText} (h : ∀ l ∈ ls, nl ∉ l) (hne : ls ≠ []) :
    toValid (unlines (dropCRs ls)) = unlines ls ↔ dropCRs ls = ls ∧ ls.map toValid = ls := by
  rw [toValid_unlines]
  constructor
  · intro heq
    refine map_toValid_dropCRs ?_
    have hvalid : ∀ l ∈ (dropCRs ls).map toValid, nl ∉ l := by
      intro l hl
      obtain ⟨k, hk, rfl⟩ := List.mem_map.mp hl
      exact fun hnl => nl_not_mem_dropCRs h k hk ((mem_toValid (by decide)).mp hnl)
    have hlines := congrArg lines heq
    rwa [lines_unlines hvalid (by simpa using dropCRs_ne_nil hne), lines_unlines h hne] at hlines
  · rintro ⟨hdrop, hvalid⟩
    rw [hdrop, hvalid]

/-- The joined lines are the same exactly if the lines are. -/
theorem unlines_dropCRs_iff {ls : List GoText} (h : ∀ l ∈ ls, nl ∉ l) (hne : ls ≠ []) :
    unlines (dropCRs ls) = unlines ls ↔ dropCRs ls = ls := by
  constructor
  · intro heq
    have hlines := congrArg lines heq
    rwa [lines_unlines (nl_not_mem_dropCRs h) (dropCRs_ne_nil hne), lines_unlines h hne] at hlines
  · exact congrArg unlines

/-- A line loses nothing exactly if it does not end in a carriage return. -/
theorem dropCR_eq_iff : dropCR l = l ↔ l.getLast? ≠ some cr := by
  constructor
  · intro heq hlast
    rw [dropCR, if_pos hlast] at heq
    have hne : l ≠ [] := fun hnil => by simp [hnil] at hlast
    have hlength := congrArg List.length heq
    have hpos := List.length_pos_iff.mpr hne
    rw [List.length_dropLast] at hlength
    omega
  · exact fun hlast => if_neg hlast

/-- Lines keep their ends exactly if no line that is followed by another ends in `\r`. -/
theorem dropCRs_eq_iff {ls : List GoText} :
    dropCRs ls = ls ↔ ls.Pairwise fun l _ => l.getLast? ≠ some cr := by
  induction ls with
  | nil => simp [dropCRs]
  | cons l ls ih =>
      cases ls with
      | nil => simp [dropCRs]
      | cons l' rest =>
          rw [dropCRs, List.cons.injEq, dropCR_eq_iff, ih, List.pairwise_cons (a := l)]
          refine and_congr_left fun _ => ?_
          exact ⟨fun h _ _ => h, fun h => h l' (List.mem_cons_self ..)⟩

/-- Sent as JSON, lines stay as they are exactly if they have no invalid bytes. -/
theorem toValid_eq_iff : toValid t = t ↔ ∀ b, Rune.byte b ∉ t := by
  induction t with
  | nil => simp [toValid]
  | cons a t ih =>
      rw [toValid, List.map_cons, List.cons.injEq]
      change validRune a = a ∧ toValid t = t ↔ _
      rw [ih]
      cases a with
      | char c => simp [validRune]
      | byte b =>
          refine iff_of_false (fun h => ?_) fun h => h b (List.mem_cons_self ..)
          exact absurd h.1 (by simp [validRune])

/-! ### Text that was sent as JSON -/

/-- An invalid byte is no blank, and neither is what replaces it. -/
theorem isSpace_validRune (a : Rune) : isSpace (validRune a) = isSpace a := by
  cases a with
  | char c => rfl
  | byte b => exact (by decide : isSpace (.char '\uFFFD') = false)

/-- The first rune after the encoding. -/
theorem head?_toValid (t : GoText) : (toValid t).head? = t.head?.map validRune := by
  rw [toValid, List.head?_map]

/-- Trimming and the encoding can be swapped. -/
theorem trimSpace_toValid (t : GoText) : trimSpace (toValid t) = toValid (trimSpace t) := by
  have hspace : isSpace ∘ validRune = isSpace := funext isSpace_validRune
  simp only [trimSpace, toValid, List.dropWhile_map, ← List.map_reverse, hspace]

/-- So can cutting at a character that no invalid byte becomes. -/
theorem cut_toValid {c : Char} (hc : c ≠ '\uFFFD') (t : GoText) :
    cut (.char c) (toValid t) = (cut (.char c) t).map fun p => (toValid p.1, toValid p.2) := by
  induction t with
  | nil => rfl
  | cons a t ih =>
      rw [toValid, List.map_cons, cut, cut, ← toValid, ih]
      simp only [validRune_eq_char hc]
      split
      · rfl
      · rw [Option.map_map, Option.map_map]
        rfl

/-- So can dropping the carriage return of a line. -/
theorem dropCR_toValid (l : GoText) : dropCR (toValid l) = toValid (dropCR l) := by
  have hcr : (toValid l).getLast? = some cr ↔ l.getLast? = some cr := by
    rw [toValid, List.getLast?_map, Option.map_eq_some_iff]
    constructor
    · rintro ⟨a, ha, heq⟩
      rw [ha, (validRune_eq_char (by decide)).mp heq]
      rfl
    · exact fun h => ⟨cr, h, rfl⟩
  simp only [dropCR, hcr]
  split
  · simp only [toValid, List.map_dropLast]
  · rfl

/-- So can dropping those of all lines but the last. -/
theorem dropCRs_map_toValid (ls : List GoText) :
    dropCRs (ls.map toValid) = (dropCRs ls).map toValid := by
  induction ls with
  | nil => rfl
  | cons l ls ih =>
      cases ls with
      | nil => rfl
      | cons l' rest =>
          rw [List.map_cons] at ih ⊢
          rw [List.map_cons, dropCRs, dropCRs, ih, dropCR_toValid, List.map_cons]

/-- So can replacing the line ends. -/
theorem replaceCRLF_toValid (t : GoText) : replaceCRLF (toValid t) = toValid (replaceCRLF t) := by
  fun_induction replaceCRLF t with
  | case1 a b rest h ih =>
      obtain ⟨rfl, rfl⟩ := h
      rw [toValid, List.map_cons, List.map_cons, replaceCRLF, if_pos ⟨rfl, rfl⟩, ← toValid, ih]
      rfl
  | case2 a b rest h ih =>
      have hab : ¬ (validRune a = cr ∧ validRune b = nl) := by
        rintro ⟨ha, hb⟩
        exact h ⟨(validRune_eq_char (by decide)).mp ha, (validRune_eq_char (by decide)).mp hb⟩
      rw [toValid, List.map_cons] at ih
      rw [toValid, List.map_cons, List.map_cons, replaceCRLF, if_neg hab, ih]
      rfl
  | case3 t h =>
      rcases t with _ | ⟨a, _ | ⟨b, rest⟩⟩
      · rfl
      · rfl
      · exact absurd rfl (h a b rest)

/-- So can splitting into lines. -/
theorem lines_toValid (t : GoText) : lines (toValid t) = (lines t).map toValid := by
  induction t with
  | nil => rfl
  | cons a t ih =>
      have ha : (validRune a == nl) = (a == nl) := by
        rw [Bool.eq_iff_iff, beq_iff_eq, beq_iff_eq]
        exact validRune_eq_char (by decide)
      rw [lines] at ih
      rw [lines, lines, toValid, List.map_cons, List.splitOn_cons_eq_if_modifyHead,
        List.splitOn_cons_eq_if_modifyHead, ha, ← toValid, ih, lines]
      split
      · rfl
      · cases t.splitOn nl <;> rfl

end GoText
