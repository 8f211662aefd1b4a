import Contiwatch.EnvContent
import Contiwatch.Lib.Js
import Contiwatch.Lib.Unicode

/-!
# The Editor and the Server on Environment Files

The editor of stacks reports errors in the `.env` file while it is typed (`envDiagnostics` in
`web/static/cm6-compose.js`), and the server refuses a file with lines that are invalid
(`validateEnvContent`). Both take the same lines for entries, but the editor takes U+FEFF for a
blank and U+0085 for none, and the server has it the other way round.

## Main results

* `isKept_goText`, `lineDiagnostic_eq_none` — both parsers are one, with blanks of their own.
* `diagnostics_agree_iff` — the editor reports the lines that the server lists exactly if, in the
  lines that are otherwise right, the two marks stand together.
* `byte_order_mark` — a file that starts with a byte order mark.
-/

namespace Contiwatch

open Unicode

/-! ### The editor -/

/-- A line of a document in the editor. -/
structure EditorLine where
  text : List Char
  noBreak : ∀ c ∈ text, c ≠ '\n' ∧ c ≠ '\r'

/-- The length of a text in JavaScript. -/
def jsLength (t : List Char) : ℕ := (t.flatMap unitsOf).length

/-- `String.prototype.trim`. -/
def jsTrim (t : List Char) : List Char :=
  ((t.dropWhile Js.isSpace).reverse.dropWhile Js.isSpace).reverse

/-- `String.prototype.indexOf`. -/
def jsIndexOf (sought : List Char) : List Char → ℤ
  | [] => if sought = [] then 0 else -1
  | c :: rest =>
      if sought.isPrefixOf (c :: rest) then 0
      else if jsIndexOf sought rest < 0 then -1
      else (unitsOf c).length + jsIndexOf sought rest

/-- `/^[A-Za-z_][A-Za-z0-9_]*$/`. -/
def isKeyText : List Char → Bool
  | [] => false
  | c :: rest => (c.isAlpha || c = '_') && rest.all fun c => c.isAlpha || c.isDigit || c = '_'

/-- A diagnostic of the editor: where it is shown, and what it says. -/
structure Diagnostic where
  start : ℤ
  stop : ℤ
  severity : String
  message : String

/-- What every error of a line starts with. -/
def linePrefix (lineNo : ℕ) : String := "Line " ++ toString lineNo ++ ": "

/-- What `envDiagnostics` says of a line that starts at `start`. -/
def lineDiagnostic (lineNo start : ℕ) (raw : List Char) : Option Diagnostic :=
  let trimmed := jsTrim raw
  let stop : ℤ := start + jsLength raw
  if trimmed = [] ∨ trimmed.head? = some '#' then none
  else if '\x00' ∈ raw then
    some
      { start := start
        stop := min stop (start + 1)
        severity := "error"
        message := linePrefix lineNo ++ "invalid .env entry (NUL byte)." }
  else
    let name := raw.takeWhile (· ≠ '=')
    if '=' ∉ raw ∨ name = [] then
      some
        { start := start
          stop := min stop (start + 1)
          severity := "error"
          message := linePrefix lineNo ++ "invalid .env entry (expected KEY=value)." }
    else
      let key := jsTrim name
      if isKeyText key then none
      else
        let keyStart := jsIndexOf key raw
        some
          { start := start + max 0 keyStart
            stop := min stop (start + max 1 (keyStart + jsLength key))
            severity := "error"
            message := linePrefix lineNo ++ "invalid key \"" ++ String.ofList key ++
              "\" (allowed: A-Z, a-z, 0-9, _; must not start with digit)." }

/-- The loop of `envDiagnostics`. -/
def diagnosticsFrom : ℕ → ℕ → List EditorLine → List Diagnostic
  | _, _, [] => []
  | lineNo, start, line :: rest =>
      (lineDiagnostic lineNo start line.text).toList ++
        diagnosticsFrom (lineNo + 1) (start + jsLength line.text + 1) rest

/-- `envDiagnostics`. -/
def envDiagnostics (doc : List EditorLine) : List Diagnostic := diagnosticsFrom 1 0 doc

/-! ### Blanks -/

/-- A text as the server reads it. -/
def goText (t : List Char) : GoText := t.map .char

/-- A blank of the editor or of the server. -/
def isBlank (c : Char) : Bool := GoStrings.isSpace c || Js.isSpace c

/-- The text without blanks around it. -/
def trimBy (p : Char → Bool) (t : List Char) : List Char :=
  ((t.dropWhile p).reverse.dropWhile p).reverse

/-- Blanks that miss the mark, which counts as a blank for the other one. -/
structure Misses (p : Char → Bool) (mark : Char) : Prop where
  eq : ∀ c, p c = (isBlank c && c ≠ mark)
  blank : isBlank mark = true

/-- Blanks of which the others have only the mark besides. -/
theorem Misses.of_mark {p q : Char → Bool} {mark : Char} (hblank : ∀ c, isBlank c = (p c || q c))
    (hmark : p mark = false ∧ q mark = true) (hsub : ∀ c, c ≠ mark → q c = true → p c = true) :
    Misses p mark where
  eq c := by
    by_cases hc : c = mark
    · rw [hc, hmark.1, decide_eq_false (not_not.mpr rfl), Bool.and_false]
    · have hq := hsub c hc
      rw [hblank, decide_eq_true hc, Bool.and_true]
      cases hp : p c
      · rw [hp] at hq
        exact (Bool.eq_false_iff.mpr fun h => Bool.false_ne_true (hq h)).symm
      · rfl
  blank := by rw [hblank, hmark.2, Bool.or_true]

/-- The byte order mark is not white space to Go. -/
theorem misses_go : Misses GoStrings.isSpace '\uFEFF' := by
  refine .of_mark (fun _ => rfl) (by decide) fun c hc hjs => ?_
  simp only [Js.isSpace, GoStrings.isSpace, Bool.or_eq_true, decide_eq_true_eq] at hjs ⊢
  grind

/-- Next line is not white space to JavaScript. -/
theorem misses_js : Misses Js.isSpace '\x85' := by
  refine .of_mark (fun _ => Bool.or_comm ..) (by decide) fun c hc hgo => ?_
  simp only [Js.isSpace, GoStrings.isSpace, Bool.or_eq_true, decide_eq_true_eq] at hgo ⊢
  grind

namespace Misses

variable {p : Char → Bool} {mark : Char} {t name value : List Char}

/-- What a predicate misses it is false of. -/
theorem apply_mark (h : Misses p mark) : p mark = false := by
  rw [h.eq, decide_eq_false (not_not.mpr rfl), Bool.and_false]

/-- The mark stops the blanks before a text. -/
theorem head?_dropWhile (h : Misses p mark) (hmem : mark ∈ t.takeWhile isBlank) :
    (t.dropWhile p).head? = some mark := by
  induction t with
  | nil => cases hmem
  | cons c t ih =>
      by_cases hc : isBlank c = true
      · rw [List.takeWhile_cons_of_pos hc, List.mem_cons] at hmem
        by_cases hmark : mark = c
        · rw [List.dropWhile_cons_of_neg (by simp [← hmark, h.apply_mark]), hmark, List.head?_cons]
        · rw [List.dropWhile_cons_of_pos (by simp [h.eq, hc, Ne.symm hmark])]
          exact ih (hmem.resolve_left hmark)
      · rw [List.takeWhile_cons_of_neg hc] at hmem
        cases hmem

/-- Without the mark, the same blanks are before a text. -/
theorem dropWhile_eq (h : Misses p mark) (hmem : mark ∉ t.takeWhile isBlank) :
    t.dropWhile p = t.dropWhile isBlank := by
  induction t with
  | nil => rfl
  | cons c t ih =>
      by_cases hc : isBlank c = true
      · rw [List.takeWhile_cons_of_pos hc, List.mem_cons, not_or] at hmem
        rw [List.dropWhile_cons_of_pos hc, List.dropWhile_cons_of_pos, ih hmem.2]
        simp [h.eq, hc, Ne.symm hmem.1]
      · rw [List.dropWhile_cons_of_neg hc, List.dropWhile_cons_of_neg]
        simp [h.eq, hc]

/-- On a text without the mark both languages trim alike. -/
theorem trimBy_eq (h : Misses p mark) (hmem : mark ∉ t) : trimBy p t = trimBy isBlank t := by
  have hleft : t.dropWhile p = t.dropWhile isBlank :=
    h.dropWhile_eq fun htake => hmem ((List.takeWhile_sublist isBlank).subset htake)
  rw [trimBy, trimBy, hleft, h.dropWhile_eq fun htake => hmem ?_]
  have hreverse := (List.takeWhile_sublist isBlank).subset htake
  exact (List.dropWhile_sublist isBlank).subset (List.mem_reverse.mp hreverse)

/-- Trimming does not take what is no blank. -/
theorem mem_trimBy (h : Misses p mark) (hmem : mark ∈ t) : mark ∈ trimBy p t := by
  have hdrop : ∀ l : List Char, mark ∈ l → mark ∈ l.dropWhile p := by
    intro l hl
    rw [← List.takeWhile_append_dropWhile (p := p) (l := l), List.mem_append] at hl
    refine hl.resolve_left fun htake => ?_
    have hmark := List.all_eq_true.mp List.all_takeWhile mark htake
    rw [h.apply_mark] at hmark
    cases hmark
  rw [trimBy, List.mem_reverse]
  exact hdrop _ (List.mem_reverse.mpr (hdrop t hmem))

end Misses

/-- A line without blanks before it is empty or a comment. -/
def blankOrComment (p : Char → Bool) (t : List Char) : Bool :=
  (t.dropWhile p).head? = none || (t.dropWhile p).head? = some '#'

/-- A line is taken by a parser with these blanks. -/
def takenBy (p : Char → Bool) (t : List Char) : Prop :=
  blankOrComment p t = true ∨ '\x00' ∉ t ∧
    ∃ name value, t = name ++ '=' :: value ∧ '=' ∉ name ∧ isKeyText (trimBy p name) = true

/-- A character of a key is no blank. -/
theorem isBlank_of_isKeyText {key : List Char} (h : isKeyText key = true) :
    ∀ c ∈ key, isBlank c = false := by
  have hchar : ∀ c : Char, (c.isAlpha || c.isDigit || c = '_') = true → isBlank c = false := by
    intro c hc
    have hlt : c.toNat < 128 := by
      simp only [Bool.or_eq_true, decide_eq_true_eq] at hc
      rcases hc with (hc | hc) | rfl
      · exact GoStrings.toNat_lt_of_isAlpha hc
      · exact GoStrings.toNat_lt_of_isDigit hc
      · decide
    exact GoStrings.ascii_forall
      (p := fun c => (c.isAlpha || c.isDigit || c = '_') = true → isBlank c = false)
      (by decide) hlt hc
  cases key with
  | nil => cases h
  | cons a rest =>
      rw [isKeyText, Bool.and_eq_true, List.all_eq_true] at h
      refine List.forall_mem_cons.mpr ⟨hchar a ?_, fun c hc => hchar c (h.2 c hc)⟩
      simp only [Bool.or_eq_true] at h ⊢
      exact h.1.imp_left .inl

namespace Misses

variable {p : Char → Bool} {mark : Char} {t name value : List Char}

/-- A name is a key exactly if it is one for both and is without the mark. -/
theorem isKeyText_trimBy (h : Misses p mark) :
    isKeyText (trimBy p name) = true ↔ isKeyText (trimBy isBlank name) = true ∧ mark ∉ name := by
  by_cases hmem : mark ∈ name
  · refine iff_of_false (fun hkey => ?_) fun hkey => hkey.2 hmem
    have hblank := isBlank_of_isKeyText hkey mark (h.mem_trimBy hmem)
    rw [h.blank] at hblank
    cases hblank
  · rw [h.trimBy_eq hmem, and_iff_left hmem]

/-- A line is empty or a comment exactly if it is one for both and is without the mark in front. -/
theorem blankOrComment_iff (h : Misses p mark) :
    blankOrComment p t = true ↔
      blankOrComment isBlank t = true ∧ mark ∉ t.takeWhile isBlank := by
  by_cases hmem : mark ∈ t.takeWhile isBlank
  · refine iff_of_false (fun hblank => ?_) fun hblank => hblank.2 hmem
    have hne : mark ≠ '#' := fun heq => absurd (heq ▸ h.blank) (by decide)
    rw [blankOrComment, h.head?_dropWhile hmem] at hblank
    simp [hne] at hblank
  · rw [blankOrComment, h.dropWhile_eq hmem, ← blankOrComment, and_iff_left hmem]

/-- A mark in front of an entry is in its name. -/
theorem mem_name (h : mark ∈ (name ++ '=' :: value).takeWhile isBlank) : mark ∈ name := by
  have hequals : isBlank '=' = false := by decide
  rw [List.takeWhile_append] at h
  split at h
  · rw [List.takeWhile_cons_of_neg (by simp [hequals]), List.append_nil] at h
    exact h
  · exact (List.takeWhile_sublist isBlank).subset h

/-- Which lines a parser takes that misses the mark. -/
theorem takenBy_iff (h : Misses p mark) :
    takenBy p t ↔
      if blankOrComment isBlank t then mark ∉ t.takeWhile isBlank
      else '\x00' ∉ t ∧ ∃ name value, t = name ++ '=' :: value ∧ '=' ∉ name ∧
        isKeyText (trimBy isBlank name) = true ∧ mark ∉ name := by
  simp only [takenBy, h.blankOrComment_iff, h.isKeyText_trimBy]
  split
  · rename_i hblank
    refine ⟨?_, fun hmem => .inl ⟨hblank, hmem⟩⟩
    rintro (⟨-, hmem⟩ | ⟨-, name, value, rfl, -, -, hname⟩)
    · exact hmem
    · exact fun hmem => hname (mem_name hmem)
  · rename_i hblank
    simp only [hblank, Bool.false_eq_true, false_and, false_or]

end Misses

/-- The marks stand together in the text, or none does. -/
def MarksAgree (t : List Char) : Prop := '\uFEFF' ∈ t ↔ '\x85' ∈ t

/-- The two marks stand together where they matter: among the blanks before a line that is else
empty or a comment, and around the key of a line that is else an entry. -/
def BlanksAgree (t : List Char) : Prop :=
  if blankOrComment isBlank t then MarksAgree (t.takeWhile isBlank)
  else '\x00' ∉ t → ∀ name value, t = name ++ '=' :: value → '=' ∉ name →
    isKeyText (trimBy isBlank name) = true → MarksAgree name

/-- The name is what stands before the first `=`. -/
theorem takeWhile_name {name value : List Char} (h : '=' ∉ name) :
    (name ++ '=' :: value).takeWhile (· ≠ '=') = name := by
  have hname : ∀ c ∈ name, decide (c ≠ '=') = true := fun c hc =>
    decide_eq_true fun heq => h (heq ▸ hc)
  rw [List.takeWhile_append_of_pos hname]
  simp

/-- A line is an entry in one way. -/
theorem name_unique {t name name' value value' : List Char} (h : t = name ++ '=' :: value)
    (h' : t = name' ++ '=' :: value') (hname : '=' ∉ name) (hname' : '=' ∉ name') :
    name = name' := by
  rw [← takeWhile_name hname, ← h, h', takeWhile_name hname']

/-- **One line.** The parsers agree on a line exactly if the marks stand together where they
matter. -/
theorem taken_agree_iff (t : List Char) :
    (takenBy Js.isSpace t ↔ takenBy GoStrings.isSpace t) ↔ BlanksAgree t := by
  rw [misses_js.takenBy_iff, misses_go.takenBy_iff, BlanksAgree]
  split
  · rw [MarksAgree, not_iff_not]
    exact ⟨Iff.symm, Iff.symm⟩
  · constructor
    · rintro h hnul name value ht hname hkey
      have hentry : ∀ mark : Char, ('\x00' ∉ t ∧ ∃ name value, t = name ++ '=' :: value ∧
          '=' ∉ name ∧ isKeyText (trimBy isBlank name) = true ∧ mark ∉ name) ↔ mark ∉ name := by
        intro mark
        constructor
        · rintro ⟨-, name', value', ht', hname', -, hmark⟩
          rwa [name_unique ht ht' hname hname']
        · exact fun hmark => ⟨hnul, name, value, ht, hname, hkey, hmark⟩
      rw [hentry, hentry, not_iff_not] at h
      exact h.symm
    · rintro h
      refine and_congr_right fun hnul => exists₂_congr fun name value => ?_
      refine and_congr_right fun ht => and_congr_right fun hname => and_congr_right fun hkey => ?_
      rw [not_iff_not]
      exact (h hnul name value ht hname hkey).symm

/-! ### The two parsers -/

/-- Trimming a decoded text is trimming its characters. -/
theorem trimSpace_goText (t : List Char) :
    GoText.trimSpace (goText t) = goText (trimBy GoStrings.isSpace t) := by
  have hspace : GoText.isSpace ∘ Rune.char = GoStrings.isSpace := rfl
  simp only [GoText.trimSpace, goText, trimBy, List.dropWhile_map, ← List.map_reverse, hspace]

/-- A decoded text has the characters it was decoded from. -/
theorem mem_goText {c : Char} {t : List Char} : Rune.char c ∈ goText t ↔ c ∈ t :=
  List.mem_map_of_injective fun _ _ h => Rune.char.inj h

/-- The server's blank lines and comments, in characters. -/
theorem isBlankOrComment_goText (t : List Char) :
    isBlankOrComment (goText t) = blankOrComment GoStrings.isSpace t := by
  have hspace : GoText.isSpace ∘ Rune.char = GoStrings.isSpace := rfl
  rw [Bool.eq_iff_iff, isBlankOrComment_iff, goText, List.dropWhile_map, hspace, List.head?_map,
    blankOrComment, Bool.or_eq_true, decide_eq_true_eq, decide_eq_true_eq]
  rcases (t.dropWhile GoStrings.isSpace).head? with _ | c
  · simp
  · simp

/-- The server's key rule, in characters. -/
theorem isEnvKey_goText (t : List Char) : isEnvKey (goText t) = isKeyText t := by
  cases t with
  | nil => rfl
  | cons c rest =>
      rw [goText, List.map_cons, isEnvKey, isKeyText, List.all_map]
      rfl

/-- The server takes a line if it is one for the blanks of Go. -/
theorem isKept_goText (t : List Char) :
    isKept (goText t) = true ↔ takenBy GoStrings.isSpace t := by
  have hcut : ∀ name value : GoText, goText t = name ++ .char '=' :: value →
      ∃ name' value', t = name' ++ '=' :: value' ∧ name = goText name' ∧ value = goText value' := by
    intro name value h
    obtain ⟨name', rest, rfl, hname, hrest⟩ := List.map_eq_append_iff.mp h
    obtain ⟨c, value', rfl, hc, hvalue⟩ := List.map_eq_cons_iff.mp hrest
    exact ⟨name', value', by rw [Rune.char.inj hc], hname.symm, hvalue.symm⟩
  rw [isKept, isBlankOrComment_goText, takenBy, Bool.or_eq_true, Bool.and_eq_true,
    decide_eq_true_eq, mem_goText, Option.any_eq_true]
  refine or_congr_right (and_congr_right fun _ => ?_)
  constructor
  · rintro ⟨⟨name, value⟩, hsplit, hkey⟩
    obtain ⟨ht, hname⟩ := cut_eq_some.mp hsplit
    obtain ⟨name', value', rfl, rfl, rfl⟩ := hcut _ _ ht
    rw [trimSpace_goText, isEnvKey_goText] at hkey
    exact ⟨name', value', rfl, fun hmem => hname (mem_goText.mpr hmem), hkey⟩
  · rintro ⟨name, value, rfl, hname, hkey⟩
    refine ⟨(goText name, goText value), cut_eq_some.mpr ⟨?_, fun hmem => ?_⟩, ?_⟩
    · rw [goText, List.map_append, List.map_cons, goText, goText]
    · exact hname (mem_goText.mp hmem)
    · rw [trimSpace_goText, isEnvKey_goText, hkey]

/-- The editor takes a line if it is one for the blanks of JavaScript. -/
theorem lineDiagnostic_eq_none {lineNo start : ℕ} {t : List Char} :
    lineDiagnostic lineNo start t = none ↔ takenBy Js.isSpace t := by
  have hblank : (jsTrim t = [] ∨ (jsTrim t).head? = some '#') ↔
      blankOrComment Js.isSpace t = true := by
    have hhead : (jsTrim t).head? = (t.dropWhile Js.isSpace).head? := GoStrings.head?_trim _ t
    rw [← List.head?_eq_none_iff, hhead, blankOrComment, Bool.or_eq_true, decide_eq_true_eq,
      decide_eq_true_eq]
  rw [lineDiagnostic, takenBy]
  simp only [hblank]
  split
  · rename_i h
    exact iff_of_true rfl (.inl h)
  rename_i h
  rw [or_iff_right h]
  split
  · rename_i hnul
    exact iff_of_false (by simp) fun htaken => htaken.1 hnul
  rename_i hnul
  rw [and_iff_right hnul]
  split
  · rename_i hname
    refine iff_of_false (by simp) ?_
    rintro ⟨name, value, rfl, hmem, hkey⟩
    rw [takeWhile_name hmem] at hname
    rcases hname with hequals | rfl
    · exact hequals (by simp)
    · cases hkey
  · rename_i hname
    rw [not_or, not_not] at hname
    obtain ⟨name, value, ht, hmem⟩ := List.eq_append_cons_of_mem hname.1
    have htake : t.takeWhile (· ≠ '=') = name := by rw [ht, takeWhile_name hmem]
    rw [htake]
    have hkey : (∃ name value, t = name ++ '=' :: value ∧ '=' ∉ name ∧
        isKeyText (trimBy Js.isSpace name) = true) ↔ isKeyText (jsTrim name) = true := by
      constructor
      · rintro ⟨name', value', ht', hmem', hkey⟩
        rwa [name_unique ht ht' hmem hmem']
      · exact fun hkey => ⟨name, value, ht, hmem, hkey⟩
    rw [hkey]
    split
    · rename_i hkey
      exact iff_of_true rfl hkey
    · rename_i hkey
      exact iff_of_false (by simp) hkey

/-! ### The lines that are reported -/

/-- The editor reports an error for the line. -/
def EditorReports (doc : List EditorLine) (n : ℕ) : Prop :=
  ∃ d ∈ envDiagnostics doc, ∃ text, d.message = linePrefix n ++ text

/-- What the server says of a line, and of its key if it has one. -/
def NamesLine (message : GoText) (n : ℕ) : Prop :=
  message = GoText.ofString ("line " ++ toString n) ∨
    ∃ key, message = GoText.ofString ("line " ++ toString n ++ " (") ++ key ++ GoText.ofString ")"

/-- The server lists the line as invalid. -/
def ServerLists (content : GoText) (n : ℕ) : Prop :=
  ∃ message ∈ (sanitizeEnvContent content).2, NamesLine message n

/-- The text of a document. -/
def docText (doc : List EditorLine) : GoText :=
  GoText.unlines (doc.map fun line => goText line.text)

/-- `validateEnvContent` accepts the text. -/
def validateEnvContent (content : GoText) : Bool := (sanitizeEnvContent content).2 = []

/-- A number is read back from what starts with it. -/
theorem toString_append_inj {m n : ℕ} {s t : List Char} (hs : s.takeWhile Char.isDigit = [])
    (ht : t.takeWhile Char.isDigit = [])
    (h : (toString m).toList ++ s = (toString n).toList ++ t) : m = n := by
  have hdigits : ∀ k : ℕ, ∀ c ∈ (toString k).toList, c.isDigit = true := by
    intro k c hc
    rw [Nat.toString_eq_repr, Nat.toList_repr] at hc
    exact Nat.isDigit_of_mem_toDigits (by decide) (by decide) hc
  have htake : ∀ (k : ℕ) (u : List Char), u.takeWhile Char.isDigit = [] →
      ((toString k).toList ++ u).takeWhile Char.isDigit = (toString k).toList := by
    intro k u hu
    rw [List.takeWhile_append_of_pos (hdigits k), hu, List.append_nil]
  have hlist := congrArg (List.takeWhile Char.isDigit) h
  rw [htake m s hs, htake n t ht, Nat.toString_eq_repr, Nat.toString_eq_repr, Nat.toList_repr,
    Nat.toList_repr] at hlist
  have hvalue := congrArg (Nat.ofDigitChars 10 · 0) hlist
  simpa [Nat.ofDigitChars_ten_toDigits] using hvalue

/-- Two messages with the same text name the same line. -/
theorem linePrefix_inj {m n : ℕ} {s t : String} (h : linePrefix m ++ s = linePrefix n ++ t) :
    m = n := by
  have hlist := congrArg String.toList h
  simp only [linePrefix, String.toList_append, List.append_assoc] at hlist
  exact toString_append_inj (by simp [Char.isDigit]) (by simp [Char.isDigit])
    (List.append_cancel_left hlist)

/-- A rune as it is shown, with the replacement character for an invalid byte. -/
def shownRune : Rune → Char
  | .char c => c
  | .byte _ => '\uFFFD'

/-- A valid text is shown as it is. -/
@[simp] theorem map_shownRune_ofString (s : String) :
    (GoText.ofString s).map shownRune = s.toList := by
  rw [GoText.ofString, List.map_map]
  exact List.map_id _

/-- A message names one line. -/
theorem namesLine_inj {m n : ℕ} {message : GoText} (hm : NamesLine message m)
    (hn : NamesLine message n) : m = n := by
  have hstart : ∀ k, NamesLine message k → ∃ rest, rest.takeWhile Char.isDigit = [] ∧
      message.map shownRune = "line ".toList ++ ((toString k).toList ++ rest) := by
    rintro k (rfl | ⟨key, rfl⟩)
    · exact ⟨[], rfl, by
        rw [map_shownRune_ofString, String.toList_append, List.append_nil]⟩
    · refine ⟨" (".toList ++ (key.map shownRune ++ ")".toList), ?_, ?_⟩
      · simp [Char.isDigit]
      · simp only [List.map_append, map_shownRune_ofString, String.toList_append,
          List.append_assoc]
  obtain ⟨s, hs, hmessage⟩ := hstart m hm
  obtain ⟨t, ht, hmessage'⟩ := hstart n hn
  exact toString_append_inj hs ht (List.append_cancel_left (hmessage.symm.trans hmessage'))

/-- What the editor says of a line names it. -/
theorem message_of_lineDiagnostic {lineNo start : ℕ} {raw : List Char} {d : Diagnostic}
    (h : lineDiagnostic lineNo start raw = some d) :
    ∃ text, d.message = linePrefix lineNo ++ text := by
  rw [lineDiagnostic] at h
  simp only [Option.ite_none_left_eq_some] at h
  obtain ⟨-, h⟩ := h
  split at h
  · obtain rfl := Option.some.inj h
    exact ⟨_, rfl⟩
  split at h
  · obtain rfl := Option.some.inj h
    exact ⟨_, rfl⟩
  · rw [Option.ite_none_left_eq_some] at h
    obtain rfl := Option.some.inj h.2
    exact ⟨"invalid key \"" ++ String.ofList (jsTrim (raw.takeWhile (· ≠ '='))) ++
      "\" (allowed: A-Z, a-z, 0-9, _; must not start with digit).", by
        simp only [String.append_assoc]⟩

/-- The lines that the editor reports. -/
theorem reports_from_iff {doc : List EditorLine} {first start n : ℕ} :
    (∃ d ∈ diagnosticsFrom first start doc, ∃ text, d.message = linePrefix n ++ text) ↔
      ∃ i line, doc[i]? = some line ∧ n = first + i ∧ ¬ takenBy Js.isSpace line.text := by
  induction doc generalizing first start with
  | nil => simp [diagnosticsFrom]
  | cons line rest ih =>
      simp only [diagnosticsFrom, List.mem_append, or_and_right, exists_or, ih, Option.mem_toList]
      constructor
      · rintro (⟨d, hd, text, hmessage⟩ | ⟨i, found, hfound, rfl, htaken⟩)
        · obtain ⟨text', hmessage'⟩ := message_of_lineDiagnostic hd
          refine ⟨0, line, rfl, linePrefix_inj (hmessage.symm.trans hmessage'), ?_⟩
          rw [← lineDiagnostic_eq_none, hd]
          exact Option.some_ne_none d
        · exact ⟨i + 1, found, hfound, by rw [Nat.add_assoc, Nat.add_comm 1], htaken⟩
      · rintro ⟨_ | i, found, hfound, rfl, htaken⟩
        · obtain rfl := Option.some.inj hfound
          rw [← @lineDiagnostic_eq_none n start, ← ne_eq, Option.ne_none_iff_exists'] at htaken
          obtain ⟨d, hd⟩ := htaken
          exact .inl ⟨d, hd, message_of_lineDiagnostic hd⟩
        · exact .inr ⟨i, found, hfound, by rw [Nat.add_assoc, Nat.add_comm 1], htaken⟩

/-- A refused line's message names it, counted from one. -/
theorem namesLine_of_envLine {idx : ℕ} {line message : GoText}
    (h : envLine idx line = .error message) : NamesLine message (idx + 1) := by
  rw [envLine] at h
  split at h
  · cases h
  split at h
  · exact .inl (Except.error.inj h).symm
  split at h
  · exact .inl (Except.error.inj h).symm
  · simp only [] at h
    split at h
    · exact .inr ⟨_, (Except.error.inj h).symm⟩
    · cases h

/-- The lines that the server lists. -/
theorem lists_from_iff {ls : List GoText} {idx n : ℕ} :
    (∃ message ∈ (sanitizeLines idx ls).2, NamesLine message n) ↔
      ∃ i line, ls[i]? = some line ∧ n = idx + 1 + i ∧ isKept line = false := by
  induction ls generalizing idx with
  | nil => simp [sanitizeLines]
  | cons line rest ih =>
      have hkept : isKept line = false ↔ ∃ message, envLine idx line = .error message := by
        rw [← isSome_keepLine, ← toOption_envLine idx line]
        rcases envLine idx line with message | kept <;> simp [Except.toOption]
      have hlisted : ∀ message, message ∈ (sanitizeLines idx (line :: rest)).2 ↔
          envLine idx line = .error message ∨ message ∈ (sanitizeLines (idx + 1) rest).2 := by
        intro message
        rw [sanitizeLines]
        rcases envLine idx line with message' | kept
        · simp [eq_comm]
        · simp
      simp only [hlisted, or_and_right, exists_or, ih]
      constructor
      · rintro (⟨message, hmessage, hnames⟩ | ⟨i, found, hfound, rfl, hfalse⟩)
        · refine ⟨0, line, rfl, namesLine_inj hnames (namesLine_of_envLine hmessage), ?_⟩
          exact hkept.mpr ⟨message, hmessage⟩
        · exact ⟨i + 1, found, hfound, by rw [Nat.add_assoc (idx + 1), Nat.add_comm 1], hfalse⟩
      · rintro ⟨_ | i, found, hfound, rfl, hfalse⟩
        · obtain rfl := Option.some.inj hfound
          obtain ⟨message, hmessage⟩ := hkept.mp hfalse
          exact .inl ⟨message, hmessage, namesLine_of_envLine hmessage⟩
        · exact .inr ⟨i, found, hfound, by rw [Nat.add_assoc (idx + 1), Nat.add_comm 1], hfalse⟩

/-- The server reads the lines of the editor. -/
theorem lines_docText {doc : List EditorLine} (hne : doc ≠ []) :
    GoText.lines (GoText.replaceCRLF (docText doc)) = doc.map fun line => goText line.text := by
  have hbreak : ∀ l ∈ doc.map (fun line => goText line.text), GoText.nl ∉ l ∧ GoText.cr ∉ l := by
    intro l hl
    obtain ⟨line, -, rfl⟩ := List.mem_map.mp hl
    exact ⟨fun hmem => (line.noBreak _ (mem_goText.mp hmem)).1 rfl,
      fun hmem => (line.noBreak _ (mem_goText.mp hmem)).2 rfl⟩
  have hends : GoText.dropCRs (doc.map fun line => goText line.text) =
      doc.map fun line => goText line.text := by
    rw [GoText.dropCRs_eq_iff]
    refine List.pairwise_of_forall_mem_list fun l hl _ _ hlast => ?_
    exact (hbreak l hl).2 (List.mem_of_getLast? hlast)
  rw [docText, GoText.replaceCRLF_unlines fun l hl => (hbreak l hl).1, hends]
  exact GoText.lines_unlines (fun l hl => (hbreak l hl).1) (by simpa using hne)

/-- The server lists the lines it does not take. -/
theorem serverLists_iff {doc : List EditorLine} {n : ℕ} :
    ServerLists (docText doc) n ↔
      ∃ i line, doc[i]? = some line ∧ n = 1 + i ∧ ¬ takenBy GoStrings.isSpace line.text := by
  rw [ServerLists, sanitizeEnvContent]
  simp only [lists_from_iff]
  by_cases hne : doc = []
  · subst hne
    refine iff_of_false ?_ (by simp)
    rintro ⟨i, line, hline, -, hkept⟩
    have hblank : line = [] := by
      have hmem := List.mem_of_getElem? hline
      exact List.mem_singleton.mp hmem
    rw [hblank] at hkept
    exact absurd hkept (by decide)
  · rw [lines_docText hne]
    simp only [List.getElem?_map, Option.map_eq_some_iff]
    constructor
    · rintro ⟨i, _, ⟨line, hline, rfl⟩, rfl, hkept⟩
      exact ⟨i, line, hline, by rw [Nat.zero_add], by rw [← isKept_goText, hkept]; decide⟩
    · rintro ⟨i, line, hline, rfl, htaken⟩
      rw [← isKept_goText, Bool.not_eq_true] at htaken
      exact ⟨i, _, ⟨line, hline, rfl⟩, by rw [Nat.zero_add], htaken⟩

/-- The editor shows nothing where it takes every line. -/
theorem envDiagnostics_eq_nil {doc : List EditorLine} :
    envDiagnostics doc = [] ↔ ∀ line ∈ doc, takenBy Js.isSpace line.text := by
  have hfrom : ∀ first start, diagnosticsFrom first start doc = [] ↔
      ∀ line ∈ doc, takenBy Js.isSpace line.text := by
    induction doc with
    | nil => simp [diagnosticsFrom]
    | cons line rest ih =>
        intro first start
        rw [diagnosticsFrom, List.append_eq_nil_iff, ih, List.forall_mem_cons,
          Option.toList_eq_nil_iff, lineDiagnostic_eq_none]
  exact hfrom 1 0

/-- The server accepts the text where it takes every line. -/
theorem validateEnvContent_eq_true {doc : List EditorLine} :
    validateEnvContent (docText doc) = true ↔
      ∀ line ∈ doc, takenBy GoStrings.isSpace line.text := by
  have hfrom : ∀ (ls : List GoText) (idx : ℕ),
      (sanitizeLines idx ls).2 = [] ↔ ∀ l ∈ ls, isKept l = true := by
    intro ls
    induction ls with
    | nil => simp [sanitizeLines]
    | cons l rest ih =>
        intro idx
        rw [List.forall_mem_cons, ← ih (idx + 1), ← isSome_keepLine, ← toOption_envLine idx l,
          sanitizeLines]
        rcases envLine idx l with message | kept <;> simp [Except.toOption]
  rw [validateEnvContent, decide_eq_true_eq, sanitizeEnvContent]
  by_cases hne : doc = []
  · subst hne
    exact iff_of_true (by decide) (by simp)
  · simp only [hfrom, lines_docText hne, List.forall_mem_map, isKept_goText]

/-- **Both report the same lines**, and both find nothing to report in the same documents, exactly
if in every line the two marks stand together where they matter. -/
theorem diagnostics_agree_iff (doc : List EditorLine) :
    ((∀ n, EditorReports doc n ↔ ServerLists (docText doc) n) ∧
      (envDiagnostics doc = [] ↔ validateEnvContent (docText doc) = true)) ↔
      ∀ line ∈ doc, BlanksAgree line.text := by
  simp only [← taken_agree_iff, EditorReports, envDiagnostics, reports_from_iff, serverLists_iff]
  constructor
  · rintro ⟨h, -⟩ line hline
    obtain ⟨i, hi⟩ := List.mem_iff_getElem?.mp hline
    have hat : ∀ p : List Char → Prop,
        (∃ j found, doc[j]? = some found ∧ 1 + i = 1 + j ∧ ¬ p found.text) ↔ ¬ p line.text := by
      intro p
      constructor
      · rintro ⟨j, found, hfound, hij, hp⟩
        rw [← Nat.add_left_cancel hij, hi] at hfound
        rwa [Option.some.inj hfound]
      · exact fun hp => ⟨i, line, hi, rfl, hp⟩
    have hboth := h (1 + i)
    rwa [hat (takenBy Js.isSpace), hat (takenBy GoStrings.isSpace), not_iff_not] at hboth
  · intro h
    refine ⟨fun n => ?_, ?_⟩
    · refine exists₂_congr fun i line => and_congr_right fun hline => and_congr_right fun _ => ?_
      rw [h line (List.mem_of_getElem? hline)]
    · exact envDiagnostics_eq_nil.trans
        ((forall₂_congr fun line hline => h line hline).trans validateEnvContent_eq_true.symm)

/-- A file that was saved with a byte order mark. -/
def markedDoc : List EditorLine := [{ text := "\uFEFFA=1".toList, noBreak := by simp }]

/-- **A byte order mark.** The editor shows no error, and the server does not accept the text. -/
theorem byte_order_mark :
    envDiagnostics markedDoc = [] ∧ ServerLists (docText markedDoc) 1 ∧
      validateEnvContent (docText markedDoc) = false ∧
      ¬ ∀ doc n, EditorReports doc n ↔ ServerLists (docText doc) n := by
  have hvalid : validateEnvContent (docText markedDoc) = false := by decide
  have hlists : ServerLists (docText markedDoc) 1 :=
    ⟨_, List.mem_of_mem_head? (by decide : _ = some (GoText.ofString "line 1 (\uFEFFA)")),
      .inr ⟨GoText.ofString "\uFEFFA", by decide⟩⟩
  have hnone : envDiagnostics markedDoc = [] := List.isEmpty_iff.mp (by decide)
  refine ⟨hnone, hlists, hvalid, fun h => ?_⟩
  obtain ⟨d, hd, -⟩ := (h markedDoc 1).mpr hlists
  rw [hnone] at hd
  cases hd

end Contiwatch
