import Contiwatch.Lib.GoJson

/-!
# JSON Texts

The text of a JSON document: how it is read, and how Go writes it. The reader follows the grammar
of JSON, which Go and browsers share; a code unit of a surrogate pair that has no partner is read
as the replacement character. The writer is that of `encoding/json`, on one line or indented, and
escapes what that package escapes.

## Main results

* `string_renderString` — a string is read back as it was.
* `value_render` — so is every document without numbers, whatever follows it.
* `parse_render` — the text of such a document is read as that document.
* `printable_render` — the text of a document on one line has no control characters.
-/

namespace JsonText

/-- A reader takes what it reads from the front of a text. -/
abbrev Reader (α : Type) := List Char → Option (α × List Char)

/-- White space. -/
def isSpace (c : Char) : Bool := c = ' ' || c = '\t' || c = '\n' || c = '\r'

def skipSpace (cs : List Char) : List Char := cs.dropWhile isSpace

/-! ### Strings -/

/-- What a string literal is made of: characters, and code units of UTF-16 given in hexadecimal. -/
inductive Piece
  | char (c : Char)
  | unit (n : ℕ)

/-- The value of a hexadecimal digit. -/
def hexVal (c : Char) : Option ℕ :=
  if c.isDigit then some (c.toNat - 48)
  else if 97 ≤ c.toNat ∧ c.toNat ≤ 102 then some (c.toNat - 87)
  else if 65 ≤ c.toNat ∧ c.toNat ≤ 70 then some (c.toNat - 55)
  else none

/-- Four hexadecimal digits. -/
def hex4 (a b c d : Char) : Option ℕ := do
  let a ← hexVal a
  let b ← hexVal b
  let c ← hexVal c
  let d ← hexVal d
  some (((a * 16 + b) * 16 + c) * 16 + d)

/-- The character that a letter after a backslash stands for. -/
def unescape : Char → Option Char
  | '"' => some '"'
  | '\\' => some '\\'
  | '/' => some '/'
  | 'b' => some '\x08'
  | 'f' => some '\x0c'
  | 'n' => some '\n'
  | 'r' => some '\r'
  | 't' => some '\t'
  | _ => none

/-- The pieces of a string literal, after its opening quote. -/
def pieces : Reader (List Piece)
  | [] => none
  | '"' :: rest => some ([], rest)
  | '\\' :: 'u' :: a :: b :: c :: d :: rest => do
      let n ← hex4 a b c d
      let (ps, rest) ← pieces rest
      some (.unit n :: ps, rest)
  | '\\' :: e :: rest => do
      let c ← unescape e
      let (ps, rest) ← pieces rest
      some (.char c :: ps, rest)
  | c :: rest =>
      if c.toNat < 32 then none
      else do
        let (ps, rest) ← pieces rest
        some (.char c :: ps, rest)

def isHigh (n : ℕ) : Bool := 0xD800 ≤ n && n < 0xDC00

def isLow (n : ℕ) : Bool := 0xDC00 ≤ n && n < 0xE000

/-- The character of a code unit that stands alone. -/
def unitChar (n : ℕ) : Char := if isHigh n || isLow n then '\uFFFD' else Char.ofNat n

/-- The characters of a string literal: a high and a low code unit make one together. -/
def decode : List Piece → List Char
  | [] => []
  | .char c :: ps => c :: decode ps
  | .unit h :: .unit l :: ps =>
      if isHigh h && isLow l then
        Char.ofNat (0x10000 + (h - 0xD800) * 0x400 + (l - 0xDC00)) :: decode ps
      else unitChar h :: decode (.unit l :: ps)
  | .unit n :: ps => unitChar n :: decode ps

/-- A string literal, after its opening quote. -/
def string : Reader String := fun cs =>
  (pieces cs).map fun (ps, rest) => (String.ofList (decode ps), rest)

/-! ### Numbers -/

/-- One digit or more. -/
def digits : Reader (List Char) := fun cs =>
  match cs.span Char.isDigit with
  | ([], _) => none
  | found => some found

/-- The fraction of a number, if there is one. -/
def fraction : Reader (List Char)
  | '.' :: cs => (digits cs).map fun (ds, rest) => ('.' :: ds, rest)
  | cs => some ([], cs)

/-- The sign of an exponent, if there is one. -/
def sign : List Char → List Char × List Char
  | '+' :: cs => (['+'], cs)
  | '-' :: cs => (['-'], cs)
  | cs => ([], cs)

/-- The exponent of a number, if there is one. -/
def exponent : Reader (List Char)
  | [] => some ([], [])
  | e :: cs =>
      if e = 'e' || e = 'E' then
        (digits (sign cs).2).map fun (ds, rest) => (e :: (sign cs).1 ++ ds, rest)
      else some ([], e :: cs)

/-- A number without its sign. -/
def unsigned (negative : Bool) : Reader Json := fun cs => do
  let (whole, cs) ← digits cs
  if whole.head? = some '0' ∧ whole ≠ ['0'] then none
  else
    let (frac, cs) ← fraction cs
    let (exp, cs) ← exponent cs
    let n := Nat.ofDigitChars 10 whole 0
    if frac = [] ∧ exp = [] then some (.int (if negative then -n else n), cs)
    else
      let literal := String.ofList (whole ++ frac ++ exp)
      some (.real (if negative then "-" ++ literal else literal), cs)

def number : Reader Json
  | '-' :: cs => unsigned true cs
  | cs => unsigned false cs

/-! ### Documents -/

/-- One item or more, separated by commas, and the bracket that closes them. -/
def sequence {α : Type} (item : Reader α) (close : Char) : ℕ → Reader (List α)
  | 0, _ => none
  | fuel + 1, cs => do
      let (a, cs) ← item (skipSpace cs)
      match skipSpace cs with
      | [] => none
      | c :: cs =>
          if c = ',' then do
            let (as, cs) ← sequence item close fuel cs
            some (a :: as, cs)
          else if c = close then some ([a], cs)
          else none

/-- The items of an array or an object, after the bracket that opens it. There are no more of them
than characters. -/
def bracketed {α : Type} (item : Reader α) (close : Char) : Reader (List α) := fun cs =>
  match skipSpace cs with
  | [] => none
  | c :: rest =>
      if c = close then some ([], rest) else sequence item close (c :: rest).length (c :: rest)

/-- A member of an object. -/
def member (value : Reader Json) : Reader (String × Json)
  | '"' :: cs => do
      let (key, cs) ← string cs
      match skipSpace cs with
      | ':' :: cs => do
          let (v, cs) ← value (skipSpace cs)
          some ((key, v), cs)
      | _ => none
  | _ => none

/-- A document, which is nested less deeply than the number says. -/
def value : ℕ → Reader Json
  | 0, _ => none
  | _ + 1, '"' :: cs => (string cs).map fun (s, cs) => (.str s, cs)
  | n + 1, '[' :: cs => (bracketed (value n) ']' cs).map fun (js, cs) => (.arr js, cs)
  | n + 1, '{' :: cs => (bracketed (member (value n)) '}' cs).map fun (ms, cs) => (.obj ms, cs)
  | _ + 1, 'n' :: 'u' :: 'l' :: 'l' :: cs => some (.null, cs)
  | _ + 1, 't' :: 'r' :: 'u' :: 'e' :: cs => some (.bool true, cs)
  | _ + 1, 'f' :: 'a' :: 'l' :: 's' :: 'e' :: cs => some (.bool false, cs)
  | _ + 1, cs => number cs

/-- `JSON.parse` and `json.Unmarshal`: the document that a text holds. Nothing is nested more
deeply than the text is long. -/
def parse (text : String) : Option Json :=
  match value text.toList.length (skipSpace text.toList) with
  | none => none
  | some (j, rest) => if skipSpace rest = [] then some j else none

/-! ### Writing -/

def hexDigit (n : ℕ) : Char := if n < 10 then Char.ofNat (48 + n) else Char.ofNat (87 + n)

/-- What is written as a code unit. -/
def isUnit (c : Char) : Bool :=
  c.toNat < 32 || c = '<' || c = '>' || c = '&' || c = '\u2028' || c = '\u2029'

/-- A character in a string literal. -/
def escapeChar (c : Char) : List Char :=
  if c = '"' then ['\\', '"']
  else if c = '\\' then ['\\', '\\']
  else if c = '\x08' then ['\\', 'b']
  else if c = '\x0c' then ['\\', 'f']
  else if c = '\n' then ['\\', 'n']
  else if c = '\r' then ['\\', 'r']
  else if c = '\t' then ['\\', 't']
  else if isUnit c then
    ['\\', 'u', hexDigit (c.toNat / 4096), hexDigit (c.toNat / 256 % 16),
      hexDigit (c.toNat / 16 % 16), hexDigit (c.toNat % 16)]
  else [c]

def renderString (s : String) : List Char := '"' :: s.toList.flatMap escapeChar ++ ['"']

def renderInt : ℤ → List Char
  | .ofNat n => Nat.toDigits 10 n
  | .negSucc n => '-' :: Nat.toDigits 10 (n + 1)

/-- The white space that a writer adds: before an item, by its depth, and after a colon. -/
structure Layout where
  gap : ℕ → List Char
  colon : List Char
  gap_space : ∀ d, ∀ c ∈ gap d, isSpace c = true
  colon_space : ∀ c ∈ colon, isSpace c = true

/-- The layout of `json.Marshal`. -/
def compact : Layout where
  gap _ := []
  colon := []
  gap_space _ _ h := nomatch h
  colon_space _ h := nomatch h

/-- The layout of `json.MarshalIndent` without a prefix and with two blanks for each level. -/
def indented : Layout where
  gap d := '\n' :: List.replicate (2 * d) ' '
  colon := [' ']
  gap_space d c h := by
    rcases List.mem_cons.mp h with rfl | h
    · rfl
    · rw [List.eq_of_mem_replicate h]
      rfl
  colon_space c h := by
    rw [List.mem_singleton.mp h]
    rfl

mutual

/-- A document at a depth. -/
def render (w : Layout) : ℕ → Json → List Char
  | _, .null => ['n', 'u', 'l', 'l']
  | _, .bool true => ['t', 'r', 'u', 'e']
  | _, .bool false => ['f', 'a', 'l', 's', 'e']
  | _, .int n => renderInt n
  | _, .real literal => literal.toList
  | _, .str s => renderString s
  | _, .arr [] => ['[', ']']
  | d, .arr (j :: js) =>
      '[' :: (w.gap (d + 1) ++ (render w (d + 1) j ++ (renderItems w (d + 1) js ++
        (w.gap d ++ [']']))))
  | _, .obj [] => ['{', '}']
  | d, .obj ((key, j) :: ms) =>
      '{' :: (w.gap (d + 1) ++ (renderString key ++ (':' :: (w.colon ++ (render w (d + 1) j ++
        (renderMembers w (d + 1) ms ++ (w.gap d ++ ['}'])))))))

/-- The items after the first. -/
def renderItems (w : Layout) : ℕ → List Json → List Char
  | _, [] => []
  | d, j :: js => ',' :: (w.gap d ++ (render w d j ++ renderItems w d js))

/-- The members after the first. -/
def renderMembers (w : Layout) : ℕ → List (String × Json) → List Char
  | _, [] => []
  | d, (key, j) :: ms =>
      ',' :: (w.gap d ++ (renderString key ++ (':' :: (w.colon ++ (render w d j ++
        renderMembers w d ms)))))

end

/-! ### White space -/

variable {w : Layout} {c : Char} {cs rest : List Char}

/-- White space is skipped. -/
theorem skipSpace_append {gap : List Char} (h : ∀ c ∈ gap, isSpace c = true) (cs : List Char) :
    skipSpace (gap ++ cs) = skipSpace cs :=
  List.dropWhile_append_of_pos h

/-- What is no white space is not. -/
theorem skipSpace_cons (h : isSpace c = false) : skipSpace (c :: cs) = c :: cs := by
  rw [skipSpace, List.dropWhile_cons, h]
  rfl

/-- A gap before an item is skipped. -/
@[simp] theorem skipSpace_gap (d : ℕ) (cs : List Char) :
    skipSpace (w.gap d ++ cs) = skipSpace cs :=
  skipSpace_append (w.gap_space d) cs

/-- So is the white space after a colon. -/
@[simp] theorem skipSpace_colon (cs : List Char) : skipSpace (w.colon ++ cs) = skipSpace cs :=
  skipSpace_append w.colon_space cs

/-! ### Strings are read back -/

/-- A digit has the value that it is written for. -/
theorem hexVal_hexDigit : ∀ n < 16, hexVal (hexDigit n) = some n := by
  decide

/-- Four digits have the value of the code unit that they are written for. -/
theorem hex4_hexDigit {n : ℕ} (h : n < 65536) :
    hex4 (hexDigit (n / 4096)) (hexDigit (n / 256 % 16)) (hexDigit (n / 16 % 16))
      (hexDigit (n % 16)) = some n := by
  rw [hex4, hexVal_hexDigit _ (by omega), hexVal_hexDigit _ (by omega),
    hexVal_hexDigit _ (by omega), hexVal_hexDigit _ (by omega)]
  have hdigits : ((n / 4096 * 16 + n / 256 % 16) * 16 + n / 16 % 16) * 16 + n % 16 = n := by omega
  exact congrArg some hdigits

/-- A character in a string literal, of a writer that writes some characters as code units. -/
def escapeWith (unit : Char → Bool) (c : Char) : List Char :=
  if c = '"' then ['\\', '"']
  else if c = '\\' then ['\\', '\\']
  else if c = '\x08' then ['\\', 'b']
  else if c = '\x0c' then ['\\', 'f']
  else if c = '\n' then ['\\', 'n']
  else if c = '\r' then ['\\', 'r']
  else if c = '\t' then ['\\', 't']
  else if unit c then
    ['\\', 'u', hexDigit (c.toNat / 4096), hexDigit (c.toNat / 256 % 16),
      hexDigit (c.toNat / 16 % 16), hexDigit (c.toNat % 16)]
  else [c]

/-- How a character is written. -/
def pieceOf (unit : Char → Bool) (c : Char) : Piece :=
  if c = '"' ∨ c = '\\' ∨ c = '\x08' ∨ c = '\x0c' ∨ c = '\n' ∨ c = '\r' ∨ c = '\t' then .char c
  else if unit c then .unit c.toNat
  else .char c

/-- What a writer has to write as code units, and what it can write so. -/
structure Escapes (unit : Char → Bool) : Prop where
  control : ∀ c, c.toNat < 32 → unit c = true
  small : ∀ c, unit c = true → c.toNat < 65536

/-- Go writes as code units what has to be, and what can be. -/
theorem escapes_isUnit : Escapes isUnit := by
  refine ⟨fun c hc => by simp [isUnit, hc], fun c h => ?_⟩
  simp only [isUnit, Bool.or_eq_true, decide_eq_true_eq] at h
  rcases h with ((((h | rfl) | rfl) | rfl) | rfl) | rfl
  · omega
  all_goals decide

variable {unit : Char → Bool}

/-- A character that stands for itself. -/
theorem pieces_plain (hquote : c ≠ '"') (hslash : c ≠ '\\') (hcontrol : ¬ c.toNat < 32)
    (rest : List Char) :
    pieces (c :: rest) = (pieces rest).map fun p => (.char c :: p.1, p.2) := by
  rw [pieces.eq_def]
  split
  · contradiction
  · simp_all
  · simp_all
  · simp_all
  · rename_i c' rest' heq
    obtain ⟨rfl, rfl⟩ := List.cons.inj heq
    rw [if_neg hcontrol]
    cases pieces rest <;> rfl

/-- A code unit as it is written. -/
theorem pieces_unit (hsmall : c.toNat < 65536) (rest : List Char) :
    pieces ('\\' :: 'u' :: hexDigit (c.toNat / 4096) :: hexDigit (c.toNat / 256 % 16) ::
      hexDigit (c.toNat / 16 % 16) :: hexDigit (c.toNat % 16) :: rest) =
      (pieces rest).map fun p => (.unit c.toNat :: p.1, p.2) := by
  rw [pieces, hex4_hexDigit hsmall]
  cases pieces rest <;> rfl

/-- A letter after a backslash. -/
theorem pieces_letter {e : Char} (he : unescape e = some c) (hu : e ≠ 'u') (rest : List Char) :
    pieces ('\\' :: e :: rest) = (pieces rest).map fun p => (.char c :: p.1, p.2) := by
  rw [pieces.eq_def]
  split
  · contradiction
  · simp_all
  · simp_all
  · rename_i e' rest' _ heq
    obtain ⟨-, heq⟩ := List.cons.inj heq
    obtain ⟨rfl, rfl⟩ := List.cons.inj heq
    rw [he]
    cases pieces rest <;> rfl
  · rename_i hrest heq
    obtain ⟨rfl, rfl⟩ := List.cons.inj heq
    exact absurd rfl (hrest e rest rfl)

/-- An escaped character is read as its piece. -/
theorem pieces_escapeWith (h : Escapes unit) (c : Char) (rest : List Char) :
    pieces (escapeWith unit c ++ rest) =
      (pieces rest).map fun p => (pieceOf unit c :: p.1, p.2) := by
  rw [escapeWith, pieceOf]
  by_cases hquote : c = '"'
  · subst hquote
    exact pieces_letter rfl (by decide) rest
  by_cases hslash : c = '\\'
  · subst hslash
    exact pieces_letter rfl (by decide) rest
  by_cases hb : c = '\x08'
  · subst hb
    exact pieces_letter rfl (by decide) rest
  by_cases hf : c = '\x0c'
  · subst hf
    exact pieces_letter rfl (by decide) rest
  by_cases hn : c = '\n'
  · subst hn
    exact pieces_letter rfl (by decide) rest
  by_cases hr : c = '\r'
  · subst hr
    exact pieces_letter rfl (by decide) rest
  by_cases ht : c = '\t'
  · subst ht
    exact pieces_letter rfl (by decide) rest
  simp only [hquote, hslash, hb, hf, hn, hr, ht, if_false, or_self]
  by_cases hunit : unit c = true
  · rw [if_pos hunit, if_pos hunit]
    exact pieces_unit (h.small c hunit) rest
  · rw [if_neg hunit, if_neg hunit]
    exact pieces_plain hquote hslash (fun hcontrol => hunit (h.control c hcontrol)) rest

/-- So are all the characters of a literal, up to its closing quote. -/
theorem pieces_flatMap (h : Escapes unit) (cs rest : List Char) :
    pieces (cs.flatMap (escapeWith unit) ++ '"' :: rest) =
      some (cs.map (pieceOf unit), rest) := by
  induction cs with
  | nil => rfl
  | cons c cs ih => rw [List.flatMap_cons, List.append_assoc, pieces_escapeWith h, ih]; rfl

/-- A code unit that is no high surrogate stands alone. -/
theorem decode_unit {n : ℕ} (hhigh : isHigh n = false) (ps : List Piece) :
    decode (.unit n :: ps) = unitChar n :: decode ps := by
  rcases ps with _ | ⟨c | l, ps⟩
  · rfl
  · rfl
  · rw [decode, hhigh]
    rfl

/-- A character is not a code unit of a surrogate pair. -/
theorem not_surrogate (c : Char) : isHigh c.toNat = false ∧ isLow c.toNat = false := by
  simp only [isHigh, isLow, Bool.and_eq_false_iff, decide_eq_false_iff_not]
  have hvalid : c.toNat < 0xD800 ∨ (0xDFFF < c.toNat ∧ c.toNat < 0x110000) := c.valid
  omega

/-- The piece of a character is that character. -/
theorem decode_pieceOf (c : Char) (ps : List Piece) :
    decode (pieceOf unit c :: ps) = c :: decode ps := by
  obtain ⟨hhigh, hlow⟩ := not_surrogate c
  rw [pieceOf]
  split
  · rfl
  · split
    · rw [decode_unit hhigh, unitChar, hhigh, hlow, Bool.or_false, if_neg Bool.false_ne_true,
        Char.ofNat_toNat]
    · rfl

/-- The pieces of a text are that text. -/
theorem decode_map_pieceOf (cs : List Char) : decode (cs.map (pieceOf unit)) = cs := by
  induction cs with
  | nil => rfl
  | cons c cs ih => rw [List.map_cons, decode_pieceOf, ih]

/-- **Strings are read back**, after the opening quote. -/
theorem string_escapeWith (h : Escapes unit) (s : String) (rest : List Char) :
    string (s.toList.flatMap (escapeWith unit) ++ '"' :: rest) = some (s, rest) := by
  rw [string, pieces_flatMap h, Option.map_some]
  dsimp only
  rw [decode_map_pieceOf, String.ofList_toList]

/-- **A string is read back as it was.** -/
theorem string_renderString (s : String) (rest : List Char) :
    ∃ cs, renderString s ++ rest = '"' :: cs ∧ string cs = some (s, rest) :=
  ⟨s.toList.flatMap escapeChar ++ '"' :: rest, by simp [renderString],
    string_escapeWith escapes_isUnit s rest⟩

/-! ### Documents are read back -/

end JsonText

mutual

/-- A document without numbers. -/
def Json.NumberFree : Json → Prop
  | .int _ | .real _ => False
  | .arr js => Json.NumberFreeItems js
  | .obj ms => Json.NumberFreeMembers ms
  | _ => True

def Json.NumberFreeItems : List Json → Prop
  | [] => True
  | j :: js => j.NumberFree ∧ Json.NumberFreeItems js

def Json.NumberFreeMembers : List (String × Json) → Prop
  | [] => True
  | (_, j) :: ms => j.NumberFree ∧ Json.NumberFreeMembers ms

end

namespace JsonText

variable {w : Layout} {c : Char} {cs rest : List Char}

/-- A document starts with a character of its own. -/
theorem render_cons {j : Json} (hj : j.NumberFree) (d : ℕ) :
    ∃ c cs, render w d j = c :: cs ∧ isSpace c = false ∧ c ≠ ']' ∧ c ≠ '}' := by
  cases j with
  | null => exact ⟨_, _, rfl, by decide⟩
  | bool b => cases b <;> exact ⟨_, _, rfl, by decide⟩
  | int n => exact hj.elim
  | real literal => exact hj.elim
  | str s => exact ⟨_, _, rfl, by decide⟩
  | arr js => cases js <;> exact ⟨_, _, by rw [render], by decide⟩
  | obj ms => cases ms <;> exact ⟨_, _, by rw [render], by decide⟩

/-- A document does not begin with white space. -/
theorem skipSpace_render {j : Json} (hj : j.NumberFree) (d : ℕ) (rest : List Char) :
    skipSpace (render w d j ++ rest) = render w d j ++ rest := by
  obtain ⟨c, cs, hrender, hspace, -⟩ := render_cons hj d
  rw [hrender, List.cons_append, skipSpace_cons hspace]

section

variable {α : Type} {item : Reader α} {close : Char} {text : α → List Char} {d e : ℕ} {a : α}
  {as : List α}

/-- What follows the first of several items. -/
def following (w : Layout) (d e : ℕ) (text : α → List Char) (as : List α) (close : Char)
    (rest : List Char) : List Char :=
  as.flatMap (fun b => ',' :: (w.gap d ++ text b)) ++ (w.gap e ++ close :: rest)

/-- There is a character for each item that follows. -/
theorem length_following (text : α → List Char) (as : List α) (close : Char)
    (rest : List Char) : as.length ≤ (following w d e text as close rest).length := by
  induction as with
  | nil => exact Nat.zero_le _
  | cons b bs ih =>
      simp only [following, List.flatMap_cons, List.length_append, List.length_cons] at ih ⊢
      omega

/-- A gap before a sequence is skipped. -/
theorem sequence_gap (fuel : ℕ) (cs : List Char) :
    sequence item close fuel (w.gap d ++ cs) = sequence item close fuel cs := by
  cases fuel with
  | zero => rfl
  | succ fuel => simp only [sequence, skipSpace_gap]

/-- Items that are read back one by one are read back together. -/
theorem sequence_following (hclose : close ≠ ',') (hspace : isSpace close = false)
    (hitem : ∀ b ∈ a :: as, ∀ rest, item (skipSpace (text b ++ rest)) = some (b, rest)) {fuel : ℕ}
    (hfuel : as.length < fuel) (rest : List Char) :
    sequence item close fuel (text a ++ following w d e text as close rest) =
      some (a :: as, rest) := by
  induction as generalizing a fuel with
  | nil =>
      obtain ⟨fuel, rfl⟩ := Nat.exists_eq_add_of_lt hfuel
      simp only [sequence, hitem a (List.mem_cons_self ..), following, List.flatMap_nil,
        List.nil_append, skipSpace_gap, skipSpace_cons hspace, Option.bind_eq_bind,
        Option.bind_some, if_neg hclose, if_true]
  | cons b bs ih =>
      obtain ⟨fuel, rfl⟩ := Nat.exists_eq_add_of_lt hfuel
      have hrest : following w d e text (b :: bs) close rest =
          ',' :: (w.gap d ++ (text b ++ following w d e text bs close rest)) := by
        simp [following]
      have hlater := ih (fun c hc => hitem c (List.mem_cons_of_mem _ hc))
        (show bs.length < bs.length + 1 + fuel by omega)
      simp only [sequence, hitem a (List.mem_cons_self ..), hrest,
        skipSpace_cons (show isSpace ',' = false from rfl), Option.bind_eq_bind, Option.bind_some,
        if_true, sequence_gap, List.length_cons, hlater]

/-- The same with the opening bracket before them. -/
theorem bracketed_following (hclose : close ≠ ',') (hspace : isSpace close = false)
    (hitem : ∀ b ∈ a :: as, ∀ rest, item (skipSpace (text b ++ rest)) = some (b, rest))
    (hfirst : ∃ c cs, text a = c :: cs ∧ isSpace c = false ∧ c ≠ close) (rest : List Char) :
    bracketed item close (w.gap d ++ (text a ++ following w d e text as close rest)) =
      some (a :: as, rest) := by
  obtain ⟨c, cs, htext, hc, hne⟩ := hfirst
  have hfuel : as.length < (text a ++ following w d e text as close rest).length := by
    have hlength := length_following (w := w) (d := d) (e := e) text as close rest
    rw [htext, List.cons_append, List.length_cons, List.length_append]
    omega
  have hsequence := sequence_following hclose hspace hitem hfuel rest (w := w) (d := d) (e := e)
  rw [htext, List.cons_append] at hsequence
  rw [bracketed, skipSpace_gap, htext, List.cons_append, skipSpace_cons hc]
  simp only [if_neg hne]
  exact hsequence

end

/-- The items after the first, as one text for each. -/
theorem renderItems_eq (d : ℕ) (js : List Json) :
    renderItems w d js = js.flatMap fun j => ',' :: (w.gap d ++ render w d j) := by
  induction js with
  | nil => rfl
  | cons j js ih => rw [renderItems, ih]; simp

/-- A member as it is written. -/
def renderMember (w : Layout) (d : ℕ) (m : String × Json) : List Char :=
  renderString m.1 ++ (':' :: (w.colon ++ render w d m.2))

/-- The members after the first, as one text for each. -/
theorem renderMembers_eq (d : ℕ) (ms : List (String × Json)) :
    renderMembers w d ms = ms.flatMap fun m => ',' :: (w.gap d ++ renderMember w d m) := by
  induction ms with
  | nil => rfl
  | cons m ms ih => rw [renderMembers, ih]; simp [renderMember]

/-- An array with an item. -/
theorem render_arr (d : ℕ) (j : Json) (js : List Json) (rest : List Char) :
    render w d (.arr (j :: js)) ++ rest = '[' :: (w.gap (d + 1) ++ (render w (d + 1) j ++
      following w (d + 1) d (render w (d + 1)) js ']' rest)) := by
  rw [render, renderItems_eq]
  simp [following]

/-- An object with a member. -/
theorem render_obj (d : ℕ) (m : String × Json) (ms : List (String × Json)) (rest : List Char) :
    render w d (.obj (m :: ms)) ++ rest = '{' :: (w.gap (d + 1) ++ (renderMember w (d + 1) m ++
      following w (d + 1) d (renderMember w (d + 1)) ms '}' rest)) := by
  rw [render, renderMembers_eq]
  simp [following, renderMember]

/-- An item is shorter than the items together. -/
theorem length_lt_of_mem {α : Type} (text : α → List Char) {d e : ℕ} {a b : α} {as : List α}
    (hb : b ∈ a :: as) (close : Char) :
    (text b).length < (text a ++ following w d e text as close []).length := by
  rw [List.length_append]
  rcases List.mem_cons.mp hb with rfl | hb
  · simp [following]
  · have hlength : (text b).length ≤
        (as.flatMap fun b => ',' :: (w.gap d ++ text b)).length := by
      obtain ⟨before, after, rfl⟩ := List.append_of_mem hb
      simp only [List.flatMap_append, List.flatMap_cons, List.length_append, List.length_cons]
      omega
    simp only [following, List.length_append, List.length_cons]
    omega

/-- The items of an array without numbers have none. -/
theorem numberFree_of_mem {j : Json} {js : List Json} (hjs : Json.NumberFreeItems js)
    (hj : j ∈ js) : j.NumberFree := by
  induction js with
  | nil => exact nomatch hj
  | cons j' js ih =>
      rcases List.mem_cons.mp hj with rfl | hj
      · exact hjs.1
      · exact ih hjs.2 hj

/-- Nor have the members of an object. -/
theorem numberFree_of_mem_members {m : String × Json} {ms : List (String × Json)}
    (hms : Json.NumberFreeMembers ms) (hm : m ∈ ms) : m.2.NumberFree := by
  induction ms with
  | nil => exact nomatch hm
  | cons m' ms ih =>
      rcases List.mem_cons.mp hm with rfl | hm
      · exact hms.1
      · exact ih hms.2 hm

/-- A member is read back if its value is. -/
theorem member_renderMember {n d : ℕ} {m : String × Json} (hm : m.2.NumberFree) (rest : List Char)
    (hvalue : ∀ rest, value n (render w d m.2 ++ rest) = some (m.2, rest)) :
    member (value n) (skipSpace (renderMember w d m ++ rest)) = some (m, rest) := by
  obtain ⟨cs, hcs, hstring⟩ :=
    string_renderString m.1 (':' :: (w.colon ++ (render w d m.2 ++ rest)))
  have htext : renderMember w d m ++ rest = '"' :: cs := by
    rw [← hcs, renderMember]
    simp
  rw [htext, skipSpace_cons rfl]
  simp only [member, hstring, Option.bind_eq_bind, Option.bind_some,
    skipSpace_cons (show isSpace ':' = false from rfl), skipSpace_colon, skipSpace_render hm,
    hvalue]

/-- **Documents are read back.** The text of a document without numbers is read as that document,
whatever follows it. -/
theorem value_render {j : Json} (hj : j.NumberFree) {n d : ℕ} (hn : (render w d j).length ≤ n)
    (rest : List Char) : value n (render w d j ++ rest) = some (j, rest) := by
  -- by induction on the bound: what is inside brackets is shorter
  induction n generalizing j d rest with
  | zero =>
      obtain ⟨c, cs, hrender, -⟩ := render_cons (w := w) hj d
      rw [hrender] at hn
      exact absurd hn (Nat.not_succ_le_zero _)
  | succ n ih =>
      cases j with
      | null => rfl
      | bool b => cases b <;> rfl
      | int n => exact hj.elim
      | real literal => exact hj.elim
      | str s =>
          obtain ⟨cs, hcs, hstring⟩ := string_renderString s rest
          rw [render, hcs, value, hstring]
          rfl
      | arr js =>
          cases js with
          | nil => rfl
          | cons j js =>
              have hlength := render_arr (w := w) d j js []
              rw [List.append_nil] at hlength
              rw [hlength] at hn
              simp only [List.length_cons, List.length_append] at hn
              have hitem : ∀ b ∈ j :: js, ∀ rest,
                  value n (skipSpace (render w (d + 1) b ++ rest)) = some (b, rest) := by
                intro b hb rest
                have hfree := numberFree_of_mem hj hb
                have hshort := length_lt_of_mem (w := w) (d := d + 1) (e := d)
                  (render w (d + 1)) hb ']'
                rw [List.length_append] at hshort
                rw [skipSpace_render hfree]
                exact ih hfree (by omega) rest
              obtain ⟨c, cs, hrender, hspace, hclose, -⟩ := render_cons (w := w) hj.1 (d + 1)
              rw [render_arr, value, bracketed_following (by decide) rfl hitem
                ⟨c, cs, hrender, hspace, hclose⟩]
              rfl
      | obj ms =>
          cases ms with
          | nil => rfl
          | cons m ms =>
              have hlength := render_obj (w := w) d m ms []
              rw [List.append_nil] at hlength
              rw [hlength] at hn
              simp only [List.length_cons, List.length_append] at hn
              have hitem : ∀ b ∈ m :: ms, ∀ rest, member (value n)
                  (skipSpace (renderMember w (d + 1) b ++ rest)) = some (b, rest) := by
                intro b hb rest
                have hfree := numberFree_of_mem_members hj hb
                have hshort := length_lt_of_mem (w := w) (d := d + 1) (e := d)
                  (renderMember w (d + 1)) hb '}'
                simp only [List.length_append, renderMember, List.length_cons] at hshort hn
                exact member_renderMember hfree rest fun rest => ih hfree (by omega) rest
              rw [render_obj, value, bracketed_following (by decide) rfl hitem
                ⟨'"', _, rfl, rfl, by decide⟩]
              rfl

/-- The text of a document is read as that document. -/
theorem parse_render {j : Json} (hj : j.NumberFree) :
    parse (String.ofList (render w 0 j)) = some j := by
  have hvalue := value_render (w := w) (d := 0) hj (Nat.le_refl _) []
  rw [List.append_nil] at hvalue
  have hskip := skipSpace_render (w := w) hj 0 []
  rw [List.append_nil] at hskip
  rw [parse, String.toList_ofList, hskip, hvalue]
  rfl

/-! ### The writer of a browser -/

/-- What `JSON.stringify` writes as a code unit. -/
def isControl (c : Char) : Bool := c.toNat < 32

/-- So does JavaScript. -/
theorem escapes_isControl : Escapes isControl := by
  refine ⟨fun c hc => by simp [isControl, hc], fun c h => ?_⟩
  simp only [isControl, decide_eq_true_eq] at h
  omega

def scriptString (s : String) : List Char :=
  '"' :: s.toList.flatMap (escapeWith isControl) ++ ['"']

def scriptValue : Json → List Char
  | .str s => scriptString s
  | j => render compact 0 j

def scriptMember (m : String × Json) : List Char := scriptString m.1 ++ ':' :: scriptValue m.2

/-- `JSON.stringify` of an object that holds nothing but strings and truth values. -/
def stringify (m : String × Json) (ms : List (String × Json)) : List Char :=
  '{' :: (scriptMember m ++ ms.flatMap (fun m => ',' :: scriptMember m) ++ ['}'])

/-- A string or a truth value. -/
def IsFlat : Json → Prop
  | .str _ | .bool _ => True
  | _ => False

/-- A string that JavaScript wrote is read back. -/
theorem string_scriptString (s : String) (rest : List Char) :
    ∃ cs, scriptString s ++ rest = '"' :: cs ∧ string cs = some (s, rest) :=
  ⟨s.toList.flatMap (escapeWith isControl) ++ '"' :: rest, by simp [scriptString],
    string_escapeWith escapes_isControl s rest⟩

/-- So is a string or a truth value. -/
theorem value_scriptValue {j : Json} (hj : IsFlat j) (n : ℕ) (rest : List Char) :
    value (n + 1) (skipSpace (scriptValue j ++ rest)) = some (j, rest) := by
  cases j with
  | str s =>
      obtain ⟨cs, hcs, hstring⟩ := string_scriptString s rest
      rw [scriptValue, hcs, skipSpace_cons rfl, value, hstring]
      rfl
  | bool b => cases b <;> rfl
  | null | int _ | real _ | arr _ | obj _ => exact hj.elim

/-- So is a member with such a value. -/
theorem member_scriptMember {m : String × Json} (hm : IsFlat m.2) (n : ℕ) (rest : List Char) :
    member (value (n + 1)) (skipSpace (scriptMember m ++ rest)) = some (m, rest) := by
  obtain ⟨cs, hcs, hstring⟩ := string_scriptString m.1 (':' :: (scriptValue m.2 ++ rest))
  have htext : scriptMember m ++ rest = '"' :: cs := by
    rw [← hcs, scriptMember, List.append_assoc]
    rfl
  rw [htext, skipSpace_cons rfl]
  simp only [member, hstring, Option.bind_eq_bind, Option.bind_some,
    skipSpace_cons (show isSpace ':' = false from rfl), value_scriptValue hm]

/-- The text of an object is read as that object. -/
theorem parse_stringify {m : String × Json} {ms : List (String × Json)}
    (hplain : ∀ b ∈ m :: ms, IsFlat b.2) :
    parse (String.ofList (stringify m ms)) = some (.obj (m :: ms)) := by
  have htext : stringify m ms =
      '{' :: (scriptMember m ++ following compact 0 0 scriptMember ms '}' []) := by
    simp [stringify, following, compact]
  obtain ⟨n, hn⟩ : ∃ n, (stringify m ms).length = n + 2 := by
    refine ⟨_, Nat.eq_add_of_sub_eq ?_ rfl⟩
    simp only [stringify, List.length_cons, List.length_append]
    omega
  rw [parse, String.toList_ofList, hn, htext, skipSpace_cons rfl, value,
    show scriptMember m ++ _ = compact.gap 0 ++ (scriptMember m ++ _) from rfl,
    bracketed_following (by decide) rfl (fun b hb rest => member_scriptMember (hplain b hb) n rest)
      ⟨'"', _, rfl, rfl, by decide⟩]
  rfl

/-! ### What codecs write -/

open GoJson

/-- What the codec writes has no numbers. -/
def WritesNumberFree {α : Type} (c : Codec α) : Prop := ∀ a, (c.encode a).NumberFree

/-- What the field writes has no numbers. -/
def FieldNumberFree {σ : Type} (f : GoJson.Field σ) : Prop :=
  ∀ {s j}, f.write s = some j → j.NumberFree

/-- A truth value is written without numbers. -/
@[simp] theorem numberFree_bool : WritesNumberFree boolCodec := fun _ => trivial

/-- So is a string. -/
@[simp] theorem numberFree_string : WritesNumberFree stringCodec := fun _ => trivial

/-- So is a pointer if what it points to is. -/
@[simp] theorem numberFree_ptr {α : Type} {c : Codec α} {hnull : ∀ a, c.encode a ≠ .null}
    (hc : WritesNumberFree c) : WritesNumberFree (ptrCodec c hnull)
  | none => trivial
  | some a => hc a

/-- So is a slice if its elements are. -/
@[simp] theorem numberFree_slice {α : Type} {c : Codec α} (hc : WritesNumberFree c) :
    WritesNumberFree (sliceCodec c) := by
  intro items
  induction items with
  | nil => trivial
  | cons a items ih => exact ⟨hc a, ih⟩

/-- So is a field if its value is. -/
@[simp] theorem numberFree_field {σ β : Type} {key : String} {c : Codec β} {get : σ → β}
    {set : β → σ → σ} (hc : WritesNumberFree c) : FieldNumberFree (field key c get set) := by
  intro s j hwrite
  obtain rfl := Option.some.inj hwrite
  exact hc _

/-- So is a field that is left out when it is empty. -/
@[simp] theorem numberFree_omitempty {σ β : Type} [DecidableEq β] {key : String} {c : Codec β}
    {get : σ → β} {set : β → σ → σ} {hset : ∀ t, set (get t) t = t} (hc : WritesNumberFree c) :
    FieldNumberFree (omitempty key c get set hset) := by
  intro s j hwrite
  by_cases homit : get s = c.zero
  · exact absurd ((if_pos homit).symm.trans hwrite).symm (Option.some_ne_none _)
  · obtain rfl := Option.some.inj ((if_neg homit).symm.trans hwrite)
    exact hc _

/-- So is a struct if all its fields are. -/
theorem numberFree_struct {σ : Type} {fold : Char → Char} {zero : σ}
    {fields : List (GoJson.Field σ)} {hkeys : (fields.map GoJson.Field.key).Nodup}
    {hfresh : ∀ s, Fresh fields s zero}
    (hfields : ∀ f ∈ fields, FieldNumberFree f) :
    WritesNumberFree (structCodec fold zero fields hkeys hfresh) := by
  intro s
  change Json.NumberFreeMembers (members fields s)
  clear hkeys hfresh
  induction fields with
  | nil => trivial
  | cons f fields ih =>
      have hrest := ih fun g hg => hfields g (List.mem_cons_of_mem _ hg)
      rcases hwrite : f.write s with _ | j
      · rw [members, List.filterMap_cons_none (by rw [hwrite, Option.map_none])]
        exact hrest
      · rw [members, List.filterMap_cons_some (by rw [hwrite, Option.map_some])]
        exact ⟨hfields f (List.mem_cons_self ..) hwrite, hrest⟩

end JsonText

/-! ### Texts without control characters -/

mutual

/-- A document whose literals of numbers are not empty and have no control characters. -/
def Json.Printable : Json → Prop
  | .real literal => literal.toList ≠ [] ∧ ∀ c ∈ literal.toList, 32 ≤ c.toNat
  | .arr js => Json.PrintableItems js
  | .obj ms => Json.PrintableMembers ms
  | _ => True

def Json.PrintableItems : List Json → Prop
  | [] => True
  | j :: js => j.Printable ∧ Json.PrintableItems js

def Json.PrintableMembers : List (String × Json) → Prop
  | [] => True
  | (_, j) :: ms => j.Printable ∧ Json.PrintableMembers ms

end

namespace JsonText

variable {w : Layout}

/-- Hexadecimal digits are no control characters. -/
theorem hexDigit_printable : ∀ n < 16, 32 ≤ (hexDigit n).toNat := by decide

/-- What is written as a code unit is one. -/
theorem isUnit_lt {c : Char} (h : isUnit c = true) : c.toNat < 65536 := by
  simp only [isUnit, Bool.or_eq_true, decide_eq_true_eq] at h
  obtain ((((hsmall | rfl) | rfl) | rfl) | rfl) | rfl := h
  · omega
  all_goals decide

/-- An escaped character has no control characters. -/
theorem escapeChar_printable (c : Char) : ∀ d ∈ escapeChar c, 32 ≤ d.toNat := by
  unfold escapeChar
  split_ifs with _ _ _ _ _ _ _ hunit
  iterate 7 simp
  · have hlt := isUnit_lt hunit
    simp only [List.mem_cons, List.not_mem_nil, or_false]
    rintro d (rfl | rfl | rfl | rfl | rfl | rfl)
    · decide
    · decide
    all_goals exact hexDigit_printable _ (by omega)
  · intro d hd
    rw [List.mem_singleton.mp hd]
    by_contra hcontrol
    exact hunit (by simp [isUnit, Nat.lt_of_not_le hcontrol])

/-- Nor has a string. -/
theorem renderString_printable (s : String) : ∀ c ∈ renderString s, 32 ≤ c.toNat := by
  intro c hc
  simp only [renderString, List.cons_append, List.mem_cons, List.mem_append, List.mem_flatMap,
    List.not_mem_nil, or_false] at hc
  obtain rfl | ⟨a, -, ha⟩ | rfl := hc
  · decide
  · exact escapeChar_printable a c ha
  · decide

/-- Nor has a number. -/
theorem renderInt_printable (n : ℤ) : ∀ c ∈ renderInt n, 32 ≤ c.toNat := by
  have hdigits : ∀ k : ℕ, ∀ c ∈ Nat.toDigits 10 k, 32 ≤ c.toNat := by
    intro k c hc
    have hdigit := Nat.isDigit_of_mem_toDigits (by decide) (by decide) hc
    simp only [Char.isDigit, Bool.and_eq_true, decide_eq_true_eq] at hdigit
    exact le_trans (by decide) hdigit.1
  cases n with
  | ofNat k => exact hdigits k
  | negSucc k => exact List.forall_mem_cons.mpr ⟨by decide, hdigits (k + 1)⟩

mutual

/-- **The text of a document on one line has no control characters.** -/
theorem printable_render : ∀ {j : Json}, j.Printable → ∀ d, ∀ c ∈ render compact d j, 32 ≤ c.toNat
  | .null, _, d => by simp [render]
  | .bool true, _, d => by simp [render]
  | .bool false, _, d => by simp [render]
  | .int n, _, d => by rw [render]; exact renderInt_printable n
  | .real literal, hj, d => by rw [render]; exact hj.2
  | .str s, _, d => by rw [render]; exact renderString_printable s
  | .arr [], _, d => by simp [render]
  | .arr (j :: js), hj, d => by
      simp only [render, compact, List.nil_append, List.forall_mem_cons, List.forall_mem_append]
      exact ⟨by decide, printable_render hj.1 (d + 1), printable_renderItems hj.2 (d + 1),
        by simp⟩
  | .obj [], _, d => by simp [render]
  | .obj ((key, j) :: ms), hj, d => by
      simp only [render, compact, List.nil_append, List.forall_mem_cons, List.forall_mem_append]
      exact ⟨by decide, renderString_printable key, by decide, printable_render hj.1 (d + 1),
        printable_renderMembers hj.2 (d + 1), by simp⟩

/-- Nor have the items of an array. -/
theorem printable_renderItems : ∀ {js : List Json}, Json.PrintableItems js →
    ∀ d, ∀ c ∈ renderItems compact d js, 32 ≤ c.toNat
  | [], _, _ => nofun
  | j :: js, hjs, d => by
      simp only [renderItems, compact, List.nil_append, List.forall_mem_cons,
        List.forall_mem_append]
      exact ⟨by decide, printable_render hjs.1 d, printable_renderItems hjs.2 d⟩

/-- Nor have the members of an object. -/
theorem printable_renderMembers : ∀ {ms : List (String × Json)}, Json.PrintableMembers ms →
    ∀ d, ∀ c ∈ renderMembers compact d ms, 32 ≤ c.toNat
  | [], _, _ => nofun
  | (key, j) :: ms, hms, d => by
      simp only [renderMembers, compact, List.nil_append, List.forall_mem_cons,
        List.forall_mem_append]
      exact ⟨by decide, renderString_printable key, by decide, printable_render hms.1 d,
        printable_renderMembers hms.2 d⟩

end

/-- A number has a digit. -/
theorem renderInt_ne_nil (n : ℤ) : renderInt n ≠ [] := by
  cases n with
  | ofNat k => exact Nat.toDigits_ne_nil
  | negSucc k => exact List.cons_ne_nil _ _

/-- The text of a document is not empty. -/
theorem render_ne_nil {j : Json} (hj : j.Printable) (d : ℕ) : render w d j ≠ [] := by
  cases j with
  | null => exact List.cons_ne_nil _ _
  | bool b => cases b <;> exact List.cons_ne_nil _ _
  | int n => exact renderInt_ne_nil n
  | real literal => exact hj.1
  | str s => exact List.cons_ne_nil _ _
  | arr js => cases js <;> exact List.cons_ne_nil _ _
  | obj ms => cases ms <;> exact List.cons_ne_nil _ _

end JsonText
