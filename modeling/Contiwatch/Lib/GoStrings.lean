import Mathlib.Data.List.DropRight
import Mathlib.Data.Nat.Digits.Defs

/-!
# Go Strings

The functions of Go's `strings` package that the modelled code calls. Text is a list of
characters while it is taken apart; the separators and blanks in question are single
characters, so that bytes and characters agree. `ToLower` is stated for the ASCII letters.
-/

namespace GoStrings

/-- A fact about an ASCII character is checked on all of them. -/
theorem ascii_forall {p : Char → Prop} (h : ∀ n < 128, p (Char.ofNat n)) {c : Char}
    (hc : c.toNat < 128) : p c :=
  Char.ofNat_toNat c ▸ h c.toNat hc

/-- Letters are ASCII here. -/
theorem toNat_lt_of_isAlpha {c : Char} (h : c.isAlpha = true) : c.toNat < 128 := by
  rcases Bool.or_eq_true_iff.mp (show (c.isUpper || c.isLower) = true from h) with h | h
  · have hupper : 'A'.val ≤ c.val ∧ c.val ≤ 'Z'.val := of_decide_eq_true h
    have hle : c.toNat ≤ 'Z'.toNat := hupper.2
    exact hle.trans_lt (by decide)
  · have hlower := Bool.and_eq_true_iff.mp h
    have hle : c.toNat ≤ 'z'.toNat := of_decide_eq_true hlower.2
    exact hle.trans_lt (by decide)

/-- So are digits. -/
theorem toNat_lt_of_isDigit {c : Char} (h : c.isDigit = true) : c.toNat < 128 := by
  have hle : c.toNat ≤ '9'.toNat := (Char.isDigit_iff_toNat.mp h).2
  exact hle.trans_lt (by decide)

/-- `unicode.IsSpace`. -/
def isSpace (c : Char) : Bool :=
  c = '\t' || c = '\n' || c = '\x0b' || c = '\x0c' || c = '\r' || c = ' ' || c = '\x85' ||
    c = '\xa0' || c = '\u1680' || ('\u2000' ≤ c && c ≤ '\u200a') || c = '\u2028' ||
    c = '\u2029' || c = '\u202f' || c = '\u205f' || c = '\u3000'

/-- Trimming on both sides does not change what comes first after trimming on the left. -/
theorem head?_trim {α : Type} (p : α → Bool) (l : List α) :
    ((l.dropWhile p).reverse.dropWhile p).reverse.head? = (l.dropWhile p).head? := by
  rcases hdrop : l.dropWhile p with _ | ⟨a, rest⟩
  · rfl
  · have ha : p a = false := by
      have := List.head?_dropWhile_not p l
      rw [hdrop] at this
      simpa using this
    have hkeep : ∀ l : List α, ((l ++ [a]).dropWhile p).getLast? = some a := by
      intro l
      induction l with
      | nil => simp [ha]
      | cons b l ih =>
          rw [List.cons_append, List.dropWhile_cons]
          split
          · exact ih
          · rw [← List.cons_append, List.getLast?_concat]
    rw [List.reverse_cons, List.head?_reverse, hkeep, List.head?_cons]

/-- `strings.TrimSpace` on characters. -/
def trimSpace (cs : List Char) : List Char :=
  ((cs.dropWhile isSpace).reverse.dropWhile isSpace).reverse

/-- Trimming leaves a list alone in which there is nothing to trim. -/
theorem trim_of_forall {α : Type} {p : α → Bool} {l : List α} (h : ∀ a ∈ l, p a = false) :
    ((l.dropWhile p).reverse.dropWhile p).reverse = l := by
  have hdrop : ∀ l : List α, (∀ a ∈ l, p a = false) → l.dropWhile p = l := by
    intro l hl
    cases l with
    | nil => rfl
    | cons a l => simp [hl a (List.mem_cons_self ..)]
  rw [hdrop l h, hdrop l.reverse (by simpa using h), List.reverse_reverse]

/-- Trimming leaves a list alone whose first and last element stay. -/
theorem trim_of_ends {α : Type} {p : α → Bool} {a b : α} (ha : p a = false) (hb : p b = false)
    (l : List α) :
    (((a :: l ++ [b]).dropWhile p).reverse.dropWhile p).reverse = a :: l ++ [b] := by
  have hfront : (a :: l ++ [b]).dropWhile p = a :: l ++ [b] := by
    rw [List.cons_append, List.dropWhile_cons, ha]
    rfl
  have hback : (a :: l ++ [b]).reverse.dropWhile p = (a :: l ++ [b]).reverse := by
    rw [List.reverse_append, List.reverse_singleton, List.singleton_append, List.dropWhile_cons, hb]
    rfl
  rw [hfront, hback, List.reverse_reverse]

/-- Without white space there is nothing to trim. -/
theorem trimSpace_of_not_space {cs : List Char} (h : ∀ c ∈ cs, isSpace c = false) :
    trimSpace cs = cs :=
  trim_of_forall h

/-- Trimmed text is left alone. -/
theorem trimSpace_trimSpace (cs : List Char) : trimSpace (trimSpace cs) = trimSpace cs := by
  have hleft : (trimSpace cs).dropWhile isSpace = trimSpace cs := by
    have hhead : (trimSpace cs).head? = (cs.dropWhile isSpace).head? := head?_trim isSpace cs
    rcases htrim : trimSpace cs with _ | ⟨a, rest⟩
    · rfl
    · rw [htrim, List.head?_cons] at hhead
      have ha := List.head?_dropWhile_not isSpace cs
      rw [← hhead] at ha
      exact List.dropWhile_cons_of_neg (by simpa using ha)
  rw [trimSpace, hleft, trimSpace, List.reverse_reverse, List.dropWhile_idempotent]

/-- `strings.TrimSpace`. -/
def trimSpaceStr (s : String) : String := String.ofList (trimSpace s.toList)

/-- Trimming twice is trimming once. -/
theorem trimSpaceStr_trimSpaceStr (s : String) :
    trimSpaceStr (trimSpaceStr s) = trimSpaceStr s := by
  rw [trimSpaceStr, trimSpaceStr, String.toList_ofList, trimSpace_trimSpace]

/-- `strings.Split` at a one-character separator. -/
def split (sep : Char) (cs : List Char) : List (List Char) := cs.splitOn sep

/-- A character is a separator or stands in one of the parts. -/
theorem mem_split {sep c : Char} {cs : List Char} (hc : c ∈ cs) :
    c = sep ∨ ∃ part ∈ split sep cs, c ∈ part := by
  rw [split]
  induction cs with
  | nil => cases hc
  | cons d cs ih =>
      rw [List.splitOn_cons_eq_if_modifyHead]
      obtain ⟨part, rest, hsplit⟩ := List.exists_cons_of_ne_nil (List.splitOn_ne_nil sep cs)
      rw [hsplit] at ih ⊢
      split
      · rename_i hd
        rcases List.mem_cons.mp hc with rfl | hmem
        · exact .inl (beq_iff_eq.mp hd)
        · exact (ih hmem).imp_right fun ⟨part, hpart, hmem⟩ =>
            ⟨part, List.mem_cons_of_mem _ hpart, hmem⟩
      · rw [List.modifyHead_cons]
        rcases List.mem_cons.mp hc with rfl | hmem
        · exact .inr ⟨c :: part, List.mem_cons_self .., List.mem_cons_self ..⟩
        · refine (ih hmem).imp_right ?_
          rintro ⟨found, hfound, hmem⟩
          rcases List.mem_cons.mp hfound with rfl | hfound
          · exact ⟨d :: found, List.mem_cons_self .., List.mem_cons_of_mem _ hmem⟩
          · exact ⟨found, List.mem_cons_of_mem _ hfound, hmem⟩

/-- `strings.SplitN(s, sep, 2)` at a one-character separator: the text before and after the first
`sep`, if there is one. -/
def cut (sep : Char) (s : String) : Option (String × String) :=
  match s.toList.span (· ≠ sep) with
  | (_, []) => none
  | (before, _ :: after) => some (String.ofList before, String.ofList after)

/-- `strings.HasPrefix`. -/
def hasPrefix (s pre : String) : Bool := pre.toList.isPrefixOf s.toList

/-- `strings.TrimPrefix`. -/
def trimPrefix (s pre : String) : String :=
  if hasPrefix s pre then String.ofList (s.toList.drop pre.toList.length) else s

/-- `strings.Contains`. -/
def contains (s sub : String) : Bool := s.toList.tails.any sub.toList.isPrefixOf

/-- `unicode.ToLower`, which is known on ASCII. -/
structure Lowering where
  map : Char → Char
  map_ascii : ∀ c, c.toNat < 128 → map c = c.toLower

/-- The lowering that leaves alone what is not ASCII. -/
def Lowering.ascii : Lowering := ⟨Char.toLower, fun _ _ => rfl⟩

/-- `strings.ToLower`, where `lower` is `unicode.ToLower`. Only U+0130 and U+212A come into ASCII
from outside, as `i` and `k`; next to words without these letters `Char.toLower` does as well. -/
def toLower (lower : Char → Char) (s : String) : String := String.ofList (s.toList.map lower)

/-- On texts of ASCII characters all lowerings agree. -/
theorem toLower_of_ascii (lower : Lowering) {s : String} (hs : ∀ c ∈ s.toList, c.toNat < 128) :
    toLower lower.map s = toLower Char.toLower s :=
  congrArg String.ofList (List.map_congr_left fun c hc => lower.map_ascii c (hs c hc))

/-- `strings.EqualFold`, where `fold` picks one character of each class that simple case
folding makes equal. -/
def equalFold (fold : Char → Char) (s t : String) : Bool :=
  s.toList.map fold = t.toList.map fold

end GoStrings
