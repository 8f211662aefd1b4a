import Contiwatch.Lib.GoJson

/-!
# Values in a Browser

What a page does with texts and with documents that it has parsed: the white space of JavaScript,
the values that the fields of a form take, and the properties of objects.
-/

namespace Js

/-! ### Texts -/

/-- The white space and the line ends of JavaScript. -/
def isSpace (c : Char) : Bool :=
  c = '\t' || c = '\n' || c = '\x0b' || c = '\x0c' || c = '\r' || c = ' ' || c = '\xa0' ||
    c = '\u1680' || ('\u2000' ≤ c && c ≤ '\u200a') || c = '\u2028' || c = '\u2029' ||
    c = '\u202f' || c = '\u205f' || c = '\u3000' || c = '\uFEFF'

/-- `String.prototype.trim`. -/
@[irreducible] def trim (s : String) : String :=
  String.ofList ((s.toList.dropWhile isSpace).reverse.dropWhile isSpace).reverse

/-- `String.prototype.toLowerCase`, next to words of ASCII letters other than `k`: of the characters
outside ASCII only U+212A comes into it, as `k`, while U+0130 keeps its dot beside the `i`. -/
def toLowerCase (s : String) : String := GoStrings.toLower Char.toLower s

/-- The value that a text field takes: it has no line breaks. -/
def textInput (s : String) : String :=
  String.ofList (s.toList.filter fun c => c ≠ '\n' ∧ c ≠ '\r')

/-- The line breaks of a text, as line feeds. -/
def lineFeeds : List Char → List Char
  | '\r' :: '\n' :: cs => '\n' :: lineFeeds cs
  | '\r' :: cs => '\n' :: lineFeeds cs
  | c :: cs => c :: lineFeeds cs
  | [] => []

/-- The value that a text area or an editor takes. -/
@[irreducible] def textArea (s : String) : String := String.ofList (lineFeeds s.toList)

/-- The two digits are a number below `bound`. -/
def isBelow (bound : ℕ) (a b : Char) : Bool :=
  a.isDigit && b.isDigit && (a.toNat - 48) * 10 + (b.toNat - 48) < bound

/-- A valid time: hours and minutes, with seconds and a fraction of a second if there are any. -/
def isTime : List Char → Bool
  | [a, b, ':', c, d] => isBelow 24 a b && isBelow 60 c d
  | [a, b, ':', c, d, ':', e, f] => isBelow 24 a b && isBelow 60 c d && isBelow 60 e f
  | a :: b :: ':' :: c :: d :: ':' :: e :: f :: '.' :: fraction =>
      isBelow 24 a b && isBelow 60 c d && isBelow 60 e f && fraction.all Char.isDigit &&
        1 ≤ fraction.length && fraction.length ≤ 3
  | _ => false

/-- The value that a time field takes: a text that is no time empties it. -/
def timeInput (s : String) : String := if isTime s.toList then s else ""

/-- The value that a choice takes: a text that is no option leaves nothing chosen. -/
def selectInput (options : List String) (s : String) : String := if s ∈ options then s else ""

example : trim "\uFEFF 5 3 * * *\n" = "5 3 * * *" := by decide +kernel

example : [timeInput "03:00", timeInput "3:00"] = ["03:00", ""] := by decide

example : textArea "a\r\nb\rc\n" = "a\nb\nc\n" := by decide +kernel

@[simp] theorem trim_empty : trim "" = "" := by decide +kernel

@[simp] theorem textArea_empty : textArea "" = "" := by decide +kernel

/-- What is not a carriage return is kept. -/
theorem lineFeeds_cons {c : Char} (hc : c ≠ '\r') (cs : List Char) :
    lineFeeds (c :: cs) = c :: lineFeeds cs := by
  rw [lineFeeds]
  · rintro cs' rfl
    exact absurd rfl hc
  · rintro rfl
    exact hc rfl

/-- A value is taken as it is. -/
theorem textArea_textArea (s : String) : textArea (textArea s) = textArea s := by
  have hfeed : ('\n' : Char) ≠ '\r' := by decide
  have hchars : ∀ cs : List Char, lineFeeds (lineFeeds cs) = lineFeeds cs := by
    intro cs
    induction cs using lineFeeds.induct with
    | case1 cs ih => rw [lineFeeds, lineFeeds_cons hfeed, ih]
    | case2 cs hnext ih =>
        rw [lineFeeds, lineFeeds_cons hfeed, ih]
        exact hnext
    | case3 c cs hpair hreturn ih =>
        have hc : c ≠ '\r' := fun heq => hreturn heq
        rw [lineFeeds_cons hc, lineFeeds_cons hc, ih]
    | case4 => rfl
  rw [textArea, textArea, String.toList_ofList, hchars]

/-- A text that is a time is the value of the field, and no other is, apart from the empty one. -/
theorem timeInput_eq_self_iff {s : String} (hs : s ≠ "") :
    timeInput s = s ↔ isTime s.toList = true := by
  rw [timeInput]
  split
  · rename_i htime
    exact iff_of_true rfl htime
  · rename_i htime
    exact iff_of_false (Ne.symm hs) htime

/-! ### Parsed documents -/

/-- A property of an object: the last member with its key, or `undefined`. -/
def prop (key : String) : Option Json → Option Json
  | some (.obj members) => members.reverse.lookup key
  | _ => none

/-- `Boolean(x)`; a number with a fraction or an exponent is taken to be none. -/
def truthy : Option Json → Bool
  | some (.bool b) => b
  | some (.int n) => n ≠ 0
  | some (.real _) | some (.arr _) | some (.obj _) => true
  | some (.str s) => s ≠ ""
  | some .null | none => false

/-- The text that a value is, or the empty text. -/
def text : Option Json → String
  | some (.str s) => s
  | _ => ""

@[simp] theorem truthy_bool (b : Bool) : truthy (some (.bool b)) = b := rfl

@[simp] theorem text_str (s : String) : text (some (.str s)) = s := rfl

/-- `x !== false`. -/
def notFalse : Option Json → Bool
  | some (.bool b) => b
  | _ => true

/-- The number that a value is, if it is an integer, or zero. -/
def number : Option Json → ℤ
  | some (.int n) => n
  | _ => 0

@[simp] theorem number_int (n : ℤ) : number (some (.int n)) = n := rfl

theorem prop_obj (key : String) (members : List (String × Json)) :
    prop key (some (.obj members)) = members.reverse.lookup key := rfl

end Js
