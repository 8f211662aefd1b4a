import Contiwatch.Lib.GoText
import Contiwatch.Lib.Unicode

/-!
# The Runes of Bytes

A Go string is bytes, which `for range` and the functions of the `strings` and `bytes` packages read
as runes: a character where valid UTF-8 stands, and a byte by itself where it does not. Bytes may be
cut where a character could start, and their runes are cut there with them.

## Main results

* `bytes_runes` — the runes of bytes have these bytes.
* `runes_append` — the runes of bytes that go on where a character could start.
* `length_toValidUTF8_le` — replacing invalid bytes by one byte makes no text longer.
-/

namespace GoBytes

open Unicode

variable {p q : List UInt8} {c : Char}

/-! ### Reading one character -/

/-- The character with whose bytes these begin. -/
def decodeRune (p : List UInt8) : Option Char := p.toByteArray.utf8DecodeChar? 0

/-- An encoded character decodes, whatever follows it. -/
theorem decodeRune_append (c : Char) (q : List UInt8) :
    decodeRune (String.utf8EncodeChar c ++ q) = some c := by
  rw [decodeRune, List.toByteArray_append, ByteArray.utf8DecodeChar?_utf8EncodeChar_append]

/-- What decodes is the character's encoding and the rest. -/
theorem eq_append_of_decodeRune (h : decodeRune p = some c) :
    p = String.utf8EncodeChar c ++ p.drop c.utf8Size := by
  obtain ⟨rest, hrest⟩ := ByteArray.exists_of_utf8DecodeChar?_eq_some h
  have hlist : p = String.utf8EncodeChar c ++ rest.data.toList := by
    have hdata := congrArg (fun b : ByteArray => b.data.toList) hrest
    simpa using hdata
  have hdrop : p.drop c.utf8Size = rest.data.toList := by
    rw [hlist, ← String.length_utf8EncodeChar, List.drop_left]
  rw [hdrop, ← hlist]

/-- What comes after a character does not matter for it. -/
theorem decodeRune_append_of_some (h : decodeRune p = some c) (q : List UInt8) :
    decodeRune (p ++ q) = some c := by
  rw [eq_append_of_decodeRune h, List.append_assoc]
  exact decodeRune_append c _

/-- The characters whose bytes are the first of a text are the first of its characters. -/
theorem exists_of_encode_append {cs ss : List Char} {rest : List UInt8}
    (h : encode cs ++ rest = encode ss) : ∃ t, ss = cs ++ t ∧ rest = encode t := by
  induction cs generalizing ss with
  | nil => exact ⟨ss, rfl, h⟩
  | cons c cs ih =>
      rw [encode_cons, List.append_assoc] at h
      rcases ss with _ | ⟨d, ss⟩
      · obtain ⟨b, bs, hb, -⟩ := utf8EncodeChar_shape c
        rw [hb] at h
        exact absurd h (by simp [encode])
      · rw [encode_cons] at h
        have hhead := decodeRune_append c (encode cs ++ rest)
        rw [h, decodeRune_append] at hhead
        obtain rfl := Option.some.inj hhead
        obtain ⟨t, rfl, hrest⟩ := ih (List.append_cancel_left h)
        exact ⟨t, rfl, hrest⟩
/-- No character has its first byte in `p` and another one where a character could start. -/
theorem decodeRune_append_of_runeStart (hne : p ≠ []) (hq : ∀ b ∈ q.head?, runeStart b = true) :
    decodeRune (p ++ q) = decodeRune p := by
  rcases hp : decodeRune p with _ | c
  · rcases hpq : decodeRune (p ++ q) with _ | c
    · rfl
    -- the character would have a byte that continues it at the start of `q`
    obtain ⟨b, bs, hchar, -, hcontinue, -⟩ := utf8EncodeChar_shape c
    have hbytes := eq_append_of_decodeRune hpq
    generalize (p ++ q).drop c.utf8Size = rest at hbytes
    rcases List.append_eq_append_iff.mp hbytes with ⟨mid, hmid, hrest⟩ | ⟨mid, hmid, -⟩
    · obtain ⟨a, p, rfl⟩ := List.exists_cons_of_ne_nil hne
      rcases mid with _ | ⟨d, mid⟩
      · rw [List.append_nil] at hmid
        rw [← hmid, ← List.append_nil (String.utf8EncodeChar c), decodeRune_append] at hp
        cases hp
      · rw [hchar, List.cons_append, List.cons.injEq] at hmid
        have hd : d ∈ bs := by
          rw [hmid.2]
          exact List.mem_append_right _ List.mem_cons_self
        have hstart := hq d (by rw [hrest]; rfl)
        rw [hcontinue d hd] at hstart
        cases hstart
    · rw [hmid, decodeRune_append] at hp
      cases hp
  · exact decodeRune_append_of_some hp q

/-! ### Runes -/

/-- The runes of bytes without the first `skip` bytes. -/
def runesFrom : ℕ → List UInt8 → GoText
  | _, [] => []
  | skip + 1, _ :: p => runesFrom skip p
  | 0, b :: p =>
      match decodeRune (b :: p) with
      | some c => .char c :: runesFrom (c.utf8Size - 1) p
      | none => .byte b :: runesFrom 0 p

/-- The runes of bytes. -/
def runes (p : List UInt8) : GoText := runesFrom 0 p

/-- The bytes of a rune. -/
def runeBytes : Rune → List UInt8
  | .char c => String.utf8EncodeChar c
  | .byte b => [b]

/-- The bytes of a text. -/
def bytes (t : GoText) : List UInt8 := t.flatMap runeBytes

@[simp] theorem runes_nil : runes [] = [] := rfl

@[simp] theorem bytes_nil : bytes [] = [] := rfl

/-- The first rune's bytes come first. -/
theorem bytes_cons (a : Rune) (t : GoText) : bytes (a :: t) = runeBytes a ++ bytes t :=
  List.flatMap_cons

/-- Skipping bytes is reading the rest. -/
theorem runesFrom_eq (skip : ℕ) (p : List UInt8) : runesFrom skip p = runes (p.drop skip) := by
  induction skip generalizing p with
  | zero => rfl
  | succ skip ih =>
      cases p with
      | nil => rfl
      | cons b p => exact ih p

/-- A character that decodes is one rune. -/
theorem runes_of_some (h : decodeRune p = some c) :
    runes p = .char c :: runes (p.drop c.utf8Size) := by
  cases p with
  | nil => cases h
  | cons b p =>
      rw [runes, runesFrom, h]
      dsimp only
      obtain ⟨n, hn⟩ := Nat.exists_eq_succ_of_ne_zero c.utf8Size_pos.ne'
      rw [runesFrom_eq, hn]
      rfl

/-- A byte that does not is one of its own. -/
theorem runes_of_none {b : UInt8} (h : decodeRune (b :: p) = none) :
    runes (b :: p) = .byte b :: runes p := by
  rw [runes, runesFrom, h]
  rfl

/-- **Reading by runes**: a character or a byte is read, and then what comes after it. -/
theorem runes_induction {motive : List UInt8 → Prop} (nil : motive [])
    (char : ∀ c q, motive q → motive (String.utf8EncodeChar c ++ q))
    (byte : ∀ b q, decodeRune (b :: q) = none → motive q → motive (b :: q)) (p : List UInt8) :
    motive p := by
  induction hn : p.length using Nat.strong_induction_on generalizing p with
  | h n ih =>
  rcases p with _ | ⟨b, p⟩
  · exact nil
  rcases hdecode : decodeRune (b :: p) with _ | c
  · exact byte b p hdecode (ih p.length (hn ▸ Nat.lt_succ_self _) p rfl)
  · have hshorter : ((b :: p).drop c.utf8Size).length < n := by
      have hpos := c.utf8Size_pos
      rw [List.length_drop, hn]
      rw [List.length_cons] at hn
      omega
    rw [eq_append_of_decodeRune hdecode]
    exact char c _ (ih _ hshorter _ rfl)

/-- An encoded character is read as itself. -/
theorem runes_utf8EncodeChar_append (c : Char) (q : List UInt8) :
    runes (String.utf8EncodeChar c ++ q) = .char c :: runes q := by
  rw [runes_of_some (decodeRune_append c q), ← String.length_utf8EncodeChar, List.drop_left]

/-- The runes of the bytes of characters are these characters. -/
theorem runes_encode (cs : List Char) : runes (encode cs) = cs.map .char := by
  induction cs with
  | nil => rfl
  | cons c cs ih => rw [encode_cons, runes_utf8EncodeChar_append, ih, List.map_cons]

/-- The runes of bytes have these bytes. -/
theorem bytes_runes (p : List UInt8) : bytes (runes p) = p := by
  induction p using runes_induction with
  | nil => rfl
  | char c q ih => rw [runes_utf8EncodeChar_append, bytes_cons, ih, runeBytes]
  | byte b q h ih => rw [runes_of_none h, bytes_cons, ih, runeBytes, List.singleton_append]

/-- **Bytes that go on where a character could start** have the runes of both parts. -/
theorem runes_append (hq : ∀ b ∈ q.head?, runeStart b = true) (p : List UInt8) :
    runes (p ++ q) = runes p ++ runes q := by
  induction p using runes_induction with
  | nil => rfl
  | char c p ih =>
      rw [List.append_assoc, runes_utf8EncodeChar_append, runes_utf8EncodeChar_append, ih,
        List.cons_append]
  | byte b p h ih =>
      have hnone : decodeRune (b :: (p ++ q)) = none := by
        rw [← List.cons_append, decodeRune_append_of_runeStart (List.cons_ne_nil b p) hq, h]
      rw [List.cons_append, runes_of_none hnone, runes_of_none h, ih, List.cons_append]

/-- Encoded text starts at the start of a character. -/
theorem runeStart_head_encode (cs : List Char) : ∀ b ∈ (encode cs).head?, runeStart b = true := by
  intro b hb
  cases cs with
  | nil => cases hb
  | cons c cs =>
      obtain ⟨first, rest, hchar, hstart, -⟩ := utf8EncodeChar_shape c
      rw [encode_cons, hchar] at hb
      cases hb
      exact hstart

/-! ### Functions on bytes -/

/-- `strings.TrimSpace`. Go reads the end of the string backwards, and finds the same characters:
where one could start, no other goes on. -/
def trimSpace (p : List UInt8) : List UInt8 := bytes (GoText.trimSpace (runes p))

/-- The loop of `bytes.ToValidUTF8`: `invalid` says that the rune before is an invalid byte. -/
def toValidUTF8From (replacement : List UInt8) : Bool → GoText → List UInt8
  | _, [] => []
  | _, .char c :: t => String.utf8EncodeChar c ++ toValidUTF8From replacement false t
  | true, .byte _ :: t => toValidUTF8From replacement true t
  | false, .byte _ :: t => replacement ++ toValidUTF8From replacement true t

/-- `bytes.ToValidUTF8`. -/
def toValidUTF8 (p replacement : List UInt8) : List UInt8 :=
  toValidUTF8From replacement false (runes p)

/-- Trimming leaves nothing exactly if all runes are blanks. -/
theorem trimSpace_eq_nil : trimSpace p = [] ↔ ∀ a ∈ runes p, GoText.isSpace a = true := by
  have hbytes : ∀ t : GoText, bytes t = [] ↔ t = [] := by
    intro t
    cases t with
    | nil => exact iff_of_true rfl rfl
    | cons a t =>
        refine iff_of_false ?_ (List.cons_ne_nil a t)
        rw [bytes_cons, List.append_eq_nil_iff]
        rintro ⟨ha, -⟩
        cases a with
        | char c => exact String.utf8EncodeChar_ne_nil ha
        | byte b => cases ha
  rw [trimSpace, hbytes, GoText.trimSpace_eq_nil, List.head?_eq_none_iff,
    List.dropWhile_eq_nil_iff]

/-! ### Replacing invalid bytes -/

variable {replacement : List UInt8}

/-- Valid characters at the end of a text stay where they are. -/
theorem toValidUTF8From_append (replacement : List UInt8) (invalid : Bool) (t : GoText)
    (cs : List Char) : toValidUTF8From replacement invalid (t ++ cs.map .char) =
      toValidUTF8From replacement invalid t ++ encode cs := by
  fun_induction toValidUTF8From replacement invalid t with
  | case1 invalid =>
      rw [List.nil_append, List.nil_append]
      induction cs generalizing invalid with
      | nil => rw [List.map_nil, toValidUTF8From]; rfl
      | cons c cs ih => rw [List.map_cons, toValidUTF8From, ih, encode_cons]
  | case2 invalid c t ih => rw [List.cons_append, toValidUTF8From, ih, List.append_assoc]
  | case3 b t ih => rw [List.cons_append, toValidUTF8From, ih]
  | case4 b t ih => rw [List.cons_append, toValidUTF8From, ih, List.append_assoc]

/-- **A text stays at the end of bytes** in which invalid ones are replaced. -/
theorem suffix_toValidUTF8 {cs : List Char} (h : encode cs <:+ p) :
    encode cs <:+ toValidUTF8 p replacement := by
  obtain ⟨q, rfl⟩ := h
  rw [toValidUTF8, runes_append (runeStart_head_encode cs), runes_encode, toValidUTF8From_append]
  exact List.suffix_append _ _

/-- What is left is a text. -/
theorem exists_encode_toValidUTF8 (rs : List Char) (p : List UInt8) :
    ∃ cs, encode cs = toValidUTF8 p (encode rs) := by
  rw [toValidUTF8]
  generalize false = invalid
  fun_induction toValidUTF8From (encode rs) invalid (runes p) with
  | case1 => exact ⟨[], rfl⟩
  | case2 invalid c t ih =>
      obtain ⟨cs, hcs⟩ := ih
      exact ⟨c :: cs, by rw [encode_cons, hcs]⟩
  | case3 b t ih => exact ih
  | case4 b t ih =>
      obtain ⟨cs, hcs⟩ := ih
      exact ⟨rs ++ cs, by rw [encode_append, hcs]⟩

/-- Replacing invalid bytes by one byte makes no text longer. -/
theorem length_toValidUTF8_le (h : replacement.length ≤ 1) (p : List UInt8) :
    (toValidUTF8 p replacement).length ≤ p.length := by
  have hfrom : ∀ invalid t,
      (toValidUTF8From replacement invalid t).length ≤ (bytes t).length := by
    intro invalid t
    fun_induction toValidUTF8From replacement invalid t with
    | case1 => exact Nat.le_refl _
    | case2 invalid c t ih =>
        rw [bytes_cons, List.length_append, List.length_append]
        exact Nat.add_le_add_left ih _
    | case3 b t ih =>
        rw [bytes_cons, List.length_append]
        exact ih.trans (Nat.le_add_left _ _)
    | case4 b t ih =>
        rw [bytes_cons, List.length_append, List.length_append]
        exact Nat.add_le_add h ih
  have hbytes := hfrom false (runes p)
  rwa [bytes_runes] at hbytes

end GoBytes
