import Mathlib.Data.List.Basic

/-!
# Texts as Bytes and as Code Units

Go holds a text as its bytes in UTF-8, a browser as its code units in UTF-16. A text is a `String`
here; these are its bytes and its units, and the positions at which the bytes may be cut.

## Main results

* `textOf_bytesOf` — the bytes of a text are read as that text.
* `cut_of_runeStart` — a text can be cut where a character starts.
-/

namespace Unicode

/-! ### UTF-8 -/

/-- The bytes of characters. -/
def encode (cs : List Char) : List UInt8 := cs.flatMap String.utf8EncodeChar

/-- The bytes of a text. -/
def bytesOf (s : String) : List UInt8 := encode s.toList

/-- The text that bytes are in UTF-8, if they are one. -/
def textOf (p : List UInt8) : Option String := String.fromUTF8? p.toByteArray

/-- `utf8.RuneStart`: the byte is not a continuation of a character. -/
def runeStart (b : UInt8) : Bool := b &&& 0xC0 != 0x80

variable {c : Char} {cs : List Char} {k : ℕ} {b : UInt8}

/-- A string's bytes decode to it. -/
theorem fromUTF8_toUTF8 (s : String) : String.fromUTF8? s.toUTF8 = some s := by
  simp only [String.fromUTF8?, String.toUTF8_eq_toByteArray, dif_pos s.isValidUTF8]
  rfl

/-- Encoded characters decode to the text of them. -/
theorem textOf_encode (cs : List Char) : textOf (encode cs) = some (String.ofList cs) := by
  have hbytes : (encode cs).toByteArray = (String.ofList cs).toUTF8 := by
    rw [String.toUTF8_eq_toByteArray, String.toByteArray_ofList]
    rfl
  rw [textOf, hbytes, fromUTF8_toUTF8]

/-- The bytes of a text are read as that text. -/
theorem textOf_bytesOf (s : String) : textOf (bytesOf s) = some s := by
  rw [bytesOf, textOf_encode, String.ofList_toList]

/-- Bytes that are read as a text are its bytes. -/
theorem eq_bytesOf_of_textOf {p : List UInt8} {s : String} (h : textOf p = some s) :
    p = bytesOf s := by
  rw [textOf, String.fromUTF8?] at h
  split at h
  · have hs : s.toByteArray = p.toByteArray := by
      rw [← Option.some.inj h]
      rfl
    have hbytes : bytesOf s = s.toByteArray.data.toList := by
      rw [bytesOf, encode]
      conv_rhs => rw [← String.ofList_toList (s := s), String.toByteArray_ofList]
      simp [List.utf8Encode]
    rw [hbytes, hs]
    simp
  · exact absurd h (by simp)

/-- Different texts have different bytes. -/
theorem bytesOf_injective : Function.Injective bytesOf := by
  intro s t h
  have hs := textOf_bytesOf s
  rw [h, textOf_bytesOf t] at hs
  exact (Option.some.inj hs).symm

/-- An ASCII byte starts a character. -/
theorem runeStart_ascii : ∀ n < 128, runeStart (UInt8.ofNat n) = true := by
  decide

/-- A continuation byte does not. -/
theorem runeStart_continuation : ∀ n < 64, runeStart (UInt8.ofNat (n + 0x80)) = false := by
  decide

/-- A leading byte does. -/
theorem runeStart_leading : ∀ n < 64, runeStart (UInt8.ofNat (n + 0xC0)) = true := by
  decide

/-- The bytes of a character: one that starts it, and at most three that continue it. -/
theorem utf8EncodeChar_shape (c : Char) : ∃ b bs, String.utf8EncodeChar c = b :: bs ∧
    runeStart b = true ∧ (∀ b' ∈ bs, runeStart b' = false) ∧ bs.length ≤ 3 := by
  have hcontinuation : ∀ n, runeStart (UInt8.ofNat (n % 0x40 + 0x80)) = false :=
    fun n => runeStart_continuation _ (Nat.mod_lt _ (by decide))
  have hone : ∀ n, ∀ b ∈ [UInt8.ofNat (n % 0x40 + 0x80)], runeStart b = false :=
    fun n => List.forall_mem_singleton.mpr (hcontinuation n)
  rw [String.utf8EncodeChar]
  split
  · rename_i hascii
    exact ⟨_, _, rfl, runeStart_ascii _ (Nat.lt_succ_of_le hascii), by simp, by simp⟩
  split
  · exact ⟨_, _, rfl, runeStart_leading _ (by omega), hone _, by simp⟩
  split
  · refine ⟨_, _, rfl, ?_, List.forall_mem_cons.mpr ⟨hcontinuation _, hone _⟩, by simp⟩
    exact runeStart_leading (c.val.toNat / 4096 % 0x10 + 0x20) (by omega)
  · refine ⟨_, _, rfl, ?_, List.forall_mem_cons.mpr ⟨hcontinuation _,
      List.forall_mem_cons.mpr ⟨hcontinuation _, hone _⟩⟩, by simp⟩
    exact runeStart_leading (c.val.toNat / 262144 % 0x08 + 0x30) (by omega)

/-- The first character's bytes come first. -/
theorem encode_cons (c : Char) (cs : List Char) :
    encode (c :: cs) = String.utf8EncodeChar c ++ encode cs :=
  List.flatMap_cons

/-- Encoding respects concatenation. -/
theorem encode_append (cs cs' : List Char) : encode (cs ++ cs') = encode cs ++ encode cs' :=
  List.flatMap_append

/-- **A text can be cut where a character starts.** -/
theorem cut_of_runeStart (hk : (encode cs)[k]? = some b) (hb : runeStart b = true) :
    ∃ before after, cs = before ++ after ∧ (encode before).length = k := by
  induction cs generalizing k with
  | nil => cases hk
  | cons c cs ih =>
      obtain ⟨first, rest, hchar, -, hrest, -⟩ := utf8EncodeChar_shape c
      rw [encode_cons] at hk
      by_cases hlt : k < (String.utf8EncodeChar c).length
      · rw [List.getElem?_append_left hlt, hchar] at hk
        cases k with
        | zero => exact ⟨[], c :: cs, rfl, rfl⟩
        | succ k =>
            rw [List.getElem?_cons_succ] at hk
            rw [hrest b (List.mem_of_getElem? hk)] at hb
            cases hb
      · rw [List.getElem?_append_right (Nat.le_of_not_lt hlt)] at hk
        obtain ⟨before, after, rfl, hlength⟩ := ih hk
        refine ⟨c :: before, after, rfl, ?_⟩
        rw [encode_cons, List.length_append, hlength]
        omega

/-- Unless it has one character alone, a text can be cut within its first four bytes. -/
theorem exists_runeStart (c : Char) (hcs : cs ≠ []) :
    ∃ k b, 0 < k ∧ k ≤ 4 ∧ (encode (c :: cs))[k]? = some b ∧ runeStart b = true := by
  obtain ⟨d, ds, rfl⟩ := List.exists_cons_of_ne_nil hcs
  obtain ⟨first, rest, hchar, -, -, hlength⟩ := utf8EncodeChar_shape c
  obtain ⟨first', rest', hchar', hstart, -⟩ := utf8EncodeChar_shape d
  refine ⟨(String.utf8EncodeChar c).length, first', ?_, ?_, ?_, hstart⟩
  · rw [hchar]
    exact Nat.succ_pos _
  · rw [hchar]
    exact Nat.succ_le_succ hlength
  · rw [encode_cons, encode_cons, List.getElem?_append_right (Nat.le_refl _), Nat.sub_self, hchar']
    rfl

/-! ### UTF-16 -/

/-- The code units of a character. -/
def unitsOf (c : Char) : List UInt16 :=
  if c.toNat < 0x10000 then [UInt16.ofNat c.toNat]
  else
    [UInt16.ofNat (0xD800 + (c.toNat - 0x10000) / 0x400),
      UInt16.ofNat (0xDC00 + (c.toNat - 0x10000) % 0x400)]

/-- The code units of a text. -/
def utf16 (s : String) : List UInt16 := s.toList.flatMap unitsOf

@[simp] theorem utf16_empty : utf16 "" = [] := rfl

/-- Units are appended as the strings are. -/
@[simp] theorem utf16_append (s t : String) : utf16 (s ++ t) = utf16 s ++ utf16 t := by
  rw [utf16, String.toList_append, List.flatMap_append, utf16, utf16]

/-- Only the empty string has none. -/
theorem utf16_eq_nil {s : String} : utf16 s = [] ↔ s = "" := by
  rw [utf16, List.flatMap_eq_nil_iff, ← String.toList_eq_nil_iff, List.eq_nil_iff_forall_not_mem]
  refine forall_congr' fun c => imp_congr_right fun hc => ⟨fun h => ?_, False.elim⟩
  rw [unitsOf] at h
  split at h <;> cases h

end Unicode
