import Contiwatch.Lib.GoBytes
import Mathlib.Data.List.Infix

/-!
# Paths of Requests

How Go's `net/url` escapes a text as a segment of a path and reads a path, and how the `ServeMux`
of `net/http` chooses a handler: it cleans the path as it came, and sends the client to the cleaned
one if that is another; else it unescapes the segments one by one and takes the most specific
pattern. Patterns are texts without wildcards here. One that ends with a slash stands for all paths
below it.

## Main results

* `unescape_pathEscape` — a text that was escaped is read back behind any plain text.
* `cleaned_eq_self_iff` — which paths with one segment of free text are clean.
* `exists_covers` — the pattern of the handler stands for the path as it is read.
-/

namespace ServeMux

open GoStrings

/-! ### Escaping -/

/-- The ASCII characters that `url.PathEscape` leaves alone. -/
def keeps (c : Char) : Bool :=
  c.isAlphanum || ['-', '_', '.', '~', '$', '&', '+', ':', '=', '@'].contains c

/-- A hexadecimal digit. -/
def hexDigit (n : ℕ) : Char := if n < 10 then Char.ofNat (48 + n) else Char.ofNat (55 + n)

/-- The value of a hexadecimal digit. -/
def hexValue (c : Char) : Option ℕ :=
  if c.isDigit then some (c.toNat - 48)
  else if 'A' ≤ c ∧ c ≤ 'F' then some (c.toNat - 55)
  else if 'a' ≤ c ∧ c ≤ 'f' then some (c.toNat - 87)
  else none

/-- `url.PathEscape` on a byte. -/
def escapeByte (b : UInt8) : List Char :=
  if b.toNat < 128 ∧ keeps (Char.ofNat b.toNat) then [Char.ofNat b.toNat]
  else ['%', hexDigit (b.toNat / 16), hexDigit (b.toNat % 16)]

/-- `url.PathEscape`. -/
def pathEscape (s : String) : List Char := (Unicode.bytesOf s).flatMap escapeByte

/-- The bytes of an escaped path, if every `%` is followed by two digits. -/
def unescapeBytes : List Char → Option (List UInt8)
  | [] => some []
  | '%' :: a :: b :: rest =>
      match hexValue a, hexValue b with
      | some hi, some lo => (unescapeBytes rest).map (UInt8.ofNat (hi * 16 + lo) :: ·)
      | _, _ => none
  | c :: rest =>
      if c = '%' then none else (unescapeBytes rest).map (String.utf8EncodeChar c ++ ·)

/-- `url.PathUnescape`, for bytes that are a text. -/
def unescape (path : List Char) : Option String := (unescapeBytes path).bind Unicode.textOf

example : pathEscape "a b/%" = "a%20b%2F%25".toList := by decide

/-- A character other than the percent sign stands for its own bytes. -/
theorem unescapeBytes_cons {c : Char} (hc : c ≠ '%') (rest : List Char) :
    unescapeBytes (c :: rest) = (unescapeBytes rest).map (String.utf8EncodeChar c ++ ·) := by
  rw [unescapeBytes.eq_3]
  · rw [if_neg hc]
  · rintro a b rest rfl
    exact absurd rfl hc

/-- Hexadecimal digits are read back. -/
theorem hexValue_hexDigit : ∀ n < 16, hexValue (hexDigit n) = some n := by decide

/-- What the escaping keeps is an ASCII character other than the percent sign. -/
theorem keeps_spec : ∀ n < 128, keeps (Char.ofNat n) = true →
    Char.ofNat n ≠ '%' ∧ String.utf8EncodeChar (Char.ofNat n) = [UInt8.ofNat n] := by
  decide

/-- A byte that was escaped is read back. -/
theorem unescapeBytes_escapeByte (b : UInt8) (rest : List Char) :
    unescapeBytes (escapeByte b ++ rest) = (unescapeBytes rest).map (b :: ·) := by
  rw [escapeByte]
  split
  · rename_i hkeep
    obtain ⟨hpercent, hbyte⟩ := keeps_spec b.toNat hkeep.1 hkeep.2
    rw [List.singleton_append, unescapeBytes_cons hpercent, hbyte, UInt8.ofNat_toNat]
    rfl
  · have hhi : hexValue (hexDigit (b.toNat / 16)) = some (b.toNat / 16) :=
      hexValue_hexDigit _ (Nat.div_lt_of_lt_mul b.toNat_lt)
    have hlo : hexValue (hexDigit (b.toNat % 16)) = some (b.toNat % 16) :=
      hexValue_hexDigit _ (Nat.mod_lt _ (by decide))
    simp only [List.cons_append, List.nil_append, unescapeBytes, hhi, hlo]
    rw [Nat.div_add_mod', UInt8.ofNat_toNat]

/-- Escaped bytes are read back, whatever follows them. -/
theorem unescapeBytes_escape (bs : List UInt8) (rest : List Char) :
    unescapeBytes (bs.flatMap escapeByte ++ rest) = (unescapeBytes rest).map (bs ++ ·) := by
  induction bs with
  | nil => exact Option.map_id'.symm
  | cons b bs ih =>
      rw [List.flatMap_cons, List.append_assoc, unescapeBytes_escapeByte, ih, Option.map_map]
      rfl

/-- Plain text is read as it is. -/
theorem unescapeBytes_plain {cs : List Char} (h : '%' ∉ cs) (rest : List Char) :
    unescapeBytes (cs ++ rest) = (unescapeBytes rest).map (Unicode.encode cs ++ ·) := by
  induction cs with
  | nil => exact Option.map_id'.symm
  | cons c cs ih =>
      obtain ⟨hc, hcs⟩ := not_or.mp (mt List.mem_cons.mpr h)
      rw [List.cons_append, unescapeBytes_cons (Ne.symm hc), ih hcs, Option.map_map,
        Unicode.encode_cons]
      exact congrArg (Option.map · _) (funext fun bs => (List.append_assoc ..).symm)

/-- **Escaped text is read back**, also behind plain text. -/
theorem unescape_pathEscape {plain : String} (h : '%' ∉ plain.toList) (s : String) :
    unescape (plain.toList ++ pathEscape s) = some (plain ++ s) := by
  have hescaped : unescapeBytes (pathEscape s) = some (Unicode.bytesOf s) := by
    have hend := unescapeBytes_escape (Unicode.bytesOf s) []
    rw [List.append_nil] at hend
    rw [pathEscape, hend, unescapeBytes, Option.map_some, List.append_nil]
  rw [unescape, unescapeBytes_plain h, hescaped, Option.map_some, Option.bind_some,
    Unicode.bytesOf, ← Unicode.encode_append, ← String.toList_append, ← Unicode.bytesOf,
    Unicode.textOf_bytesOf]

/-- A segment that was escaped is unescaped. -/
theorem unescape_segment (s : String) : unescape (pathEscape s) = some s := by
  have hplain : '%' ∉ "".toList := List.not_mem_nil
  have h := unescape_pathEscape hplain s
  rwa [String.empty_append] at h

/-- Different names escape to different segments. -/
theorem pathEscape_injective : Function.Injective pathEscape := by
  intro s t h
  have hs := unescape_segment s
  rw [h, unescape_segment t] at hs
  exact (Option.some.inj hs).symm

/-- Escaping leaves no slash. -/
theorem slash_not_mem_escapeByte : ∀ n < 256, '/' ∉ escapeByte (UInt8.ofNat n) := by
  decide +kernel

/-- Escaped text is one segment. -/
theorem slash_not_mem_pathEscape (s : String) : '/' ∉ pathEscape s := by
  rw [pathEscape, List.mem_flatMap]
  rintro ⟨b, -, hslash⟩
  rw [← UInt8.ofNat_toNat (x := b)] at hslash
  exact slash_not_mem_escapeByte b.toNat b.toNat_lt hslash

/-- An escape does not go across a slash. -/
theorem unescapeBytes_append_slash {a b : List Char} {bs : List UInt8}
    (h : unescapeBytes (a ++ '/' :: b) = some bs) :
    ∃ x y, unescapeBytes a = some x ∧ unescapeBytes b = some y ∧
      bs = x ++ Unicode.bytesOf "/" ++ y := by
  have hslash : hexValue '/' = none := by decide
  induction a using unescapeBytes.induct generalizing bs with
  | case1 =>
      rw [List.nil_append, unescapeBytes_cons (by decide), Option.map_eq_some_iff] at h
      obtain ⟨y, hy, rfl⟩ := h
      exact ⟨[], y, rfl, hy, rfl⟩
  | case2 c d rest hi lo hhi hlo ih =>
      simp only [List.cons_append, unescapeBytes, hhi, hlo, Option.map_eq_some_iff] at h ⊢
      obtain ⟨rest', hrest, rfl⟩ := h
      obtain ⟨x, y, hx, hy, rfl⟩ := ih hrest
      exact ⟨_ :: x, y, ⟨x, hx, rfl⟩, hy, rfl⟩
  | case3 c d rest hnone =>
      rw [List.cons_append, List.cons_append, List.cons_append, unescapeBytes.eq_2] at h
      split at h
      · rename_i hi lo hhi hlo
        exact absurd hlo (hnone hi lo hhi)
      · exact absurd h (by simp)
  | case4 rest hshort =>
      -- the slash would be one of the two digits
      rcases rest with _ | ⟨c, _ | ⟨d, rest⟩⟩
      · rcases b with _ | ⟨d, b⟩ <;> simp [unescapeBytes, hslash] at h
      · rcases hc : hexValue c <;> simp [unescapeBytes, hslash, hc] at h
      · exact absurd rfl (hshort c d rest rfl)
  | case5 c rest _ hc ih =>
      rw [List.cons_append, unescapeBytes_cons hc, Option.map_eq_some_iff] at h
      obtain ⟨rest', hrest, rfl⟩ := h
      obtain ⟨x, y, hx, hy, rfl⟩ := ih hrest
      refine ⟨String.utf8EncodeChar c ++ x, y, ?_, hy, ?_⟩
      · rw [unescapeBytes_cons hc, hx, Option.map_some]
      · simp only [List.append_assoc]

/-! ### Cleaning -/

/-- The segments of a path that begins with a slash. The last one is empty if the path ends with a
slash. -/
def segments (path : List Char) : List (List Char) := (split '/' path).drop 1

/-- The path with these segments. -/
def pathOf (segs : List (List Char)) : List Char := segs.flatMap ('/' :: ·)

/-- `path.Clean` at one segment, behind those that are done. -/
def cleanStep (done : List (List Char)) (seg : List Char) : List (List Char) :=
  if seg = [] ∨ seg = ['.'] then done
  else if seg = ['.', '.'] then done.dropLast
  else done ++ [seg]

/-- `cleanPath`: a slash at the end is kept. -/
def cleaned (segs : List (List Char)) : List (List Char) :=
  let done := segs.foldl cleanStep []
  if done = [] ∨ segs.getLast? = some [] then done ++ [[]] else done

example : cleaned (segments "/a//b/./../c/".toList) = segments "/a/c/".toList := by
  decide

/-- A path is its segments with a slash between them. -/
theorem pathOf_cons_eq_intercalate (seg : List Char) (segs : List (List Char)) :
    seg ++ pathOf segs = ['/'].intercalate (seg :: segs) := by
  induction segs generalizing seg with
  | nil => simp [pathOf, List.intercalate]
  | cons next segs ih =>
      have hnext := ih next
      simp only [pathOf, List.flatMap_cons, List.intercalate, List.intersperse_cons_cons,
        List.flatten_cons] at hnext ⊢
      rw [← hnext]
      simp

/-- The segments of a path are what stands between the slashes after the first. -/
theorem segments_cons (rest : List Char) : segments ('/' :: rest) = split '/' rest := by
  have hsplit : ([] ++ '/' :: rest).splitOnP (· == '/') =
      [].splitOnP (· == '/') ++ rest.splitOnP (· == '/') :=
    List.splitOnP_append_cons [] rest (by decide)
  rw [List.nil_append, List.splitOnP_nil] at hsplit
  rw [segments, split, split, List.splitOn, List.splitOn, hsplit]
  rfl

/-- A path that begins with a slash is that of its segments. -/
theorem pathOf_segments {path : List Char} (h : path.head? = some '/') :
    pathOf (segments path) = path := by
  obtain ⟨rest, rfl⟩ : ∃ rest, path = '/' :: rest := by
    rcases path with _ | ⟨c, rest⟩
    · exact absurd h (by simp)
    · exact ⟨rest, by rw [Option.some.inj h]⟩
  have hjoin : ['/'].intercalate (split '/' rest) = rest := List.intercalate_splitOn '/'
  rw [segments_cons]
  obtain ⟨seg, segs, hsegs⟩ := List.exists_cons_of_ne_nil (l := split '/' rest)
    (List.splitOnP_ne_nil _ _)
  rw [hsegs, ← pathOf_cons_eq_intercalate] at hjoin
  rw [hsegs]
  exact congrArg ('/' :: ·) hjoin

/-- A path put together from segments without slashes has those segments. -/
theorem segments_pathOf {segs : List (List Char)} (hslash : ∀ seg ∈ segs, '/' ∉ seg) :
    segments (pathOf segs) = segs := by
  have hpath := pathOf_cons_eq_intercalate [] segs
  rw [List.nil_append] at hpath
  rw [segments, split, hpath, List.splitOn_intercalate]
  · rfl
  · exact List.forall_mem_cons.mpr ⟨List.not_mem_nil, hslash⟩
  · exact List.cons_ne_nil _ _

/-- A path is read segment by segment. -/
theorem unescapeBytes_pathOf {segs : List (List Char)} {bs : List UInt8}
    (h : unescapeBytes (pathOf segs) = some bs) :
    (∀ seg ∈ segs, (unescapeBytes seg).isSome) ∧
      bs = segs.flatMap fun seg => Unicode.bytesOf "/" ++ (unescapeBytes seg).getD [] := by
  induction segs generalizing bs with
  | nil => exact ⟨by simp, (Option.some.inj h).symm⟩
  | cons seg segs ih =>
      have hpath : pathOf (seg :: segs) = [] ++ '/' :: (seg ++ pathOf segs) := rfl
      rw [hpath] at h
      obtain ⟨x, y, hx, hy, rfl⟩ := unescapeBytes_append_slash h
      obtain rfl := Option.some.inj hx
      rcases segs with _ | ⟨next, segs⟩
      · have hseg : pathOf [] = [] := rfl
        rw [hseg, List.append_nil] at hy
        simp [hy]
      · have hnext : pathOf (next :: segs) = '/' :: (next ++ pathOf segs) := rfl
        rw [hnext] at hy
        obtain ⟨x, z, hx, hz, rfl⟩ := unescapeBytes_append_slash hy
        have hrest : unescapeBytes (pathOf (next :: segs)) = some (Unicode.bytesOf "/" ++ z) := by
          rw [hnext, unescapeBytes_cons (by decide), hz]
          rfl
        obtain ⟨hall, hbytes⟩ := ih hrest
        refine ⟨List.forall_mem_cons.mpr ⟨by simp [hx], hall⟩, ?_⟩
        rw [List.flatMap_cons, ← hbytes, hx]
        simp

/-- A segment that cleaning leaves alone. -/
def CleanSegment (seg : List Char) : Prop := seg ≠ [] ∧ seg ≠ ['.'] ∧ seg ≠ ['.', '.']

instance (seg : List Char) : Decidable (CleanSegment seg) :=
  inferInstanceAs (Decidable (_ ∧ _))

/-- A clean segment is kept. -/
theorem cleanStep_of_clean {seg : List Char} (h : CleanSegment seg) (done : List (List Char)) :
    cleanStep done seg = done ++ [seg] := by
  obtain ⟨hempty, hdot, hdots⟩ := h
  rw [cleanStep, if_neg (not_or.mpr ⟨hempty, hdot⟩), if_neg hdots]

/-- No other segment makes the path longer. -/
theorem length_cleanStep {seg : List Char} (h : ¬ CleanSegment seg) (done : List (List Char)) :
    (cleanStep done seg).length ≤ done.length := by
  rw [cleanStep]
  split
  · exact Nat.le_refl _
  split
  · rw [List.length_dropLast]
    exact Nat.sub_le _ _
  · rename_i hdone hdots
    obtain ⟨hempty, hdot⟩ := not_or.mp hdone
    exact absurd ⟨hempty, hdot, hdots⟩ h

/-- A run of clean segments is kept as it stands. -/
theorem foldl_cleanStep {front : List (List Char)} (h : ∀ seg ∈ front, CleanSegment seg)
    (done : List (List Char)) : front.foldl cleanStep done = done ++ front := by
  induction front generalizing done with
  | nil => exact (List.append_nil _).symm
  | cons seg front ih =>
      obtain ⟨hseg, hfront⟩ := List.forall_mem_cons.mp h
      rw [List.foldl_cons, cleanStep_of_clean hseg, ih hfront, List.append_assoc]
      rfl

/-- **Clean paths.** Behind segments that are left alone, a last segment of free text makes the path
clean unless it is one dot or two. -/
theorem cleaned_eq_self_iff {front : List (List Char)} (h : ∀ seg ∈ front, CleanSegment seg)
    {seg : List Char} (hne : seg ≠ []) :
    cleaned (front ++ [seg]) = front ++ [seg] ↔ seg ≠ ['.'] ∧ seg ≠ ['.', '.'] := by
  have hlast : (front ++ [seg]).getLast? ≠ some [] := by
    rw [List.getLast?_concat]
    exact fun heq => hne (Option.some.inj heq)
  have hfold : (front ++ [seg]).foldl cleanStep [] = cleanStep front seg := by
    rw [List.foldl_concat, foldl_cleanStep h, List.nil_append]
  have hclean : CleanSegment seg ↔ seg ≠ ['.'] ∧ seg ≠ ['.', '.'] :=
    and_iff_right hne
  simp only [cleaned, hfold, hlast, or_false]
  rw [← hclean]
  constructor
  · intro heq
    by_contra hseg
    have hshort := length_cleanStep hseg front
    split at heq
    · exact hne (List.cons.inj (List.append_inj_right' heq rfl)).1.symm
    · rw [heq, List.length_append] at hshort
      exact Nat.not_succ_le_self _ hshort
  · intro hseg
    rw [cleanStep_of_clean hseg,
      if_neg (List.append_ne_nil_of_right_ne_nil _ (List.cons_ne_nil _ _))]

/-! ### Patterns -/

/-- A pattern: a path, or all paths below one. -/
structure Pattern where
  segs : List String
  subtree : Bool
  deriving DecidableEq, Repr

/-- The pattern that a text is. -/
def pattern (text : String) : Pattern :=
  let segs := segments text.toList
  if segs.getLast? = some [] then ⟨segs.dropLast.map String.ofList, true⟩
  else ⟨segs.map String.ofList, false⟩

section

variable {H : Type} (routes : List (String × H))

/-- The handler that is registered for a pattern. -/
def registered (p : Pattern) : Option H :=
  (routes.find? fun r => pattern r.1 = p).map Prod.snd

/-- The handler of the most specific pattern for a path: the path itself, or else the longest path
that it is below. -/
def handlerOf (segs : List String) : Option H :=
  (registered routes ⟨segs, false⟩).or
    (segs.inits.reverse.tail.findSome? fun below => registered routes ⟨below, true⟩)

/-- A segment of a path, unescaped if that is possible. -/
def unescapeSegment (seg : List Char) : String := (unescape seg).getD (String.ofList seg)

/-- What becomes of a request: the client is sent elsewhere, there is nothing, or a handler. -/
inductive Dispatch (H : Type)
  | redirect
  | notFound
  | handler (h : H)

/-- `ServeMux`: the client is sent to the clean path, or to that with a slash at its end if there
is a pattern for it and none for the path. -/
def dispatch (path : List Char) : Dispatch H :=
  let segs := segments path
  if cleaned segs ≠ segs then .redirect
  else
    let names := segs.map unescapeSegment
    if (registered routes ⟨names, false⟩).isNone ∧ (registered routes ⟨names, true⟩).isSome then
      .redirect
    else
      match handlerOf routes names with
      | none => .notFound
      | some h => .handler h

/-- What a request comes to whose path is not cleaned, as for the method `CONNECT`. -/
def dispatchUncleaned (path : List Char) : Dispatch H :=
  let names := (segments path).map unescapeSegment
  if (registered routes ⟨names, false⟩).isNone ∧ (registered routes ⟨names, true⟩).isSome then
    .redirect
  else
    match handlerOf routes names with
    | none => .notFound
    | some h => .handler h

theorem dispatch_eq (path : List Char) : dispatch routes path =
    if cleaned (segments path) ≠ segments path then .redirect
    else dispatchUncleaned routes path := rfl

end

/-! ### Whose handler a path gets -/

/-- A segment that is a name without escapes is read as that name. -/
theorem unescapeBytes_of_unescapeSegment {seg : List Char} {name : String}
    (hname : '%' ∉ name.toList) (hsome : (unescapeBytes seg).isSome)
    (h : unescapeSegment seg = name) : unescapeBytes seg = some (Unicode.bytesOf name) := by
  obtain ⟨x, hx⟩ := Option.isSome_iff_exists.mp hsome
  rw [unescapeSegment, unescape, hx, Option.bind_some] at h
  rcases htext : Unicode.textOf x with _ | text
  · rw [htext, Option.getD_none] at h
    have hseg : seg = name.toList := by rw [← h, String.toList_ofList]
    have hplain := unescapeBytes_plain (hseg ▸ hname) []
    rw [List.append_nil, unescapeBytes, Option.map_some, List.append_nil] at hplain
    rw [hplain, hseg]
    rfl
  · rw [htext, Option.getD_some] at h
    rw [hx, Unicode.eq_bytesOf_of_textOf htext, h]

section

variable {H : Type} {routes : List (String × H)}

/-- The text of a pattern stands for a path: it is the path, or the path is below it. A path below
it by one segment has no pattern of its own. -/
def Covers (routes : List (String × H)) (text path : String) : Prop :=
  path = text ∨ ∃ tail, path = text ++ tail ∧ text.toList.getLast? = some '/' ∧
    ('/' ∉ tail.toList → registered routes ⟨(pattern text).segs ++ [tail], false⟩ = none)

/-- What a pattern finds is one of the routes. -/
theorem exists_of_registered {p : Pattern} {h : H} (hreg : registered routes p = some h) :
    ∃ r ∈ routes, pattern r.1 = p ∧ r.2 = h := by
  rw [registered, Option.map_eq_some_iff] at hreg
  obtain ⟨r, hfind, hr⟩ := hreg
  refine ⟨r, List.mem_of_find?_eq_some hfind, ?_, hr⟩
  simpa using List.find?_some hfind

/-- A pattern that finds nothing is no route's. -/
theorem pattern_ne_of_registered {p : Pattern} (hreg : registered routes p = none)
    {r : String × H} (hr : r ∈ routes) : pattern r.1 ≠ p := by
  rw [registered, Option.map_eq_none_iff, List.find?_eq_none] at hreg
  simpa using hreg r hr

/-- A proper initial part leaves at least one name out. -/
theorem exists_of_mem_inits_tail {names below : List String}
    (h : below ∈ names.inits.reverse.tail) : ∃ name more, names = below ++ name :: more := by
  rw [List.tail_reverse, List.mem_reverse, List.mem_iff_getElem] at h
  obtain ⟨n, hn, rfl⟩ := h
  rw [List.length_dropLast, List.length_inits, Nat.add_sub_cancel] at hn
  refine ⟨names[n], names.drop (n + 1), ?_⟩
  rw [List.getElem_dropLast, List.getElem_inits, ← List.drop_eq_getElem_cons hn,
    List.take_append_drop]

/-- Whose handler a path gets: that of the pattern for it, or of one for the paths below. -/
theorem exists_of_handlerOf {names : List String} {h : H} (hh : handlerOf routes names = some h) :
    ∃ r ∈ routes, r.2 = h ∧ (pattern r.1 = ⟨names, false⟩ ∨
      registered routes ⟨names, false⟩ = none ∧
        ∃ below name more, names = below ++ name :: more ∧ pattern r.1 = ⟨below, true⟩) := by
  rw [handlerOf, Option.or_eq_some_iff] at hh
  rcases hh with hreg | ⟨hnone, hfind⟩
  · obtain ⟨r, hr, hpattern, hh⟩ := exists_of_registered hreg
    exact ⟨r, hr, hh, .inl hpattern⟩
  · obtain ⟨below, hbelow, hreg⟩ := List.exists_of_findSome?_eq_some hfind
    obtain ⟨r, hr, hpattern, hh⟩ := exists_of_registered hreg
    obtain ⟨name, more, hnames⟩ := exists_of_mem_inits_tail hbelow
    exact ⟨r, hr, hh, .inr ⟨hnone, below, name, more, hnames, hpattern⟩⟩

/-- The text of a pattern. -/
theorem toList_of_pattern {text : String} (hroot : text.toList.head? = some '/') {p : Pattern}
    (h : pattern text = p) :
    text.toList = pathOf (p.segs.map String.toList) ++ if p.subtree then ['/'] else [] := by
  have hmap : ∀ segs : List (List Char), (segs.map String.ofList).map String.toList = segs := by
    intro segs
    simp
  have hpath := pathOf_segments hroot
  subst h
  rw [pattern]
  split
  · rename_i hlast
    obtain ⟨front, hfront⟩ := List.getLast?_eq_some_iff.mp hlast
    rw [hfront] at hpath ⊢
    rw [List.dropLast_concat, hmap, ← hpath, pathOf, List.flatMap_append]
    rfl
  · rw [hmap, hpath]
    exact (List.append_nil _).symm

/-- The bytes of segments that are read as names without escapes. -/
theorem bytes_of_names {segs : List (List Char)}
    (hname : ∀ seg ∈ segs, '%' ∉ (unescapeSegment seg).toList)
    (hsome : ∀ seg ∈ segs, (unescapeBytes seg).isSome) :
    (segs.flatMap fun seg => Unicode.bytesOf "/" ++ (unescapeBytes seg).getD []) =
      Unicode.encode (pathOf ((segs.map unescapeSegment).map String.toList)) := by
  induction segs with
  | nil => rfl
  | cons seg segs ih =>
      obtain ⟨hname, hnames⟩ := List.forall_mem_cons.mp hname
      obtain ⟨hseg, hsegs⟩ := List.forall_mem_cons.mp hsome
      have hbytes := unescapeBytes_of_unescapeSegment hname hseg rfl
      have hpath : pathOf (((seg :: segs).map unescapeSegment).map String.toList) =
          '/' :: ((unescapeSegment seg).toList ++
            pathOf ((segs.map unescapeSegment).map String.toList)) := rfl
      rw [List.flatMap_cons, ih hnames hsegs, hbytes, hpath, Unicode.encode_cons,
        Unicode.encode_append, Option.getD_some, List.append_assoc]
      rfl

/-- The byte of a slash is that of no other character. -/
theorem slash_of_encode_eq {t : List Char} {x y : List UInt8}
    (h : Unicode.encode t = x ++ (Unicode.bytesOf "/" ++ y)) : '/' ∈ t := by
  have hbyte : (Unicode.encode t)[x.length]? = some 47 := by
    rw [h, List.getElem?_append_right (Nat.le_refl _), Nat.sub_self]
    rfl
  obtain ⟨before, after, rfl, hlength⟩ := Unicode.cut_of_runeStart hbyte (by decide)
  rw [Unicode.encode_append] at h
  obtain ⟨-, hafter⟩ := List.append_inj h hlength
  have hslash : Unicode.encode ['/'] ++ y = Unicode.encode after := hafter.symm
  obtain ⟨t, rfl, -⟩ := GoBytes.exists_of_encode_append hslash
  exact List.mem_append_right _ (List.mem_cons_self ..)

/-- A path has the characters of its segments. -/
theorem mem_pathOf {segs : List (List Char)} {seg : List Char} {c : Char} (hseg : seg ∈ segs)
    (hc : c ∈ seg) : c ∈ pathOf segs :=
  List.mem_flatMap.mpr ⟨seg, hseg, List.mem_cons_of_mem _ hc⟩

/-- **The handler of a path belongs to it**: however the path was escaped, its pattern stands for
what the path is read as. -/
theorem exists_covers {escaped : List Char} {path : String} {h : H}
    (hroutes : ∀ r ∈ routes, r.1.toList.head? = some '/' ∧ '%' ∉ r.1.toList)
    (hroot : escaped.head? = some '/') (hread : unescape escaped = some path)
    (hd : dispatchUncleaned routes escaped = .handler h) :
    ∃ r ∈ routes, r.2 = h ∧ Covers routes r.1 path := by
  obtain ⟨bs, hbs, htext⟩ := Option.bind_eq_some_iff.mp hread
  obtain rfl := Unicode.eq_bytesOf_of_textOf htext
  rw [← pathOf_segments hroot] at hbs
  obtain ⟨hsome, hbytes⟩ := unescapeBytes_pathOf hbs
  have hhandler : handlerOf routes ((segments escaped).map unescapeSegment) = some h := by
    rw [dispatchUncleaned] at hd
    split at hd
    · exact absurd hd (by simp)
    · split at hd
      · exact absurd hd (by simp)
      · rename_i h' hh
        rw [hh, Dispatch.handler.inj hd]
  generalize segments escaped = segs at hsome hbytes hhandler
  obtain ⟨r, hr, hh, hcases⟩ := exists_of_handlerOf hhandler
  obtain ⟨hrooted, hpercent⟩ := hroutes r hr
  refine ⟨r, hr, hh, ?_⟩
  rcases hcases with hpattern | ⟨hnone, below, name, more, hnames, hpattern⟩
  · left
    have htext := toList_of_pattern hrooted hpattern
    dsimp only at htext
    rw [if_neg Bool.false_ne_true, List.append_nil] at htext
    have hname : ∀ seg ∈ segs, '%' ∉ (unescapeSegment seg).toList := by
      intro seg hseg hin
      rw [htext] at hpercent
      exact hpercent (mem_pathOf (List.mem_map_of_mem (List.mem_map_of_mem hseg)) hin)
    rw [bytes_of_names hname hsome, ← htext] at hbytes
    exact Unicode.bytesOf_injective hbytes
  · right
    have htext := toList_of_pattern hrooted hpattern
    dsimp only at htext
    rw [if_pos rfl] at htext
    obtain ⟨front, rest, rfl, hfront, hrest⟩ := List.map_eq_append_iff.mp hnames
    obtain ⟨seg, segs, rfl, -, -⟩ := List.map_eq_cons_iff.mp hrest
    have hname : ∀ seg ∈ front, '%' ∉ (unescapeSegment seg).toList := by
      intro seg hseg hin
      rw [htext, ← hfront] at hpercent
      exact hpercent (List.mem_append_left _
        (mem_pathOf (List.mem_map_of_mem (List.mem_map_of_mem hseg)) hin))
    rw [List.flatMap_append, List.flatMap_cons,
      bytes_of_names hname fun seg hseg => hsome seg (List.mem_append_left _ hseg), hfront,
      List.append_assoc, ← List.append_assoc] at hbytes
    have hencode : Unicode.encode (pathOf (below.map String.toList)) ++ Unicode.bytesOf "/" =
        Unicode.encode r.1.toList := by
      rw [htext, Unicode.encode_append]
      rfl
    rw [hencode] at hbytes
    obtain ⟨t, ht, htail⟩ := GoBytes.exists_of_encode_append hbytes.symm
    refine ⟨String.ofList t, ?_, by rw [htext, List.getLast?_concat], fun hslash => ?_⟩
    · rw [← String.ofList_toList (s := path), ht, String.ofList_append, String.ofList_toList]
    · -- without a slash in what is left, it is one segment
      rw [String.toList_ofList] at hslash
      have hsegs : segs = [] := by
        rcases segs with _ | ⟨next, segs⟩
        · rfl
        · rw [List.flatMap_cons, List.append_assoc] at htail
          exact absurd (slash_of_encode_eq htail.symm) hslash
      subst hsegs
      rw [List.flatMap_nil, List.append_nil] at htail
      have hlast : unescapeSegment seg = String.ofList t := by
        obtain ⟨x, hx⟩ := Option.isSome_iff_exists.mp (hsome seg (by simp))
        rw [hx, Option.getD_some] at htail
        rw [unescapeSegment, unescape, hx, htail, Option.bind_some, Unicode.textOf_encode,
          Option.getD_some]
      rw [hpattern]
      rw [List.map_append, hfront, List.map_singleton, hlast] at hnone
      exact hnone
end

end ServeMux
