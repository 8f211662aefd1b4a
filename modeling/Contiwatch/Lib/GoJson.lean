import Contiwatch.Lib.GoMap
import Contiwatch.Lib.GoStrings
import Mathlib.Data.Finset.Sort
import Mathlib.Data.String.Basic

/-!
# Go's JSON Encoding

Documents of `encoding/json` and the way the package writes and reads Go values. A document is
a syntax tree; the text that renders it is left to the package. Reading is into a value that
exists already, as `json.Unmarshal` does it: a member that is missing, or that is `null`, leaves
what was there, and a document of the wrong kind is an error.

A `Codec` carries the proof that what it writes is read back into the zero value; a `Field` is
one field of a struct with its key. `structCodec` puts the fields of a struct together.

A nil slice and an empty one are both the empty list here. The package writes the first as
`null` and the second as `[]`, and reads each back as what it was. A nil map and an empty one are
the same in the same way.

## Main results

* `foldlM_members` — the members that the fields of a struct write are read back one by one.
* `structCodec` — so a struct is read back as a whole.
* `decode_embedded` — a struct is read off one that it is embedded in.
-/

/-- A JSON document. A number is kept as an integer when its literal is one. -/
inductive Json
  | null
  | bool (b : Bool)
  | int (n : ℤ)
  | real (literal : String)
  | str (s : String)
  | arr (items : List Json)
  | obj (members : List (String × Json))

namespace GoJson

open GoStrings

/-- The members of an object. -/
def objectMembers : Json → List (String × Json)
  | .obj members => members
  | _ => []

/-- How Go values of a type are written and read. -/
structure Codec (α : Type) where
  zero : α
  encode : α → Json
  decode : Json → α → Option α
  decode_encode : ∀ a, decode (encode a) zero = some a

/-! ### Basic types -/

/-- `bool`. -/
def boolCodec : Codec Bool where
  zero := false
  encode := .bool
  decode
    | .null, old => some old
    | .bool b, _ => some b
    | _, _ => none
  decode_encode _ := rfl

/-- `string`. -/
def stringCodec : Codec String where
  zero := ""
  encode := .str
  decode
    | .null, old => some old
    | .str s, _ => some s
    | _, _ => none
  decode_encode _ := rfl

/-- `int`: a literal outside 64 bits, or with a fraction or an exponent, is an error. -/
def intCodec : Codec Int64 where
  zero := 0
  encode x := .int x.toInt
  decode
    | .null, old => some old
    | .int n, _ => if -2 ^ 63 ≤ n ∧ n < 2 ^ 63 then some (Int64.ofInt n) else none
    | _, _ => none
  decode_encode x := by
    have hrange : -2 ^ 63 ≤ x.toInt ∧ x.toInt < 2 ^ 63 := ⟨x.le_toInt, x.toInt_lt⟩
    simp only [if_pos hrange, Int64.ofInt_toInt]

/-- `uint64`. -/
def uint64Codec : Codec UInt64 where
  zero := 0
  encode x := .int x.toNat
  decode
    | .null, old => some old
    | .int n, _ => if 0 ≤ n ∧ n < 2 ^ 64 then some (UInt64.ofNat n.toNat) else none
    | _, _ => none
  decode_encode x := by
    have hrange : (0 : ℤ) ≤ x.toNat ∧ (x.toNat : ℤ) < 2 ^ 64 :=
      ⟨Int.natCast_nonneg _, by exact_mod_cast x.toNat_lt⟩
    simp only [if_pos hrange, Int.toNat_natCast, UInt64.ofNat_toNat]

/-- A Boolean is never written as `null`. -/
theorem boolCodec_ne_null (b : Bool) : boolCodec.encode b ≠ .null := nofun

/-- Read a pointer: `null` is the nil pointer, anything else is read into what is pointed to. -/
def readPtr {α : Type} (c : Codec α) : Json → Option α → Option (Option α)
  | .null, _ => some none
  | j, old => (c.decode j (old.getD c.zero)).map some

/-- Behind a pointer, what is not `null` is read into the value already there, or into a fresh one.
-/
theorem readPtr_of_ne_null {α : Type} (c : Codec α) {j : Json} (hj : j ≠ .null)
    (old : Option α) : readPtr c j old = (c.decode j (old.getD c.zero)).map some := by
  cases j with
  | null => exact absurd rfl hj
  | _ => rfl

/-- A pointer to a type that is never written as `null`. -/
def ptrCodec {α : Type} (c : Codec α) (hnull : ∀ a, c.encode a ≠ .null) : Codec (Option α) where
  zero := none
  encode
    | none => .null
    | some a => c.encode a
  decode := readPtr c
  decode_encode a := by
    rcases a with _ | a
    · rfl
    · rw [readPtr_of_ne_null c (hnull a), Option.getD_none, c.decode_encode, Option.map_some]

/-- A slice. -/
def sliceCodec {α : Type} (c : Codec α) : Codec (List α) where
  zero := []
  encode items := .arr (items.map c.encode)
  decode
    | .null, _ => some []
    | .arr js, _ => js.mapM fun j => c.decode j c.zero
    | _, _ => none
  decode_encode items := by
    induction items with
    | nil => rfl
    | cons a items ih =>
        simp only [List.map_cons, List.mapM_cons, c.decode_encode] at ih ⊢
        rw [ih]
        rfl

/-- A slice is read by another codec than it was written by, item by item. -/
theorem decode_sliceCodec {α β γ : Type} {c : Codec α} {d : Codec β} {f : γ → β} {g : γ → α}
    (h : ∀ x, c.decode (d.encode (f x)) c.zero = some (g x)) (items : List γ) (old : List α) :
    (sliceCodec c).decode ((sliceCodec d).encode (items.map f)) old = some (items.map g) := by
  change ((items.map f).map d.encode).mapM (fun j => c.decode j c.zero) = some (items.map g)
  induction items with
  | nil => rfl
  | cons x items ih =>
      simp only [List.map_cons, List.mapM_cons, h]
      rw [ih]
      rfl

/-- The member that an entry of a map is written as. -/
def mapMember {α : Type} (c : Codec α) (m : GoMap String α) (key : String) :
    Option (String × Json) :=
  (m.lookup key).map fun a => (key, c.encode a)

/-- Read one member into a map. -/
def readEntry {α : Type} (c : Codec α) (m : GoMap String α) (entry : String × Json) :
    Option (GoMap String α) :=
  (c.decode entry.2 c.zero).map fun a => m.insert entry.1 a

/-- What the members under some keys of a map are read into. -/
theorem foldlM_mapMembers {α : Type} (c : Codec α) (m : GoMap String α) (keys : List String)
    (hkeys : ∀ key ∈ keys, key ∈ m) (old : GoMap String α) :
    ∃ new, (keys.filterMap (mapMember c m)).foldlM (readEntry c) old = some new ∧
      ∀ key, new.lookup key = if key ∈ keys then m.lookup key else old.lookup key := by
  induction keys generalizing old with
  | nil => exact ⟨old, rfl, fun key => by simp⟩
  | cons k keys ih =>
      obtain ⟨a, ha⟩ := Finmap.mem_iff.mp (hkeys k (List.mem_cons_self ..))
      obtain ⟨new, hnew, hlookup⟩ :=
        ih (fun key hkey => hkeys key (List.mem_cons_of_mem _ hkey)) (old.insert k a)
      have hentry : readEntry c old (k, c.encode a) = some (old.insert k a) := by
        rw [readEntry, c.decode_encode, Option.map_some]
      have hhead : mapMember c m k = some (k, c.encode a) := by
        rw [mapMember, ha, Option.map_some]
      refine ⟨new, ?_, fun key => ?_⟩
      · rw [List.filterMap_cons_some hhead, List.foldlM_cons, hentry]
        exact hnew
      · rw [hlookup key]
        by_cases hk : key = k
        · subst hk
          simp [ha]
        · rw [Finmap.lookup_insert_of_ne _ hk]
          simp [hk]

/-- `map[string]T`, whose entries are written in the order of their keys. -/
def mapCodec {α : Type} (c : Codec α) : Codec (GoMap String α) where
  zero := ∅
  encode m := .obj ((m.keys.sort (· ≤ ·)).filterMap (mapMember c m))
  decode
    | .null, _ => some ∅
    | .obj members, old => members.foldlM (readEntry c) old
    | _, _ => none
  decode_encode m := by
    have hkeys : ∀ key ∈ m.keys.sort (· ≤ ·), key ∈ m := fun key hkey =>
      Finmap.mem_keys.mp ((Finset.mem_sort _).mp hkey)
    obtain ⟨new, hnew, hlookup⟩ := foldlM_mapMembers c m _ hkeys ∅
    have heq : new = m := by
      refine Finmap.ext_lookup fun key => ?_
      rw [hlookup key]
      by_cases hkey : key ∈ m
      · rw [if_pos ((Finset.mem_sort _).mpr (Finmap.mem_keys.mpr hkey))]
      · rw [if_neg fun hin => hkey (hkeys key hin), Finmap.lookup_empty,
          Finmap.lookup_eq_none.mpr hkey]
    rw [heq] at hnew
    exact hnew

@[simp] theorem boolCodec_decode (b old : Bool) :
    boolCodec.decode (boolCodec.encode b) old = some b := rfl

@[simp] theorem stringCodec_decode (s old : String) :
    stringCodec.decode (stringCodec.encode s) old = some s := rfl

@[simp] theorem boolCodec_zero : boolCodec.zero = false := rfl

@[simp] theorem stringCodec_zero : stringCodec.zero = "" := rfl

@[simp] theorem intCodec_zero : intCodec.zero = 0 := rfl

@[simp] theorem uint64Codec_zero : uint64Codec.zero = 0 := rfl

@[simp] theorem mapCodec_zero {α : Type} (c : Codec α) : (mapCodec c).zero = ∅ := rfl

@[simp] theorem ptrCodec_zero {α : Type} (c : Codec α) (hnull : ∀ a, c.encode a ≠ .null) :
    (ptrCodec c hnull).zero = none := rfl

@[simp] theorem sliceCodec_zero {α : Type} (c : Codec α) : (sliceCodec c).zero = [] := rfl

/-! ### Structs -/

/-- A field of the struct `σ`. In `copy s t` the field of `t` is replaced by that of `s`. -/
structure Field (σ : Type) where
  key : String
  write : σ → Option Json
  read : Json → σ → Option σ
  Zero : σ → Prop
  copy : σ → σ → σ
  read_write : ∀ {s t j}, Zero t → write s = some j → read j t = some (copy s t)
  copy_omitted : ∀ {s t}, Zero t → write s = none → copy s t = t

/-- The field of a struct that `get` reads and `set` writes. -/
def field {σ β : Type} (key : String) (c : Codec β) (get : σ → β) (set : β → σ → σ) :
    Field σ where
  key := key
  write s := some (c.encode (get s))
  read j t := (c.decode j (get t)).map fun b => set b t
  Zero t := get t = c.zero
  copy s t := set (get s) t
  read_write {s t j} hzero hwrite := by
    obtain rfl := Option.some.inj hwrite
    rw [hzero, c.decode_encode, Option.map_some]
  copy_omitted _ hwrite := absurd hwrite (Option.some_ne_none _)

/-- The same for a field that is left out when it is zero (`omitempty`). -/
def omitempty {σ β : Type} [DecidableEq β] (key : String) (c : Codec β) (get : σ → β)
    (set : β → σ → σ) (hset : ∀ t, set (get t) t = t) : Field σ where
  key := key
  write s := if get s = c.zero then none else some (c.encode (get s))
  read j t := (c.decode j (get t)).map fun b => set b t
  Zero t := get t = c.zero
  copy s t := set (get s) t
  read_write {s t j} hzero hwrite := by
    by_cases homit : get s = c.zero
    · rw [if_pos homit] at hwrite
      exact absurd hwrite.symm (Option.some_ne_none _)
    · rw [if_neg homit] at hwrite
      obtain rfl := Option.some.inj hwrite
      rw [hzero, c.decode_encode, Option.map_some]
  copy_omitted {s t} hzero hwrite := by
    by_cases homit : get s = c.zero
    · rw [homit, ← hzero, hset]
    · rw [if_neg homit] at hwrite
      exact absurd hwrite (Option.some_ne_none _)

@[simp] theorem field_key {σ β : Type} (key : String) (c : Codec β) (get : σ → β)
    (set : β → σ → σ) : (field key c get set).key = key := rfl

@[simp] theorem omitempty_key {σ β : Type} [DecidableEq β] (key : String) (c : Codec β)
    (get : σ → β) (set : β → σ → σ) (hset : ∀ t, set (get t) t = t) :
    (omitempty key c get set hset).key = key := rfl

@[simp] theorem field_read {σ β : Type} (key : String) (c : Codec β) (get : σ → β)
    (set : β → σ → σ) (j : Json) (t : σ) :
    (field key c get set).read j t = (c.decode j (get t)).map fun b => set b t := rfl

@[simp] theorem omitempty_read {σ β : Type} [DecidableEq β] (key : String) (c : Codec β)
    (get : σ → β) (set : β → σ → σ) (hset : ∀ t, set (get t) t = t) (j : Json) (t : σ) :
    (omitempty key c get set hset).read j t = (c.decode j (get t)).map fun b => set b t := rfl

section

variable {σ : Type} (fold : Char → Char) (fields : List (Field σ))

/-- The field that a key belongs to: the one with this key, or else one that differs from it
by case alone. -/
def findField (key : String) : Option (Field σ) :=
  (fields.find? fun f => f.key = key).or (fields.find? fun f => equalFold fold f.key key)

/-- Read one member; a key that belongs to no field is ignored. -/
def readMember (t : σ) (m : String × Json) : Option σ :=
  match findField fold fields m.1 with
  | none => some t
  | some f => f.read m.2 t

/-- Read an object into a struct, member by member. -/
def readStruct : Json → σ → Option σ
  | .null, t => some t
  | .obj members, t => members.foldlM (readMember fold fields) t
  | _, _ => none

/-- The members that a struct is written as. -/
def members (fields : List (Field σ)) (s : σ) : List (String × Json) :=
  fields.filterMap fun f => (f.write s).map fun j => (f.key, j)

@[simp] theorem members_nil {s : σ} : members [] s = [] := rfl

@[simp] theorem members_field {β : Type} {key : String} {c : Codec β} {get : σ → β}
    {set : β → σ → σ} {rest : List (Field σ)} {s : σ} :
    members (field key c get set :: rest) s = (key, c.encode (get s)) :: members rest s := rfl

/-- A field with `omitempty` is written unless it holds its zero. -/
@[simp] theorem members_omitempty {β : Type} [DecidableEq β] {key : String} {c : Codec β}
    {get : σ → β} {set : β → σ → σ} {hset : ∀ t, set (get t) t = t} {rest : List (Field σ)}
    {s : σ} :
    members (omitempty key c get set hset :: rest) s =
      if get s = c.zero then members rest s else (key, c.encode (get s)) :: members rest s := by
  by_cases homit : get s = c.zero
  · simp [members, omitempty, homit]
  · simp [members, omitempty, homit]

/-- Copied one after another into `t`, the fields of `s` give `s`, and each of them is zero
before its turn. -/
def Fresh : List (Field σ) → σ → σ → Prop
  | [], s, t => t = s
  | f :: rest, s, t => f.Zero t ∧ Fresh rest s (f.copy s t)

@[simp] theorem fresh_nil {s t : σ} : Fresh [] s t ↔ t = s := Iff.rfl

/-- Reading one field back leaves the rest to the fields after it. -/
@[simp] theorem fresh_field {β : Type} {key : String} {c : Codec β} {get : σ → β}
    {set : β → σ → σ} {rest : List (Field σ)} {s t : σ} :
    Fresh (field key c get set :: rest) s t ↔ get t = c.zero ∧ Fresh rest s (set (get s) t) :=
  Iff.rfl

/-- A field that was left out is one whose zero the fresh value has already. -/
@[simp] theorem fresh_omitempty {β : Type} [DecidableEq β] {key : String} {c : Codec β}
    {get : σ → β} {set : β → σ → σ} {hset : ∀ t, set (get t) t = t} {rest : List (Field σ)}
    {s t : σ} :
    Fresh (omitempty key c get set hset :: rest) s t ↔
      get t = c.zero ∧ Fresh rest s (set (get s) t) :=
  Iff.rfl

variable {fields}

/-- With different keys, a field is found under its key. -/
theorem findField_key (hkeys : (fields.map Field.key).Nodup) {f : Field σ} (hf : f ∈ fields) :
    findField fold fields f.key = some f := by
  have hfind : fields.find? (fun g => g.key = f.key) = some f := by
    induction fields with
    | nil => exact absurd hf List.not_mem_nil
    | cons g rest ih =>
        rw [List.map_cons, List.nodup_cons] at hkeys
        rcases List.mem_cons.mp hf with rfl | hrest
        · simp
        · have hne : g.key ≠ f.key := fun heq => hkeys.1 (heq ▸ List.mem_map_of_mem hrest)
          rw [List.find?_cons_of_neg (by simpa using hne)]
          exact ih hkeys.2 hrest
  rw [findField, hfind, Option.some_or]

/-- **Members are read back.** What the fields of a struct write is read back field by field. -/
theorem foldlM_members (hkeys : (fields.map Field.key).Nodup) {rest : List (Field σ)}
    (hrest : ∀ f ∈ rest, f ∈ fields) {s t : σ} (h : Fresh rest s t) :
    (members rest s).foldlM (readMember fold fields) t = some s := by
  induction rest generalizing t with
  | nil =>
      obtain rfl : t = s := h
      rfl
  | cons f rest ih =>
      obtain ⟨hzero, hfresh⟩ := h
      have hlater := ih (fun g hg => hrest g (List.mem_cons_of_mem _ hg)) hfresh
      rcases hwrite : f.write s with _ | j
      · rw [f.copy_omitted hzero hwrite] at hlater
        rw [members, List.filterMap_cons_none (by rw [hwrite, Option.map_none])]
        exact hlater
      · have hread : readMember fold fields t (f.key, j) = some (f.copy s t) := by
          rw [readMember, findField_key fold hkeys (hrest f (List.mem_cons_self ..))]
          exact f.read_write hzero hwrite
        rw [members, List.filterMap_cons_some (by rw [hwrite, Option.map_some]),
          List.foldlM_cons, hread]
        exact hlater

/-- A key of another length than those of the fields belongs to no field. -/
theorem readMember_of_length {key : String}
    (h : ∀ f ∈ fields, f.key.toList.length ≠ key.toList.length) (t : σ) (j : Json) :
    readMember fold fields t (key, j) = some t := by
  have hnone : findField fold fields key = none := by
    rw [findField, Option.or_eq_none_iff, List.find?_eq_none, List.find?_eq_none]
    refine ⟨fun f hf heq => ?_, fun f hf hfold => ?_⟩
    · exact h f hf (by rw [of_decide_eq_true heq])
    · have hlength := congrArg List.length (of_decide_eq_true hfold)
      rw [List.length_map, List.length_map] at hlength
      exact h f hf hlength
  simp only [readMember, hnone]

/-- The members under certain keys are those of the fields with these keys. -/
theorem members_filter (keep : String → Bool) (s : σ) :
    (members fields s).filter (fun m => keep m.1) =
      members (fields.filter fun f => keep f.key) s := by
  induction fields with
  | nil => rfl
  | cons f rest ih =>
      rcases hwrite : f.write s with _ | j
      · by_cases hkeep : keep f.key
        · simpa [members, hwrite, hkeep] using ih
        · simpa [members, hwrite, hkeep] using ih
      · by_cases hkeep : keep f.key
        · simpa [members, hwrite, hkeep] using ih
        · simpa [members, hwrite, hkeep] using ih

/-- **Members are read back in part.** An object that has some of the members that a struct was
written as, and others after them, is read into the struct with these fields; then come the
others. -/
theorem foldlM_members_filter (hkeys : (fields.map Field.key).Nodup) (keep : String → Bool)
    {s s' t : σ} (hsame : members (fields.filter fun f => keep f.key) s =
      members (fields.filter fun f => keep f.key) s')
    (h : Fresh (fields.filter fun f => keep f.key) s' t) (others : List (String × Json)) :
    ((members fields s).filter (fun m => keep m.1) ++ others).foldlM (readMember fold fields) t =
      others.foldlM (readMember fold fields) s' := by
  have hread : (members (fields.filter fun f => keep f.key) s').foldlM
      (readMember fold fields) t = some s' :=
    foldlM_members fold hkeys (fun _ hf => List.mem_of_mem_filter hf) h
  rw [members_filter, hsame, List.foldlM_append, hread]
  rfl

/-- A struct with the fields `fields`. -/
def structCodec (zero : σ) (fields : List (Field σ)) (hkeys : (fields.map Field.key).Nodup)
    (hfresh : ∀ s, Fresh fields s zero) : Codec σ where
  zero := zero
  encode s := .obj (members fields s)
  decode := readStruct fold fields
  decode_encode s := foldlM_members fold hkeys (fun _ hf => hf) (hfresh s)

/-- **Embedded structs.** A struct may be embedded in one that hides a field of it under the same
key, and has another key besides. Read as the embedded struct, the hiding field is read, and the
other is ignored. -/
theorem decode_embedded {c : Codec σ} {zero : σ} {hkeys : (fields.map Field.key).Nodup}
    {hfresh : ∀ s, Fresh fields s zero} (hc : c = structCodec fold zero fields hkeys hfresh)
    {f : Field σ} (hf : f ∈ fields) {s : σ} (s' : σ)
    (hsame : members (fields.filter fun g => g.key ≠ f.key) s =
      members (fields.filter fun g => g.key ≠ f.key) s')
    (h : Fresh (fields.filter fun g => g.key ≠ f.key) s' zero) {key : String}
    (hkey : ∀ g ∈ fields, g.key.toList.length ≠ key.toList.length) (j j' : Json) :
    c.decode (.obj ((objectMembers (c.encode s)).filter (fun m => m.1 ≠ f.key) ++
      [(f.key, j), (key, j')])) c.zero = f.read j s' := by
  subst hc
  have hhiding : readMember fold fields s' (f.key, j) = f.read j s' := by
    rw [readMember, findField_key fold hkeys hf]
  change ((members fields s).filter (fun m => m.1 ≠ f.key) ++ [(f.key, j), (key, j')]).foldlM
    (readMember fold fields) zero = f.read j s'
  rw [foldlM_members_filter fold hkeys (fun k => k ≠ f.key) hsame h, List.foldlM_cons, hhiding]
  rcases f.read j s' with _ | t
  · rfl
  · exact congrArg (Option.bind · some) (readMember_of_length fold hkey t j')

/-- A struct is never written as `null`. -/
theorem structCodec_ne_null {zero : σ} {fields : List (Field σ)}
    {hkeys : (fields.map Field.key).Nodup} {hfresh : ∀ s, Fresh fields s zero} (s : σ) :
    (structCodec fold zero fields hkeys hfresh).encode s ≠ .null := nofun

end

end GoJson
