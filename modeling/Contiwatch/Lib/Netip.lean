import Contiwatch.Lib.GoStrings
import Mathlib.Data.Nat.Digits.Defs

/-!
# IP Addresses

Go's `net/netip`: addresses, their textual form in both directions, and prefixes. `ParseAddr`
follows the library's own scan: the first of `.`, `:` and `%` decides the family, an IPv4
field has no leading zero, an IPv6 address may abbreviate one run of zero groups, end in an
embedded IPv4 address and carry a zone.
-/

namespace Netip

/-- `netip.Addr`. The zero value is not an address. -/
inductive Addr where
  | zero
  | v4 (bits : BitVec 32)
  | v6 (bits : BitVec 128) (zone : String)
  deriving DecidableEq, Repr

/-- `ip.IsValid()`. -/
def Addr.isValid : Addr → Bool
  | .zero => false
  | _ => true

/-- `ip.Is4In6()`: an IPv6 address of the form `::ffff:a.b.c.d`. -/
def Addr.is4In6 : Addr → Bool
  | .v6 bits _ => bits >>> 32 == 0xffff#128
  | _ => false

/-- `ip.Unmap()`: an IPv4-mapped IPv6 address becomes the IPv4 address, without zone. -/
def Addr.unmap : Addr → Addr
  | .v6 bits zone => if (Addr.v6 bits zone).is4In6 then .v4 (bits.setWidth 32) else .v6 bits zone
  | a => a

/-! ### Parsing -/

/-- The loop of `parseIPv4Fields` over the characters left: `atStart` holds at the first
character and after a dot, `val` and `digLen` are the octet being read, `fields` the octets
before it. -/
def parseIPv4Loop (atStart : Bool) (val digLen : ℕ) (fields : List ℕ) :
    List Char → Option (List ℕ)
  | [] => if fields.length < 3 then none else some (fields ++ [val])
  | c :: rest =>
      if c.isDigit then
        if digLen = 1 ∧ val = 0 then none
        else
          let val' := val * 10 + (c.toNat - '0'.toNat)
          if val' > 255 then none else parseIPv4Loop false val' (digLen + 1) fields rest
      else if c = '.' then
        if atStart ∨ rest = [] then none
        else if fields.length = 3 then none
        else parseIPv4Loop true 0 0 (fields ++ [val]) rest
      else none

/-- `parseIPv4Fields`. -/
def parseIPv4Fields (cs : List Char) : Option (List ℕ) := parseIPv4Loop true 0 0 [] cs

/-- The number with the digits `ds` in base `2 ^ w`, most significant first. -/
def ofFields (w : ℕ) (ds : List ℕ) : ℕ := ds.foldl (fun acc d => acc * 2 ^ w + d) 0

/-- `parseIPv4`. -/
def parseIPv4 (cs : List Char) : Option Addr :=
  (parseIPv4Fields cs).map fun fields => .v4 (BitVec.ofNat 32 (ofFields 8 fields))

/-- The value of a hexadecimal digit. -/
def hexDigit (c : Char) : Option ℕ :=
  if c.isDigit then some (c.toNat - '0'.toNat)
  else if 'a' ≤ c ∧ c ≤ 'f' then some (c.toNat - 'a'.toNat + 10)
  else if 'A' ≤ c ∧ c ≤ 'F' then some (c.toNat - 'A'.toNat + 10)
  else none

/-- Read the hexadecimal digits at the front: their value, their number and the rest; more
than four digits are an error. -/
def parseHexField (acc off : ℕ) : List Char → Option (ℕ × ℕ × List Char)
  | [] => some (acc, off, [])
  | c :: rest =>
      match hexDigit c with
      | none => some (acc, off, c :: rest)
      | some d => if off > 3 then none else parseHexField (acc * 16 + d) (off + 1) rest

/-- The group loop of `parseIPv6`, with room for `n` more groups: the groups read, the
position of the ellipsis and the text left. -/
def parseIPv6Groups : ℕ → List ℕ → Option ℕ → List Char →
    Option (List ℕ × Option ℕ × List Char)
  | 0, groups, ellipsis, cs => some (groups, ellipsis, cs)
  | n + 1, groups, ellipsis, cs =>
      match parseHexField 0 0 cs with
      | none => none
      | some (acc, off, rest) =>
          if off = 0 then none
          else
            match rest with
            | '.' :: _ =>
                if ellipsis = none ∧ groups.length ≠ 6 then none
                else if groups.length + 2 > 8 then none
                else
                  match parseIPv4Fields cs with
                  | some [a, b, c, d] =>
                      some (groups ++ [a * 256 + b, c * 256 + d], ellipsis, [])
                  | _ => none
            | [] => some (groups ++ [acc], ellipsis, [])
            | [':'] => none
            | ':' :: ':' :: rest =>
                if ellipsis.isSome then none
                else if rest = [] then
                  some (groups ++ [acc], some (groups.length + 1), [])
                else parseIPv6Groups n (groups ++ [acc]) (some (groups.length + 1)) rest
            | ':' :: rest => parseIPv6Groups n (groups ++ [acc]) ellipsis rest
            | _ :: _ => none

/-- Fill up to eight groups at the ellipsis. -/
def expandEllipsis (groups : List ℕ) (ellipsis : Option ℕ) : Option (List ℕ) :=
  if groups.length < 8 then
    ellipsis.map fun at_ =>
      groups.take at_ ++ List.replicate (8 - groups.length) 0 ++ groups.drop at_
  else if ellipsis.isSome then none
  else some groups

/-- The address part of `parseIPv6`, without zone. -/
def parseIPv6Body (cs : List Char) : Option (BitVec 128) :=
  let parsed := match cs with
    | [':', ':'] => some ([], some 0, [])
    | ':' :: ':' :: rest => parseIPv6Groups 8 [] (some 0) rest
    | _ => parseIPv6Groups 8 [] none cs
  match parsed with
  | some (groups, ellipsis, []) =>
      (expandEllipsis groups ellipsis).map fun groups => BitVec.ofNat 128 (ofFields 16 groups)
  | _ => none

/-- `parseIPv6`: split off the zone, which must not be empty, and read the groups. -/
def parseIPv6 (cs : List Char) : Option Addr :=
  match cs.dropWhile (· ≠ '%') with
  | [] => (parseIPv6Body cs).map fun bits => .v6 bits ""
  | [_] => none
  | _ :: zone =>
      (parseIPv6Body (cs.takeWhile (· ≠ '%'))).map fun bits => .v6 bits (String.ofList zone)

/-- `netip.ParseAddr`: the first of `.`, `:` and `%` decides the family. -/
def parseAddr (cs : List Char) : Option Addr :=
  match cs.find? fun c => c = '.' || c = ':' || c = '%' with
  | some '.' => parseIPv4 cs
  | some ':' => parseIPv6 cs
  | _ => none

/-! ### Formatting -/

/-- The `n` digits of `bits` in base `2 ^ w`, most significant first. -/
def toFields (w n bits : ℕ) : List ℕ :=
  (List.range n).map fun i => bits / 2 ^ (w * (n - 1 - i)) % 2 ^ w

/-- The textual form of an IPv4 address. -/
def string4 (bits : BitVec 32) : List Char :=
  List.intercalate ['.'] ((toFields 8 4 bits.toNat).map fun d => Nat.toDigits 10 d)

/-- The longest run of at least two zero groups, the first one among equals: where it
starts and where it ends. -/
def zeroRun (groups : List ℕ) : ℕ × ℕ :=
  (List.range 8).foldl (fun best i =>
    let l := ((groups.drop i).takeWhile (· = 0)).length
    if 2 ≤ l ∧ best.2 - best.1 < l then (i, i + l) else best) (255, 255)

/-- The textual form of an IPv6 address, without zone. -/
def string6 (bits : BitVec 128) : List Char :=
  let groups := toFields 16 8 bits.toNat
  let hex := fun gs : List ℕ => List.intercalate [':'] (gs.map fun g => Nat.toDigits 16 g)
  let run := zeroRun groups
  if run.1 = 255 then hex groups
  else hex (groups.take run.1) ++ [':', ':'] ++ hex (groups.drop run.2)

/-- `ip.String()`. -/
def Addr.string : Addr → String
  | .zero => "invalid IP"
  | .v4 bits => String.ofList (string4 bits)
  | .v6 bits zone =>
      let text := if (Addr.v6 bits zone).is4In6 then
          "::ffff:".toList ++ string4 (bits.setWidth 32)
        else string6 bits
      String.ofList (if zone = "" then text else text ++ '%' :: zone.toList)

/-! ### Prefixes -/

/-- `netip.Prefix`: an address and the number of its leading bits that count. -/
structure Prefix where
  ip : Addr
  bits : ℕ
  deriving DecidableEq, Repr

/-- `p.Contains(ip)`: never for the zero address, another family, or a zone. -/
def Prefix.contains (p : Prefix) : Addr → Bool
  | .zero => false
  | .v4 a =>
      match p.ip with
      | .v4 b => p.bits ≤ 32 && (a ^^^ b) >>> (32 - p.bits) == 0
      | _ => false
  | .v6 a zone =>
      match p.ip with
      | .v6 b _ => zone = "" && p.bits ≤ 128 && (a ^^^ b) >>> (128 - p.bits) == 0
      | _ => false

end Netip
