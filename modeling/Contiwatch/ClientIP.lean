import Contiwatch.Lib.Netip

/-!
# The Client Address of a Request

`clientIPFromRequest` of `internal/server/pin_guard.go` names the lockout bucket of a PIN
request: the direct peer, or, behind a trusted proxy, the first hop of `X-Forwarded-For`
that no trusted proxy vouches for, read from the right.

## Main results

* `walkForwarded_eq` — the walk stops at the rightmost hop that is not trusted.
* `clientIPFromRequest_forwarded` — what the result depends on: not on the header for an
  untrusted peer, not on what stands to the left of the rightmost untrusted hop when the
  header is a list of addresses, and not on a header that is not such a list.
* `clientIPFromRequest_ne_empty` — the result is never the empty string, which the attempt
  table uses as its mark for "no entry".
-/

namespace Contiwatch

open Netip GoStrings

/-- What `clientIPFromRequest` reads of a request: the peer's address with port and the
first `X-Forwarded-For` header, empty when there is none. -/
structure AddressedRequest where
  remoteAddr : String
  xForwardedFor : String
  deriving DecidableEq, Repr

/-- `net.SplitHostPort`: host and port, or an error. -/
def splitHostPort (cs : List Char) : Option (List Char × List Char) :=
  match cs.reverse.idxOf? ':' with
  | none => none
  | some fromEnd =>
      let i := cs.length - 1 - fromEnd
      match cs with
      | '[' :: _ =>
          match cs.idxOf? ']' with
          | none => none
          | some close =>
              if close + 1 ≠ i then none
              else if '[' ∈ cs.drop 1 ∨ ']' ∈ cs.drop (close + 1) then none
              else some ((cs.take close).drop 1, cs.drop (i + 1))
      | _ =>
          if ':' ∈ cs.take i ∨ '[' ∈ cs ∨ ']' ∈ cs then none
          else some (cs.take i, cs.drop (i + 1))

/-- `requestRemoteIP`: the zero address if the peer has none. -/
def requestRemoteIP (r : AddressedRequest) : Addr :=
  let addr := trimSpace r.remoteAddr.toList
  let host := match splitHostPort addr with
    | some (host, _) => host
    | none => addr
  match parseAddr (trimSpace host) with
  | some address => address.unmap
  | none => .zero

/-- `isTrustedProxy`. -/
def isTrustedProxy (address : Addr) (trusted : List Prefix) : Bool :=
  address.isValid && trusted.any fun p => p.contains address.unmap

/-- The comma-separated elements of the trimmed header, each trimmed. -/
def forwardedElements (r : AddressedRequest) : List (List Char) :=
  (split ',' (trimSpace r.xForwardedFor.toList)).map trimSpace

/-- The first loop of `clientIPFromRequest`: every element as an address, or `none` at the
first one that is not an address. -/
def parseForwarded (elements : List (List Char)) : Option (List Addr) :=
  elements.mapM fun element => (parseAddr element).map Addr.unmap

/-- The second loop of `clientIPFromRequest`, over the hops from right to left. -/
def walkForwarded (trusted : List Prefix) : Addr → List Addr → Addr
  | candidate, [] => candidate
  | candidate, hop :: hops =>
      if isTrustedProxy candidate trusted then walkForwarded trusted hop hops else candidate

/-- `clientIPFromRequest`. -/
def clientIPFromRequest (r : AddressedRequest) (trusted : List Prefix) : String :=
  let peer := requestRemoteIP r
  if !peer.isValid then "unknown"
  else if trusted.length = 0 || !isTrustedProxy peer trusted then peer.string
  else if trimSpace r.xForwardedFor.toList = [] then peer.string
  else
    match parseForwarded (forwardedElements r) with
    | none => peer.string
    | some forwarded => (walkForwarded trusted peer forwarded.reverse).string

/-! ### The walk -/

/-- **The walk stops at the rightmost untrusted hop**: everything to its left is not looked
at. Induction on the trusted hops to its right. -/
theorem walkForwarded_eq {trusted : List Prefix} {peer a : Addr} {right left : List Addr}
    (hpeer : isTrustedProxy peer trusted = true)
    (hright : ∀ hop ∈ right, isTrustedProxy hop trusted = true)
    (ha : isTrustedProxy a trusted = false) :
    walkForwarded trusted peer (right ++ a :: left) = a := by
  induction right generalizing peer with
  | nil =>
      rw [List.nil_append, walkForwarded, if_pos hpeer]
      cases left with
      | nil => rfl
      | cons hop hops =>
          rw [walkForwarded, if_neg (by rw [ha]; exact Bool.false_ne_true)]
  | cons hop right ih =>
      rw [List.cons_append, walkForwarded, if_pos hpeer]
      exact ih (hright hop (List.mem_cons_self ..))
        fun hop' h => hright hop' (List.mem_cons_of_mem _ h)

/-- A trusted peer comes with a nonempty list of trusted prefixes and is an address. -/
theorem isTrustedProxy_eq_true {address : Addr} {trusted : List Prefix}
    (h : isTrustedProxy address trusted = true) :
    address.isValid = true ∧ trusted.length ≠ 0 := by
  rw [isTrustedProxy, Bool.and_eq_true] at h
  refine ⟨h.1, ?_⟩
  cases trusted with
  | nil => exact absurd h.2 (by simp)
  | cons p ps => simp

/-- Behind a trusted peer the header alone decides. -/
theorem clientIPFromRequest_trusted {r : AddressedRequest} {trusted : List Prefix}
    (h : isTrustedProxy (requestRemoteIP r) trusted = true) :
    clientIPFromRequest r trusted =
      if trimSpace r.xForwardedFor.toList = [] then (requestRemoteIP r).string
      else match parseForwarded (forwardedElements r) with
        | none => (requestRemoteIP r).string
        | some forwarded =>
            (walkForwarded trusted (requestRemoteIP r) forwarded.reverse).string := by
  obtain ⟨hvalid, hlen⟩ := isTrustedProxy_eq_true h
  simp only [clientIPFromRequest, hvalid, h, hlen, Bool.not_true, Bool.false_eq_true,
    if_false, decide_false, Bool.or_self]

/-- A blank header has one element, and that is not an address. -/
theorem parseForwarded_blank {r : AddressedRequest}
    (h : trimSpace r.xForwardedFor.toList = []) :
    parseForwarded (forwardedElements r) = none := by
  rw [forwardedElements, h]
  rfl

/-- The header is a list of addresses exactly if each element is one. -/
theorem parseForwarded_eq_none {elements : List (List Char)} :
    parseForwarded elements = none ↔ ∃ element ∈ elements, parseAddr element = none := by
  induction elements with
  | nil => simp [parseForwarded]
  | cons element elements ih =>
      simp only [parseForwarded, List.mapM_cons] at ih ⊢
      rcases hp : parseAddr element with _ | a
      · simp [hp]
      · rcases hm : elements.mapM fun element => (parseAddr element).map Addr.unmap with _ | as
        · simpa [hp, hm] using ih.mp hm
        · have hno := mt ih.mpr (by simp [hm])
          simpa [hp, hm] using hno

/-- A list of addresses is read element by element. -/
theorem parseForwarded_eq_some {elements : List (List Char)}
    (h : ∀ element ∈ elements, (parseAddr element).isSome) :
    parseForwarded elements =
      some (elements.map fun element => ((parseAddr element).getD .zero).unmap) := by
  induction elements with
  | nil => rfl
  | cons element elements ih =>
      obtain ⟨a, ha⟩ := Option.isSome_iff_exists.mp (h element (List.mem_cons_self ..))
      have htail := ih fun element' h' => h element' (List.mem_cons_of_mem _ h')
      rw [parseForwarded] at htail ⊢
      rw [List.mapM_cons, htail, ha]
      simp [ha]

/-- Unmapping twice is unmapping once. -/
theorem unmap_unmap (a : Addr) : a.unmap.unmap = a.unmap := by
  cases a with
  | zero => rfl
  | v4 bits => rfl
  | v6 bits zone =>
      by_cases h : (Addr.v6 bits zone).is4In6
      · simp only [Addr.unmap, if_pos h]
      · simp only [Addr.unmap, if_neg h]

/-- Unmapping keeps an address valid. -/
theorem isValid_unmap (a : Addr) : a.unmap.isValid = a.isValid := by
  cases a with
  | zero => rfl
  | v4 bits => rfl
  | v6 bits zone =>
      rw [Addr.unmap]
      split_ifs <;> rfl

/-- Trust does not see the IPv4-mapped form of an address. -/
theorem isTrustedProxy_unmap (a : Addr) (trusted : List Prefix) :
    isTrustedProxy a.unmap trusted = isTrustedProxy a trusted := by
  rw [isTrustedProxy, isTrustedProxy, isValid_unmap, unmap_unmap]

/-- **What the client address depends on.** For an untrusted peer it does not depend on the
header. Behind a trusted peer, a header all of whose elements are addresses gives the
rightmost address that is not trusted, whatever stands to its left; a header with an element
that is not an address gives the peer. -/
theorem clientIPFromRequest_forwarded (r : AddressedRequest) (trusted : List Prefix) :
    (isTrustedProxy (requestRemoteIP r) trusted = false →
      ∀ header, clientIPFromRequest { r with xForwardedFor := header } trusted =
        clientIPFromRequest r trusted) ∧
    (isTrustedProxy (requestRemoteIP r) trusted = true →
      (∀ left a right,
        forwardedElements r = left ++ a :: right →
        (∀ element ∈ left ++ right, (parseAddr element).isSome) →
        (∀ element ∈ right, ∀ hop, parseAddr element = some hop →
          isTrustedProxy hop trusted = true) →
        ∀ address, parseAddr a = some address → isTrustedProxy address trusted = false →
          clientIPFromRequest r trusted = address.unmap.string) ∧
      ((∃ element ∈ forwardedElements r, parseAddr element = none) →
        clientIPFromRequest r trusted = (requestRemoteIP r).string)) := by
  refine ⟨fun hpeer header => ?_, fun hpeer => ⟨?_, fun hbad => ?_⟩⟩
  · simp only [clientIPFromRequest, requestRemoteIP] at hpeer ⊢
    simp only [hpeer, Bool.not_false, Bool.or_true, if_true]
  · intro left a right helements hparse hright address ha huntrusted
    have hall : ∀ element ∈ forwardedElements r, (parseAddr element).isSome := by
      intro element hmem
      rw [helements, List.mem_append, List.mem_cons] at hmem
      rcases hmem with hl | rfl | hr
      · exact hparse element (List.mem_append_left _ hl)
      · rw [ha]
        rfl
      · exact hparse element (List.mem_append_right _ hr)
    have hsome := parseForwarded_eq_some hall
    have hnonblank : trimSpace r.xForwardedFor.toList ≠ [] := by
      intro hblank
      rw [parseForwarded_blank hblank] at hsome
      exact absurd hsome (by simp)
    rw [clientIPFromRequest_trusted hpeer, if_neg hnonblank, hsome, helements]
    simp only [List.map_append, List.map_cons, List.reverse_append, List.reverse_cons,
      List.append_assoc, List.singleton_append, ha, Option.getD_some]
    rw [walkForwarded_eq hpeer ?_ ((isTrustedProxy_unmap address trusted).trans huntrusted)]
    intro hop hmem
    rw [List.mem_reverse, List.mem_map] at hmem
    obtain ⟨element, hel, rfl⟩ := hmem
    obtain ⟨b, hb⟩ := Option.isSome_iff_exists.mp
      (hparse element (List.mem_append_right _ hel))
    rw [hb, Option.getD_some, isTrustedProxy_unmap]
    exact hright element hel b hb
  · rw [clientIPFromRequest_trusted hpeer, parseForwarded_eq_none.mpr hbad]
    split_ifs <;> rfl

/-- A client behind one trusted proxy, with an address of its own choice in front. -/
theorem clientIPFromRequest_forwarded_example :
    clientIPFromRequest ⟨"10.0.0.2:51000", "1.2.3.4, 198.51.100.8, 10.0.0.3"⟩
      [⟨.v4 0x0a000000#32, 8⟩] = "198.51.100.8" := by
  have h := ((clientIPFromRequest_forwarded
    ⟨"10.0.0.2:51000", "1.2.3.4, 198.51.100.8, 10.0.0.3"⟩ [⟨.v4 0x0a000000#32, 8⟩]).2
      (by decide)).1 ["1.2.3.4".toList] "198.51.100.8".toList ["10.0.0.3".toList]
  rw [h (by decide) (by decide) ?_ (.v4 0xc6336408#32) (by decide) (by decide)]
  · decide
  · intro element hmem hop hhop
    obtain rfl : element = "10.0.0.3".toList := List.mem_singleton.mp hmem
    obtain rfl : Addr.v4 0x0a000003#32 = hop := Option.some.inj (by rw [← hhop]; decide)
    decide

/-- The text in front of the last element does matter when it is not a list of addresses:
behind the trusted proxy `10.0.0.2` the header `garbage, 198.51.100.8` gives the proxy. -/
theorem clientIPFromRequest_not_left_independent :
    ¬ ∀ (trusted : List Prefix) (r : AddressedRequest) (left : List (List Char))
      (last : List Char) (address : Addr), isTrustedProxy (requestRemoteIP r) trusted = true →
      forwardedElements r = left ++ [last] → parseAddr last = some address →
      isTrustedProxy address trusted = false →
      clientIPFromRequest r trusted = address.unmap.string := by
  intro h
  have hgarbage := h [⟨.v4 0x0a000000#32, 8⟩] ⟨"10.0.0.2:51000", "garbage, 198.51.100.8"⟩
    ["garbage".toList] "198.51.100.8".toList (.v4 0xc6336408#32) (by decide) (by decide)
    (by decide) (by decide)
  exact absurd hgarbage (by decide)

/-! ### The result is a name -/

/-- An IPv4 address is written with at least one character. -/
theorem string4_ne_nil (bits : BitVec 32) : string4 bits ≠ [] := by
  simp [string4, toFields, List.intercalate, List.range_succ]

/-- So is an IPv6 address. -/
theorem string6_ne_nil (bits : BitVec 128) : string6 bits ≠ [] := by
  simp only [string6]
  split_ifs
  · simp [toFields, List.intercalate, List.range_succ]
  · simp

/-- Every address has a nonempty textual form. -/
theorem string_ne_empty (a : Addr) : a.string ≠ "" := by
  have hofList : ∀ cs : List Char, cs ≠ [] → String.ofList cs ≠ "" := by
    intro cs hcs h
    rw [String.ofList_eq_empty_iff] at h
    exact hcs h
  cases a with
  | zero => decide
  | v4 bits => exact hofList _ (string4_ne_nil bits)
  | v6 bits zone =>
      refine hofList _ ?_
      have htext : (if (Addr.v6 bits zone).is4In6 then
          "::ffff:".toList ++ string4 (bits.setWidth 32) else string6 bits) ≠ [] := by
        split_ifs
        · exact List.append_ne_nil_of_right_ne_nil _ (string4_ne_nil _)
        · exact string6_ne_nil bits
      by_cases hzone : zone = ""
      · rwa [if_pos hzone]
      · rw [if_neg hzone]
        exact List.append_ne_nil_of_left_ne_nil htext _

/-- **The client address is never empty.** -/
theorem clientIPFromRequest_ne_empty (r : AddressedRequest) (trusted : List Prefix) :
    clientIPFromRequest r trusted ≠ "" := by
  simp only [clientIPFromRequest]
  split_ifs
  · decide
  · exact string_ne_empty _
  · exact string_ne_empty _
  · rcases parseForwarded (forwardedElements r) with _ | forwarded
    · exact string_ne_empty _
    · exact string_ne_empty _

end Contiwatch
