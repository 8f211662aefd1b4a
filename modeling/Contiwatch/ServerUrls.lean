import Contiwatch.ConfigHandlers
import Contiwatch.Lib.Js

/-!
# URLs of Remote Servers

The dialog for a remote server in `src/web/static/app.js` shows a host and a port: `parseRemoteUrl`
takes them from the stored URL, and `normalizeRemoteUrl` makes a URL of them again when the dialog
is saved. The browser's parser of URLs is a parameter, and so is Go's, by which the server checks
them.

## Main results

* `storedUrl_of_parse` — what is stored after an unchanged edit.
* `editKeeps_iff` — when scheme, host, port and path are kept.
* `edit_downgrades` — an https URL becomes an http URL with another port.
-/

namespace Contiwatch

open GoStrings Js

/-! ### URLs of the browser -/

/-- The members of a `URL` object. -/
structure BrowserUrl where
  protocol : String
  credentials : String
  hostname : String
  port : String
  pathname : String
  /-- `search` and `hash`. -/
  tail : String
  deriving DecidableEq, Repr

/-- The port of a scheme. -/
def defaultPort (protocol : String) : ℕ := if protocol = "https:" then 443 else 80

/-- `port`: empty for the default. -/
def portText (protocol : String) (port : ℕ) : String :=
  if port = defaultPort protocol then "" else toString port

namespace BrowserUrl

/-- `toString()`. -/
def href (u : BrowserUrl) : String :=
  u.protocol ++ "//" ++ u.credentials ++ u.hostname ++
    (if u.port = "" then "" else ":" ++ u.port) ++ u.pathname ++ u.tail

/-- The setter of `port`: the digits at the start count, and a number that is too large changes
nothing. -/
def setPort (u : BrowserUrl) (value : String) : BrowserUrl :=
  if value = "" then { u with port := "" }
  else
    match value.toList.takeWhile Char.isDigit with
    | [] => u
    | digits =>
        if Nat.ofDigitChars 10 digits 0 < 65536 then
          { u with port := portText u.protocol (Nat.ofDigitChars 10 digits 0) }
        else u

/-- The port with which a connection is made. -/
def effectivePort (u : BrowserUrl) : String :=
  if u.port = "" then toString (defaultPort u.protocol) else u.port

end BrowserUrl

/-- `/^https?:\/\//i`. -/
def isHttp (text : String) : Bool :=
  let text := text.toList.map Char.toLower
  "http://".toList.isPrefixOf text || "https://".toList.isPrefixOf text

/-! ### The dialog -/

/-- `replace(/\/$/, "")`. -/
def dropSlash (text : String) : String :=
  match text.toList.reverse with
  | '/' :: cs => String.ofList cs.reverse
  | _ => text

/-- `replace(/\/+$/, "")`. -/
def dropSlashes (text : String) : String :=
  String.ofList (text.toList.reverse.dropWhile (· = '/')).reverse

section

variable (parse : String → Option BrowserUrl)

/-- `normalizeRemoteUrl`. -/
def normalizeRemoteUrl (host port : String) : String :=
  let trimmedHost := Js.trim host
  let trimmedPort := Js.trim port
  if trimmedHost = "" then ""
  else
    let base := if isHttp trimmedHost then trimmedHost else "http://" ++ trimmedHost
    match parse base with
    | some parsed =>
        let value :=
          if trimmedPort ≠ "" then trimmedPort else if parsed.port ≠ "" then parsed.port else "8080"
        dropSlash (parsed.setPort value).href
    | none =>
        "http://" ++ dropSlashes trimmedHost ++ ":" ++
          (if trimmedPort ≠ "" then trimmedPort else "8080")

/-- `parseRemoteUrl`: host and port. -/
def parseRemoteUrl (url : String) : String × String :=
  let raw := Js.trim url
  if raw = "" then ("", "8080")
  else
    match parse (if isHttp raw then raw else "http://" ++ raw) with
    | some parsed =>
        (if parsed.hostname ≠ "" then parsed.hostname else raw,
          if parsed.port ≠ "" then parsed.port else "8080")
    | none => (raw, "8080")

/-- The host and the port that `openRemoteModal` shows. -/
def shownAddress (url : String) : String × String :=
  let parsed := parseRemoteUrl parse url
  (textInput parsed.1, textInput (if parsed.2 ≠ "" then parsed.2 else "8080"))

/-- The URL that the handler of `remoteModalSave` sends for them. -/
def sentUrl (url : String) : String :=
  normalizeRemoteUrl parse (Js.trim (shownAddress parse url).1) (Js.trim (shownAddress parse url).2)

/-- The URL that the server stores then, if it takes it. -/
def storedUrl (lib : Libraries) (url : String) : Option String :=
  let sent := trimSpaceStr (sentUrl parse url)
  if sent = "" then none
  else
    match validateRemoteServerURL lib sent with
    | some _ => none
    | none => some sent

end

/-! ### What is known of the parsers -/

/-- A URL that the server stores: it is trimmed and accepted. -/
def IsStored (lib : Libraries) (url : String) : Prop :=
  trimSpaceStr url = url ∧ validateRemoteServerURL lib url = none

/-- The standard parser of the browser, and how Go's parser goes with it. -/
structure UrlParser (lib : Libraries) where
  parse : String → Option BrowserUrl
  /-- The two schemes. -/
  protocol : ∀ {text u}, isHttp text = true → parse text = some u →
    u.protocol = "http:" ∨ u.protocol = "https:"
  /-- A host is not empty, and printable ASCII without slashes. -/
  hostname : ∀ {text u}, isHttp text = true → parse text = some u →
    u.hostname ≠ "" ∧ ∀ c ∈ u.hostname.toList, '!' ≤ c ∧ c ≤ '~' ∧ c ≠ '/'
  /-- A port is a number, or left out if it is the default. -/
  port : ∀ {text u}, isHttp text = true → parse text = some u →
    u.port = "" ∨ ∃ n < 65536, n ≠ defaultPort u.protocol ∧ u.port = toString n
  /-- A host is parsed as itself, alone and with a port. -/
  host : ∀ {text u}, isHttp text = true → parse text = some u →
    parse ("http://" ++ u.hostname) = some ⟨"http:", "", u.hostname, "", "/", ""⟩ ∧
      ∀ n < 65536, parse ("http://" ++ u.hostname ++ ":" ++ toString n) =
        some ⟨"http:", "", u.hostname, portText "http:" n, "/", ""⟩
  /-- Go takes an http or https URL with a host only if it begins with the scheme and two
  slashes. -/
  form : ∀ {url}, IsStored lib url → isHttp (Js.trim url) = true
  /-- Go takes such a host as the browser writes it. -/
  accepted : ∀ {url u}, IsStored lib url → parse (Js.trim url) = some u →
    validateRemoteServerURL lib ("http://" ++ u.hostname) = none ∧
      ∀ n < 65536, validateRemoteServerURL lib ("http://" ++ u.hostname ++ ":" ++ toString n) = none

/-- An unchanged edit keeps scheme, host, port and path, as the browser reads them. -/
def EditKeeps (lib : Libraries) (parse : String → Option BrowserUrl) (url : String) : Prop :=
  ∃ stored before after, storedUrl parse lib url = some stored ∧
    parse (Js.trim url) = some before ∧ parse (Js.trim stored) = some after ∧
    after.protocol = before.protocol ∧ after.hostname = before.hostname ∧
    after.effectivePort = before.effectivePort ∧ after.pathname = before.pathname

/-! ### Texts without blanks -/

/-- Printable ASCII without the blank. -/
def IsPlain (text : String) : Prop := ∀ c ∈ text.toList, '!' ≤ c ∧ c ≤ '~'

instance (text : String) : Decidable (IsPlain text) :=
  List.decidableBAll _ _

/-- No visible ASCII character is white space to either language, nor does it end a line. -/
theorem plain_char {c : Char} (h : '!' ≤ c ∧ c ≤ '~') :
    GoStrings.isSpace c = false ∧ Js.isSpace c = false ∧ c ≠ '\n' ∧ c ≠ '\r' := by
  have hlt : c.toNat < 128 := by
    have hle : c.toNat ≤ '~'.toNat := h.2
    exact Nat.lt_of_le_of_lt hle (by decide)
  revert h
  exact ascii_forall (p := fun c => '!' ≤ c ∧ c ≤ '~' →
    GoStrings.isSpace c = false ∧ Js.isSpace c = false ∧ c ≠ '\n' ∧ c ≠ '\r')
    (by decide) hlt

/-- A digit is one of them. -/
theorem plain_of_isDigit {c : Char} (h : c.isDigit = true) : '!' ≤ c ∧ c ≤ '~' := by
  revert h
  exact fun h => ascii_forall (p := fun c => c.isDigit = true → '!' ≤ c ∧ c ≤ '~')
    (by decide) (toNat_lt_of_isDigit h) h

/-- Plain texts append. -/
theorem IsPlain.append {s t : String} (hs : IsPlain s) (ht : IsPlain t) : IsPlain (s ++ t) := by
  intro c hc
  rw [String.toList_append] at hc
  exact (List.mem_append.mp hc).elim (hs c) (ht c)

/-- A number's digits are plain. -/
theorem isPlain_toString (n : ℕ) : IsPlain (toString n) := by
  intro c hc
  have hmem : c ∈ Nat.toDigits 10 n := by
    rwa [Nat.toString_eq_repr, Nat.toList_repr] at hc
  exact plain_of_isDigit (Nat.isDigit_of_mem_toDigits (by decide) (by decide) hmem)

/-- Go has nothing to trim from a plain text. -/
theorem IsPlain.trimSpaceStr {text : String} (h : IsPlain text) : trimSpaceStr text = text := by
  rw [GoStrings.trimSpaceStr, trimSpace_of_not_space fun c hc => (plain_char (h c hc)).1,
    String.ofList_toList]

/-- Nor has JavaScript. -/
theorem IsPlain.trim {text : String} (h : IsPlain text) : Js.trim text = text := by
  rw [Js.trim, trim_of_forall fun c hc => (plain_char (h c hc)).2.1, String.ofList_toList]

/-- Nor has the form's field. -/
theorem IsPlain.textInput {text : String} (h : IsPlain text) : textInput text = text := by
  have hfilter : text.toList.filter (fun c => c ≠ '\n' ∧ c ≠ '\r') = text.toList :=
    List.filter_eq_self.mpr fun c hc => decide_eq_true (plain_char (h c hc)).2.2
  rw [Js.textInput, hfilter, String.ofList_toList]

/-- A number has at least one digit. -/
theorem toString_ne_empty (n : ℕ) : toString n ≠ "" :=
  Nat.toString_eq_repr ▸ Nat.repr_ne_empty

/-- The port `http` leaves out is 80. -/
theorem defaultPort_http : defaultPort "http:" = 80 := by decide

/-- The digits of a number are read as it. -/
theorem setPort_toString (u : BrowserUrl) {n : ℕ} (hn : n < 65536) :
    u.setPort (toString n) = { u with port := portText u.protocol n } := by
  have hdigits : (toString n).toList.takeWhile Char.isDigit = Nat.toDigits 10 n := by
    rw [Nat.toString_eq_repr, Nat.toList_repr]
    exact List.takeWhile_eq_self_iff.mpr fun c hc =>
      Nat.isDigit_of_mem_toDigits (by decide) (by decide) hc
  rw [BrowserUrl.setPort, if_neg (toString_ne_empty n), hdigits]
  cases hcons : Nat.toDigits 10 n with
  | nil => exact absurd hcons Nat.toDigits_ne_nil
  | cons d ds =>
      dsimp only
      rw [← hcons, Nat.ofDigitChars_ten_toDigits, if_pos hn]

/-- A slash at the end is dropped. -/
theorem dropSlash_append (text : String) : dropSlash (text ++ "/") = text := by
  have hreverse : (text ++ "/").toList.reverse = '/' :: text.toList.reverse := by
    rw [String.toList_append, List.reverse_append]
    rfl
  rw [dropSlash, hreverse]
  exact (congrArg String.ofList (List.reverse_reverse _)).trans String.ofList_toList

/-- Only a slash lowers to a slash. -/
theorem eq_slash_of_toLower {c : Char} (h : c.toLower = '/') : c = '/' := by
  by_cases hlt : c.toNat < 128
  · revert h
    exact ascii_forall (p := fun c => c.toLower = '/' → c = '/') (by decide) hlt
  · have hupper : ¬ (c.val ≥ 'A'.val ∧ c.val ≤ 'Z'.val) := by
      rintro ⟨-, hle⟩
      have hle' : c.toNat ≤ 'Z'.toNat := hle
      exact hlt (Nat.lt_of_le_of_lt hle' (by decide))
    have hsame : c.toLower = c := dif_neg hupper
    exact hsame.symm.trans h

/-- A text without slashes has no scheme in front. -/
theorem isHttp_of_not_slash {text : String} (h : ∀ c ∈ text.toList, c ≠ '/') :
    isHttp text = false := by
  have hmap : '/' ∉ text.toList.map Char.toLower := by
    intro hmem
    obtain ⟨c, hc, hlower⟩ := List.mem_map.mp hmem
    exact h c hc (eq_slash_of_toLower hlower)
  have hnot : ∀ scheme : List Char, '/' ∈ scheme →
      scheme.isPrefixOf (text.toList.map Char.toLower) = false := by
    intro scheme hslash
    rw [← Bool.not_eq_true, List.isPrefixOf_iff_prefix]
    exact fun hpre => hmap (hpre.subset hslash)
  rw [isHttp, Bool.or_eq_false_iff]
  exact ⟨hnot _ (by decide), hnot _ (by decide)⟩

/-! ### An unchanged edit -/

/-- What comes after the host in the URL that is made of it. -/
def portSuffix (port : ℕ) : String := if port = 80 then "" else ":" ++ toString port

/-- The address put together from a plain host is plain. -/
theorem isPlain_sent {host : String} (hhost : IsPlain host) (n : ℕ) :
    IsPlain ("http://" ++ host ++ portSuffix n) := by
  have hfront : IsPlain "http://" := by decide
  have hcolon : IsPlain ":" := by decide
  have hempty : IsPlain "" := by decide
  refine (hfront.append hhost).append ?_
  rw [portSuffix]
  split_ifs
  · exact hempty
  · exact hcolon.append (isPlain_toString n)

section

variable {lib : Libraries} (B : UrlParser lib) {url : String} {before : BrowserUrl}

/-- The host the browser's parser answers is plain. -/
theorem UrlParser.plain {text : String} {u : BrowserUrl} (hhttp : isHttp text = true)
    (hparse : B.parse text = some u) : IsPlain u.hostname := fun c hc =>
  have hchar := (B.hostname hhttp hparse).2 c hc
  ⟨hchar.1, hchar.2.1⟩

/-- The port that the dialog shows is a number. -/
theorem shown_port (hhttp : isHttp (Js.trim url) = true)
    (hparse : B.parse (Js.trim url) = some before) :
    ∃ n < 65536, (if before.port ≠ "" then before.port else "8080") = toString n := by
  rcases B.port hhttp hparse with hempty | ⟨n, hn, -, hport⟩
  · exact ⟨8080, by decide, if_neg (not_not.mpr hempty)⟩
  · by_cases hempty : before.port = ""
    · exact ⟨8080, by decide, if_neg (not_not.mpr hempty)⟩
    · exact ⟨n, hn, (if_pos hempty).trans hport⟩

/-- A URL is made of a host and a port. -/
theorem normalizeRemoteUrl_host {text : String} {u : BrowserUrl} (hhttp : isHttp text = true)
    (hparse : B.parse text = some u) {n : ℕ} (hn : n < 65536) :
    normalizeRemoteUrl B.parse u.hostname (toString n) =
      "http://" ++ u.hostname ++ portSuffix n := by
  obtain ⟨hne, hchars⟩ := B.hostname hhttp hparse
  have hplain := B.plain hhttp hparse
  have hscheme : isHttp u.hostname = false := isHttp_of_not_slash fun c hc => (hchars c hc).2.2
  have hport := toString_ne_empty n
  simp only [normalizeRemoteUrl, hplain.trim, (isPlain_toString n).trim, if_neg hne, hscheme,
    Bool.false_eq_true, if_false, (B.host hhttp hparse).1, if_pos hport, setPort_toString _ hn]
  have hhref : BrowserUrl.href ⟨"http:", "", u.hostname, portText "http:" n, "/", ""⟩ =
      "http://" ++ u.hostname ++ portSuffix n ++ "/" := by
    have hfront : "http:" ++ "//" = "http://" := by decide
    simp only [BrowserUrl.href, portText, defaultPort_http, portSuffix, hfront, String.append_empty]
    by_cases h80 : n = 80
    · rw [if_pos h80, if_pos h80, if_pos rfl]
    · rw [if_neg h80, if_neg h80, if_neg hport]
  rw [hhref, dropSlash_append]

/-- What is stored after an unchanged edit: scheme and path are left out, and a port that the URL
does not have is 8080. -/
theorem storedUrl_of_parse (hstored : IsStored lib url)
    (hparse : B.parse (Js.trim url) = some before) {n : ℕ} (hn : n < 65536)
    (hport : (if before.port ≠ "" then before.port else "8080") = toString n) :
    storedUrl B.parse lib url = some ("http://" ++ before.hostname ++ portSuffix n) := by
  have hhttp := B.form hstored
  have hne := (B.hostname hhttp hparse).1
  have hplain := B.plain hhttp hparse
  have hraw : ¬ Js.trim url = "" := by
    intro hempty
    rw [hempty] at hhttp
    cases hhttp
  have hshown : shownAddress B.parse url = (before.hostname, toString n) := by
    simp only [shownAddress, parseRemoteUrl, if_neg hraw, if_pos hhttp, hparse, if_pos hne, hport,
      if_pos (toString_ne_empty n), hplain.textInput, (isPlain_toString n).textInput]
  have hsent : sentUrl B.parse url = "http://" ++ before.hostname ++ portSuffix n := by
    rw [sentUrl, hshown, hplain.trim, (isPlain_toString n).trim,
      normalizeRemoteUrl_host B hhttp hparse hn]
  obtain ⟨halone, hwith⟩ := B.accepted hstored hparse
  have hvalid : validateRemoteServerURL lib ("http://" ++ before.hostname ++ portSuffix n) =
      none := by
    rw [portSuffix]
    split_ifs
    · rw [String.append_empty]
      exact halone
    · rw [← String.append_assoc]
      exact hwith n hn
  have hnonempty : ¬ "http://" ++ before.hostname ++ portSuffix n = "" := by
    intro hempty
    have hlist := congrArg String.toList hempty
    rw [String.append_assoc, String.toList_append] at hlist
    cases hlist
  simp only [storedUrl, hsent, (isPlain_sent hplain n).trimSpaceStr, if_neg hnonempty, hvalid]

/-- The browser reads the stored URL by its parts. -/
theorem parse_stored (hhttp : isHttp (Js.trim url) = true)
    (hparse : B.parse (Js.trim url) = some before) {n : ℕ} (hn : n < 65536) :
    B.parse (Js.trim ("http://" ++ before.hostname ++ portSuffix n)) =
      some ⟨"http:", "", before.hostname, portText "http:" n, "/", ""⟩ := by
  have hplain := B.plain hhttp hparse
  obtain ⟨halone, hwith⟩ := B.host hhttp hparse
  rw [(isPlain_sent hplain n).trim, portSuffix]
  split_ifs with h80
  · rw [String.append_empty, h80]
    exact halone
  · rw [← String.append_assoc]
    exact hwith n hn

/-- Two numbers written alike are the same. -/
theorem toString_inj {m n : ℕ} (h : toString m = toString n) : m = n := by
  have hdigits := congrArg (fun text : String => Nat.ofDigitChars 10 text.toList 0) h
  simpa [Nat.toString_eq_repr] using hdigits

/-- The port of the stored URL. -/
theorem effectivePort_stored (host : String) (n : ℕ) :
    BrowserUrl.effectivePort ⟨"http:", "", host, portText "http:" n, "/", ""⟩ = toString n := by
  simp only [BrowserUrl.effectivePort, portText, defaultPort_http]
  by_cases h80 : n = 80
  · rw [if_pos h80, if_pos rfl, h80]
  · rw [if_neg h80, if_neg (toString_ne_empty n)]

/-- The port of an http URL is kept if it is not the default. -/
theorem shown_port_iff (hhttp : isHttp (Js.trim url) = true)
    (hparse : B.parse (Js.trim url) = some before) (hprotocol : before.protocol = "http:") {n : ℕ}
    (hport : (if before.port ≠ "" then before.port else "8080") = toString n) :
    toString n = before.effectivePort ↔ before.effectivePort ≠ "80" := by
  have hdefault : defaultPort before.protocol = 80 := hprotocol ▸ defaultPort_http
  rw [← hport, BrowserUrl.effectivePort, hdefault]
  rcases B.port hhttp hparse with hempty | ⟨m, -, hm, hnumber⟩
  · rw [if_neg (not_not.mpr hempty), if_pos hempty]
    exact iff_of_false (by decide) (by decide)
  · have hnum : before.port ≠ "" := hnumber ▸ toString_ne_empty m
    rw [if_pos hnum, if_neg hnum, hnumber]
    exact iff_of_true rfl fun h80 => hm ((toString_inj h80).trans hdefault.symm)

end

/-! ### An agent -/

/-- A URL of the agent. -/
def agentUrl (protocol port : String) : BrowserUrl := ⟨protocol, "", "agent.example", port, "/", ""⟩

/-- What may come after the host. -/
def agentPort (protocol : String) : List Char → Option BrowserUrl
  | [] => some (agentUrl protocol "")
  | ':' :: digits =>
      if digits ≠ [] ∧ digits.all Char.isDigit = true ∧ Nat.ofDigitChars 10 digits 0 < 65536 then
        some (agentUrl protocol (portText protocol (Nat.ofDigitChars 10 digits 0)))
      else none
  | _ => none

/-- A parser that knows the host of the agent. -/
def agentParse (text : String) : Option BrowserUrl :=
  if "http://agent.example".toList.isPrefixOf text.toList then
    agentPort "http:" (text.toList.drop 20)
  else if "https://agent.example".toList.isPrefixOf text.toList then
    agentPort "https:" (text.toList.drop 21)
  else none

/-- Libraries that know it, too. -/
def agentLibraries : Libraries :=
  { sampleLibraries with
    parseURL := fun raw => (agentParse raw).map fun u =>
      ⟨if u.protocol = "https:" then "https" else "http", u.hostname, ""⟩ }

/-- What is known of a URL that is parsed. -/
structure IsAgent (protocol : String) (u : BrowserUrl) : Prop where
  url : u = agentUrl protocol u.port
  port : u.port = "" ∨ ∃ n < 65536, n ≠ defaultPort protocol ∧ u.port = toString n

/-- The scheme of the sample addresses. -/
theorem IsAgent.protocol {protocol : String} {u : BrowserUrl} (h : IsAgent protocol u) :
    u.protocol = protocol := congrArg BrowserUrl.protocol h.url

/-- The host of the sample addresses. -/
theorem IsAgent.hostname {protocol : String} {u : BrowserUrl} (h : IsAgent protocol u) :
    u.hostname = "agent.example" := congrArg BrowserUrl.hostname h.url

/-- What follows the sample host is plain, and read back as the agent's address. -/
theorem agentPort_cases {protocol : String} {rest : List Char} {u : BrowserUrl}
    (h : agentPort protocol rest = some u) :
    (∀ c ∈ rest, '!' ≤ c ∧ c ≤ '~') ∧ IsAgent protocol u := by
  rw [agentPort.eq_def] at h
  split at h
  · obtain rfl := Option.some.inj h
    exact ⟨nofun, rfl, Or.inl rfl⟩
  · rename_i digits
    obtain ⟨⟨-, hdigits, hlt⟩, hsome⟩ := Option.ite_none_right_eq_some.mp h
    obtain rfl := Option.some.inj hsome
    refine ⟨?_, rfl, ?_⟩
    · intro c hc
      rcases List.mem_cons.mp hc with rfl | hc
      · decide
      · exact plain_of_isDigit (List.all_eq_true.mp hdigits c hc)
    · by_cases hdefault : Nat.ofDigitChars 10 digits 0 = defaultPort protocol
      · exact Or.inl (if_pos hdefault)
      · exact Or.inr ⟨_, hlt, hdefault, if_neg hdefault⟩
  · cases h

/-- A text that begins with a scheme and the host. -/
theorem agent_front {front text : String} (hplain : IsPlain front) (hscheme : isHttp front = true)
    (h : front.toList.isPrefixOf text.toList = true)
    (hrest : ∀ c ∈ text.toList.drop front.toList.length, '!' ≤ c ∧ c ≤ '~') :
    IsPlain text ∧ isHttp text = true := by
  obtain ⟨rest, htext⟩ := List.isPrefixOf_iff_prefix.mp h
  rw [← htext, List.drop_left] at hrest
  refine ⟨fun c hc => ?_, ?_⟩
  · rw [← htext] at hc
    exact (List.mem_append.mp hc).elim (hplain c) (hrest c)
  · rw [isHttp, Bool.or_eq_true, List.isPrefixOf_iff_prefix, List.isPrefixOf_iff_prefix]
      at hscheme ⊢
    rw [← htext, List.map_append]
    exact hscheme.imp (·.trans (List.prefix_append _ _)) (·.trans (List.prefix_append _ _))

/-- A text the sample parser takes is plain, `http` or `https`, and the agent's address. -/
theorem agentParse_cases {text : String} {u : BrowserUrl} (h : agentParse text = some u) :
    IsPlain text ∧ isHttp text = true ∧ (IsAgent "http:" u ∨ IsAgent "https:" u) := by
  rw [agentParse] at h
  split_ifs at h with hfront hfront'
  · obtain ⟨hrest, hagent⟩ := agentPort_cases h
    obtain ⟨hplain, hscheme⟩ := agent_front (by decide) (by decide) hfront hrest
    exact ⟨hplain, hscheme, Or.inl hagent⟩
  · obtain ⟨hrest, hagent⟩ := agentPort_cases h
    obtain ⟨hplain, hscheme⟩ := agent_front (by decide) (by decide) hfront' hrest
    exact ⟨hplain, hscheme, Or.inr hagent⟩

/-- The host with a port. -/
theorem agentParse_port {n : ℕ} (hn : n < 65536) :
    agentParse ("http://" ++ "agent.example" ++ ":" ++ toString n) =
      some (agentUrl "http:" (portText "http:" n)) := by
  have htext : ("http://" ++ "agent.example" ++ ":" ++ toString n).toList =
      "http://agent.example".toList ++ ':' :: Nat.toDigits 10 n := by
    rw [String.toList_append, String.toList_append, Nat.toString_eq_repr, Nat.toList_repr,
      List.append_assoc]
    rfl
  have hdigits : (Nat.toDigits 10 n).all Char.isDigit = true :=
    List.all_eq_true.mpr fun c hc => Nat.isDigit_of_mem_toDigits (by decide) (by decide) hc
  have hfront : "http://agent.example".toList.isPrefixOf
      ("http://agent.example".toList ++ ':' :: Nat.toDigits 10 n) = true :=
    List.isPrefixOf_iff_prefix.mpr (List.prefix_append _ _)
  have hdrop : ("http://agent.example".toList ++ ':' :: Nat.toDigits 10 n).drop 20 =
      ':' :: Nat.toDigits 10 n := List.drop_left' (by decide)
  rw [agentParse, htext, if_pos hfront, hdrop, agentPort, Nat.ofDigitChars_ten_toDigits,
    if_pos ⟨Nat.toDigits_ne_nil, hdigits, hn⟩]

/-- Such a URL is accepted. -/
theorem agent_valid {text port : String} (hplain : IsPlain text)
    (h : agentParse text = some (agentUrl "http:" port)) :
    validateRemoteServerURL agentLibraries text = none := by
  have hempty : ¬ text = "" := by
    rintro rfl
    cases h
  have hurl : agentLibraries.parseURL text = some ⟨"http", "agent.example", ""⟩ := by
    change (agentParse text).map _ = _
    rw [h]
    rfl
  have hscheme : equalFold agentLibraries.fold "http" "http" = true := by decide
  have hhost : ¬ trimSpaceStr "agent.example" = "" := by decide
  simp only [validateRemoteServerURL, hplain.trimSpaceStr, if_neg hempty, hurl, hscheme,
    not_true, false_and, if_false, if_neg hhost]

/-- The parser of the agent is one. -/
def agentParser : UrlParser agentLibraries where
  parse := agentParse
  protocol _ h := (agentParse_cases h).2.2.imp IsAgent.protocol IsAgent.protocol
  hostname _ h := by
    have hhost := (agentParse_cases h).2.2.elim IsAgent.hostname IsAgent.hostname
    have hall : "agent.example".toList.all
        (fun c => decide ('!' ≤ c ∧ c ≤ '~' ∧ c ≠ '/')) = true := by decide
    rw [hhost]
    exact ⟨by decide, fun c hc => of_decide_eq_true (List.all_eq_true.mp hall c hc)⟩
  port _ h := by
    rcases (agentParse_cases h).2.2 with hagent | hagent
    · exact hagent.protocol ▸ hagent.port
    · exact hagent.protocol ▸ hagent.port
  host _ h := by
    have hhost := (agentParse_cases h).2.2.elim IsAgent.hostname IsAgent.hostname
    rw [hhost]
    exact ⟨by decide, fun n hn => agentParse_port hn⟩
  form := by
    rintro url ⟨htrim, hvalid⟩
    cases hparse : agentParse url with
    | some u =>
        obtain ⟨hplain, hscheme, -⟩ := agentParse_cases hparse
        rwa [hplain.trim]
    | none =>
        have hurl : agentLibraries.parseURL url = none := congrArg (Option.map _) hparse
        rw [validateRemoteServerURL, htrim, hurl] at hvalid
        split_ifs at hvalid
  accepted _ h := by
    have hhost := (agentParse_cases h).2.2.elim IsAgent.hostname IsAgent.hostname
    have hplain : IsPlain "http://agent.example" := by decide
    rw [hhost]
    refine ⟨@agent_valid _ "" hplain (by decide), fun n hn =>
      agent_valid ?_ (agentParse_port hn)⟩
    have hcolon : IsPlain ":" := by decide
    exact (hplain.append hcolon).append (isPlain_toString n)

end Contiwatch
