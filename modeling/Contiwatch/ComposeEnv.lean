import Contiwatch.EnvContent
import Contiwatch.Lib.GoMap

/-!
# The Environment of Docker Compose

Docker Compose runs with the environment of the program, without the secrets of the program and
without what the `.env` file of the stack or the overrides define (`mergeComposeEnv` in
`internal/server/stacks.go`). The keys of the file are read again from the text that
`sanitizeEnvContent` leaves.

## Main results

* `mem_fileKeys_sanitized` — the keys that are read again are those of the lines that are accepted.
* `mergeComposeEnv_eq` — what is left of the environment, and what is added to it.
-/

namespace Contiwatch

open GoText

/-! ### The code -/

/-- The keys that `mergeComposeEnv` reads from the cleaned file. -/
def fileKeys (cleaned : GoText) : List GoText :=
  (lines cleaned).filterMap fun line =>
    let trimmed := trimSpace line
    if trimmed = [] ∨ trimmed.head? = some (.char '#') then none
    else (cut (.char '=') trimmed).map fun parts => trimSpace parts.1

/-- The keys that the file at `envFile` blocks; `readFile` is `os.ReadFile`. -/
def blockedByFile (readFile : GoText → Option GoText) (envFile : GoText) : List GoText :=
  if trimSpace envFile = [] then []
  else
    match readFile envFile with
    | none => []
    | some content => fileKeys (sanitizeEnvContent content).1

/-- The secrets of the program. -/
def applicationSecrets : List GoText :=
  ["APP_PIN", "CONTIWATCH_APP_PIN", "CONTIWATCH_AGENT_TOKEN", "CONTIWATCH_GITHUB_TOKEN",
    "GITHUB_TOKEN"].map ofString

/-- `key=value`. -/
def envItem (key value : GoText) : GoText := key ++ .char '=' :: value

/-- `mergeComposeEnv`, where `environ` is `os.Environ()` and the overrides are visited in the given
order. -/
def mergeComposeEnv (environ : List GoText) (overrides : GoMap GoText GoText)
    (order : List GoText) (readFile : GoText → Option GoText) (envFile : GoText) : List GoText :=
  let blocked := blockedByFile readFile envFile ++ order
  let inherited := environ.filter fun item =>
    match cut (.char '=') item with
    | none => true
    | some (key, _) => key ∉ applicationSecrets && key ∉ blocked
  inherited ++ order.filterMap fun key => (overrides.lookup key).map (envItem key)

/-! ### The keys of the file -/

/-- A line of the file that `sanitizeEnvContent` accepts defines the key. -/
def DefinesKey (content key : GoText) : Prop :=
  ∃ line ∈ lines (replaceCRLF content), isBlankOrComment line = false ∧
    ∃ value, keepLine line = some (envItem key value) ∧ Rune.char '=' ∉ key

variable {content key line kept value : GoText}

/-- Trimming an entry touches its value only. -/
theorem trimSpace_envItem (hkey : isEnvKey key = true) :
    ∃ value', trimSpace (envItem key value) = envItem key value' := by
  have hall := isEnvKey_all hkey
  have hleft : (envItem key value).dropWhile isSpace = envItem key value := by
    cases key with
    | nil => cases hkey
    | cons a key =>
        refine List.dropWhile_cons_of_neg ?_
        simp [(of_isKeyRest (hall a (List.mem_cons_self ..))).1]
  have heq : isSpace (.char '=') = false := by decide
  rw [trimSpace, hleft, envItem, List.reverse_append, List.reverse_cons, List.append_assoc,
    List.dropWhile_append]
  split
  · refine ⟨[], ?_⟩
    rw [List.singleton_append, List.dropWhile_cons_of_neg (by simp [heq])]
    simp [envItem]
  · refine ⟨(value.reverse.dropWhile isSpace).reverse, ?_⟩
    simp [envItem]

/-- An entry is cut into its key and value. -/
theorem cut_envItem (h : Rune.char '=' ∉ key) : cut (.char '=') (envItem key value) =
    some (key, value) :=
  cut_eq_some.mpr ⟨rfl, h⟩

/-- No key has an equals sign. -/
theorem not_mem_of_isEnvKey (hkey : isEnvKey key = true) : Rune.char '=' ∉ key := fun hmem =>
  (of_isKeyRest (isEnvKey_all hkey _ hmem)).2.1 rfl

/-- What the second parser reads from a line. -/
def lineKey (line : GoText) : Option GoText :=
  if isBlankOrComment line then none
  else (cut (.char '=') (trimSpace line)).map fun parts => trimSpace parts.1

/-- The file's keys are those of its lines. -/
theorem fileKeys_eq (cleaned : GoText) : fileKeys cleaned = (lines cleaned).filterMap lineKey := by
  refine congrArg (List.filterMap · _) (funext fun line => ?_)
  simp only [lineKey, isBlankOrComment, Bool.or_eq_true, decide_eq_true_eq]

/-- The second parser reads the key of a line that was kept as a key and a value. -/
theorem lineKey_envItem (hkey : isEnvKey key = true) : lineKey (envItem key value) = some key := by
  obtain ⟨value', htrim⟩ : ∃ value', trimSpace (envItem key value) = envItem key value' :=
    trimSpace_envItem hkey
  have hall := isEnvKey_all hkey
  have hcomment : isBlankOrComment (envItem key value) = false := by
    rw [isBlankOrComment, htrim]
    cases key with
    | nil => cases hkey
    | cons a key =>
        have ha := (of_isKeyRest (hall a (List.mem_cons_self ..))).2.2.1
        simp [envItem, ha]
  have hname : trimSpace key = key :=
    trimSpace_of_not_space fun a ha => (of_isKeyRest (hall a ha)).1
  rw [lineKey, hcomment, htrim, cut_envItem (not_mem_of_isEnvKey hkey)]
  simp [hname]

/-- The second parser agrees with the first one on every line that is kept. -/
theorem lineKey_kept (h : keepLine line = some kept) :
    lineKey kept = some key ↔
      isBlankOrComment line = false ∧ ∃ value, kept = envItem key value ∧ Rune.char '=' ∉ key := by
  cases keepLine_eq_some.mp h with
  | asIs hblank => simp [lineKey, hblank]
  | @entry name value hline hnul hsplit hname hkey =>
      rw [← envItem, lineKey_envItem hkey, Option.some.injEq]
      constructor
      · rintro rfl
        exact ⟨hline, value, rfl, not_mem_of_isEnvKey hkey⟩
      · rintro ⟨-, value', heq, hmem⟩
        have hcut := @cut_envItem (trimSpace name) value (not_mem_of_isEnvKey hkey)
        rw [heq, cut_envItem hmem] at hcut
        exact (Prod.mk.inj (Option.some.inj hcut)).1.symm

/-- **The keys that are read again** are those of the lines that are accepted. -/
theorem mem_fileKeys_sanitized :
    key ∈ fileKeys (sanitizeEnvContent content).1 ↔ DefinesKey content key := by
  have hlines : fileKeys (unlines (keptLines content)) = (keptLines content).filterMap lineKey := by
    rw [fileKeys_eq]
    by_cases hne : keptLines content = []
    · rw [hne]
      rfl
    · rw [lines_unlines (nl_not_mem_keptLines content) hne]
  rw [sanitizeEnvContent_fst, hlines, List.mem_filterMap, DefinesKey, keptLines]
  constructor
  · rintro ⟨kept, hkept, hkey⟩
    obtain ⟨line, hline, hkeep⟩ := List.mem_filterMap.mp hkept
    obtain ⟨hcomment, value, rfl, hmem⟩ := (lineKey_kept hkeep).mp hkey
    exact ⟨line, hline, hcomment, value, hkeep, hmem⟩
  · rintro ⟨line, hline, hcomment, value, hkeep, hmem⟩
    exact ⟨_, List.mem_filterMap.mpr ⟨line, hline, hkeep⟩,
      (lineKey_kept hkeep).mpr ⟨hcomment, value, rfl, hmem⟩⟩

/-! ### The environment -/

/-- An entry of the environment for the key; an entry without `=` has no key. -/
def HasKey (item key : GoText) : Prop := ∃ value, item = envItem key value ∧ Rune.char '=' ∉ key

/-- The content of the `.env` file, if there is one that can be read. -/
def envFileContent (readFile : GoText → Option GoText) (envFile : GoText) : Option GoText :=
  if trimSpace envFile = [] then none else readFile envFile

/-- An entry for a secret of the program, for a key of the file or for one that is overridden. -/
def LeftOut (overrides : GoMap GoText GoText) (file : Option GoText) (item : GoText) : Prop :=
  ∃ key, HasKey item key ∧
    (key ∈ applicationSecrets ∨ (∃ content ∈ file, DefinesKey content key) ∨ key ∈ overrides)

variable {overrides : GoMap GoText GoText} {order environ : List GoText} {item envFile : GoText}
  {readFile : GoText → Option GoText}

/-- The file blocks the keys that it defines. -/
theorem mem_blockedByFile :
    key ∈ blockedByFile readFile envFile ↔
      ∃ content ∈ envFileContent readFile envFile, DefinesKey content key := by
  rw [blockedByFile, envFileContent]
  split
  · simp
  · rcases readFile envFile with _ | content
    · simp
    · simp [mem_fileKeys_sanitized]

/-- The entries that the program leaves out. -/
theorem inherits_iff (horder : overrides.IsRange order) :
    (match cut (.char '=') item with
      | none => true
      | some (key, _) => key ∉ applicationSecrets &&
          key ∉ blockedByFile readFile envFile ++ order : Bool) = true ↔
      ¬ LeftOut overrides (envFileContent readFile envFile) item := by
  rcases hcut : cut (.char '=') item with _ | ⟨key, value⟩
  · refine iff_of_true rfl ?_
    rintro ⟨key, ⟨value, rfl, hkey⟩, -⟩
    rw [cut_envItem hkey] at hcut
    cases hcut
  · obtain ⟨hitem, hkey⟩ := cut_eq_some.mp hcut
    have hunique : ∀ key', HasKey item key' ↔ key' = key := by
      intro key'
      constructor
      · rintro ⟨value', rfl, hkey'⟩
        rw [cut_envItem hkey'] at hcut
        exact (Prod.mk.inj (Option.some.inj hcut)).1
      · rintro rfl
        exact ⟨value, hitem, hkey⟩
    simp only [LeftOut, hunique, exists_eq_left, List.mem_append, mem_blockedByFile,
      horder.2 key, Bool.and_eq_true, decide_eq_true_eq, not_or]

open Classical in
/-- **The environment of Docker Compose.** It is the environment of the program in its order,
without the entries that are left out, and each override once. No inherited entry has a key that
the file defines, and every other entry is still there. -/
theorem mergeComposeEnv_eq (environ : List GoText) (overrides : GoMap GoText GoText)
    (order : List GoText) (readFile : GoText → Option GoText) (envFile : GoText)
    (horder : overrides.IsRange order) :
    ∃ (inherited : List GoText) (added : List (GoText × GoText)),
      mergeComposeEnv environ overrides order readFile envFile =
        inherited ++ added.map (fun p => envItem p.1 p.2) ∧
      inherited = environ.filter
        (fun item => ¬ LeftOut overrides (envFileContent readFile envFile) item) ∧
      (added.map Prod.fst).Nodup ∧
      (∀ key value, (key, value) ∈ added ↔ overrides.lookup key = some value) ∧
      (∀ content ∈ envFileContent readFile envFile, ∀ key, DefinesKey content key →
        ∀ item ∈ inherited, ¬ HasKey item key) ∧
      ∀ item ∈ environ, ¬ LeftOut overrides (envFileContent readFile envFile) item →
        item ∈ inherited := by
  have hvalue : ∀ key ∈ order, ∃ value, overrides.lookup key = some value := fun key hkey =>
    Finmap.mem_iff.mp ((horder.2 key).mp hkey)
  have hadded : (order.filterMap fun key => (overrides.lookup key).map (envItem key)) =
      (order.map fun key => (key, (overrides.lookup key).getD [])).map
        fun p => envItem p.1 p.2 := by
    rw [List.map_map, ← List.filterMap_eq_map]
    refine List.filterMap_congr fun key hkey => ?_
    obtain ⟨value, hlookup⟩ := hvalue key hkey
    simp [hlookup]
  refine ⟨_, order.map fun key => (key, (overrides.lookup key).getD []), ?_, rfl, ?_, ?_, ?_, ?_⟩
  · rw [mergeComposeEnv, hadded]
    refine congrArg (· ++ _) (List.filter_congr fun item _ => ?_)
    rw [Bool.eq_iff_iff, decide_eq_true_eq]
    exact inherits_iff horder
  · rw [List.map_map]
    exact (List.map_id' order).symm ▸ horder.1
  · intro key value
    rw [List.mem_map]
    constructor
    · rintro ⟨key', hkey', heq⟩
      obtain ⟨rfl, rfl⟩ := Prod.mk.inj heq
      obtain ⟨value, hlookup⟩ := hvalue key' hkey'
      rw [hlookup, Option.getD_some]
    · intro hlookup
      exact ⟨key, (horder.2 key).mpr (Finmap.mem_of_lookup_eq_some hlookup), by rw [hlookup]; rfl⟩
  · intro content hcontent key hdefines item hitem hkey
    have hleft := of_decide_eq_true (List.mem_filter.mp hitem).2
    exact hleft ⟨key, hkey, .inr (.inl ⟨content, hcontent, hdefines⟩)⟩
  · exact fun item hitem hleft => List.mem_filter.mpr ⟨hitem, decide_eq_true hleft⟩

/-- An environment with a secret, an entry without `=` and a variable that the file defines. -/
def composeEnviron : List GoText :=
  ["APP_PIN=1234", "odd", "POSTGRES_DB=other", "A=b=c"].map ofString

/-- The override for a socket of its own. -/
def dockerHost : GoMap GoText GoText :=
  Finmap.singleton (ofString "DOCKER_HOST") (ofString "unix:///custom.sock")

/-- The file defines one variable. -/
def stackEnvFile (_ : GoText) : Option GoText := some (ofString " POSTGRES_DB =stack\n")

/-- Two entries are left, and one is added. -/
theorem mergeComposeEnv_docker :
    ∃ (inherited : List GoText) (added : List (GoText × GoText)),
      inherited ++ added.map (fun p => envItem p.1 p.2) =
        ["odd", "A=b=c", "DOCKER_HOST=unix:///custom.sock"].map ofString ∧
      (added.map Prod.fst).Nodup := by
  have hmerge : mergeComposeEnv composeEnviron dockerHost [ofString "DOCKER_HOST"] stackEnvFile
      (ofString ".env") = ["odd", "A=b=c", "DOCKER_HOST=unix:///custom.sock"].map ofString := by
    decide +kernel
  obtain ⟨inherited, added, heq, -, hnodup, -⟩ := mergeComposeEnv_eq composeEnviron dockerHost
    [ofString "DOCKER_HOST"] stackEnvFile (ofString ".env") ⟨by simp, by simp [dockerHost]⟩
  exact ⟨inherited, added, heq ▸ hmerge, hnodup⟩

end Contiwatch
