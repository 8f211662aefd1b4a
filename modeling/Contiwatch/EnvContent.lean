import Contiwatch.Lib.GoText

/-!
# Environment Files of Stacks

`sanitizeEnvContent` of `internal/server/stacks.go` cleans the `.env` file of a stack. A stack that
runs on the own host is given the file cleaned once; for an agent the controller sends the file as
JSON, and the agent cleans it when it reads the request and again when it writes the file.

## Main results

* `sanitizeEnvContent_again` — what a second pass makes of the output of the first.
* `env_same_iff` — sanitizing is idempotent, and an agent gets the file that the own host gets,
  exactly if no line but the last ends in `\r` and there are no invalid bytes, of the lines that
  are kept.
* `env_can_differ` — a line that ends in `\r\r\n`.
-/

namespace Contiwatch

open GoText

/-! ### Lines -/

/-- A character that `envKeyPattern` takes for the first one of a key. -/
def isKeyStart : Rune → Bool
  | .char c => c.isAlpha || c = '_'
  | .byte _ => false

/-- A character that `envKeyPattern` takes for a further one. -/
def isKeyRest : Rune → Bool
  | .char c => c.isAlpha || c.isDigit || c = '_'
  | .byte _ => false

/-- `envKeyPattern.MatchString`. -/
def isEnvKey : GoText → Bool
  | [] => false
  | a :: rest => isKeyStart a && rest.all isKeyRest

/-- A blank line or a comment, of which `sanitizeEnvContent` takes no notice. -/
def isBlankOrComment (line : GoText) : Bool :=
  trimSpace line = [] || (trimSpace line).head? = some (.char '#')

/-- What the loop of `sanitizeEnvContent` does with a line: keep it, possibly changed, or report
it. -/
def envLine (idx : ℕ) (raw : GoText) : Except GoText GoText :=
  if isBlankOrComment raw then .ok raw
  else if Rune.char '\x00' ∈ raw then .error (ofString ("line " ++ toString (idx + 1)))
  else
    match cut (.char '=') raw with
    | none => .error (ofString ("line " ++ toString (idx + 1)))
    | some (name, value) =>
        let key := trimSpace name
        if ¬ isEnvKey key then
          .error (ofString ("line " ++ toString (idx + 1) ++ " (") ++ key ++ ofString ")")
        else .ok (key ++ .char '=' :: value)

/-- The loop of `sanitizeEnvContent`. -/
def sanitizeLines : ℕ → List GoText → List GoText × List GoText
  | _, [] => ([], [])
  | idx, line :: rest =>
      let (cleaned, invalid) := sanitizeLines (idx + 1) rest
      match envLine idx line with
      | .ok kept => (kept :: cleaned, invalid)
      | .error message => (cleaned, message :: invalid)

/-- `sanitizeEnvContent`. -/
def sanitizeEnvContent (content : GoText) : GoText × List GoText :=
  let (cleaned, invalid) := sanitizeLines 0 (lines (replaceCRLF content))
  (unlines cleaned, invalid)

/-- What is kept of a line. -/
def keepLine (line : GoText) : Option GoText := (envLine 0 line).toOption

/-- The lines that `sanitizeEnvContent` keeps, as it keeps them. -/
def keptLines (content : GoText) : List GoText := (lines (replaceCRLF content)).filterMap keepLine

/-! ### What is kept -/

/-- `keepLine` is `envLine` without its message. -/
theorem toOption_envLine (idx : ℕ) (line : GoText) :
    (envLine idx line).toOption = keepLine line := by
  -- the two messages differ, and `rfl` would compare them first
  have hnone : ∀ message : GoText, (Except.error message : Except GoText GoText).toOption = none :=
    fun _ => rfl
  simp only [keepLine, envLine]
  split
  · rfl
  split
  · rw [hnone, hnone]
  rcases cut (.char '=') line with _ | ⟨name, value⟩
  · rw [hnone, hnone]
  · simp only []
    split
    · rw [hnone, hnone]
    · rfl

/-- The lines kept do not depend on where the counting starts. -/
theorem sanitizeLines_fst (idx : ℕ) (ls : List GoText) :
    (sanitizeLines idx ls).1 = ls.filterMap keepLine := by
  induction ls generalizing idx with
  | nil => rfl
  | cons l ls ih =>
      rw [sanitizeLines, List.filterMap_cons, ← toOption_envLine idx l, ← ih (idx + 1)]
      rcases envLine idx l with message | kept <;> rfl

/-- Nothing is reported when every line is kept as it is. -/
theorem sanitizeLines_of_kept (idx : ℕ) {ls : List GoText}
    (h : ∀ l ∈ ls, keepLine l = some l) : sanitizeLines idx ls = (ls, []) := by
  induction ls generalizing idx with
  | nil => rfl
  | cons l ls ih =>
      have hl := h l (List.mem_cons_self ..)
      rw [← toOption_envLine idx l] at hl
      rw [sanitizeLines, ih (idx + 1) fun l hl => h l (List.mem_cons_of_mem _ hl)]
      rcases hline : envLine idx l with message | kept <;> rw [hline] at hl
      · cases hl
      · rw [Option.some.inj hl]

/-- The content that is saved is the kept lines. -/
theorem sanitizeEnvContent_fst (content : GoText) :
    (sanitizeEnvContent content).1 = unlines (keptLines content) := by
  rw [sanitizeEnvContent, keptLines, ← sanitizeLines_fst 0]

/-- Nothing, or a `#`, after the leading white space. -/
theorem isBlankOrComment_iff {line : GoText} :
    isBlankOrComment line = true ↔ (line.dropWhile isSpace).head? = none ∨
      (line.dropWhile isSpace).head? = some (.char '#') := by
  rw [isBlankOrComment, head?_trimSpace, Bool.or_eq_true, decide_eq_true_eq, decide_eq_true_eq,
    trimSpace_eq_nil]

/-- A cut is at the first separator. -/
theorem cut_eq_some {sep : Rune} {t name value : GoText} :
    cut sep t = some (name, value) ↔ t = name ++ sep :: value ∧ sep ∉ name := by
  induction t generalizing name with
  | nil => simp [cut]
  | cons a t ih =>
      by_cases ha : a = sep
      · subst ha
        rw [cut, if_pos rfl, Option.some.injEq, Prod.mk.injEq]
        constructor
        · rintro ⟨rfl, rfl⟩
          exact ⟨rfl, List.not_mem_nil⟩
        · rintro ⟨heq, hname⟩
          cases name with
          | nil => exact ⟨rfl, (List.cons.inj heq).2⟩
          | cons b name => exact absurd ((List.cons.inj heq).1 ▸ List.mem_cons_self ..) hname
      · rw [cut, if_neg ha, Option.map_eq_some_iff]
        constructor
        · rintro ⟨⟨name', value'⟩, hcut, heq⟩
          obtain ⟨rfl, rfl⟩ := Prod.mk.inj heq
          obtain ⟨rfl, hname⟩ := ih.mp hcut
          exact ⟨rfl, fun hmem => (List.mem_cons.mp hmem).elim (fun h => ha h.symm) hname⟩
        · rintro ⟨heq, hname⟩
          cases name with
          | nil => exact absurd (List.cons.inj heq).1 ha
          | cons b name =>
              obtain ⟨rfl, rfl⟩ := List.cons.inj heq
              exact ⟨(name, value), ih.mpr ⟨rfl, List.not_mem_of_not_mem_cons hname⟩, rfl⟩

/-- A line is kept as it is, if it is blank or a comment, or as a key and a value. -/
inductive KeptAs (line : GoText) : GoText → Prop
  | asIs (h : isBlankOrComment line = true) : KeptAs line line
  | entry {name value : GoText} (h : isBlankOrComment line = false)
      (hnul : Rune.char '\x00' ∉ line) (hline : line = name ++ .char '=' :: value)
      (hname : Rune.char '=' ∉ name) (hkey : isEnvKey (trimSpace name) = true) :
      KeptAs line (trimSpace name ++ .char '=' :: value)

/-- The two ways a line is kept are all there are. -/
theorem keepLine_eq_some {line kept : GoText} : keepLine line = some kept ↔ KeptAs line kept := by
  constructor
  · intro h
    rw [keepLine, envLine] at h
    split at h
    · obtain rfl := Option.some.inj h
      exact .asIs ‹_›
    split at h
    · cases h
    rcases hcut : cut (.char '=') line with _ | ⟨name, value⟩ <;> rw [hcut] at h
    · cases h
    simp only [] at h
    split at h
    · cases h
    · obtain rfl := Option.some.inj h
      obtain ⟨hline, hname⟩ := cut_eq_some.mp hcut
      refine .entry (by simpa using ‹¬ isBlankOrComment line = true›) ‹_› hline hname ?_
      simpa using ‹¬ ¬ isEnvKey (trimSpace name) = true›
  · rintro (h | ⟨h, hnul, hline, hname, hkey⟩)
    · rw [keepLine, envLine, if_pos h]
      rfl
    · rw [keepLine, envLine, if_neg (by simp [h]), if_neg hnul, cut_eq_some.mpr ⟨hline, hname⟩]
      simp only [hkey, not_true_eq_false, if_false]
      rfl

/-! ### A second pass -/

/-- A character of a key is neither a blank nor one of the characters that have a meaning. -/
theorem of_isKeyRest {a : Rune} (h : isKeyRest a = true) :
    isSpace a = false ∧ a ≠ .char '=' ∧ a ≠ .char '#' ∧ a ≠ .char '\x00' ∧ a ≠ nl := by
  cases a with
  | byte b => cases h
  | char c =>
      have hlt : c.toNat < 128 := by
        simp only [isKeyRest, Bool.or_eq_true, decide_eq_true_eq] at h
        rcases h with (h | h) | rfl
        · exact GoStrings.toNat_lt_of_isAlpha h
        · exact GoStrings.toNat_lt_of_isDigit h
        · decide
      have hspace : isSpace (.char c) = false :=
        GoStrings.ascii_forall
          (p := fun c => isKeyRest (.char c) = true → isSpace (.char c) = false)
          (by decide) hlt h
      refine ⟨hspace, ?_, ?_, ?_, ?_⟩
      all_goals exact fun heq => absurd (heq ▸ h) (by decide)

/-- Every character of a key is one a key may go on with. -/
theorem isEnvKey_all {key : GoText} (h : isEnvKey key = true) : ∀ a ∈ key, isKeyRest a = true := by
  cases key with
  | nil => cases h
  | cons a key =>
      rw [isEnvKey, Bool.and_eq_true, List.all_eq_true] at h
      refine List.forall_mem_cons.mpr ⟨?_, h.2⟩
      cases a with
      | byte b => exact absurd h.1 Bool.false_ne_true
      | char c =>
          have hc := h.1
          simp only [isKeyStart, Bool.or_eq_true] at hc
          simp only [isKeyRest, Bool.or_eq_true]
          exact hc.imp_left .inl

/-- A key with a value is kept as it is. -/
theorem keepLine_entry {key value : GoText} (hkey : isEnvKey key = true)
    (hnul : Rune.char '\x00' ∉ value) :
    keepLine (key ++ .char '=' :: value) = some (key ++ .char '=' :: value) := by
  have hall : ∀ a ∈ key, isKeyRest a = true := isEnvKey_all hkey
  have htrim : trimSpace key = key :=
    trimSpace_of_not_space fun a ha => (of_isKeyRest (hall a ha)).1
  have hentry : KeptAs (key ++ .char '=' :: value) (trimSpace key ++ .char '=' :: value) := by
    refine .entry ?_ ?_ rfl (fun hmem => (of_isKeyRest (hall _ hmem)).2.1 rfl) (htrim.symm ▸ hkey)
    · cases key with
      | nil => cases hkey
      | cons a key =>
          obtain ⟨hspace, -, hcomment, -⟩ := of_isKeyRest (hall a (List.mem_cons_self ..))
          rw [Bool.eq_false_iff, Ne, isBlankOrComment_iff, List.cons_append,
            List.dropWhile_cons_of_neg (by simp [hspace])]
          rintro (h | h)
          · cases h
          · exact hcomment (Option.some.inj h)
    · rw [List.mem_append, List.mem_cons]
      rintro (hmem | hmem | hmem)
      · exact (of_isKeyRest (hall _ hmem)).2.2.2.1 rfl
      · exact absurd hmem (by decide)
      · exact hnul hmem
  rw [htrim] at hentry
  exact keepLine_eq_some.mpr hentry

/-- The `\r` at the end of a line does not matter to what comes first after the blanks. -/
theorem isBlankOrComment_dropCR (line : GoText) :
    isBlankOrComment (dropCR line) = isBlankOrComment line := by
  rw [Bool.eq_iff_iff, isBlankOrComment_iff, isBlankOrComment_iff]
  suffices h : ((dropCR line).dropWhile isSpace).head? = (line.dropWhile isSpace).head? by rw [h]
  rw [dropCR]
  split
  · rename_i hlast
    obtain ⟨start, rfl⟩ := List.getLast?_eq_some_iff.mp hlast
    have hcr : [cr].dropWhile isSpace = [] := by decide
    rw [List.dropLast_concat, List.dropWhile_append, hcr]
    rcases start.dropWhile isSpace with _ | ⟨a, rest⟩ <;> rfl
  · rfl

/-- What is kept of a line is kept as it is by a second pass, also without a `\r` at its end. -/
theorem KeptAs.again {line kept : GoText} (h : KeptAs line kept) :
    keepLine kept = some kept ∧ keepLine (dropCR kept) = some (dropCR kept) := by
  cases h with
  | asIs h =>
      refine ⟨keepLine_eq_some.mpr (.asIs h), keepLine_eq_some.mpr (.asIs ?_)⟩
      rwa [isBlankOrComment_dropCR]
  | @entry name value h hnul hline hname hkey =>
      have hvalue : Rune.char '\x00' ∉ value := by
        intro hmem
        rw [hline, List.mem_append, List.mem_cons] at hnul
        exact hnul (.inr (.inr hmem))
      refine ⟨keepLine_entry hkey hvalue, ?_⟩
      rw [dropCR_append_cons (by decide)]
      exact keepLine_entry hkey fun hmem => hvalue (mem_of_mem_dropCR hmem)

/-- No kept line has a line break. -/
theorem nl_not_mem_keptLines (content : GoText) : ∀ l ∈ keptLines content, nl ∉ l := by
  intro l hl
  obtain ⟨line, hline, hkept⟩ := List.mem_filterMap.mp hl
  have hnl := nl_not_mem_of_mem_lines hline
  cases keepLine_eq_some.mp hkept with
  | asIs h => exact hnl
  | @entry name value h hnul hsplit hname hkey =>
      rw [hsplit, List.mem_append, List.mem_cons] at hnl
      rw [List.mem_append, List.mem_cons]
      exact fun hmem => hnl (hmem.imp_left mem_of_mem_trimSpace)

/-- **A second pass.** It takes the `\r` from the end of every line but the last, and reports
nothing. -/
theorem sanitizeEnvContent_again (content : GoText) :
    sanitizeEnvContent (sanitizeEnvContent content).1 =
      (unlines (dropCRs (keptLines content)), []) := by
  rw [sanitizeEnvContent_fst]
  have hkept : ∀ l ∈ keptLines content, keepLine l = some l ∧
      keepLine (dropCR l) = some (dropCR l) := by
    intro l hl
    obtain ⟨line, -, hline⟩ := List.mem_filterMap.mp hl
    exact (keepLine_eq_some.mp hline).again
  have hnl := nl_not_mem_keptLines content
  rcases hlines : keptLines content with _ | ⟨l, rest⟩
  · rfl
  · have hne : keptLines content ≠ [] := hlines ▸ List.cons_ne_nil l rest
    rw [← hlines, sanitizeEnvContent, replaceCRLF_unlines hnl,
      lines_unlines (nl_not_mem_dropCRs hnl) (dropCRs_ne_nil hne),
      sanitizeLines_of_kept 0 (forall_mem_dropCRs hkept)]

/-! ### The file for Docker Compose -/

/-- `prepareEnvFileFromDisk`, for a stack with the given `.env` file, if it has one: the file that
Docker Compose gets on the own host, and the lines that are reported. -/
def prepareEnvFileFromDisk : Option GoText → Option GoText × List GoText
  | none => (none, [])
  | some data =>
      let (cleaned, invalid) := sanitizeEnvContent data
      (some cleaned, invalid)

/-- The fields of `stackActionRequest` that are about the `.env` file. -/
structure EnvPayload where
  env : GoText
  useEnv : Bool
  deriving DecidableEq

/-- `buildRemoteStackActionRequest` takes the file as `loadStackDetail` reads it. -/
def buildRemoteEnv (file : Option GoText) : EnvPayload :=
  { env := file.getD [], useEnv := file.isSome }

/-- The request after it was encoded as JSON and decoded again. -/
def sendEnv (payload : EnvPayload) : EnvPayload := { payload with env := toValid payload.env }

/-- `decodeStackActionRequest` of an agent. -/
def decodeEnv (payload : EnvPayload) : EnvPayload :=
  { payload with env := (sanitizeEnvContent payload.env).1 }

/-- The file that `runComposeFromPayload` writes for Docker Compose. -/
def envFileFromPayload (payload : EnvPayload) : Option GoText :=
  if payload.useEnv then some (sanitizeEnvContent payload.env).1 else none

/-- The file that Docker Compose gets on an agent. -/
def agentEnvFile (file : Option GoText) : Option GoText :=
  envFileFromPayload (decodeEnv (sendEnv (buildRemoteEnv file)))

/-- `sanitizeEnvContent` keeps the line. -/
def isKept (line : GoText) : Bool :=
  isBlankOrComment line ||
    (decide (Rune.char '\x00' ∉ line) &&
      (cut (.char '=') line).any fun p => isEnvKey (trimSpace p.1))

/-- `keepLine`, branch by branch. -/
theorem keepLine_eq (line : GoText) : keepLine line =
    if isBlankOrComment line then some line
    else if Rune.char '\x00' ∈ line then none
    else (cut (.char '=') line).bind fun p =>
      if isEnvKey (trimSpace p.1) then some (trimSpace p.1 ++ .char '=' :: p.2) else none := by
  rw [keepLine, envLine]
  split
  · rfl
  split
  · rfl
  rcases cut (.char '=') line with _ | ⟨name, value⟩
  · rfl
  · simp only [Option.bind_some]
    by_cases hkey : isEnvKey (trimSpace name) = true
    · simp only [hkey, not_true_eq_false, if_false, if_true]
      rfl
    · simp only [hkey]
      rfl

/-- `isKept` says which lines are kept. -/
theorem isSome_keepLine (line : GoText) : (keepLine line).isSome = isKept line := by
  rw [keepLine_eq, isKept]
  split
  · simp [*]
  split
  · simp [*]
  rcases cut (.char '=') line with _ | ⟨name, value⟩
  · simp [*]
  · by_cases hkey : isEnvKey (trimSpace name) = true <;> simp [*]

/-- Making a rune valid does not change what it is to a key. -/
theorem isKey_validRune (a : Rune) :
    isKeyStart (validRune a) = isKeyStart a ∧ isKeyRest (validRune a) = isKeyRest a := by
  cases a with
  | char c => exact ⟨rfl, rfl⟩
  | byte b => exact ⟨rfl, rfl⟩

/-- Nor a text. -/
theorem isEnvKey_toValid (key : GoText) : isEnvKey (toValid key) = isEnvKey key := by
  cases key with
  | nil => rfl
  | cons a key =>
      have hrest : isKeyRest ∘ validRune = isKeyRest := funext fun a => (isKey_validRune a).2
      rw [toValid, List.map_cons, isEnvKey, isEnvKey, (isKey_validRune a).1, List.all_map, hrest]

/-- Nor does it change what is blank or a comment. -/
theorem isBlankOrComment_toValid (line : GoText) :
    isBlankOrComment (toValid line) = isBlankOrComment line := by
  rw [isBlankOrComment, isBlankOrComment, trimSpace_toValid, head?_toValid]
  rcases trimSpace line with _ | ⟨a, rest⟩
  · rfl
  · simp [toValid, validRune_eq_char]

/-- A line that was sent as JSON is kept like the line itself. -/
theorem keepLine_toValid (line : GoText) :
    keepLine (toValid line) = (keepLine line).map toValid := by
  rw [keepLine_eq, keepLine_eq, isBlankOrComment_toValid, cut_toValid (by decide)]
  simp only [mem_toValid (by decide : '\x00' ≠ '\uFFFD')]
  split
  · rfl
  split
  · rfl
  rcases cut (.char '=') line with _ | ⟨name, value⟩
  · rfl
  · simp only [Option.map_some, Option.bind_some, trimSpace_toValid, isEnvKey_toValid]
    split
    · simp [toValid, validRune]
    · rfl

/-- The kept lines of the valid text are the valid kept lines. -/
theorem keptLines_toValid (content : GoText) :
    keptLines (toValid content) = (keptLines content).map toValid := by
  rw [keptLines, keptLines, replaceCRLF_toValid, lines_toValid, List.filterMap_map,
    List.map_filterMap]
  exact congrArg (List.filterMap · _) (funext keepLine_toValid)

/-- **The file on an agent.** -/
theorem agentEnvFile_some (content : GoText) :
    agentEnvFile (some content) = some (toValid (unlines (dropCRs (keptLines content)))) := by
  simp only [agentEnvFile, buildRemoteEnv, sendEnv, decodeEnv, envFileFromPayload, Option.getD_some,
    Option.isSome_some, if_true, sanitizeEnvContent_again, keptLines_toValid, dropCRs_map_toValid,
    toValid_unlines]

/-- What is kept of a line ends as the line ends, and has the invalid bytes of the line. -/
theorem KeptAs.ends {line kept : GoText} (h : KeptAs line kept) :
    (kept.getLast? = some cr ↔ line.getLast? = some cr) ∧
      ∀ b, Rune.byte b ∈ kept ↔ Rune.byte b ∈ line := by
  cases h with
  | asIs h => exact ⟨Iff.rfl, fun b => Iff.rfl⟩
  | @entry name value h hnul hline hname hkey =>
      have hlast : ∀ t : GoText, (t ++ .char '=' :: value).getLast? =
          some (value.getLast?.getD (.char '=')) := by
        intro t
        rw [List.getLast?_append, List.getLast?_cons, Option.some_or]
      have hbyte : ∀ b, Rune.byte b ∉ name := by
        intro b hmem
        have htrim := isEnvKey_all hkey _ (mem_trimSpace_of_not_space hmem rfl)
        exact absurd htrim Bool.false_ne_true
      refine ⟨by rw [hline, hlast, hlast], fun b => ?_⟩
      rw [hline, List.mem_append, List.mem_append]
      exact or_congr_left (iff_of_false (fun hmem => hbyte b (mem_of_mem_trimSpace hmem)) (hbyte b))

/-- After every `\r\n` is taken for a line break, no line that is kept and is followed by another
that is kept ends in `\r`, and no line that is kept has an invalid byte. -/
def CleanLines (content : GoText) : Prop :=
  (lines (replaceCRLF content)).Pairwise
      (fun l l' => isKept l = true → isKept l' = true → l.getLast? ≠ some cr) ∧
    ∀ l ∈ lines (replaceCRLF content), isKept l = true → ∀ b, Rune.byte b ∉ l

/-- In the kept lines themselves: none loses a `\r`, none changes when made valid. -/
theorem cleanLines_iff (content : GoText) :
    CleanLines content ↔ dropCRs (keptLines content) = keptLines content ∧
      (keptLines content).map toValid = keptLines content := by
  have hkept : ∀ l, isKept l = true ↔ ∃ kept, keepLine l = some kept := by
    intro l
    rw [← isSome_keepLine, Option.isSome_iff_exists]
  have hvalid : (keptLines content).map toValid = keptLines content ↔
      ∀ kept ∈ keptLines content, toValid kept = kept := by
    simpa using List.map_inj_left (l := keptLines content) (f := toValid) (g := id)
  rw [CleanLines, dropCRs_eq_iff, hvalid, keptLines, List.pairwise_filterMap]
  refine and_congr (List.Pairwise.iff fun {l l'} => ?_) ?_
  · simp only [hkept]
    constructor
    · rintro h kept hl kept' hl' hcr
      exact h ⟨kept, hl⟩ ⟨kept', hl'⟩ ((keepLine_eq_some.mp hl).ends.1.mp hcr)
    · rintro h ⟨kept, hl⟩ ⟨kept', hl'⟩ hcr
      exact h kept hl kept' hl' ((keepLine_eq_some.mp hl).ends.1.mpr hcr)
  · simp only [List.mem_filterMap, hkept, toValid_eq_iff]
    constructor
    · rintro h kept ⟨l, hl, hkeep⟩ b hmem
      exact h l hl ⟨kept, hkeep⟩ b (((keepLine_eq_some.mp hkeep).ends.2 b).mp hmem)
    · rintro h l hl ⟨kept, hkeep⟩ b hmem
      exact h kept ⟨l, hl, hkeep⟩ b (((keepLine_eq_some.mp hkeep).ends.2 b).mpr hmem)

/-- **One file for both.** A second pass changes nothing and reports nothing, and an agent gets
the file that the own host gets, exactly if the lines are clean. -/
theorem env_same_iff (content : GoText) :
    (sanitizeEnvContent (sanitizeEnvContent content).1 = ((sanitizeEnvContent content).1, []) ∧
      agentEnvFile (some content) = (prepareEnvFileFromDisk (some content)).1) ↔
      CleanLines content := by
  rw [cleanLines_iff, sanitizeEnvContent_again, agentEnvFile_some]
  simp only [prepareEnvFileFromDisk, sanitizeEnvContent_fst, Prod.mk.injEq, and_true,
    Option.some.injEq]
  have hnl := nl_not_mem_keptLines content
  by_cases hne : keptLines content = []
  · rw [hne]
    exact iff_of_true ⟨rfl, rfl⟩ ⟨rfl, rfl⟩
  · rw [unlines_dropCRs_iff hnl hne, toValid_unlines_dropCRs_iff hnl hne]
    exact and_iff_right_of_imp And.left

/-- The content of a file, as written by an editor that ends a line with `\r\r\n`. -/
def doubleCR : GoText := ofString "A=1\r\r\nB=2\r\n"

/-- **The files can differ.** The first pass leaves a `\r` at the end of the first line, which the
second pass takes for a part of the line break; Docker Compose gets the value `1\r` on the own host
and `1` on an agent. -/
theorem env_can_differ :
    sanitizeEnvContent doubleCR = (ofString "A=1\r\nB=2\n", []) ∧
      sanitizeEnvContent (sanitizeEnvContent doubleCR).1 = (ofString "A=1\nB=2\n", []) ∧
      (prepareEnvFileFromDisk (some doubleCR)).1 = some (ofString "A=1\r\nB=2\n") ∧
      agentEnvFile (some doubleCR) = some (ofString "A=1\nB=2\n") ∧
      ¬ ∀ content,
        sanitizeEnvContent (sanitizeEnvContent content).1 =
          ((sanitizeEnvContent content).1, []) := by
  refine ⟨by decide, by decide, by decide, by decide, fun h => ?_⟩
  exact absurd (h doubleCR) (by decide)

end Contiwatch
