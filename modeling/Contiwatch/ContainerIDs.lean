import Contiwatch.Lib.Regexp
import Contiwatch.SelfUpdate
import Mathlib.Data.List.Basic

/-!
# Container IDs in the Runtime Metadata

`containerIDsFromRuntimeMetadata` of `internal/dockerwatcher/watcher.go` looks for the IDs of the
own container in `/proc/self/mountinfo` and `/proc/self/cgroup`. An ID is a run of 64 hexadecimal
characters. The expression takes the character after an ID as well, so that it is missing in front
of an ID that begins right after it.

## Main results

* `mem_hexRuns_iff` — the parts of a line are its maximal runs.
* `findAll_containerIDPattern` — what the expression finds in a line.
* `containerIDs_iff` — when the IDs that are found are those of all runs, in their order.
* `neighbour_hidden` — of two IDs with one character between them the second one is not found.
-/

namespace Contiwatch

open GoStrings Regexp

/-! ### The expression -/

/-- `[a-f0-9]`, in both cases. -/
def isHex (c : Char) : Bool :=
  ('0' ≤ c && c ≤ '9') || ('a' ≤ c && c ≤ 'f') || ('A' ≤ c && c ≤ 'F')

/-- `containerIDPattern`. -/
def containerIDPattern : Regexp.Expr :=
  .seq (.alt .start (.char fun c => !isHex c))
    (.seq (.group (.times 64 (.char isHex))) (.alt (.char fun c => !isHex c) .stop))

/-- `appendMatches`; `seen` has the IDs of `result`. -/
def appendMatches (result : List String) (value : List Char) : List String :=
  (findAll containerIDPattern value).foldl (fun result groups =>
    let id := toLower Char.toLower (String.ofList (groups.headD []))
    if id ∈ result then result else result ++ [id]) result

/-- The line is about one of the files that Docker mounts. -/
def isMountLine (line : List Char) : Bool :=
  let line := String.ofList line
  contains line " /etc/hostname " || contains line " /etc/hosts " ||
    contains line " /etc/resolv.conf "

/-- The lines that are looked through. -/
def metadataLines (mountInfo cgroup : String) : List (List Char) :=
  (split '\n' mountInfo.toList).filter isMountLine ++ split '\n' cgroup.toList

/-- `containerIDsFromRuntimeMetadata`. -/
def containerIDsFromRuntimeMetadata (mountInfo cgroup : String) : List String :=
  (metadataLines mountInfo cgroup).foldl appendMatches []

/-! ### Runs -/

/-- The maximal runs of hexadecimal characters in a line, those between neighbouring other
characters included, which are empty. -/
def hexRuns (line : List Char) : List (List Char) := line.splitOnP fun c => !isHex c

/-- The runs of the length of an ID, with whether the expression finds them: not right after one
that it has found. -/
def markRuns : List (List Char) → List (List Char × Bool)
  | [] => []
  | [run] => if run.length = 64 then [(run, true)] else []
  | run :: next :: rest =>
      if run.length = 64 then
        (run, true) :: (if next.length = 64 then (next, false) :: markRuns rest else markRuns rest)
      else markRuns (next :: rest)

/-- The runs that are found. -/
def foundRuns (runs : List (List Char)) : List (List Char) :=
  ((markRuns runs).filter Prod.snd).map Prod.fst

/-- The marked runs are all of that length. -/
theorem map_fst_markRuns (runs : List (List Char)) :
    (markRuns runs).map Prod.fst = runs.filter (·.length = 64) := by
  induction runs using markRuns.induct with
  | case1 => rfl
  | case2 run h => simp [markRuns, h]
  | case3 run h => simp [markRuns, h]
  | case4 run next rest h ih =>
      by_cases hnext : next.length = 64
      · simp [markRuns, h, hnext, ih]
      · simp [markRuns, h, hnext, ih]
  | case5 run next rest h ih => simp [markRuns, h, ih]

/-- A run of 64 is found, and its neighbour passed over. -/
theorem foundRuns_cons_of_length {run : List Char} (h : run.length = 64) (rest : List (List Char)) :
    foundRuns (run :: rest) = run :: foundRuns rest.tail := by
  cases rest with
  | nil => simp [foundRuns, markRuns, h]
  | cons next rest =>
      by_cases hnext : next.length = 64
      · simp [foundRuns, markRuns, h, hnext]
      · simp [foundRuns, markRuns, h, hnext]

/-- Any other run is not found. -/
theorem foundRuns_cons_of_not {run : List Char} (h : run.length ≠ 64) (rest : List (List Char)) :
    foundRuns (run :: rest) = foundRuns rest := by
  cases rest with
  | nil => simp [foundRuns, markRuns, h]
  | cons next rest => simp [foundRuns, markRuns, h]

/-- The first run, and those after the character that ends it. -/
theorem hexRuns_eq (cs : List Char) :
    hexRuns cs = cs.takeWhile isHex ::
      match cs.dropWhile isHex with
      | [] => []
      | _ :: rest => hexRuns rest := by
  induction cs with
  | nil => rfl
  | cons c cs ih =>
      rw [hexRuns, List.splitOnP_cons_eq_if_modifyHead]
      by_cases hc : isHex c = true
      · rw [hexRuns] at ih
        rw [ih]
        simp [hc]
      · simp [hc, hexRuns]

/-- Between a beginning and an end of the line that do not go on with such a character. -/
def IsMaximalRun (line run : List Char) : Prop :=
  ∃ before after, line = before ++ run ++ after ∧ (∀ c ∈ run, isHex c = true) ∧
    (∀ c, before.getLast? = some c → isHex c = false) ∧
    ∀ c, after.head? = some c → isHex c = false

/-- The parts of a line are maximal runs. -/
theorem isMaximalRun_of_mem {line run : List Char} (h : run ∈ hexRuns line) :
    IsMaximalRun line run := by
  induction hn : line.length using Nat.strong_induction_on generalizing line with
  | h n ih =>
      rw [hexRuns_eq] at h
      have hline := List.takeWhile_append_dropWhile (p := isHex) (l := line)
      rcases List.mem_cons.mp h with rfl | hrest
      · refine ⟨[], line.dropWhile isHex, hline.symm, fun c => List.mem_takeWhile_imp, nofun,
          fun c hc => ?_⟩
        have hhead := List.head?_dropWhile_not isHex line
        rw [hc] at hhead
        exact hhead
      · cases hdrop : line.dropWhile isHex with
        | nil =>
            rw [hdrop] at hrest
            cases hrest
        | cons c rest =>
            rw [hdrop] at hrest hline
            have hc : isHex c = false := by
              have hhead := List.head?_dropWhile_not isHex line
              rwa [hdrop] at hhead
            have hshort : rest.length < n := by
              have hlength := congrArg List.length hline
              rw [List.length_append, List.length_cons] at hlength
              omega
            obtain ⟨before, after, rfl, hhex, hbefore, hafter⟩ := ih _ hshort hrest rfl
            refine ⟨line.takeWhile isHex ++ c :: before, after, ?_, hhex, fun d hd => ?_, hafter⟩
            · refine hline.symm.trans ?_
              simp only [List.append_assoc, List.cons_append]
            · rw [List.getLast?_append, List.getLast?_cons, Option.some_or, Option.some_inj] at hd
              cases hlast : before.getLast? with
              | none =>
                  rw [hlast] at hd
                  exact hd ▸ hc
              | some e =>
                  rw [hlast] at hd
                  exact hd ▸ hbefore e hlast

/-- **Runs.** The parts of a line are its maximal runs. -/
theorem mem_hexRuns_iff {line run : List Char} : run ∈ hexRuns line ↔ IsMaximalRun line run := by
  refine ⟨isMaximalRun_of_mem, ?_⟩
  rintro ⟨before, after, rfl, hhex, hbefore, hafter⟩
  have hrun : run.splitOnP (fun c => !isHex c) = [run] :=
    List.splitOnP_eq_singleton fun c hc => by rw [hhex c hc, Bool.not_true]
  have hend : run ∈ (run ++ after).splitOnP fun c => !isHex c := by
    cases after with
    | nil => rw [List.append_nil, hrun]; exact List.mem_singleton_self run
    | cons c after =>
        rw [List.splitOnP_append_cons _ _ (by rw [hafter c rfl, Bool.not_false]), hrun]
        exact List.mem_cons_self
  rcases List.eq_nil_or_concat before with rfl | ⟨before, c, rfl⟩
  · exact hend
  · have hc : isHex c = false := hbefore c (by rw [List.concat_eq_append, List.getLast?_concat])
    rw [hexRuns, List.concat_eq_append, List.append_assoc, List.append_assoc,
      List.singleton_append, List.splitOnP_append_cons _ _ (by rw [hc, Bool.not_false])]
    exact List.mem_append_right _ hend

/-- What follows the first run. -/
theorem tail_hexRuns_cons (c : Char) (cs : List Char) :
    (hexRuns (c :: cs)).tail = if isHex c then (hexRuns cs).tail else hexRuns cs := by
  rw [hexRuns, hexRuns, List.splitOnP_cons_eq_if_modifyHead]
  by_cases hc : isHex c = true
  · simp [hc]
  · simp [hc]

/-! ### What the expression finds -/

/-- The expression without what stands in front of an ID. -/
def idPattern : Regexp.Expr :=
  .seq (.group (.times 64 (.char isHex))) (.alt (.char fun c => !isHex c) .stop)

/-- The match from a place where a run of the right length begins. -/
def runMatch (cs : List Char) : List Regexp.Match :=
  if (cs.takeWhile isHex).length = 64 then
    [(⟨false, (cs.dropWhile isHex).tail⟩, [cs.takeWhile isHex])]
  else []

/-- An ID is matched with the character after it. -/
theorem run_idPattern (atStart : Bool) (cs : List Char) :
    run idPattern ⟨atStart, cs⟩ = runMatch cs := by
  have htimes := run_times_char isHex 64 ⟨atStart, cs⟩
  rw [idPattern, runMatch]
  by_cases hid : 64 ≤ cs.length ∧ (cs.take 64).all isHex = true
  · rw [if_pos hid] at htimes
    have htake : (cs.take 64).length = 64 := List.length_take_of_le hid.1
    have hfirst : cs.takeWhile isHex = cs.take 64 ++ (cs.drop 64).takeWhile isHex := by
      conv_lhs => rw [← List.take_append_drop 64 cs]
      exact List.takeWhile_append_of_pos (List.all_eq_true.mp hid.2)
    have hlast : cs.dropWhile isHex = (cs.drop 64).dropWhile isHex := by
      conv_lhs => rw [← List.take_append_drop 64 cs]
      exact List.dropWhile_append_of_pos (List.all_eq_true.mp hid.2)
    have hgroup : cs.take (cs.length - (cs.drop 64).length) = cs.take 64 := by
      rw [List.length_drop]
      congr 1
      omega
    rw [hfirst, hlast]
    simp only [run, andThen] at htimes ⊢
    rw [htimes]
    simp only [List.map_cons, List.map_nil, hgroup]
    generalize cs.take 64 = id at htake
    rcases cs.drop 64 with _ | ⟨c, rest⟩
    · simp [htake]
    · by_cases hc : isHex c = true
      · simp [hc, htake]
      · simp [hc, htake]
  · rw [if_neg hid] at htimes
    have hshort : (cs.takeWhile isHex).length ≠ 64 := by
      intro hlength
      refine hid ⟨?_, ?_⟩
      · exact hlength ▸ (List.takeWhile_sublist isHex).length_le
      · have hpre := List.prefix_iff_eq_take.mp (List.takeWhile_prefix isHex (l := cs))
        rw [hlength] at hpre
        rw [← hpre]
        exact List.all_takeWhile
    rw [if_neg hshort]
    simp only [run, andThen] at htimes ⊢
    rw [htimes]
    rfl

/-- Within a text an ID is matched with the character in front of it. -/
theorem run_containerIDPattern_cons (c : Char) (cs : List Char) :
    run containerIDPattern ⟨false, c :: cs⟩ = if isHex c then [] else runMatch cs := by
  have hid := run_idPattern false cs
  change andThen _ (run idPattern) _ = _
  by_cases hc : isHex c = true
  · simp [andThen, run, hc]
  · simp [andThen, run, hc, hid]

/-- At the start of a text there need not be such a character. -/
theorem run_containerIDPattern_start (cs : List Char) :
    run containerIDPattern ⟨true, cs⟩ = runMatch cs ++ run containerIDPattern ⟨false, cs⟩ := by
  have hid := run_idPattern true cs
  change andThen _ (run idPattern) _ = _ ++ andThen _ (run idPattern) _
  simp [andThen, run, hid]

/-- What is found is the first of the runs that count, and a search goes on behind it. -/
def Finds (found : Option Regexp.Match) (runs : List (List Char)) (n : ℕ) : Prop :=
  match found with
  | none => foundRuns runs = []
  | some m => ∃ run, m.2 = [run] ∧ m.1.atStart = false ∧
      foundRuns runs = run :: foundRuns (hexRuns m.1.rest).tail ∧ m.1.rest.length < n

/-- What is found at all is found within more. -/
theorem Finds.mono {found : Option Regexp.Match} {runs : List (List Char)} {n n' : ℕ}
    (h : Finds found runs n) (hn : n ≤ n') : Finds found runs n' := by
  cases found with
  | none => exact h
  | some m =>
      obtain ⟨run, hgroups, hstart, hruns, hlt⟩ := h
      exact ⟨run, hgroups, hstart, hruns, Nat.lt_of_lt_of_le hlt hn⟩

/-- Finding depends on the runs found only. -/
theorem Finds.congr {found : Option Regexp.Match} {runs runs' : List (List Char)} {n : ℕ}
    (h : Finds found runs n) (hruns : foundRuns runs = foundRuns runs') : Finds found runs' n := by
  cases found with
  | none => exact hruns.symm.trans h
  | some m =>
      obtain ⟨run, hgroups, hstart, hfirst, hlt⟩ := h
      exact ⟨run, hgroups, hstart, hruns.symm.trans hfirst, hlt⟩

/-- From the beginning of a run: it counts, or nothing is matched. -/
theorem runMatch_cases (cs : List Char) :
    (∃ m, runMatch cs = [m] ∧ Finds (some m) (hexRuns cs) cs.length) ∨
      (runMatch cs = [] ∧ foundRuns (hexRuns cs) = foundRuns (hexRuns cs).tail) := by
  have hruns := hexRuns_eq cs
  by_cases hlength : (cs.takeWhile isHex).length = 64
  · refine Or.inl ⟨_, if_pos hlength, _, rfl, rfl, ?_, ?_⟩
    · rw [hruns, foundRuns_cons_of_length hlength]
      cases cs.dropWhile isHex with
      | nil => rfl
      | cons c rest => rfl
    · have hsum := congrArg List.length (List.takeWhile_append_dropWhile (p := isHex) (l := cs))
      rw [List.length_append, hlength] at hsum
      dsimp only
      rw [List.length_tail]
      omega
  · refine Or.inr ⟨if_neg hlength, ?_⟩
    rw [hruns, foundRuns_cons_of_not hlength]
    rfl

/-- A search within a text finds the runs behind the next character that is not one of theirs. -/
theorem find_after (cs : List Char) :
    Finds (find containerIDPattern false cs) (hexRuns cs).tail cs.length := by
  induction cs with
  | nil => exact rfl
  | cons c cs ih =>
      have hle : cs.length ≤ (c :: cs).length := Nat.le_succ _
      rw [find, run_containerIDPattern_cons, tail_hexRuns_cons]
      by_cases hc : isHex c = true
      · rw [if_pos hc, if_pos hc]
        exact ih.mono hle
      · rw [if_neg hc, if_neg hc]
        rcases runMatch_cases cs with ⟨m, hmatch, hfinds⟩ | ⟨hmatch, hskip⟩
        · rw [hmatch]
          exact hfinds.mono hle
        · rw [hmatch]
          exact (ih.congr hskip.symm).mono hle

/-- A search from the start of a text finds all runs that count. -/
theorem find_start (cs : List Char) :
    Finds (find containerIDPattern true cs) (hexRuns cs) cs.length := by
  rcases runMatch_cases cs with ⟨m, hmatch, hfinds⟩ | ⟨hmatch, hskip⟩
  · have hfind : find containerIDPattern true cs = some m := by
      cases cs with
      | nil => rw [find, run_containerIDPattern_start, hmatch, List.cons_append, List.head?_cons]
      | cons c cs =>
          rw [find, run_containerIDPattern_start, hmatch, List.cons_append, List.head?_cons]
    exact hfind ▸ hfinds
  · have hfind : find containerIDPattern true cs = find containerIDPattern false cs := by
      cases cs with
      | nil => rw [find, find, run_containerIDPattern_start, hmatch, List.nil_append]
      | cons c cs => rw [find, find, run_containerIDPattern_start, hmatch, List.nil_append]
    exact hfind ▸ (find_after cs).congr hskip.symm

/-- The runs that a search from a place may find. -/
def runsFrom (p : Place) : List (List Char) :=
  if p.atStart then hexRuns p.rest else (hexRuns p.rest).tail

/-- **The expression.** It finds the runs of a line that have the length of an ID, but for those
right after one that it has found. -/
theorem findAll_containerIDPattern (line : List Char) :
    findAll containerIDPattern line = (foundRuns (hexRuns line)).map fun run => [run] := by
  have hfinds : ∀ p : Place,
      Finds (find containerIDPattern p.atStart p.rest) (runsFrom p) p.rest.length := by
    rintro ⟨atStart, rest⟩
    cases atStart with
    | false => exact find_after rest
    | true => exact find_start rest
  refine findAllFrom_eq (fun p => (foundRuns (runsFrom p)).map fun run => [run]) ?_ ?_
    (Nat.lt_succ_self _)
  · intro p hnone
    have h := hfinds p
    rw [hnone] at h
    exact congrArg (List.map fun run => [run]) h
  · intro p m hsome
    have h := hfinds p
    rw [hsome] at h
    obtain ⟨run, hgroups, hstart, hruns, hlt⟩ := h
    refine ⟨?_, hlt⟩
    rw [hruns, List.map_cons, hgroups, runsFrom, hstart]
    rfl

/-! ### The IDs of all lines -/

/-- The runs of the length of an ID in all lines that are looked through, in lower case, with
whether the expression finds them. -/
def runtimeRuns (mountInfo cgroup : String) : List (String × Bool) :=
  (metadataLines mountInfo cgroup).flatMap fun line =>
    (markRuns (hexRuns line)).map fun m => (toLower Char.toLower (String.ofList m.1), m.2)

/-- The maximal runs of hexadecimal characters of that length, in lower case. -/
def runtimeIDs (mountInfo cgroup : String) : List String :=
  (metadataLines mountInfo cgroup).flatMap fun line =>
    ((hexRuns line).filter (·.length = 64)).map fun run => toLower Char.toLower (String.ofList run)

/-- The runs of the two files are their ids. -/
theorem map_fst_runtimeRuns (mountInfo cgroup : String) :
    (runtimeRuns mountInfo cgroup).map Prod.fst = runtimeIDs mountInfo cgroup := by
  rw [runtimeRuns, runtimeIDs, List.map_flatMap]
  refine List.flatMap_congr fun line _ => ?_
  rw [← map_fst_markRuns, List.map_map, List.map_map]
  rfl

/-- What is left of the elements that are not in a list, once one of them is. -/
theorem filter_new {α : Type} [DecidableEq α] (x : α) (acc l : List α) :
    (l.filter (· ∉ acc)).filter (fun y => !y == x) = l.filter (· ∉ x :: acc) := by
  rw [List.filter_filter]
  refine List.filter_congr fun y _ => ?_
  simp [beq_eq_decide]

/-- Elements that are there are not added again. -/
theorem foldl_append_new {α : Type} [DecidableEq α] (l acc : List α) :
    l.foldl (fun acc x => if x ∈ acc then acc else acc ++ [x]) acc =
      acc ++ (l.filter (· ∉ acc)).eraseDups := by
  induction l generalizing acc with
  | nil => simp
  | cons x l ih =>
      rw [List.foldl_cons, ih]
      by_cases hx : x ∈ acc
      · simp [hx]
      · have hnew : l.filter (· ∉ acc ++ [x]) = l.filter (· ∉ x :: acc) := by
          simp [or_comm]
        have hcons : (x :: l).filter (· ∉ acc) = x :: l.filter (· ∉ acc) :=
          List.filter_cons_of_pos (decide_eq_true hx)
        rw [if_neg hx, hcons, List.eraseDups_cons, filter_new, hnew, List.append_assoc]
        rfl

/-- The IDs are those that the expression finds, each one once. -/
theorem containerIDs_eq (mountInfo cgroup : String) :
    containerIDsFromRuntimeMetadata mountInfo cgroup =
      (((runtimeRuns mountInfo cgroup).filter Prod.snd).map Prod.fst).eraseDups := by
  have hline : ∀ result line, appendMatches result line =
      ((foundRuns (hexRuns line)).map fun run => toLower Char.toLower (String.ofList run)).foldl
        (fun acc x => if x ∈ acc then acc else acc ++ [x]) result := by
    intro result line
    rw [appendMatches, findAll_containerIDPattern, List.foldl_map, List.foldl_map]
    rfl
  have hfound : ((runtimeRuns mountInfo cgroup).filter Prod.snd).map Prod.fst =
      (metadataLines mountInfo cgroup).flatMap fun line =>
        (foundRuns (hexRuns line)).map fun run => toLower Char.toLower (String.ofList run) := by
    rw [runtimeRuns, List.filter_flatMap, List.map_flatMap]
    refine List.flatMap_congr fun line _ => ?_
    rw [List.filter_map, foundRuns, List.map_map, List.map_map]
    rfl
  have hempty : ∀ l : List String, l.filter (· ∉ ([] : List String)) = l := by simp
  rw [containerIDsFromRuntimeMetadata, funext₂ hline, hfound, ← List.foldl_flatMap,
    foldl_append_new, hempty, List.nil_append]

/-! ### Hidden runs -/

/-- The next run that is found of an ID that has not come before. -/
def nextFound (seen : List String) (runs : List (String × Bool)) : Option String :=
  (runs.find? fun r => r.2 && decide (r.1 ∉ seen)).map Prod.fst

/-- Every run that is hidden is of an ID that has come before, or of the one that is the next to be
found among those that have not. -/
def HiddenComeAgain : List String → List (String × Bool) → Prop
  | _, [] => True
  | seen, (id, found) :: rest =>
      (found = true ∨ id ∈ seen ∨ nextFound seen rest = some id) ∧ HiddenComeAgain (id :: seen) rest

/-- The first element, and the rest without it. -/
theorem cons_eq_eraseDups_iff {α : Type} [DecidableEq α] {x : α} {l m : List α} :
    x :: l = m.eraseDups ↔ m.head? = some x ∧ l = (m.filter fun y => !y == x).eraseDups := by
  cases m with
  | nil => exact iff_of_false nofun nofun
  | cons y m =>
      rw [List.eraseDups_cons, List.cons.injEq, List.head?_cons, Option.some_inj]
      constructor
      · rintro ⟨rfl, rfl⟩
        exact ⟨rfl, by simp⟩
      · rintro ⟨rfl, rfl⟩
        exact ⟨rfl, by simp⟩

/-- The first new one of those found. -/
theorem head?_found (runs : List (String × Bool)) (seen : List String) :
    (((runs.filter Prod.snd).map Prod.fst).filter (· ∉ seen)).head? = nextFound seen runs := by
  rw [nextFound, List.filter_map, List.head?_map, List.filter_filter, List.head?_filter]
  refine congrArg (Option.map Prod.fst) (congrArg (List.find? · runs) (funext fun r => ?_))
  exact Bool.and_comm _ _

/-- What is found in a list is what is new in it, in order, exactly if the hidden ones come
again. -/
theorem eraseDups_found_iff (runs : List (String × Bool)) (seen : List String) :
    ((runs.map Prod.fst).filter (· ∉ seen)).eraseDups =
        (((runs.filter Prod.snd).map Prod.fst).filter (· ∉ seen)).eraseDups ↔
      HiddenComeAgain seen runs := by
  induction runs generalizing seen with
  | nil => exact iff_of_true rfl trivial
  | cons r runs ih =>
      obtain ⟨id, found⟩ := r
      rw [HiddenComeAgain, ← ih, List.map_cons]
      by_cases hseen : id ∈ seen
      · -- the run is set aside
        have hsame : ∀ l : List String, l.filter (· ∉ id :: seen) = l.filter (· ∉ seen) := by
          intro l
          refine List.filter_congr fun y _ => ?_
          by_cases hy : y = id
          · simp [hy, hseen]
          · simp [hy]
        have hdrop : ∀ l : List String, (id :: l).filter (· ∉ seen) = l.filter (· ∉ seen) :=
          fun l => List.filter_cons_of_neg (by simpa using hseen)
        rw [hsame, hsame, hdrop, and_iff_right (Or.inr (Or.inl hseen))]
        cases found with
        | false => rw [List.filter_cons_of_neg Bool.false_ne_true]
        | true => rw [List.filter_cons_of_pos rfl, List.map_cons, hdrop]
      · have hkeep : ∀ l : List String, (id :: l).filter (· ∉ seen) = id :: l.filter (· ∉ seen) :=
          fun l => List.filter_cons_of_pos (decide_eq_true hseen)
        rw [hkeep, List.eraseDups_cons, filter_new]
        cases found with
        | false =>
            rw [List.filter_cons_of_neg Bool.false_ne_true, cons_eq_eraseDups_iff, filter_new,
              head?_found]
            simp [hseen]
        | true =>
            rw [List.filter_cons_of_pos rfl, List.map_cons, hkeep, List.eraseDups_cons, filter_new,
              List.cons.injEq]
            simp

/-- **IDs of the own container.** The IDs that are found are those of all maximal runs of that
length, each one once and in their order, exactly if the hidden runs come again. -/
theorem containerIDs_iff (mountInfo cgroup : String) :
    containerIDsFromRuntimeMetadata mountInfo cgroup = (runtimeIDs mountInfo cgroup).eraseDups ↔
      HiddenComeAgain [] (runtimeRuns mountInfo cgroup) := by
  have hempty : ∀ l : List String, l.filter (· ∉ ([] : List String)) = l := by simp
  rw [containerIDs_eq, ← map_fst_runtimeRuns, ← eraseDups_found_iff, hempty, hempty, eq_comm]

/-! ### Two IDs -/

/-- A line of the control groups with two IDs. -/
def nestedCgroup : String :=
  "0::/" ++ String.ofList (List.replicate 64 'a') ++ "/" ++ String.ofList (List.replicate 64 'b')

/-- Of two IDs with one character between them the second one is not found. -/
theorem neighbour_hidden :
    ¬ ∀ mountInfo cgroup : String,
      containerIDsFromRuntimeMetadata mountInfo cgroup =
        (runtimeIDs mountInfo cgroup).eraseDups := by
  intro h
  exact absurd (h "" nestedCgroup) (by decide +kernel)

end Contiwatch
