import Mathlib.Data.List.Basic

/-!
# Regular Expressions

Expressions as Go's `regexp` package runs them, without stars: anchors, classes of characters,
sequences, alternatives, groups and repetitions by number. From a place of a text an expression may
match in several ways; the first one counts, and of two alternatives the first has precedence. A
search takes the first place from which there is a match, and goes on after its end.

## Main results

* `run_times_char` — a repetition of a class.
* `findAllFrom_eq` — how to say what a search finds.
-/

namespace Regexp

/-- An expression. -/
inductive Expr
  /-- `^`. -/
  | start
  /-- `$`. -/
  | stop
  | char (class_ : Char → Bool)
  | seq (r s : Expr)
  | alt (r s : Expr)
  | group (r : Expr)
  | times (n : ℕ) (r : Expr)

/-- A place of a text: whether it is the start, and what comes after it. -/
structure Place where
  atStart : Bool
  rest : List Char

/-- Where a match ends, and the texts of its groups. -/
abbrev Match := Place × List (List Char)

/-- One match after another. -/
def andThen (f g : Place → List Match) (p : Place) : List Match :=
  (f p).flatMap fun m => (g m.1).map fun m' => (m'.1, m.2 ++ m'.2)

/-- The same `n` times. -/
def again (f : Place → List Match) : ℕ → Place → List Match
  | 0 => fun p => [(p, [])]
  | n + 1 => andThen f (again f n)

/-- The matches from a place, those with precedence first. -/
def run : Expr → Place → List Match
  | .start, p => if p.atStart then [(p, [])] else []
  | .stop, p => if p.rest = [] then [(p, [])] else []
  | .char class_, p =>
      match p.rest with
      | [] => []
      | c :: rest => if class_ c then [(⟨false, rest⟩, [])] else []
  | .seq r s, p => andThen (run r) (run s) p
  | .alt r s, p => run r p ++ run s p
  | .group r, p =>
      (run r p).map fun m => (m.1, p.rest.take (p.rest.length - m.1.rest.length) :: m.2)
  | .times n r, p => again (run r) n p

/-- The first match from a place or one after it. -/
def find (r : Expr) : Bool → List Char → Option Match
  | atStart, [] => (run r ⟨atStart, []⟩).head?
  | atStart, c :: rest =>
      match (run r ⟨atStart, c :: rest⟩).head? with
      | some m => some m
      | none => find r false rest

/-- The groups of at most `n` matches, each one after the end of the one before. -/
def findAllFrom (r : Expr) : ℕ → Place → List (List (List Char))
  | 0, _ => []
  | n + 1, p =>
      match find r p.atStart p.rest with
      | none => []
      | some m => m.2 :: findAllFrom r n m.1

/-- `FindAllStringSubmatch` without a limit, for an expression that does not match the empty text:
the groups of the matches. -/
def findAll (r : Expr) (text : List Char) : List (List (List Char)) :=
  findAllFrom r (text.length + 1) ⟨true, text⟩

example : findAll (.seq (.group (.char (· = 'a'))) (.char (· = 'b'))) "abcab".toList =
    [["a".toList], ["a".toList]] := by decide

/-! ### Matches -/

/-- A repetition of a class takes so many characters. -/
theorem run_times_char (class_ : Char → Bool) (n : ℕ) (p : Place) :
    run (.times n (.char class_)) p =
      if n ≤ p.rest.length ∧ (p.rest.take n).all class_ = true then
        [(⟨p.atStart && n = 0, p.rest.drop n⟩, [])]
      else [] := by
  induction n generalizing p with
  | zero => simp [run, again]
  | succ n ih =>
      obtain ⟨atStart, _ | ⟨c, rest⟩⟩ := p
      · simp [run, again, andThen]
      · have hrest := ih ⟨false, rest⟩
        simp only [run] at hrest
        by_cases hc : class_ c = true
        · simp [run, again, andThen, hc, hrest]
        · simp [run, again, andThen, hc]

/-- **Searches.** A function that is empty where nothing is found, and otherwise gives the first
match and then what it gives after it, is what a search finds. -/
theorem findAllFrom_eq {r : Expr} (G : Place → List (List (List Char)))
    (hnone : ∀ p, find r p.atStart p.rest = none → G p = [])
    (hsome : ∀ p m, find r p.atStart p.rest = some m →
      G p = m.2 :: G m.1 ∧ m.1.rest.length < p.rest.length)
    {n : ℕ} {p : Place} (hn : p.rest.length < n) : findAllFrom r n p = G p := by
  induction n generalizing p with
  | zero => exact absurd hn (Nat.not_lt_zero _)
  | succ n ih =>
      rw [findAllFrom]
      cases hfind : find r p.atStart p.rest with
      | none => exact (hnone p hfind).symm
      | some m =>
          obtain ⟨heq, hlt⟩ := hsome p m hfind
          rw [heq]
          dsimp only
          rw [ih (Nat.lt_of_lt_of_le hlt (Nat.le_of_lt_succ hn))]

end Regexp
