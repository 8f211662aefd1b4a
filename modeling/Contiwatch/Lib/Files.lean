import Mathlib.Data.Nat.Basic
import Mathlib.Logic.Function.Basic

/-!
# Files under Names

A directory gives names to files. A file that is open stays the same file when its name is given to
another one, so what is written to it goes wherever its name has gone; and a file that two writers
have open is written by both of them, each from its own position.

The operations are those that replace a file by way of a temporary one: a name is created or its
file truncated, an open file is written from its start, a name is changed, or removed.
-/

/-- A directory with names from `N`, and the files that names or open files refer to. -/
structure Files (N : Type) where
  entry : N → Option ℕ
  data : ℕ → ByteArray
  next : ℕ
  entry_lt : ∀ {n i}, entry n = some i → i < next
  entry_inj : ∀ {m n i}, entry m = some i → entry n = some i → m = n

namespace Files

variable {N : Type} [DecidableEq N]

omit [DecidableEq N] in
/-- A directory without files. -/
def empty : Files N where
  entry _ := none
  data _ := ByteArray.empty
  next := 0
  entry_lt := nofun
  entry_inj := nofun

/-- What the file with this name holds. -/
def read (fs : Files N) (n : N) : Option ByteArray := (fs.entry n).map fs.data

/-- Create a file, or truncate the one that has the name. -/
def create (fs : Files N) (n : N) : ℕ × Files N :=
  match hn : fs.entry n with
  | some i => (i, { fs with data := Function.update fs.data i ByteArray.empty })
  | none => (fs.next,
      { entry := Function.update fs.entry n (some fs.next)
        data := Function.update fs.data fs.next ByteArray.empty
        next := fs.next + 1
        entry_lt := by
          intro m i hm
          by_cases hmn : m = n
          · rw [hmn, Function.update_self] at hm
            exact Option.some.inj hm ▸ Nat.lt_succ_self _
          · rw [Function.update_of_ne hmn] at hm
            exact Nat.lt_succ_of_lt (fs.entry_lt hm)
        entry_inj := by
          intro m m' i hm hm'
          by_cases hmn : m = n
          · by_cases hmn' : m' = n
            · rw [hmn, hmn']
            · rw [hmn, Function.update_self] at hm
              rw [Function.update_of_ne hmn'] at hm'
              exact absurd (fs.entry_lt hm') (by rw [Option.some.inj hm]; exact lt_irrefl _)
          · rw [Function.update_of_ne hmn] at hm
            by_cases hmn' : m' = n
            · rw [hmn', Function.update_self] at hm'
              exact absurd (fs.entry_lt hm) (by rw [Option.some.inj hm']; exact lt_irrefl _)
            · rw [Function.update_of_ne hmn'] at hm'
              exact fs.entry_inj hm hm' })

/-- Write to an open file from its start. What the file holds beyond stays. -/
def write (fs : Files N) (i : ℕ) (bytes : ByteArray) : Files N :=
  { fs with
    data := Function.update fs.data i
      (bytes ++ (fs.data i).extract bytes.size (fs.data i).size) }

/-- Remove a name. -/
def remove (fs : Files N) (n : N) : Files N where
  entry := Function.update fs.entry n none
  data := fs.data
  next := fs.next
  entry_lt {m i} hm := by
    by_cases hmn : m = n
    · rw [hmn, Function.update_self] at hm
      cases hm
    · rw [Function.update_of_ne hmn] at hm
      exact fs.entry_lt hm
  entry_inj {m m' i} hm hm' := by
    by_cases hmn : m = n
    · rw [hmn, Function.update_self] at hm
      cases hm
    · by_cases hmn' : m' = n
      · rw [hmn', Function.update_self] at hm'
        cases hm'
      · rw [Function.update_of_ne hmn] at hm
        rw [Function.update_of_ne hmn'] at hm'
        exact fs.entry_inj hm hm'

/-- A removed name is gone. -/
theorem entry_remove (fs : Files N) (n : N) : (fs.remove n).entry n = none :=
  Function.update_self ..

/-- The other names stay. -/
theorem entry_remove_of_ne {fs : Files N} {m n : N} (h : m ≠ n) :
    (fs.remove n).entry m = fs.entry m :=
  Function.update_of_ne h ..

/-- Give the file of the name `m` the name `n`, whose own file goes away. Fails without a file. -/
def rename (fs : Files N) (m n : N) : Files N :=
  match hm : fs.entry m with
  | none => fs
  | some i =>
      { entry := Function.update (fs.remove m).entry n (some i)
        data := fs.data
        next := fs.next
        entry_lt := by
          intro k j hk
          by_cases hkn : k = n
          · rw [hkn, Function.update_self] at hk
            exact Option.some.inj hk ▸ fs.entry_lt hm
          · rw [Function.update_of_ne hkn] at hk
            exact (fs.remove m).entry_lt hk
        entry_inj := by
          -- no other name had the file that is given the name `n`
          have hother : ∀ k, k ≠ n → (fs.remove m).entry k ≠ some i := by
            intro k hkn hk
            by_cases hkm : k = m
            · rw [hkm, entry_remove] at hk
              cases hk
            · rw [entry_remove_of_ne hkm] at hk
              exact hkm (fs.entry_inj hk hm)
          intro k k' j hk hk'
          by_cases hkn : k = n
          · by_cases hkn' : k' = n
            · rw [hkn, hkn']
            · rw [hkn, Function.update_self] at hk
              rw [Function.update_of_ne hkn'] at hk'
              exact absurd (hk'.trans hk.symm) (hother k' hkn')
          · rw [Function.update_of_ne hkn] at hk
            by_cases hkn' : k' = n
            · rw [hkn', Function.update_self] at hk'
              exact absurd (hk.trans hk'.symm) (hother k hkn)
            · rw [Function.update_of_ne hkn'] at hk'
              exact (fs.remove m).entry_inj hk hk' }

variable {fs : Files N} {m n : N} {i : ℕ}

/-- A created name leads to the new file. -/
theorem entry_create (fs : Files N) (n : N) : (fs.create n).2.entry n = some (fs.create n).1 := by
  rw [create]
  split
  · assumption
  · exact Function.update_self ..

/-- It is empty. -/
theorem data_create (fs : Files N) (n : N) :
    (fs.create n).2.data (fs.create n).1 = ByteArray.empty := by
  rw [create]
  split
  · exact Function.update_self ..
  · exact Function.update_self ..

/-- Another name is not touched. -/
theorem read_create_of_ne (h : m ≠ n) : (fs.create n).2.read m = fs.read m := by
  rw [create]
  split
  · rename_i i hi
    rw [read, read]
    rcases hm : fs.entry m with _ | j
    · rfl
    · have hji : j ≠ i := fun hji => h (fs.entry_inj hm (hji ▸ hi))
      simp [Function.update_of_ne hji]
  · rw [read, read]
    dsimp only
    rw [Function.update_of_ne h]
    rcases hm : fs.entry m with _ | j
    · rfl
    · have hj : j ≠ fs.next := Nat.ne_of_lt (fs.entry_lt hm)
      simp [Function.update_of_ne hj]

/-- The other names stay. -/
theorem entry_create_of_ne (h : m ≠ n) : (fs.create n).2.entry m = fs.entry m := by
  rw [create]
  split
  · rfl
  · exact Function.update_of_ne h ..

omit [DecidableEq N] in

/-- What was written to an empty file is read. -/
theorem read_write (hn : fs.entry n = some i) (hempty : fs.data i = ByteArray.empty)
    (bytes : ByteArray) : (fs.write i bytes).read n = some bytes := by
  have hrest : ByteArray.empty.extract bytes.size 0 = ByteArray.empty := by
    rw [ByteArray.extract_eq_empty_iff]
    simp
  simp [read, write, hn, hempty, hrest]

omit [DecidableEq N] in
/-- The file of another name is not written. -/
theorem read_write_of_ne (hn : fs.entry n = some i) (h : m ≠ n) (bytes : ByteArray) :
    (fs.write i bytes).read m = fs.read m := by
  rw [read, read, write]
  rcases hm : fs.entry m with _ | j
  · rfl
  · have hji : j ≠ i := fun hji => h (fs.entry_inj (hji ▸ hm) hn)
    simp [Function.update_of_ne hji]

/-- A removed name cannot be read. -/
theorem read_remove (fs : Files N) (n : N) : (fs.remove n).read n = none := by
  rw [read, entry_remove, Option.map_none]

/-- The new name reads what the old one did. -/
theorem read_rename (hm : (fs.read m).isSome) : (fs.rename m n).read n = fs.read m := by
  rw [rename]
  split
  · rename_i hnone
    rw [read, hnone] at hm
    exact absurd hm Bool.false_ne_true
  · rename_i i hi
    simp [read, hi]

/-- It leads to the same file. -/
theorem entry_rename (hm : fs.entry m = some i) : (fs.rename m n).entry n = some i := by
  rw [rename]
  split
  · rename_i hnone
    rw [hm] at hnone
    cases hnone
  · rename_i j hj
    dsimp only
    rw [Function.update_self, ← hj, hm]

/-- Every other name is left as by removing the old one. -/
theorem entry_rename_of_ne {k : N} (hk : k ≠ n) :
    (fs.rename m n).entry k = (fs.remove m).entry k := by
  rw [rename]
  split
  · rename_i hnone
    by_cases hkm : k = m
    · rw [hkm, hnone, entry_remove]
    · rw [entry_remove_of_ne hkm]
  · exact Function.update_of_ne hk ..

/-- A rename changes no content. -/
@[simp] theorem data_rename : (fs.rename m n).data = fs.data := by
  rw [rename]
  split <;> rfl

/-- A file that is replaced by way of a temporary one, with nothing in between. -/
theorem read_replace (fs : Files N) (m n : N) (bytes : ByteArray) :
    (((fs.create m).2.write (fs.create m).1 bytes).rename m n).read n = some bytes := by
  have htmp : ((fs.create m).2.write (fs.create m).1 bytes).read m = some bytes :=
    read_write (entry_create fs m) (data_create fs m) bytes
  rw [read_rename (by rw [htmp]; rfl), htmp]

end Files
