import Contiwatch.Lib.Files
import Contiwatch.Lib.Prog
import Contiwatch.Stacks

/-!
# The Files of a Stack

`internal/server/stack_storage.go`: a stack is a directory with a Compose file and perhaps an
environment file. `saveStackFiles` replaces the first, then replaces or removes the second; each
file is written to a temporary one under a random name, which is then renamed, and whatever
happens the temporary name is removed at the end. `loadStackDetail` reads both.

Every operation of the file system may fail, and changes nothing then, except that a failed write
may have written a part. Each of the two files is replaced as a whole or not at all, but nothing
takes the first replacement back when the second one fails.

## Main results

* `saveStackFiles_cases` — after a save without an error a load gives what was saved; after one
  with an error the environment file is as it was, and the Compose file is as it was or the new
  one.
* `compose_file_stays_new` — a save that fails and leaves the new Compose file beside the old
  environment file.
-/

namespace Contiwatch

/-! ### The disk -/

/-- What is found under a name: a regular file, or a link or a device. -/
inductive StoredFile
  | regular (data : ByteArray)
  | other

/-- The directory of a stack, and which of its files are regular ones. -/
structure StackDir where
  files : Files String
  regular : ℕ → Bool

namespace StackDir

def stored (dir : StackDir) (name : String) : Option StoredFile :=
  (dir.files.entry name).map fun i =>
    if dir.regular i then .regular (dir.files.data i) else .other

def empty : StackDir where
  files := .empty
  regular _ := true

end StackDir

/-- `stacksBaseDir`, if it exists, and the directories in it, by their relative paths. -/
structure StackDisk where
  base : Bool
  dirs : String → Option StackDir

def StackDisk.stored (disk : StackDisk) (root name : String) : Option StoredFile :=
  (disk.dirs root).bind (·.stored name)

/-! ### The operations of the file system -/

/-- The errors: `fs.ErrNotExist`, those with a text of the program, and all others. -/
inductive StackError
  | notExist
  | failed
  | message (text : String)
deriving DecidableEq

/-- What is asked of the operating system. A directory that has been opened is given by its
relative path, an open file by its number. -/
inductive FileOp
  | mkdirAllBase
  | openBase
  | mkdirAll (path : String)
  | openRoot (path : String)
  | chmodDir (root : String)
  | generateToken (size : ℕ)
  | createFile (root name : String)
  | openFile (root name : String)
  | lstat (root name : String)
  | modTime (root name : String)
  | stat (root : String) (file : ℕ)
  | chmod (root : String) (file : ℕ)
  | write (root : String) (file : ℕ) (data : ByteArray)
  | sync (root : String) (file : ℕ)
  | close (root : String) (file : ℕ)
  | readAll (root : String) (file limit : ℕ)
  | rename (root old new : String)
  | remove (root name : String)

/-- What an operation gives back: `lstat` and `stat` say whether the file is a regular one. -/
abbrev FileOp.Out : FileOp → Type
  | openRoot _ | generateToken _ | modTime .. => String
  | createFile .. | openFile .. => ℕ
  | lstat .. | stat .. => Bool
  | readAll .. => ByteArray
  | _ => Unit

abbrev FileOp.Answer (o : FileOp) : Type := Except StackError o.Out

namespace StackDir

/-- Open with `O_CREATE` and `O_EXCL`. -/
def create (dir : StackDir) (name : String) : Except StackError ℕ × StackDir :=
  if (dir.files.entry name).isSome then (.error .failed, dir)
  else
    let (file, files) := dir.files.create name
    (.ok file, ⟨files, Function.update dir.regular file true⟩)

def write (dir : StackDir) (file : ℕ) (data : ByteArray) : StackDir :=
  { dir with files := dir.files.write file data }

def rename (dir : StackDir) (old new : String) : Except StackError Unit × StackDir :=
  if (dir.files.entry old).isSome then (.ok (), { dir with files := dir.files.rename old new })
  else (.error .notExist, dir)

def remove (dir : StackDir) (name : String) : Except StackError Unit × StackDir :=
  if (dir.files.entry name).isSome then (.ok (), { dir with files := dir.files.remove name })
  else (.error .notExist, dir)

end StackDir

namespace StackDisk

/-- Look into a directory. -/
def look {α : Type} (disk : StackDisk) (root : String) (f : StackDir → Except StackError α) :
    Except StackError α :=
  (disk.dirs root).elim (.error .notExist) f

/-- Change a directory. -/
def change {α : Type} (disk : StackDisk) (root : String)
    (f : StackDir → Except StackError α × StackDir) : Except StackError α × StackDisk :=
  match disk.dirs root with
  | none => (.error .notExist, disk)
  | some dir => ((f dir).1, { disk with dirs := Function.update disk.dirs root (some (f dir).2) })

end StackDisk

/-- An operation that does not fail for a reason of its own. The random token and the time of a
file are given from outside. -/
def FileOp.perform (token modTime : String) : (o : FileOp) → StackDisk → o.Answer × StackDisk
  | .mkdirAllBase, disk => (.ok (), { disk with base := true })
  | .openBase, disk => (if disk.base then .ok () else .error .notExist, disk)
  | .mkdirAll path, disk =>
      if (disk.dirs path).isSome then (.ok (), disk)
      else (.ok (), { disk with dirs := Function.update disk.dirs path (some .empty) })
  | .openRoot path, disk => (disk.look path fun _ => .ok path, disk)
  | .chmodDir _, disk => (.ok (), disk)
  | .generateToken _, disk => (.ok token, disk)
  | .createFile root name, disk => disk.change root (·.create name)
  | .openFile root name, disk =>
      (disk.look root fun dir => (dir.files.entry name).elim (.error .notExist) .ok, disk)
  | .lstat root name, disk =>
      (disk.look root fun dir =>
        (dir.files.entry name).elim (.error .notExist) fun i => .ok (dir.regular i), disk)
  | .modTime root name, disk =>
      (disk.look root fun dir =>
        (dir.files.entry name).elim (.error .notExist) fun _ => .ok modTime, disk)
  | .stat root file, disk => (disk.look root fun dir => .ok (dir.regular file), disk)
  | .chmod .., disk => (.ok (), disk)
  | .write root file data, disk => disk.change root fun dir => (.ok (), dir.write file data)
  | .sync .., disk => (.ok (), disk)
  | .close .., disk => (.ok (), disk)
  | .readAll root file limit, disk =>
      (disk.look root fun dir => .ok ((dir.files.data file).extract 0 limit), disk)
  | .rename root old new, disk => disk.change root (·.rename old new)
  | .remove root name, disk => disk.change root (·.remove name)

/-- What a failed operation may leave: the disk as it was, or a part of what was to be
written. -/
def FileOp.Leaves (disk disk' : StackDisk) : FileOp → Prop
  | .write root file data =>
      disk' = disk ∨ ∃ n, disk' = (disk.change root fun dir =>
        ((.ok () : Except StackError Unit), dir.write file (data.extract 0 n))).2
  | _ => disk' = disk

/-- **The file system.** The operations for which `may` holds may fail. -/
def FileSem (may : FileOp → Prop) (o : FileOp) (disk : StackDisk) (r : o.Answer)
    (disk' : StackDisk) : Prop :=
  (∃ token modTime, o.perform token modTime disk = (r, disk')) ∨
    may o ∧ r = .error .failed ∧ o.Leaves disk disk'

/-! ### The code -/

/-- Code that asks the operating system and may return an error. -/
abbrev FileM : Type → Type := ExceptT StackError (Prog FileOp.Answer)

def file (o : FileOp) : FileM o.Out := .mk (Prog.call o)

/-- `stackFileLimit`. -/
def stackFileLimit : ℕ := 4 * 1024 * 1024

def failIf (c : Prop) [Decidable c] (text : String) : FileM Unit :=
  if c then throw (.message text) else pure ()

/-- `validateStackSegment`, with its error as an error of the code here. -/
def checkSegment (value label : String) : FileM Unit :=
  match validateStackSegment value label with
  | .error text => throw (.message text)
  | .ok () => pure ()

/-- `filepath.Join` of two accepted names. -/
def stackPath (serverName stackName : String) : String := serverName ++ "/" ++ stackName

/-- `openStackRoot`. To close a directory changes nothing, and its error is dropped. -/
def openStackRoot (serverName stackName : String) (create : Bool) : FileM String := do
  checkSegment serverName "server"
  checkSegment stackName "stack"
  if create then file .mkdirAllBase else pure ()
  file .openBase
  let relative := stackPath serverName stackName
  if create then file (.mkdirAll relative) else pure ()
  file (.openRoot relative)

/-- `readStackFile`. -/
def readStackFile (root name : String) : FileM ByteArray := do
  let isRegular ← file (.lstat root name)
  failIf (¬ isRegular) "stack file must be a regular file, not a link or device"
  let opened ← file (.openFile root name)
  let isRegular ← file (.stat root opened)
  failIf (¬ isRegular) "stack file must be a regular file"
  file (.chmod root opened)
  let data ← file (.readAll root opened (stackFileLimit + 1))
  failIf (stackFileLimit < data.size) "stack file exceeds the 4 MiB limit"
  pure data

/-- `stackDetailResponse`, without the scope, which the handler fills in. -/
structure StackDetail where
  name : String
  composeYml : ByteArray
  env : ByteArray
  hasEnv : Bool
  updatedAt : String

/-- The environment file, if there is one. -/
def readEnv (root : String) : FileM (Option ByteArray) :=
  tryCatch (do
    let env ← readStackFile root ".env"
    pure (some env)) fun e => if e = .notExist then pure none else throw e

/-- `loadStackDetailFromRoot`. -/
def loadStackDetailFromRoot (root stackName : String) : FileM StackDetail := do
  file (.chmodDir root)
  let content ← readStackFile root "docker-compose.yml"
  let env ← readEnv root
  let updatedAt ← tryCatch (file (.modTime root "docker-compose.yml")) fun _ => pure ""
  pure ⟨stackName, content, env.getD ByteArray.empty, env.isSome, updatedAt⟩

/-- `loadStackDetail`. -/
def loadStackDetail (serverName stackName : String) : FileM StackDetail := do
  let root ← openStackRoot serverName stackName false
  loadStackDetailFromRoot root stackName

/-- The name of a temporary file. -/
def temporaryName (token : String) : String := ".contiwatch-stack-" ++ token ++ ".tmp"

/-- What is done with the temporary file once it is there. -/
def fillAndRename (root temporary name : String) (opened : ℕ) (data : ByteArray) : FileM Unit := do
  file (.chmod root opened)
  file (.write root opened data)
  file (.sync root opened)
  file (.close root opened)
  file (.rename root temporary name)

/-- The deferred calls, whose errors are dropped. -/
def closeAndRemove (root temporary : String) (opened : ℕ) : Prog FileOp.Answer Unit := do
  let _ ← Prog.call (.close root opened)
  let _ ← Prog.call (.remove root temporary)

/-- `writePrivateFileInRoot`. -/
def writePrivateFileInRoot (root name : String) (data : ByteArray) : FileM Unit := do
  failIf (stackFileLimit < data.size) "stack file exceeds the 4 MiB limit"
  let token ← file (.generateToken 16)
  let temporary := temporaryName token
  let opened ← file (.createFile root temporary)
  Prog.deferring (fillAndRename root temporary name opened data)
    (closeAndRemove root temporary opened)

/-- The last part of `saveStackFiles`. -/
def saveEnv (root : String) (env : ByteArray) (useEnv : Bool) : FileM Unit :=
  if useEnv then writePrivateFileInRoot root ".env" env
  else tryCatch (file (.remove root ".env")) fun e =>
    if e = .notExist then pure () else throw e

/-- `saveStackFiles`. -/
def saveStackFiles (serverName stackName : String) (composeYml env : ByteArray)
    (useEnv : Bool) : FileM Unit := do
  failIf (stackFileLimit < composeYml.size ∨ useEnv ∧ stackFileLimit < env.size)
    "stack file exceeds the 4 MiB limit"
  let root ← openStackRoot serverName stackName true
  file (.chmodDir root)
  writePrivateFileInRoot root "docker-compose.yml" composeYml
  saveEnv root env useEnv

/-! ### What the operations do -/

namespace StackDir

/-- The name is that of the open file `file`, a regular one, and it holds `data`. -/
structure Holds (dir : StackDir) (name : String) (file : ℕ) (data : ByteArray) : Prop where
  entry : dir.files.entry name = some file
  regular : dir.regular file = true
  data : dir.files.data file = data

variable {dir : StackDir} {file : ℕ} {name m : String} {data : ByteArray}

/-- What a file holds is stored under its name. -/
theorem Holds.stored (h : dir.Holds name file data) : dir.stored name = some (.regular data) := by
  simp [StackDir.stored, h.entry, h.regular, h.data]

/-- A file that was created had no name before, and is empty. -/
theorem create_eq_ok {dir' : StackDir} (h : dir.create name = (.ok file, dir')) :
    dir.stored name = none ∧ dir'.Holds name file ByteArray.empty := by
  rw [create] at h
  split at h
  · cases h
  rename_i hnone
  obtain ⟨rfl, rfl⟩ : (dir.files.create name).1 = file ∧ _ = dir' := by simpa using h
  refine ⟨by simpa [StackDir.stored] using hnone, Files.entry_create dir.files name, ?_,
    Files.data_create dir.files name⟩
  exact Function.update_self ..

/-- Where no file was created nothing has changed. -/
theorem create_eq_error {dir' : StackDir} {e : StackError}
    (h : dir.create name = (.error e, dir')) : dir' = dir := by
  rw [create] at h
  split at h
  · exact (Prod.mk.inj h).2.symm
  · cases h

/-- A name that is there already keeps its file. -/
theorem stored_create_of_ne (h : m ≠ name) : (dir.create name).2.stored m = dir.stored m := by
  rw [create]
  split
  · rfl
  · rename_i hnone
    have hfresh : (dir.files.create name).1 = dir.files.next := by
      rw [Files.create]
      split
      · rename_i i hi
        rw [hi] at hnone
        exact absurd rfl hnone
      · rfl
    have hread : (dir.files.create name).2.read m = dir.files.read m := Files.read_create_of_ne h
    have hentry : (dir.files.create name).2.entry m = dir.files.entry m :=
      Files.entry_create_of_ne h
    simp only [Files.read, hentry] at hread
    simp only [stored, hentry]
    rcases hm : dir.files.entry m with _ | i
    · rfl
    · have hlt := dir.files.entry_lt hm
      rw [hm] at hread
      simp only [Option.map_some, Option.some.injEq] at hread
      simp [hfresh, Function.update_of_ne (Nat.ne_of_lt hlt), hread]

/-- What is written to an empty file is what it holds. -/
theorem Holds.write (h : dir.Holds name file ByteArray.empty) (data : ByteArray) :
    (dir.write file data).Holds name file data := by
  refine ⟨h.entry, h.regular, ?_⟩
  have hrest : ByteArray.empty.extract data.size 0 = ByteArray.empty := by
    rw [ByteArray.extract_eq_empty_iff]
    simp
  simp [StackDir.write, Files.write, h.data, hrest]

/-- Other names keep what is stored under them. -/
theorem Holds.stored_write_of_ne {old : ByteArray} (h : dir.Holds name file old) (hm : m ≠ name) :
    (dir.write file data).stored m = dir.stored m := by
  have hread := Files.read_write_of_ne h.entry hm data
  simp only [Files.read] at hread
  have hentry : (dir.files.write file data).entry m = dir.files.entry m := rfl
  rw [hentry] at hread
  simp only [StackDir.stored, StackDir.write, hentry]
  rcases hi : dir.files.entry m with _ | i
  · rfl
  · rw [hi] at hread
    simp only [Option.map_some, Option.some.injEq] at hread
    simp [hread]

/-- A renamed file is stored under its new name. -/
theorem Holds.rename {new : String} (h : dir.Holds name file data) :
    (dir.rename name new).1 = .ok () ∧
      (dir.rename name new).2.stored new = some (.regular data) := by
  have hentry := Files.entry_rename (n := new) h.entry
  simp [StackDir.rename, h.entry, StackDir.stored, hentry, h.regular, h.data]

/-- It is no longer stored under the old one. -/
theorem Holds.stored_rename_self {new : String} (h : dir.Holds name file data) (hne : name ≠ new) :
    (dir.rename name new).2.stored name = none := by
  have hentry : (dir.files.rename name new).entry name = none := by
    rw [Files.entry_rename_of_ne hne, Files.entry_remove]
  simp [StackDir.rename, h.entry, StackDir.stored, hentry]

/-- Renaming leaves all other names. -/
theorem stored_rename_of_ne {new : String} (hold : m ≠ name) (hnew : m ≠ new) :
    (dir.rename name new).2.stored m = dir.stored m := by
  have hentry : (dir.files.rename name new).entry m = dir.files.entry m := by
    rw [Files.entry_rename_of_ne hnew, Files.entry_remove_of_ne hold]
  rw [StackDir.rename]
  split
  · simp [StackDir.stored, hentry]
  · rfl

/-- So does removing. -/
theorem stored_remove_of_ne (hm : m ≠ name) : (dir.remove name).2.stored m = dir.stored m := by
  rw [StackDir.remove]
  split
  · have hdata : (dir.files.remove name).data = dir.files.data := rfl
    simp [StackDir.stored, Files.entry_remove_of_ne hm, hdata]
  · rfl

/-- Whatever `remove` says, the name is gone. -/
theorem stored_remove : (dir.remove name).2.stored name = none := by
  rw [StackDir.remove]
  split
  · simp [StackDir.stored, Files.entry_remove]
  · rename_i hnone
    simpa [StackDir.stored] using hnone

end StackDir

namespace StackDisk

/-- From one disk to the other, nothing but these names in this directory may have changed. -/
structure OnlyIn (root : String) (names : List String) (disk disk' : StackDisk) : Prop where
  base : disk'.base = disk.base
  stored : ∀ r n, (r = root → n ∉ names) → disk'.stored r n = disk.stored r n

variable {disk disk' disk'' : StackDisk} {root : String} {names names' : List String}

/-- Nothing has changed. -/
theorem OnlyIn.refl : OnlyIn root names disk disk := ⟨rfl, fun _ _ _ => rfl⟩

/-- Two changes in the same names. -/
theorem OnlyIn.trans (h : OnlyIn root names disk disk') (h' : OnlyIn root names disk' disk'') :
    OnlyIn root names disk disk'' :=
  ⟨h'.base.trans h.base, fun r n hn => (h'.stored r n hn).trans (h.stored r n hn)⟩

/-- A change in some names is one in more of them. -/
theorem OnlyIn.mono (h : OnlyIn root names disk disk') (hsub : ∀ n ∈ names, n ∈ names') :
    OnlyIn root names' disk disk' :=
  ⟨h.base, fun r n hn => h.stored r n fun hr hmem => hn hr (hsub n hmem)⟩

section

variable {α : Type} {dir : StackDir} {f : StackDir → Except StackError α × StackDir}

/-- A change of a directory that exists. -/
theorem change_eq (hdir : disk.dirs root = some dir) :
    disk.change root f =
      ((f dir).1, { disk with dirs := Function.update disk.dirs root (some (f dir).2) }) := by
  rw [change]
  split
  · rename_i hnone
    rw [hdir] at hnone
    cases hnone
  · rename_i dir' hsome
    rw [hdir] at hsome
    cases hsome
    rfl

/-- The directory after the change. -/
theorem dirs_change (hdir : disk.dirs root = some dir) :
    (disk.change root f).2.dirs root = some (f dir).2 := by
  rw [change_eq hdir]
  exact Function.update_self ..

/-- What is stored in it after the change. -/
theorem stored_change (hdir : disk.dirs root = some dir) (n : String) :
    (disk.change root f).2.stored root n = (f dir).2.stored n := by
  rw [stored, dirs_change hdir]
  rfl

/-- The directory does not exist and nothing changes, or the change is that of the directory. -/
theorem change_cases {r : Except StackError α} (h : disk.change root f = (r, disk')) :
    disk.dirs root = none ∧ r = .error .notExist ∧ disk' = disk ∨
      ∃ dir, disk.dirs root = some dir ∧ r = (f dir).1 ∧ disk'.dirs root = some (f dir).2 := by
  rcases hdir : disk.dirs root with _ | dir
  · rw [change, hdir] at h
    obtain ⟨rfl, rfl⟩ := Prod.mk.inj h
    exact .inl ⟨rfl, rfl, rfl⟩
  · have hdirs := dirs_change (f := f) hdir
    rw [h] at hdirs
    rw [change_eq hdir] at h
    exact .inr ⟨dir, rfl, (Prod.mk.inj h).1.symm, hdirs⟩

/-- A change that leaves the other names of the directory leaves all else on the disk. -/
theorem onlyIn_change (h : ∀ dir, disk.dirs root = some dir → ∀ n ∉ names,
    (f dir).2.stored n = dir.stored n) : OnlyIn root names disk (disk.change root f).2 := by
  rcases hdir : disk.dirs root with _ | dir
  · rw [change, hdir]
    exact .refl
  refine ⟨by rw [change_eq hdir], fun r n hn => ?_⟩
  by_cases hr : r = root
  · rw [hr, stored_change hdir, h dir hdir n (hn hr), stored, hdir]
    rfl
  · rw [change_eq hdir, stored, stored]
    dsimp only
    rw [Function.update_of_ne hr]

end

end StackDisk

open StackDisk

variable {may : FileOp → Prop} {disk disk' : StackDisk} {root name : String} {dir : StackDir}

section

variable {α : Type} {o : FileOp}

/-- The operations that only look. -/
def FileOp.Inert : FileOp → Prop
  | .mkdirAllBase | .mkdirAll _ | .createFile .. | .write .. | .rename .. | .remove .. => False
  | _ => True

/-- Looking changes nothing. -/
theorem FileSem.inert {r : o.Answer} (h : FileSem may o disk r disk') (ho : o.Inert) :
    disk' = disk := by
  rcases h with ⟨token, modTime, h⟩ | ⟨-, -, h⟩
  · cases o <;> first
      | exact ho.elim
      | exact (congrArg Prod.snd h).symm
  · cases o <;> first
      | exact ho.elim
      | exact h

/-- A program of one operation. -/
theorem exec_file {r : Except StackError o.Out} :
    Prog.Exec (FileSem may) (file o).run disk r disk' ↔ FileSem may o disk r disk' :=
  Prog.exec_call

/-- An operation that only looks, and what follows it. -/
theorem exec_inert_bind {f : o.Out → FileM α} {r : Except StackError α}
    (h : Prog.Exec (FileSem may) (file o >>= f).run disk r disk') (ho : o.Inert) :
    (∃ e, r = .error e ∧ disk' = disk) ∨
      ∃ a, FileSem may o disk (.ok a) disk ∧ Prog.Exec (FileSem may) (f a).run disk r disk' := by
  rcases Prog.exec_run_bind.mp h with ⟨e, rfl, hfile⟩ | ⟨a, u, hfile, hrest⟩
  · exact .inl ⟨e, rfl, (exec_file.mp hfile).inert ho⟩
  · obtain rfl := (exec_file.mp hfile).inert ho
    exact .inr ⟨a, exec_file.mp hfile, hrest⟩

end

/-- A file is made only under a name that is not taken. -/
theorem FileSem.createFile {r : Except StackError ℕ}
    (h : FileSem may (.createFile root name) disk r disk') :
    (∃ e, r = .error e ∧ OnlyIn root [] disk disk') ∨
      ∃ file dir, r = .ok file ∧ disk.stored root name = none ∧ disk'.dirs root = some dir ∧
        dir.Holds name file ByteArray.empty ∧ OnlyIn root [name] disk disk' := by
  rcases h with ⟨token, modTime, h⟩ | ⟨hmay, rfl, h⟩
  swap
  · exact .inl ⟨_, rfl, h ▸ .refl⟩
  obtain ⟨-, rfl, rfl⟩ | ⟨dir, hdir, hr, hdirs⟩ := change_cases h
  · exact .inl ⟨_, rfl, .refl⟩
  have hdisk : (disk.change root (·.create name)).2 = disk' := congrArg Prod.snd h
  rcases hcreate : dir.create name with ⟨e | file, dir'⟩
  · refine .inl ⟨e, by rw [hr, hcreate], ?_⟩
    rw [← hdisk]
    refine onlyIn_change fun dir₂ hdir₂ n _ => ?_
    obtain rfl := Option.some.inj (hdir.symm.trans hdir₂)
    rw [hcreate, StackDir.create_eq_error hcreate]
  · obtain ⟨hnone, hholds⟩ := StackDir.create_eq_ok hcreate
    refine .inr ⟨file, dir', by rw [hr, hcreate], ?_, by rw [hdirs, hcreate], hholds, ?_⟩
    · rw [stored, hdir]
      exact hnone
    · rw [← hdisk]
      exact onlyIn_change fun dir₂ _ n hn =>
        StackDir.stored_create_of_ne (List.ne_of_not_mem_cons hn)

/-- Whatever comes of a write, it is to the open file alone. -/
theorem FileSem.write {r : Except StackError Unit} {file : ℕ} {data : ByteArray}
    (h : FileSem may (.write root file data) disk r disk') (hdir : disk.dirs root = some dir)
    (hholds : dir.Holds name file ByteArray.empty) :
    OnlyIn root [name] disk disk' ∧ ∃ dir' data', disk'.dirs root = some dir' ∧
      dir'.Holds name file data' ∧ (r = .ok () → data' = data) := by
  have honly (data : ByteArray) : OnlyIn root [name] disk
      (disk.change root fun dir => ((.ok () : Except StackError Unit), dir.write file data)).2 := by
    refine onlyIn_change fun dir₂ hdir₂ n hn => ?_
    obtain rfl := Option.some.inj (hdir.symm.trans hdir₂)
    exact hholds.stored_write_of_ne (List.ne_of_not_mem_cons hn)
  rcases h with ⟨token, modTime, h⟩ | ⟨hmay, rfl, rfl | ⟨n, rfl⟩⟩
  · have hdisk := congrArg Prod.snd h
    dsimp only [FileOp.perform] at hdisk
    rw [← hdisk]
    exact ⟨honly data, _, data, dirs_change hdir, hholds.write data, fun _ => rfl⟩
  · exact ⟨.refl, _, _, hdir, hholds, nofun⟩
  · exact ⟨honly _, _, _, dirs_change hdir, hholds.write _, nofun⟩

/-- The open file gets its name as it is. -/
theorem FileSem.rename {r : Except StackError Unit} {file : ℕ} {data : ByteArray} {new : String}
    (h : FileSem may (.rename root name new) disk r disk') (hdir : disk.dirs root = some dir)
    (hholds : dir.Holds name file data) (hne : name ≠ new) :
    (∃ e, r = .error e ∧ OnlyIn root [] disk disk') ∨
      r = .ok () ∧ disk'.stored root new = some (.regular data) ∧
        disk'.stored root name = none ∧ OnlyIn root [name, new] disk disk' := by
  rcases h with ⟨token, modTime, h⟩ | ⟨hmay, rfl, h⟩
  swap
  · exact .inl ⟨_, rfl, h ▸ .refl⟩
  have hdisk : (disk.change root (·.rename name new)).2 = disk' := congrArg Prod.snd h
  have hr : (disk.change root (·.rename name new)).1 = r := congrArg Prod.fst h
  rw [← hdisk, stored_change hdir, stored_change hdir]
  refine .inr ⟨?_, hholds.rename.2, hholds.stored_rename_self hne, ?_⟩
  · rw [← hr, change_eq hdir]
    exact hholds.rename.1
  · refine onlyIn_change fun dir₂ _ n hn => StackDir.stored_rename_of_ne ?_ ?_
    · exact List.ne_of_not_mem_cons hn
    · exact List.ne_of_not_mem_cons (List.not_mem_of_not_mem_cons hn)

/-- A removal fails for a reason of its own and changes nothing, or the name is gone. -/
theorem FileSem.remove {r : Except StackError Unit}
    (h : FileSem may (.remove root name) disk r disk') :
    OnlyIn root [name] disk disk' ∧
      (r = .error .failed ∧ may (.remove root name) ∧ disk' = disk ∨
        (r = .ok () ∨ r = .error .notExist) ∧ disk'.stored root name = none) := by
  rcases h with ⟨token, modTime, h⟩ | ⟨hmay, rfl, rfl⟩
  swap
  · exact ⟨.refl, .inl ⟨rfl, hmay, rfl⟩⟩
  have hdisk : (disk.change root (·.remove name)).2 = disk' := congrArg Prod.snd h
  refine ⟨?_, .inr ?_⟩
  · rw [← hdisk]
    exact onlyIn_change fun dir₂ _ n hn =>
      StackDir.stored_remove_of_ne (List.ne_of_not_mem_cons hn)
  obtain ⟨hnone, rfl, rfl⟩ | ⟨dir, hdir, rfl, hdirs⟩ := change_cases h
  · exact ⟨.inr rfl, by rw [stored, hnone]; rfl⟩
  · refine ⟨?_, ?_⟩
    · rw [StackDir.remove]
      split
      · exact .inl rfl
      · exact .inr rfl
    · rw [stored, hdirs]
      exact StackDir.stored_remove

/-! ### One file -/

/-- A check that returns an error changes nothing. -/
theorem exec_failIf {c : Prop} [Decidable c] {text : String} {r : Except StackError Unit} :
    Prog.Exec (FileSem may) (failIf c text).run disk r disk' ↔
      (if c then r = .error (.message text) else r = .ok ()) ∧ disk' = disk := by
  rw [failIf]
  split
  · exact Prog.exec_run_throw
  · exact Prog.exec_run_pure

/-- From the new temporary file to the rename: all of it is done, or nothing is but to the
temporary file. -/
theorem exec_fillAndRename {file : ℕ} {temporary : String} {data : ByteArray}
    {r : Except StackError Unit} (hdir : disk.dirs root = some dir)
    (hholds : dir.Holds temporary file ByteArray.empty) (hne : temporary ≠ name)
    (h : Prog.Exec (FileSem may) (fillAndRename root temporary name file data).run disk r disk') :
    (∃ e, r = .error e) ∧ OnlyIn root [temporary] disk disk' ∨
      r = .ok () ∧ disk'.stored root name = some (.regular data) ∧
        OnlyIn root [temporary, name] disk disk' := by
  rw [fillAndRename] at h
  obtain ⟨e, rfl, rfl⟩ | ⟨_, -, h⟩ := exec_inert_bind h trivial
  · exact .inl ⟨⟨e, rfl⟩, .refl⟩
  rcases Prog.exec_run_bind.mp h with ⟨e, rfl, hwrite⟩ | ⟨_, disk₁, hwrite, hrest⟩
  · exact .inl ⟨⟨e, rfl⟩, ((exec_file.mp hwrite).write hdir hholds).1⟩
  obtain ⟨honly, dir₁, data₁, hdir₁, hholds₁, hdata⟩ := (exec_file.mp hwrite).write hdir hholds
  rw [hdata rfl] at hholds₁
  obtain ⟨e, rfl, rfl⟩ | ⟨_, -, hrest⟩ := exec_inert_bind hrest trivial
  · exact .inl ⟨⟨e, rfl⟩, honly⟩
  obtain ⟨e, rfl, rfl⟩ | ⟨_, -, hrest⟩ := exec_inert_bind hrest trivial
  · exact .inl ⟨⟨e, rfl⟩, honly⟩
  rcases (exec_file.mp hrest).rename hdir₁ hholds₁ hne with ⟨e, rfl, hnot⟩ | ⟨rfl, hnew, -, hrename⟩
  · exact .inl ⟨⟨e, rfl⟩, honly.trans (hnot.mono nofun)⟩
  · exact .inr ⟨rfl, hnew, (honly.mono (by simp)).trans hrename⟩

/-- The temporary name is gone in the end if its removal does not fail. -/
theorem exec_closeAndRemove {temporary : String} {file : ℕ} {u : Unit}
    (h : Prog.Exec (FileSem may) (closeAndRemove root temporary file) disk u disk') :
    OnlyIn root [temporary] disk disk' ∧
      (disk'.stored root temporary = none ∨ may (.remove root temporary)) := by
  obtain ⟨_, disk₁, hclose, h⟩ := Prog.exec_bind.mp h
  obtain ⟨r, disk₂, hremove, h⟩ := Prog.exec_bind.mp h
  obtain ⟨-, rfl⟩ := Prog.exec_done.mp h
  obtain rfl := (Prog.exec_call.mp hclose).inert trivial
  obtain ⟨honly, ⟨-, hmay, -⟩ | ⟨-, hgone⟩⟩ := (Prog.exec_call.mp hremove).remove
  · exact ⟨honly, .inr hmay⟩
  · exact ⟨honly, .inl hgone⟩

/-- What `writePrivateFileInRoot` may have done. -/
structure Written (may : FileOp → Prop) (root name : String) (data : ByteArray)
    (disk : StackDisk) (r : Except StackError Unit) (disk' : StackDisk) : Prop where
  base : disk'.base = disk.base
  ok : r = .ok () → disk'.stored root name = some (.regular data)
  error : ∀ e, r = .error e → disk'.stored root name = disk.stored root name
  others : ∀ r n, (r = root → n ≠ name) → disk'.stored r n = disk.stored r n ∨
    r = root ∧ (∃ token, n = temporaryName token) ∧ may (.remove r n)

/-- **One file is replaced as a whole or not at all.** -/
theorem exec_writePrivateFileInRoot {data : ByteArray} {r : Except StackError Unit}
    (hname : ∀ token, temporaryName token ≠ name)
    (h : Prog.Exec (FileSem may) (writePrivateFileInRoot root name data).run disk r disk') :
    Written may root name data disk r disk' := by
  have hnothing {e : StackError} {disk' : StackDisk} (h : OnlyIn root [] disk disk') :
      Written may root name data disk (.error e) disk' :=
    ⟨h.base, nofun, fun _ _ => h.stored _ _ fun _ => List.not_mem_nil,
      fun r n _ => .inl (h.stored r n fun _ => List.not_mem_nil)⟩
  rw [writePrivateFileInRoot] at h
  rcases Prog.exec_run_bind.mp h with ⟨e, rfl, hsize⟩ | ⟨_, disk₀, hsize, hrest⟩
  · obtain ⟨-, rfl⟩ := exec_failIf.mp hsize
    exact hnothing .refl
  obtain ⟨-, rfl⟩ := exec_failIf.mp hsize
  obtain ⟨e, rfl, rfl⟩ | ⟨token, -, hrest⟩ := exec_inert_bind hrest trivial
  · exact hnothing .refl
  rcases Prog.exec_run_bind.mp hrest with ⟨e, rfl, hcreate⟩ | ⟨file, disk₁, hcreate, hrest⟩
  · rcases (exec_file.mp hcreate).createFile with ⟨-, -, hnot⟩ | ⟨-, -, ⟨⟩, -⟩
    exact hnothing hnot
  obtain ⟨-, ⟨⟩, -⟩ | ⟨file, dir, ⟨⟩, hfree, hdir, hholds, hcreated⟩ :=
    (exec_file.mp hcreate).createFile
  -- whatever comes of the rest, the temporary name is removed after it
  obtain ⟨disk₂, hfill, hcleanup⟩ := Prog.exec_deferring.mp hrest
  obtain ⟨hremoved, htemp⟩ := exec_closeAndRemove hcleanup
  have hleft : disk'.stored root (temporaryName token) =
      disk₀.stored root (temporaryName token) ∨ may (.remove root (temporaryName token)) :=
    htemp.imp_left fun hgone => hgone.trans hfree.symm
  have hothers (names : List String) (h : OnlyIn root (temporaryName token :: names) disk₀ disk')
      (r : String) (n : String) (hn : r = root → n ∉ names) :
      disk'.stored r n = disk₀.stored r n ∨
        r = root ∧ (∃ token, n = temporaryName token) ∧ may (.remove r n) := by
    by_cases htemp : r = root ∧ n = temporaryName token
    · obtain ⟨rfl, rfl⟩ := htemp
      exact hleft.imp_right fun hmay => ⟨rfl, ⟨token, rfl⟩, hmay⟩
    · exact .inl (h.stored r n fun hr hmem => by
        rcases List.mem_cons.mp hmem with rfl | hmem
        · exact htemp ⟨hr, rfl⟩
        · exact hn hr hmem)
  rcases exec_fillAndRename hdir hholds (hname token) hfill with
    ⟨⟨e, rfl⟩, hfilled⟩ | ⟨rfl, hnew, hfilled⟩
  · have hall := (hcreated.trans hfilled).trans hremoved
    refine ⟨hall.base, nofun, fun e _ => hall.stored _ _ fun _ => ?_, fun r n hn => ?_⟩
    · simpa using (hname token).symm
    · exact hothers [] hall r n fun _ => List.not_mem_nil
  · have hall := ((hcreated.mono (by simp)).trans hfilled).trans (hremoved.mono (by simp))
    refine ⟨hall.base, fun _ => ?_, nofun, fun r n hn => ?_⟩
    · rw [hremoved.stored _ _ fun _ => by simpa using (hname token).symm, hnew]
    · exact hothers [name] hall r n fun hr => by simpa using hn hr

/-! ### To open and to load -/

/-- A stack whose directory can be opened. -/
structure Openable (serverName stackName : String) (disk : StackDisk) : Prop where
  server : validateStackSegment serverName "server" = .ok ()
  stack : validateStackSegment stackName "stack" = .ok ()
  base : disk.base = true
  dir : (disk.dirs (stackPath serverName stackName)).isSome

/-- The check of a name changes nothing, and passes exactly the accepted names. -/
theorem exec_checkSegment {value label : String} {r : Except StackError Unit}
    (h : Prog.Exec (FileSem may) (checkSegment value label).run disk r disk') :
    disk' = disk ∧ (r = .ok () → validateStackSegment value label = .ok ()) ∧
      (validateStackSegment value label = .ok () → r = .ok ()) := by
  rw [checkSegment] at h
  split at h
  · rename_i text htext
    obtain ⟨rfl, rfl⟩ := Prog.exec_run_throw.mp h
    exact ⟨rfl, nofun, fun hok => by rw [htext] at hok; cases hok⟩
  · rename_i hok
    obtain ⟨rfl, rfl⟩ := Prog.exec_run_pure.mp h
    exact ⟨rfl, fun _ => hok, fun _ => rfl⟩

/-- The creation of a directory leaves all files, and the directory is there if it succeeds. -/
theorem FileSem.mkdirAll {path : String} {r : Except StackError Unit}
    (h : FileSem may (.mkdirAll path) disk r disk') :
    disk'.base = disk.base ∧ (∀ r n, disk'.stored r n = disk.stored r n) ∧
      (r = .ok () → (disk'.dirs path).isSome) := by
  rcases h with ⟨token, modTime, h⟩ | ⟨-, rfl, rfl⟩
  swap
  · exact ⟨rfl, fun _ _ => rfl, nofun⟩
  rw [FileOp.perform] at h
  split at h
  · rename_i hsome
    obtain ⟨rfl, rfl⟩ := Prod.mk.inj h
    exact ⟨rfl, fun _ _ => rfl, fun _ => hsome⟩
  · rename_i hnone
    obtain ⟨rfl, rfl⟩ := Prod.mk.inj h
    refine ⟨rfl, fun r n => ?_, fun _ => by simp⟩
    by_cases hr : r = path
    · rw [Option.not_isSome_iff_eq_none] at hnone
      simp [stored, hr, hnone, StackDir.stored, StackDir.empty, Files.empty]
    · simp [stored, Function.update_of_ne hr]

/-- So does the creation of the base directory. -/
theorem FileSem.mkdirAllBase {r : Except StackError Unit}
    (h : FileSem may .mkdirAllBase disk r disk') :
    ∀ r n, disk'.stored r n = disk.stored r n := by
  rcases h with ⟨token, modTime, h⟩ | ⟨-, -, rfl⟩
  · obtain ⟨-, rfl⟩ := Prod.mk.inj h
    exact fun _ _ => rfl
  · exact fun _ _ => rfl

/-- The answer of an operation that did not fail for a reason of its own. -/
theorem FileSem.answer {o : FileOp} {r : o.Answer} (h : FileSem may o disk r disk') :
    (∃ token modTime, r = (o.perform token modTime disk).1) ∨ r = .error .failed ∧ may o := by
  rcases h with ⟨token, modTime, h⟩ | ⟨hmay, hr, -⟩
  · exact .inl ⟨token, modTime, (congrArg Prod.fst h).symm⟩
  · exact .inr ⟨hr, hmay⟩

/-- A directory that is made or found can be opened, and no file has changed. -/
theorem exec_openStackRoot_create {serverName stackName : String} {r : Except StackError String}
    (h : Prog.Exec (FileSem may) (openStackRoot serverName stackName true).run disk r disk') :
    (∀ r n, disk'.stored r n = disk.stored r n) ∧ ∀ root, r = .ok root →
      root = stackPath serverName stackName ∧ Openable serverName stackName disk' := by
  rw [openStackRoot] at h
  rcases Prog.exec_run_bind.mp h with ⟨e, rfl, hserver⟩ | ⟨_, disk₀, hserver, hrest⟩
  · obtain rfl := (exec_checkSegment hserver).1
    exact ⟨fun _ _ => rfl, nofun⟩
  obtain ⟨rfl, hserverOk, -⟩ := exec_checkSegment hserver
  rcases Prog.exec_run_bind.mp hrest with ⟨e, rfl, hstack⟩ | ⟨_, disk₀, hstack, hrest₁⟩
  · obtain rfl := (exec_checkSegment hstack).1
    exact ⟨fun _ _ => rfl, nofun⟩
  obtain ⟨rfl, hstackOk, -⟩ := exec_checkSegment hstack
  rcases Prog.exec_run_bind.mp hrest₁ with ⟨e, rfl, hbaseDir⟩ | ⟨_, disk₁, hbaseDir, hrest₂⟩
  · exact ⟨(exec_file.mp hbaseDir).mkdirAllBase, nofun⟩
  have hsame₁ := (exec_file.mp hbaseDir).mkdirAllBase
  obtain ⟨e, rfl, rfl⟩ | ⟨_, hbase, hrest₃⟩ := exec_inert_bind hrest₂ trivial
  · exact ⟨hsame₁, nofun⟩
  rcases Prog.exec_run_bind.mp hrest₃ with ⟨e, rfl, hmkdir⟩ | ⟨_, disk₂, hmkdir, hopen⟩
  · exact ⟨fun r n => ((exec_file.mp hmkdir).mkdirAll.2.1 r n).trans (hsame₁ r n), nofun⟩
  obtain ⟨hbase₂, hsame₂, hsome⟩ := (exec_file.mp hmkdir).mkdirAll
  obtain rfl := (exec_file.mp hopen).inert trivial
  refine ⟨fun r n => (hsame₂ r n).trans (hsame₁ r n), fun root hroot => ?_⟩
  obtain ⟨token, modTime, hroot'⟩ | ⟨hfailed, -⟩ := (exec_file.mp hopen).answer
  swap
  · rw [hroot] at hfailed
    cases hfailed
  obtain ⟨token', modTime', hbase⟩ | ⟨⟨⟩, -⟩ := hbase.answer
  have hbaseTrue : disk₁.base = true := by
    by_contra hne
    simp [FileOp.perform, hne] at hbase
  have hdir := hsome rfl
  obtain ⟨dir, hdir⟩ := Option.isSome_iff_exists.mp hdir
  rw [hroot] at hroot'
  simp only [FileOp.perform, look, hdir, Option.elim_some, Except.ok.injEq] at hroot'
  exact ⟨hroot', hserverOk rfl, hstackOk rfl, hbase₂.trans hbaseTrue, by rw [hdir]; rfl⟩

/-! ### Code that only reads -/

/-- An operation was refused that may be refused. -/
def Refused {α : Type} (may : FileOp → Prop) (r : Except StackError α) : Prop :=
  r = .error .failed ∧ ∃ o, may o

/-- The code leaves the disk as it is and gives `a`, if nothing is refused. -/
def Reads {α : Type} (may : FileOp → Prop) (disk : StackDisk) (p : FileM α)
    (a : Except StackError α) : Prop :=
  ∀ r disk', Prog.Exec (FileSem may) p.run disk r disk' → disk' = disk ∧ (r = a ∨ Refused may r)

section

variable {α β : Type} {p : FileM α} {f : α → FileM β} {a : α} {b : Except StackError β}

/-- What follows goes on from there. -/
theorem Reads.goesOn {r : Except StackError β} (hp : Reads may disk p (.ok a))
    (h : Prog.Exec (FileSem may) (p >>= f).run disk r disk') :
    disk' = disk ∧ Refused may r ∨ Prog.Exec (FileSem may) (f a).run disk r disk' := by
  rcases Prog.exec_run_bind.mp h with ⟨e, rfl, hfails⟩ | ⟨a', u, hfirst, hrest⟩
  · obtain ⟨hdisk, hr | ⟨hr, hmay⟩⟩ := hp _ _ hfails
    · cases hr
    · exact .inl ⟨hdisk, by rw [Except.error.inj hr], hmay⟩
  · obtain ⟨rfl, hr | ⟨hr, -⟩⟩ := hp _ _ hfirst
    · rw [Except.ok.inj hr] at hrest
      exact .inr hrest
    · cases hr

/-- Two parts that only read, one after the other. -/
theorem Reads.bind (hp : Reads may disk p (.ok a)) (hf : Reads may disk (f a) b) :
    Reads may disk (p >>= f) b := by
  intro r disk' h
  obtain ⟨hdisk, hr⟩ | hrest := hp.goesOn h
  · exact ⟨hdisk, .inr hr⟩
  · exact hf _ _ hrest

/-- After an error the second part is not run. -/
theorem Reads.bind_error {e : StackError} (hp : Reads may disk p (.error e)) :
    Reads may disk (p >>= f) (.error e) := by
  intro r disk' h
  rcases Prog.exec_run_bind.mp h with ⟨e', rfl, hfails⟩ | ⟨a', u, hfirst, -⟩
  · obtain ⟨hdisk, hr | ⟨hr, hmay⟩⟩ := hp _ _ hfails
    · exact ⟨hdisk, .inl (by rw [Except.error.inj hr])⟩
    · exact ⟨hdisk, .inr ⟨by rw [Except.error.inj hr], hmay⟩⟩
  · obtain ⟨-, hr | ⟨hr, -⟩⟩ := hp _ _ hfirst
    · cases hr
    · cases hr

/-- To return a value reads nothing. -/
theorem reads_pure : Reads may disk (pure a : FileM α) (.ok a) := by
  intro r disk' h
  obtain ⟨rfl, rfl⟩ := Prog.exec_run_pure.mp h
  exact ⟨rfl, .inl rfl⟩

/-- A check that passes reads nothing. -/
theorem reads_failIf {c : Prop} [Decidable c] {text : String} (hc : ¬ c) :
    Reads may disk (failIf c text) (.ok ()) := by
  intro r disk' h
  obtain ⟨hr, rfl⟩ := exec_failIf.mp h
  exact ⟨rfl, .inl (by simpa [hc] using hr)⟩

/-- Nor does the check of an accepted name. -/
theorem reads_checkSegment {value label : String}
    (hok : validateStackSegment value label = .ok ()) :
    Reads may disk (checkSegment value label) (.ok ()) := fun _ _ h =>
  ⟨(exec_checkSegment h).1, .inl ((exec_checkSegment h).2.2 hok)⟩

/-- An operation that only looks gives its own answer or is refused. -/
theorem reads_file (o : FileOp) {a : o.Answer} (ho : o.Inert)
    (ha : ∀ token modTime, (o.perform token modTime disk).1 = a) :
    Reads may disk (file o) a := by
  intro r disk' h
  have hsem := exec_file.mp h
  refine ⟨hsem.inert ho, ?_⟩
  obtain ⟨token, modTime, hr⟩ | ⟨hr, hmay⟩ := hsem.answer
  · exact .inl (hr.trans (ha token modTime))
  · exact .inr ⟨hr, _, hmay⟩

end

/-- The directory of a stack that can be opened is opened. -/
theorem reads_openStackRoot {serverName stackName : String}
    (hopen : Openable serverName stackName disk) :
    Reads may disk (openStackRoot serverName stackName false)
      (.ok (stackPath serverName stackName)) := by
  obtain ⟨dir, hdir⟩ := Option.isSome_iff_exists.mp hopen.dir
  have hbase : Reads may disk (file .openBase) (.ok ()) :=
    reads_file _ trivial fun _ _ => by simp [FileOp.perform, hopen.base]
  have hroot : Reads may disk (file (.openRoot (stackPath serverName stackName)))
      (.ok (stackPath serverName stackName)) :=
    reads_file _ trivial fun _ _ => by simp [FileOp.perform, look, hdir]
  exact (reads_checkSegment hopen.server).bind <|
    (reads_checkSegment hopen.stack).bind <| hbase.bind hroot

/-- A regular file that is stored is held by its directory. -/
theorem stored_eq_regular {data : ByteArray} (h : disk.stored root name = some (.regular data)) :
    ∃ dir file, disk.dirs root = some dir ∧ dir.Holds name file data := by
  obtain ⟨dir, hdir, hstored⟩ := Option.bind_eq_some_iff.mp h
  obtain ⟨file, hentry, hfile⟩ := Option.map_eq_some_iff.mp hstored
  split at hfile
  · rename_i hregular
    exact ⟨dir, file, hdir, hentry, hregular, by simpa using hfile⟩
  · cases hfile

/-- **A regular file within the limit is read.** -/
theorem reads_readStackFile {data : ByteArray}
    (hstored : disk.stored root name = some (.regular data)) (hsize : data.size ≤ stackFileLimit) :
    Reads may disk (readStackFile root name) (.ok data) := by
  obtain ⟨dir, opened, hdir, hholds⟩ := stored_eq_regular hstored
  have hlstat : Reads may disk (file (.lstat root name)) (.ok true) :=
    reads_file _ trivial fun _ _ => by
      simp [FileOp.perform, look, hdir, hholds.entry, hholds.regular]
  have hopen : Reads may disk (file (.openFile root name)) (.ok opened) :=
    reads_file _ trivial fun _ _ => by simp [FileOp.perform, look, hdir, hholds.entry]
  have hstat : Reads may disk (file (.stat root opened)) (.ok true) :=
    reads_file _ trivial fun _ _ => by simp [FileOp.perform, look, hdir, hholds.regular]
  have hchmod : Reads may disk (file (.chmod root opened)) (.ok ()) :=
    reads_file _ trivial fun _ _ => rfl
  have hreadAll : Reads may disk (file (.readAll root opened (stackFileLimit + 1))) (.ok data) := by
    have hle : data.data.size ≤ stackFileLimit + 1 := Nat.le_succ_of_le hsize
    have hall : data.extract 0 (stackFileLimit + 1) = data :=
      ByteArray.ext (by rw [ByteArray.data_extract, Array.extract_eq_self_of_le hle])
    exact reads_file _ trivial fun _ _ => by simp [FileOp.perform, look, hdir, hholds.data, hall]
  exact hlstat.bind <| (reads_failIf (by simp)).bind <| hopen.bind <| hstat.bind <|
    (reads_failIf (by simp)).bind <| hchmod.bind <| hreadAll.bind <|
    (reads_failIf (Nat.not_lt.mpr hsize)).bind reads_pure

/-- A file that is not there is seen not to be there. -/
theorem reads_readStackFile_none (hstored : disk.stored root name = none)
    (hdir : (disk.dirs root).isSome) :
    Reads may disk (readStackFile root name) (.error .notExist) := by
  obtain ⟨dir, hdir⟩ := Option.isSome_iff_exists.mp hdir
  have hentry : dir.files.entry name = none := by
    simpa [stored, hdir, StackDir.stored] using hstored
  have hlstat : Reads may disk (file (.lstat root name)) (.error .notExist) :=
    reads_file _ trivial fun _ _ => by simp [FileOp.perform, look, hdir, hentry]
  exact hlstat.bind_error

/-- The environment file may be missing. -/
theorem reads_readEnv {env : Option ByteArray}
    (hstored : disk.stored root ".env" = env.map .regular)
    (hsize : ∀ e, env = some e → e.size ≤ stackFileLimit) (hdir : (disk.dirs root).isSome) :
    Reads may disk (readEnv root) (.ok env) := by
  intro r disk' h
  rw [readEnv] at h
  cases env with
  | none =>
      have hread : Reads may disk
          (do
            let env ← readStackFile root ".env"
            pure (some env)) (.error .notExist) :=
        (reads_readStackFile_none hstored hdir).bind_error
      rcases Prog.exec_run_tryCatch.mp h with ⟨a, rfl, hok⟩ | ⟨e, u, herror, hcaught⟩
      · obtain ⟨-, hr | ⟨hr, -⟩⟩ := hread _ _ hok
        · cases hr
        · cases hr
      obtain ⟨rfl, he | ⟨he, hmay⟩⟩ := hread _ _ herror
      · cases he
        exact reads_pure _ _ hcaught
      · cases he
        obtain ⟨rfl, rfl⟩ := Prog.exec_run_throw.mp hcaught
        exact ⟨rfl, .inr ⟨rfl, hmay⟩⟩
  | some e =>
      have hread : Reads may disk
          (do
            let env ← readStackFile root ".env"
            pure (some env)) (.ok (some e)) :=
        (reads_readStackFile hstored (hsize e rfl)).bind reads_pure
      rcases Prog.exec_run_tryCatch.mp h with ⟨a, rfl, hok⟩ | ⟨e', u, herror, hcaught⟩
      · exact hread _ _ hok
      obtain ⟨rfl, he | ⟨he, hmay⟩⟩ := hread _ _ herror
      · cases he
      · cases he
        obtain ⟨rfl, rfl⟩ := Prog.exec_run_throw.mp hcaught
        exact ⟨rfl, .inr ⟨rfl, hmay⟩⟩

/-- A load gives what is stored, with whatever time the Compose file has. -/
def Gives (serverName stackName : String) (composeYml : ByteArray) (env : Option ByteArray)
    (disk : StackDisk) : Prop :=
  let detail (updatedAt : String) : StackDetail :=
    ⟨stackName, composeYml, env.getD ByteArray.empty, env.isSome, updatedAt⟩
  (∃ updatedAt disk', Prog.Exec (FileSem fun _ => False)
    (loadStackDetail serverName stackName).run disk (.ok (detail updatedAt)) disk') ∧
  ∀ may r disk', Prog.Exec (FileSem may) (loadStackDetail serverName stackName).run disk r disk' →
    (∃ updatedAt, r = .ok (detail updatedAt)) ∨ Refused may r

/-- A load of a stored stack gives what is stored, or an operation was refused. -/
theorem exec_loadStackDetail {serverName stackName : String} {composeYml : ByteArray}
    {env : Option ByteArray} (hopen : Openable serverName stackName disk)
    (hcompose : disk.stored (stackPath serverName stackName) "docker-compose.yml" =
      some (.regular composeYml))
    (henv : disk.stored (stackPath serverName stackName) ".env" = env.map .regular)
    (hsize : composeYml.size ≤ stackFileLimit)
    (hsizeEnv : ∀ e, env = some e → e.size ≤ stackFileLimit) {r : Except StackError StackDetail}
    (h : Prog.Exec (FileSem may) (loadStackDetail serverName stackName).run disk r disk') :
    (∃ updatedAt,
      r = .ok ⟨stackName, composeYml, env.getD ByteArray.empty, env.isSome, updatedAt⟩) ∨
      Refused may r := by
  rw [loadStackDetail] at h
  obtain ⟨-, hr⟩ | hload := (reads_openStackRoot hopen).goesOn h
  · exact .inr hr
  rw [loadStackDetailFromRoot] at hload
  have hchmod : Reads may disk (file (.chmodDir (stackPath serverName stackName))) (.ok ()) :=
    reads_file _ trivial fun _ _ => rfl
  obtain ⟨-, hr⟩ | hload := hchmod.goesOn hload
  · exact .inr hr
  obtain ⟨-, hr⟩ | hload := (reads_readStackFile hcompose hsize).goesOn hload
  · exact .inr hr
  obtain ⟨-, hr⟩ | hload := (reads_readEnv henv hsizeEnv hopen.dir).goesOn hload
  · exact .inr hr
  -- the time is left out if it cannot be had
  rcases Prog.exec_run_bind.mp hload with ⟨e, rfl, htime⟩ | ⟨updatedAt, u, -, hpure⟩
  · rcases Prog.exec_run_tryCatch.mp htime with ⟨a, ha, -⟩ | ⟨e', u, -, hcaught⟩
    · cases ha
    · cases (Prog.exec_run_pure.mp hcaught).1
  · exact .inl ⟨updatedAt, (Prog.exec_run_pure.mp hpure).1⟩

/-- So a load gives it if nothing is refused. -/
theorem gives_of_stored {serverName stackName : String} {composeYml : ByteArray}
    {env : Option ByteArray} (hopen : Openable serverName stackName disk)
    (hcompose : disk.stored (stackPath serverName stackName) "docker-compose.yml" =
      some (.regular composeYml))
    (henv : disk.stored (stackPath serverName stackName) ".env" = env.map .regular)
    (hsize : composeYml.size ≤ stackFileLimit)
    (hsizeEnv : ∀ e, env = some e → e.size ≤ stackFileLimit) :
    Gives serverName stackName composeYml env disk := by
  refine ⟨?_, fun may r disk' => exec_loadStackDetail hopen hcompose henv hsize hsizeEnv⟩
  -- without a refusal it comes to an end, and with a result
  obtain ⟨r, disk', hrun⟩ : ∃ r disk', Prog.Exec (FileSem fun _ => False)
      (loadStackDetail serverName stackName).run disk r disk' :=
    Prog.exists_exec (fun o s => ⟨_, _, .inl ⟨"", "", rfl⟩⟩) _ _
  obtain ⟨updatedAt, rfl⟩ | ⟨-, o, ⟨⟩⟩ :=
    exec_loadStackDetail hopen hcompose henv hsize hsizeEnv hrun
  exact ⟨updatedAt, disk', hrun⟩

/-! ### To save -/

/-- A temporary file has neither name: the first letters are not those. -/
theorem temporaryName_ne {name : String} (hname : name ∈ ["docker-compose.yml", ".env"])
    (token : String) : temporaryName token ≠ name := by
  have hchars (front back : String) : front.toList <+: (front ++ token ++ back).toList := by
    simp
  have hnot : ∀ name ∈ ["docker-compose.yml", ".env"],
      ¬ ".contiwatch-stack-".toList <+: name.toList := by
    decide
  intro heq
  exact hnot name hname (heq ▸ hchars ".contiwatch-stack-" ".tmp")

/-- Writing one of the two files leaves the other one. -/
theorem Written.stored_of_ne {data : ByteArray} {r : Except StackError Unit} {other : String}
    (h : Written may root name data disk r disk') (hne : other ≠ name)
    (hother : other ∈ ["docker-compose.yml", ".env"]) :
    disk'.stored root other = disk.stored root other := by
  obtain hkept | ⟨-, ⟨token, htoken⟩, -⟩ := h.others root other fun _ => hne
  · exact hkept
  · exact absurd htoken.symm (temporaryName_ne hother token)

/-- What becomes of the environment file. -/
theorem exec_saveEnv {env : ByteArray} {useEnv : Bool} {r : Except StackError Unit}
    (h : Prog.Exec (FileSem may) (saveEnv root env useEnv).run disk r disk') :
    disk'.base = disk.base ∧
      (∀ e, r = .error e → disk'.stored root ".env" = disk.stored root ".env") ∧
      (r = .ok () → disk'.stored root ".env" = if useEnv then some (.regular env) else none) ∧
      ∀ r n, (r = root → n ≠ ".env") → disk'.stored r n = disk.stored r n ∨
        r = root ∧ (∃ token, n = temporaryName token) ∧ may (.remove r n) := by
  cases useEnv with
  | true =>
      have hwritten := exec_writePrivateFileInRoot (temporaryName_ne (by simp)) h
      exact ⟨hwritten.base, hwritten.error, hwritten.ok, hwritten.others⟩
  | false =>
      have hsame {disk' : StackDisk} (h : OnlyIn root [".env"] disk disk') (r n : String)
          (hn : r = root → n ≠ ".env") : disk'.stored r n = disk.stored r n :=
        h.stored r n fun hr => by simpa using hn hr
      rcases Prog.exec_run_tryCatch.mp h with ⟨a, rfl, hremove⟩ | ⟨e, u, hremove, hcaught⟩
      · obtain ⟨honly, ⟨hr, -⟩ | ⟨-, hgone⟩⟩ := (exec_file.mp hremove).remove
        · cases hr
        · exact ⟨honly.base, nofun, fun _ => hgone, fun r n hn => .inl (hsame honly r n hn)⟩
      obtain ⟨honly, ⟨he, -, rfl⟩ | ⟨he, hgone⟩⟩ := (exec_file.mp hremove).remove
      · cases he
        obtain ⟨rfl, rfl⟩ := Prog.exec_run_throw.mp hcaught
        exact ⟨rfl, fun _ _ => rfl, nofun, fun _ _ _ => .inl rfl⟩
      · obtain rfl : e = .notExist := by simpa using he
        obtain ⟨rfl, rfl⟩ := Prog.exec_run_pure.mp hcaught
        exact ⟨honly.base, nofun, fun _ => hgone, fun r n hn => .inl (hsame honly r n hn)⟩

/-- What `saveStackFiles` may have done. -/
structure StackSaved (may : FileOp → Prop) (serverName stackName : String)
    (composeYml env : ByteArray) (useEnv : Bool) (disk : StackDisk) (r : Except StackError Unit)
    (disk' : StackDisk) : Prop where
  envKept : ∀ e, r = .error e → disk'.stored (stackPath serverName stackName) ".env" =
    disk.stored (stackPath serverName stackName) ".env"
  composeKept : ∀ e, r = .error e →
    disk'.stored (stackPath serverName stackName) "docker-compose.yml" =
        disk.stored (stackPath serverName stackName) "docker-compose.yml" ∨
      disk'.stored (stackPath serverName stackName) "docker-compose.yml" =
        some (.regular composeYml) ∧
      ∃ before, before.stored (stackPath serverName stackName) "docker-compose.yml" =
          some (.regular composeYml) ∧
        Prog.Exec (FileSem may) (saveEnv (stackPath serverName stackName) env useEnv).run before r
          disk'
  gives : r = .ok () →
    Gives serverName stackName composeYml (if useEnv then some env else none) disk'
  others : ∀ r n, (r = stackPath serverName stackName → n ≠ "docker-compose.yml" ∧ n ≠ ".env") →
    disk'.stored r n = disk.stored r n ∨
      r = stackPath serverName stackName ∧ (∃ token, n = temporaryName token) ∧ may (.remove r n)

/-- What a save may have done. -/
theorem exec_saveStackFiles {serverName stackName : String} {composeYml env : ByteArray}
    {useEnv : Bool} {r : Except StackError Unit}
    (h : Prog.Exec (FileSem may)
      (saveStackFiles serverName stackName composeYml env useEnv).run disk r disk') :
    StackSaved may serverName stackName composeYml env useEnv disk r disk' := by
  rw [saveStackFiles] at h
  rcases Prog.exec_run_bind.mp h with ⟨e, rfl, hsize⟩ | ⟨_, disk₀, hsize, hrest⟩
  · obtain ⟨-, rfl⟩ := exec_failIf.mp hsize
    exact ⟨fun _ _ => rfl, fun _ _ => .inl rfl, nofun, fun _ _ _ => .inl rfl⟩
  obtain ⟨hlimit, rfl⟩ := exec_failIf.mp hsize
  rcases Prog.exec_run_bind.mp hrest with ⟨e, rfl, hroot⟩ | ⟨root, disk₁, hroot, hrest₁⟩
  · have hsame := (exec_openStackRoot_create hroot).1
    exact ⟨fun _ _ => hsame _ _, fun _ _ => .inl (hsame _ _), nofun,
      fun _ _ _ => .inl (hsame _ _)⟩
  obtain ⟨hsame, hgives⟩ := exec_openStackRoot_create hroot
  obtain ⟨rfl, hopen⟩ := hgives root rfl
  obtain ⟨e, rfl, rfl⟩ | ⟨_, -, hrest₂⟩ := exec_inert_bind hrest₁ trivial
  · exact ⟨fun _ _ => hsame _ _, fun _ _ => .inl (hsame _ _), nofun,
      fun _ _ _ => .inl (hsame _ _)⟩
  rcases Prog.exec_run_bind.mp hrest₂ with ⟨e, rfl, hcompose⟩ | ⟨_, disk₂, hcompose, henv⟩
  · have hwritten := exec_writePrivateFileInRoot (temporaryName_ne (by simp)) hcompose
    refine ⟨fun e _ => ?_, fun e _ => .inl ?_, nofun, fun r n hn => ?_⟩
    · rw [hwritten.stored_of_ne (by simp) (by simp), hsame]
    · rw [hwritten.error _ rfl, hsame]
    · rw [← hsame r n]
      exact hwritten.others r n fun hr => (hn hr).1
  have hwritten := exec_writePrivateFileInRoot (temporaryName_ne (by simp)) hcompose
  obtain ⟨hbase, henvError, henvOk, hothers⟩ := exec_saveEnv henv
  -- the Compose file is the new one from here on
  have hnew : disk'.stored (stackPath serverName stackName) "docker-compose.yml" =
      some (.regular composeYml) := by
    obtain hkept | ⟨-, ⟨token, htoken⟩, -⟩ := hothers _ "docker-compose.yml" fun _ => by simp
    · rw [hkept, hwritten.ok rfl]
    · exact absurd htoken.symm (temporaryName_ne (by simp) token)
  refine ⟨fun e he => ?_, fun _ _ => .inr ⟨hnew, disk₂, hwritten.ok rfl, henv⟩, fun hok => ?_,
    fun r n hn => ?_⟩
  · rw [henvError e he, hwritten.stored_of_ne (by simp) (by simp), hsame]
  · have hdir : (disk'.dirs (stackPath serverName stackName)).isSome := by
      obtain ⟨dir, file, hdir, -⟩ := stored_eq_regular hnew
      rw [hdir]
      rfl
    have hsizes : composeYml.size ≤ stackFileLimit ∧ (useEnv → env.size ≤ stackFileLimit) := by
      by_contra hlarge
      have hcond : stackFileLimit < composeYml.size ∨ useEnv ∧ stackFileLimit < env.size := by
        rw [Classical.not_and_iff_not_or_not, Nat.not_le, Classical.not_imp, Nat.not_le] at hlarge
        exact hlarge
      rw [if_pos hcond] at hlimit
      cases hlimit
    refine gives_of_stored ⟨hopen.server, hopen.stack, ?_, hdir⟩ hnew ?_ hsizes.1 ?_
    · rw [hbase, hwritten.base, hopen.base]
    · rw [henvOk hok]
      cases useEnv <;> rfl
    · intro e he
      cases useEnv with
      | false => cases he
      | true =>
          cases he
          exact hsizes.2 rfl
  · obtain hkept | hleft := hothers r n fun hr => (hn hr).2
    · rw [hkept, ← hsame r n]
      exact hwritten.others r n fun hr => (hn hr).1
    · exact .inr hleft

/-- **To save the files of a stack.** After an error the environment file is as it was, and the
Compose file is as it was, or it is the new one and the change of the environment file has failed;
after a save without an error a load gives what was saved; no other file is changed, and a
temporary one stays only if its removal may fail. -/
theorem saveStackFiles_cases (may : FileOp → Prop) (serverName stackName : String)
    (composeYml env : ByteArray) (useEnv : Bool) (disk disk' : StackDisk)
    (r : Except StackError Unit)
    (h : Prog.Exec (FileSem may)
      (saveStackFiles serverName stackName composeYml env useEnv).run disk r disk') :
    (∀ e, r = .error e →
      disk'.stored (stackPath serverName stackName) ".env" =
        disk.stored (stackPath serverName stackName) ".env" ∧
      (disk'.stored (stackPath serverName stackName) "docker-compose.yml" =
          disk.stored (stackPath serverName stackName) "docker-compose.yml" ∨
        disk'.stored (stackPath serverName stackName) "docker-compose.yml" =
          some (.regular composeYml) ∧
        ∃ before, before.stored (stackPath serverName stackName) "docker-compose.yml" =
            some (.regular composeYml) ∧
          Prog.Exec (FileSem may) (saveEnv (stackPath serverName stackName) env useEnv).run before
            (.error e) disk')) ∧
    (r = .ok () →
      Gives serverName stackName composeYml (if useEnv then some env else none) disk') ∧
    ∀ root name, (root = stackPath serverName stackName →
        name ≠ "docker-compose.yml" ∧ name ≠ ".env") →
      disk'.stored root name = disk.stored root name ∨
        root = stackPath serverName stackName ∧ (∃ token, name = temporaryName token) ∧
          may (.remove root name) := by
  have hsaved := exec_saveStackFiles h
  refine ⟨fun e he => ⟨hsaved.envKept e he, ?_⟩, hsaved.gives, hsaved.others⟩
  exact he ▸ hsaved.composeKept e he

/-! ### Saves of one stack -/

/-- A file system that refuses some operations, and gives every token and time as the same. -/
def FileOp.answer (fails : FileOp → Bool) (o : FileOp) (disk : StackDisk) :
    o.Answer × StackDisk :=
  if fails o then (.error .failed, disk) else o.perform "0" "" disk

/-- The answers are those of a file system on which these operations may fail. -/
theorem FileOp.sem_answer (fails : FileOp → Bool) (o : FileOp) (disk : StackDisk) :
    FileSem (fun o => fails o = true) o disk (o.answer fails disk).1 (o.answer fails disk).2 := by
  rw [FileOp.answer]
  split
  · rename_i hfails
    refine .inr ⟨hfails, rfl, ?_⟩
    cases o <;> first
      | rfl
      | exact .inl rfl
  · exact .inl ⟨"0", "", rfl⟩

/-- A stack with both files. -/
def oldStack : StackDisk where
  base := true
  dirs := Function.update (fun _ => none) "local/web" <|
    let compose := (StackDir.empty.create "docker-compose.yml").2.write 0 "image: a".toUTF8
    some ((compose.create ".env").2.write 1 "TAG=a".toUTF8)

/-- The stack is saved anew. -/
def saveWeb (fails : FileOp → Bool) (env : ByteArray) (useEnv : Bool) :
    Except StackError Unit × StackDisk :=
  (saveStackFiles "local" "web" "image: b".toUTF8 env useEnv).run.eval (FileOp.answer fails)
    oldStack

/-- The save of the sample, with these answers. -/
theorem exec_saveWeb (fails : FileOp → Bool) (env : ByteArray) (useEnv : Bool) :
    Prog.Exec (FileSem fun o => fails o = true)
      (saveStackFiles "local" "web" "image: b".toUTF8 env useEnv).run oldStack
      (saveWeb fails env useEnv).1 (saveWeb fails env useEnv).2 :=
  Prog.exec_eval (FileOp.sem_answer fails) _ _

/-- The temporary file cannot become the environment file. -/
def failsRename : FileOp → Bool
  | .rename _ _ new => new = ".env"
  | _ => false

/-- Both files are saved; or the second one is not: it is as it was, and its temporary file is
gone. -/
theorem saveStackFiles_cases_both :
    (∃ disk', Prog.Exec (FileSem fun _ => false = true)
        (saveStackFiles "local" "web" "image: b".toUTF8 "TAG=b".toUTF8 true).run oldStack
        (.ok ()) disk' ∧
      Gives "local" "web" "image: b".toUTF8 (some "TAG=b".toUTF8) disk') ∧
    ∃ disk' e, Prog.Exec (FileSem fun o => failsRename o = true)
        (saveStackFiles "local" "web" "image: b".toUTF8 "TAG=b".toUTF8 true).run oldStack
        (.error e) disk' ∧
      disk'.stored "local/web" ".env" = some (.regular "TAG=a".toUTF8) ∧
      disk'.stored "local/web" (temporaryName "0") = none := by
  have hsaved := exec_saveWeb (fun _ => false) "TAG=b".toUTF8 true
  have hfailed := exec_saveWeb failsRename "TAG=b".toUTF8 true
  have herror : (saveWeb failsRename "TAG=b".toUTF8 true).1 = .error .failed := rfl
  obtain ⟨hkept, -, hothers⟩ := saveStackFiles_cases _ _ _ _ _ _ _ _ _ hfailed
  refine ⟨⟨_, hsaved, (saveStackFiles_cases _ _ _ _ _ _ _ _ _ hsaved).2.1 rfl⟩, _, .failed,
    herror ▸ hfailed, (hkept _ herror).1, ?_⟩
  obtain hsame | ⟨-, -, hmay⟩ := hothers "local/web" (temporaryName "0") fun _ => by decide
  · exact hsame
  · exact absurd hmay Bool.false_ne_true

/-- The environment file cannot be removed. -/
def failsEnv : FileOp → Bool
  | .remove _ name => name = ".env"
  | _ => false

/-- **The new Compose file beside the old environment file.** The save returns an error. -/
theorem compose_file_stays_new : ∃ disk' e,
    Prog.Exec (FileSem fun o => failsEnv o = true)
      (saveStackFiles "local" "web" "image: b".toUTF8 ByteArray.empty false).run oldStack
      (.error e) disk' ∧
    oldStack.stored "local/web" "docker-compose.yml" = some (.regular "image: a".toUTF8) ∧
    disk'.stored "local/web" "docker-compose.yml" = some (.regular "image: b".toUTF8) ∧
    disk'.stored "local/web" ".env" = some (.regular "TAG=a".toUTF8) ∧
    "image: a".toUTF8 ≠ "image: b".toUTF8 :=
  ⟨_, _, exec_saveWeb failsEnv ByteArray.empty false, rfl, rfl, rfl,
    fun h => absurd (congrArg ByteArray.data h) (by decide)⟩

end Contiwatch
