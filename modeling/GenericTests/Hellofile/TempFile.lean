import GenericTests.Lib.CString
import Mathlib.Logic.Function.Basic

/-!
# hellofile.c: create_temp_file and the directory `/tmp`

The function makes a file under a name of `mkstemp`, renames it to a fixed name, and unlinks
it; then it writes a second file with a fixed name and unlinks that one. Nobody else uses the
directory meanwhile.
-/
namespace GenericTests.Hellofile

open GenericTests.CString

abbrev Name := List Byte

/-- The files of `/tmp` with their contents. -/
abbrev Dir := Name → Option (List Byte)

namespace Dir

/-- A new file, or, with `O_CREAT` alone, the one that is there. -/
def create (dir : Dir) (name : Name) : Dir :=
  Function.update dir name (some ((dir name).getD []))

/-- What the stream has in its buffer goes to the end of the file. -/
def append (dir : Dir) (name : Name) (text : List Byte) : Dir :=
  Function.update dir name ((dir name).map (· ++ text))

/-- `write` at offset 0. -/
def overwrite (dir : Dir) (name : Name) (text : List Byte) : Dir :=
  Function.update dir name ((dir name).map fun old => text ++ old.drop text.length)

/-- A file with the new name is replaced. -/
def rename (dir : Dir) (old new : Name) : Dir :=
  Function.update (Function.update dir old none) new (dir old)

/-- `unlink` and `unlinkat`; `none` if there is no such file. -/
def unlink (dir : Dir) (name : Name) : Option Dir :=
  match dir name with
  | some _ => some (Function.update dir name none)
  | none => none

end Dir

/-- What `mkstemp` makes of the template `/tmp/tempfileXXXXXX`: a name that was free. -/
structure TempFilename (dir : Dir) where
  suffix : List Byte
  length_eq : suffix.length = 6
  free : dir (ascii "tempfile" ++ suffix) = none

def TempFilename.name {dir : Dir} (temp : TempFilename dir) : Name := ascii "tempfile" ++ temp.suffix

def newFilename : Name := ascii "renamed_tempfile.txt"

def filename : Name := ascii "testfile.txt"

/-- Which calls succeed. -/
structure Calls (dir : Dir) where
  mkstemp : Option (TempFilename dir)
  fdopen : Bool
  rename : Bool
  openDir : Bool
  openat : Bool

/-- The call that `perror` names before `exit(EXIT_FAILURE)`. -/
inductive Failure where
  | mkstemp
  | fdopen
  | rename
  | unlink
  | openDir
  | openat
  | unlinkat

/-- The directory when create_temp_file returns (`none`) or exits. -/
structure Result where
  dir : Dir
  failed : Option Failure
  stdout : List Byte

/-- The literal has one byte more. -/
def testText : List Byte := (ascii "Written to /tmp/testfile.txt\n").take 28

/-- The part with `openat` and `unlinkat`. -/
def writeTestfile (dir : Dir) (openDir openat : Bool) : Result :=
  let stdout :=
    ascii "Temporary file created, modified, renamed, and deleted successfully.\n"
  if openDir then
    if openat then
      let dir := (dir.create filename).overwrite filename testText
      match dir.unlink filename with
      | some dir => ⟨dir, none, stdout⟩
      | none => ⟨dir, some .unlinkat, stdout⟩
    else ⟨dir, some .openat, stdout⟩
  else ⟨dir, some .openDir, stdout⟩

def createTempFile (dir : Dir) (calls : Calls dir) : Result :=
  match calls.mkstemp with
  | none => ⟨dir, some .mkstemp, []⟩
  | some temp =>
    let dir := dir.create temp.name
    if calls.fdopen then
      let dir := dir.append temp.name (ascii "hello\n")
      if calls.rename then
        let dir := (dir.rename temp.name newFilename).append newFilename (ascii "world\n")
        match dir.unlink newFilename with
        | some dir => writeTestfile dir calls.openDir calls.openat
        | none => ⟨dir, some .unlink, []⟩
      else ⟨dir, some .rename, []⟩
    else ⟨dir, some .fdopen, []⟩

/-! ### The two files -/

/-- Without a name, the file is gone. -/
theorem unlink_update (dir : Dir) (name : Name) (content : List Byte) :
    Dir.unlink (Function.update dir name (some content)) name = some (Function.update dir name none) := by
  rw [Dir.unlink, Function.update_self]
  simp only [Function.update_idem]

theorem update_none_eq_self_iff (dir : Dir) (name : Name) :
    Function.update dir name none = dir ↔ dir name = none := by
  rw [Function.update_eq_self_iff, eq_comm]

section TempFile

variable {dir : Dir} (temp : TempFilename dir)

theorem TempFilename.create : dir.create temp.name = Function.update dir temp.name (some []) := by
  rw [Dir.create, TempFilename.name, temp.free]
  rfl

theorem TempFilename.hello : (dir.create temp.name).append temp.name (ascii "hello\n") =
    Function.update dir temp.name (some (ascii "hello\n")) := by
  rw [temp.create, Dir.append, Function.update_self, Function.update_idem]
  rfl

/-- A file that is left under its first name is new. -/
theorem TempFilename.left_behind (content : List Byte) :
    Function.update dir temp.name (some content) ≠ dir := by
  intro same
  have there := Function.update_eq_self_iff.mp same
  rw [TempFilename.name, temp.free] at there
  cases there

/-- The renamed file takes the place of another one, and is unlinked. -/
theorem TempFilename.renamed :
    ((((dir.create temp.name).append temp.name (ascii "hello\n")).rename temp.name newFilename).append
      newFilename (ascii "world\n")).unlink newFilename =
      some (Function.update dir newFilename none) := by
  -- without its first name the file leaves no trace, even if the two names were the same
  have free : Function.update dir temp.name none = dir :=
    (update_none_eq_self_iff dir temp.name).mpr temp.free
  rw [temp.hello, Dir.rename, Function.update_self, Function.update_idem, free, Dir.append,
    Function.update_self, Function.update_idem]
  exact unlink_update _ _ _

end TempFile

theorem writeTestfile_dir (dir : Dir) (openDir openat : Bool) :
    (writeTestfile dir openDir openat).dir =
      if openDir = true ∧ openat = true then Function.update dir filename none else dir := by
  have written : ((dir.create filename).overwrite filename testText).unlink filename =
      some (Function.update dir filename none) := by
    rw [Dir.create, Dir.overwrite, Function.update_self, Function.update_idem]
    exact unlink_update _ _ _
  cases openDir with
  | false => rfl
  | true =>
    cases openat with
    | false => rfl
    | true => simp only [writeTestfile, written, if_true, and_self]

/-! ### When the directory is as before -/

theorem newFilename_ne_filename : newFilename ≠ filename := by decide

/-- The second file does not hide what became of the first one. -/
theorem both_removed_iff (dir : Dir) :
    Function.update (Function.update dir newFilename none) filename none = dir ↔
      dir newFilename = none ∧ dir filename = none := by
  constructor
  · intro same
    constructor
    · rw [← same, Function.update_of_ne newFilename_ne_filename, Function.update_self]
    · rw [← same, Function.update_self]
  · rintro ⟨first, second⟩
    rw [(update_none_eq_self_iff dir newFilename).mpr first]
    exact (update_none_eq_self_iff dir filename).mpr second

/-- **`/tmp` is as before** when create_temp_file returns or exits, if and only if `mkstemp`
fails, or the first file reaches its unlink and neither fixed name that is used was taken. -/
theorem directory_unchanged_iff (dir : Dir) (calls : Calls dir) :
    (createTempFile dir calls).dir = dir ↔
      calls.mkstemp = none ∨
      calls.fdopen = true ∧ calls.rename = true ∧ dir newFilename = none ∧
        (calls.openDir = true → calls.openat = true → dir filename = none) := by
  cases made : calls.mkstemp with
  | none => simp only [createTempFile, made, true_or]
  | some temp =>
    simp only [createTempFile, made, reduceCtorEq, false_or]
    cases opened : calls.fdopen with
    | false =>
      simp only [Bool.false_eq_true, if_false, false_and, iff_false, temp.create]
      exact temp.left_behind _
    | true =>
      cases moved : calls.rename with
      | false =>
        simp only [if_true, Bool.false_eq_true, if_false, false_and, and_false, iff_false, temp.hello]
        exact temp.left_behind _
      | true =>
        -- the first file is gone; what is left is a question of the two fixed names
        simp only [if_true, temp.renamed, writeTestfile_dir, true_and]
        split
        next both =>
          rw [both_removed_iff]
          simp only [both, forall_const]
        next neither =>
          rw [update_none_eq_self_iff]
          simp only [← and_imp, neither, false_implies, and_true]

/-- `fdopen` fails in an empty directory: the temporary file stays. -/
theorem not_directory_unchanged :
    ¬ ∀ calls : Calls (fun _ => none), (createTempFile (fun _ => none) calls).dir = fun _ => none := by
  intro claim
  have same := claim ⟨some ⟨ascii "AbCdEf", rfl, rfl⟩, false, true, true, true⟩
  have left := congrFun same (ascii "tempfileAbCdEf")
  revert left
  decide

end GenericTests.Hellofile
