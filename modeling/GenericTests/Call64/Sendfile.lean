import GenericTests.Lib.Files

/-!
# call64.c: writing again after the truncation, and sendfile

`lseek64` leaves the descriptor of test64.tmp at the end of the first text. Neither
truncation moves it, so the second text is written there, behind a hole, and the copy starts
with the hole.
-/
namespace GenericTests.Call64

open GenericTests.CString GenericTests.Files

/-- A string literal that is not empty. -/
structure Text where
  bytes : List Byte
  nonempty : bytes ≠ []
  noNul : (0 : Byte) ∉ bytes

/-- `strlen(text)` bytes from the text on. -/
def Text.written (text : Text) : List Byte := cstr (text.bytes ++ [0])

/-- The two ways to copy, by what the headers define. -/
inductive Copy where
  /-- `SYS_sendfile64` -/
  | sendfile64
  /-- `SYS_sendfile`, with an `lseek64` to the start before it -/
  | sendfile
  deriving DecidableEq

/-- What the steps up to the copy leave behind and print. -/
structure Outcome where
  wrote : Nat
  read : List Byte
  endOffset : Nat
  /-- test64.tmp -/
  fd : Descriptor
  /-- test64.out -/
  fd2 : Descriptor
  sent : Nat

/-- The steps of `main` from `open64` to the copy, with every call successful. -/
def copyAgain (copy : Copy) (testdata again : Text) (writeOff : Nat) : Outcome :=
  let fd := Descriptor.opened
  let fd := fd.pwrite testdata.written writeOff
  let readn := fd.pread (4096 - 1) writeOff
  let fd := fd.seekEnd 0
  let offset := fd.offset
  -- ftruncate64(fd, 0) and truncate64(tmpname, 0) reach the same file
  let fd := fd.truncate 0
  let fd := fd.truncate 0
  let fd := fd.write again.written
  let fd := match copy with
    | .sendfile64 => fd
    | .sendfile => fd.seekSet 0
  let fd2 := Descriptor.opened.sendfile fd 0 4096
  ⟨testdata.written.length, cstr (readn ++ [0]), offset, fd, fd2, fd2.offset⟩

theorem Text.written_eq (text : Text) : text.written = text.bytes :=
  cstr_append_nul text.bytes [] text.noNul

/-! ### The source file -/

/-- The offset that every later call leaves alone. -/
theorem copyAgain_endOffset (copy : Copy) (testdata again : Text) (writeOff : Nat) :
    (copyAgain copy testdata again writeOff).endOffset = writeOff + testdata.bytes.length := by
  have some := testdata.nonempty
  simp only [copyAgain, Descriptor.pwrite, Descriptor.opened, Descriptor.seekEnd, File.write, File.empty,
    Text.written_eq, if_neg some]
  omega

/-- test64.tmp at the time of the copy. -/
theorem copyAgain_source (copy : Copy) (testdata again : Text) (writeOff : Nat) :
    (copyAgain copy testdata again writeOff).fd.file.content =
      List.replicate (writeOff + testdata.bytes.length) 0 ++ again.bytes := by
  rw [← copyAgain_endOffset copy testdata again writeOff, ← again.written_eq]
  have some : again.written ≠ [] := by
    rw [again.written_eq]
    exact again.nonempty
  cases copy with
  | sendfile64 => exact File.content_write_empty _ _ _ rfl some
  | sendfile => exact File.content_write_empty _ _ _ rfl some

/-- test64.out is new, so it holds what the copy reads. -/
theorem copyAgain_destination (copy : Copy) (testdata again : Text) (writeOff : Nat) :
    (copyAgain copy testdata again writeOff).fd2.file.content =
      (List.replicate (writeOff + testdata.bytes.length) 0 ++ again.bytes).take 4096 := by
  rw [← copyAgain_source copy testdata again writeOff, ← File.read_eq]
  have some : (copyAgain copy testdata again writeOff).fd.file.read 0 4096 ≠ [] := by
    rw [File.read_eq, copyAgain_source]
    simp [again.nonempty]
  exact (File.content_write_empty .empty 0 _ rfl some).trans (List.nil_append _)

/-- **The copy**: whatever the texts and the offset, test64.out starts with a byte of the
hole and is not the text written last. -/
theorem copy_differs (copy : Copy) (testdata again : Text) (writeOff : Nat) :
    (copyAgain copy testdata again writeOff).fd2.file.content =
        (List.replicate (writeOff + testdata.bytes.length) 0 ++ again.bytes).take 4096 ∧
      (copyAgain copy testdata again writeOff).fd2.file.content ≠ again.bytes := by
  have destination := copyAgain_destination copy testdata again writeOff
  refine ⟨destination, fun same => again.noNul ?_⟩
  -- the first text is not empty, so the hole is not empty either
  have positive := List.length_pos_of_ne_nil testdata.nonempty
  obtain ⟨hole, size⟩ : ∃ hole, writeOff + testdata.bytes.length = hole + 1 :=
    ⟨writeOff + testdata.bytes.length - 1, by omega⟩
  rw [← same, destination, size, List.replicate_succ]
  exact List.mem_cons_self

/-- The literals of `main`. -/
def testdata : Text := ⟨ascii "Hello from pwrite64/pread64!\n", by decide, by decide⟩

def again : Text := ⟨ascii "again\n", by decide, by decide⟩

/-- As it stands, `main` copies 4096 zeros. -/
theorem copy_of_zeros :
    (copyAgain .sendfile64 testdata again 1234567890123).fd2.file.content = List.replicate 4096 0 ∧
      (copyAgain .sendfile64 testdata again 1234567890123).fd2.file.content ≠ again.bytes := by
  have zeros : (copyAgain .sendfile64 testdata again 1234567890123).fd2.file.content =
      List.replicate 4096 0 := by
    have long : 4096 ≤ (List.replicate (1234567890123 + testdata.bytes.length) (0 : Byte)).length := by
      rw [List.length_replicate]
      omega
    rw [copyAgain_destination, List.take_append_of_le_length long, List.take_replicate]
    congr 1
  refine ⟨zeros, fun same => ?_⟩
  have lengths := congrArg List.length (zeros.symm.trans same)
  rw [List.length_replicate] at lengths
  revert lengths
  decide

end GenericTests.Call64
