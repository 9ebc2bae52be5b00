import GenericTests.Lib.Memory

/-!
# Sparse files and file offsets

A file is a sequence of bytes with holes that read as 0. A descriptor has an offset of its
own: the positional calls and truncation leave it alone, and it may stay behind the end.
-/
namespace GenericTests.Files

open GenericTests.CString GenericTests.Memory

structure File where
  size : Nat
  byte : Mem
  beyond : ∀ i, size ≤ i → byte i = 0

namespace File

def empty : File := ⟨0, fun _ => 0, fun _ _ => rfl⟩

/-- Write at a position; what lies between the old end and the position is a hole. -/
def write (f : File) (position : Nat) (src : List Byte) : File where
  -- a write of no bytes does not extend the file
  size := if src = [] then f.size else max f.size (position + src.length)
  byte := f.byte.write position src
  beyond i h := by
    have outside : i < position ∨ position + src.length ≤ i := by
      split at h
      next nothing =>
        subst nothing
        simp only [List.length_nil]
        omega
      next => omega
    rw [f.byte.write_outside position i src outside]
    refine f.beyond i ?_
    split at h
    · exact h
    · omega

def truncate (f : File) (size : Nat) : File where
  size := size
  byte i := if i < size then f.byte i else 0
  beyond i h := if_neg (by omega)

/-- At most `count` bytes from a position on. -/
def read (f : File) (position count : Nat) : List Byte :=
  f.byte.bytes position (min count (f.size - position))

def content (f : File) : List Byte := f.read 0 f.size

end File

/-- An open file and the offset of its descriptor. -/
structure Descriptor where
  file : File
  offset : Nat

namespace Descriptor

/-- `open` with `O_CREAT | O_TRUNC` -/
def opened : Descriptor := ⟨.empty, 0⟩

def pwrite (d : Descriptor) (src : List Byte) (position : Nat) : Descriptor :=
  { d with file := d.file.write position src }

def pread (d : Descriptor) (count position : Nat) : List Byte := d.file.read position count

/-- `lseek` with `SEEK_SET` -/
def seekSet (d : Descriptor) (offset : Nat) : Descriptor := { d with offset := offset }

/-- `lseek` with `SEEK_END` -/
def seekEnd (d : Descriptor) (distance : Nat) : Descriptor :=
  { d with offset := d.file.size + distance }

def truncate (d : Descriptor) (size : Nat) : Descriptor := { d with file := d.file.truncate size }

/-- Write at the offset, and advance it. -/
def write (d : Descriptor) (src : List Byte) : Descriptor :=
  ⟨d.file.write d.offset src, d.offset + src.length⟩

/-- `sendfile` with a pointer to an offset: the input's own offset does not count. -/
def sendfile (out input : Descriptor) (position count : Nat) : Descriptor :=
  out.write (input.file.read position count)

end Descriptor

/-! ### What is in a file -/

theorem File.content_eq (f : File) : f.content = f.byte.bytes 0 f.size := by
  rw [content, read, Nat.sub_zero, Nat.min_self]

theorem File.read_eq (f : File) (count : Nat) : f.read 0 count = f.content.take count := by
  rw [content_eq, Mem.take_bytes, read, Nat.sub_zero]

/-- A write to an empty file: a hole up to the position, and then the bytes. -/
theorem File.content_write_empty (f : File) (position : Nat) (src : List Byte) (isEmpty : f.size = 0)
    (some : src ≠ []) : (f.write position src).content = List.replicate position 0 ++ src := by
  have size : (f.write position src).size = position + src.length := by
    rw [write]
    simp only [if_neg some, isEmpty]
    omega
  have hole : f.byte.bytes 0 position = List.replicate position 0 := by
    rw [List.eq_replicate_iff, Mem.length_bytes]
    refine ⟨rfl, fun b member => ?_⟩
    obtain ⟨i, -, rfl⟩ := List.mem_map.mp member
    exact f.beyond _ (by omega)
  rw [content_eq, size, Mem.bytes_add]
  simp only [write]
  rw [f.byte.bytes_write_disjoint 0 position position src (.inl (by omega)), hole, Nat.zero_add,
    f.byte.bytes_write_self position src]

end GenericTests.Files
