import GenericTests.Lib.Memory

/-!
# call64.c: the walk over the entries of getdents64

The kernel lays the entries out one after the other, each as long as its `d_reclen` says.
The program walks from entry to entry and prints three fields of each.
-/
namespace GenericTests.Call64

open GenericTests.CString GenericTests.Memory

/-- The size of `dbuf`. -/
def dbufSize : Nat := 8192

/-- `offsetof(struct linux_dirent64, d_ino)` -/
def dInoField : Nat := 0

/-- `offsetof(struct linux_dirent64, d_off)` -/
def dOffField : Nat := 8

/-- `offsetof(struct linux_dirent64, d_reclen)` -/
def dReclenField : Nat := 16

/-- `offsetof(struct linux_dirent64, d_name)` -/
def dNameField : Nat := 19

section Program

variable (order : ByteOrder)

/-- An unsigned integer of `n` bytes. The memory starts with `dbuf` and goes on with what
lies behind it. -/
def load (mem : List Byte) (a n : Nat) : Nat := decode order ((mem.drop a).take n)

/-- The string that starts at `a`. -/
def stringAt (mem : List Byte) (a : Nat) : List Byte := cstr (mem.drop a)

def direntLine (name : List Byte) (ino off : BitVec 64) : List Byte :=
  ascii "  d_name=" ++ name ++ ascii ", ino=" ++ decimal ino.toNat ++ ascii ", d_off=" ++
    decimal off.toInt ++ ascii "\n"

def returnedLine (nread : Nat) : List Byte :=
  ascii "getdents64 returned " ++ decimal nread ++ ascii " bytes\n"

structure Walk where
  bpos : Nat
  stdout : List (List Byte)

/-- The body of the `while` loop, with `d` at `dbuf + bpos`. -/
def visit (mem : List Byte) (w : Walk) : Walk where
  bpos := w.bpos + load order mem (w.bpos + dReclenField) 2
  stdout := w.stdout ++ [direntLine (stringAt mem (w.bpos + dNameField))
    (BitVec.ofNat 64 (load order mem (w.bpos + dInoField) 8))
    (BitVec.ofNat 64 (load order mem (w.bpos + dOffField) 8))]

/-- `while (bpos < nread)`; `none` if the loop has not ended after `fuel` tests. -/
def walk (mem : List Byte) (nread : Nat) : Nat → Walk → Option Walk
  | 0, _ => none
  | fuel + 1, w => if w.bpos < nread then walk mem nread fuel (visit order mem w) else some w

end Program

/-! ### What the kernel writes -/

/-- A directory entry and the bytes that fill its record up. -/
structure Entry where
  ino : BitVec 64
  off : BitVec 64
  type : Byte
  name : List Byte
  padding : List Byte
  named : name ≠ []
  noNul : (0 : Byte) ∉ name
  aligned : (20 + name.length + padding.length) % 8 = 0

/-- `d_reclen` -/
def Entry.reclen (e : Entry) : Nat := 20 + e.name.length + e.padding.length

def Entry.bytes (order : ByteOrder) (e : Entry) : List Byte :=
  encode order 8 e.ino.toNat ++ (encode order 8 e.off.toNat ++ (encode order 2 e.reclen ++
    (e.type :: (e.name ++ 0 :: e.padding))))

def Entry.line (e : Entry) : List Byte := direntLine e.name e.ino e.off

theorem Entry.length_bytes (order : ByteOrder) (e : Entry) : (e.bytes order).length = e.reclen := by
  simp only [bytes, reclen, List.length_append, length_encode, List.length_cons]
  omega

/-! ### Reading one record -/

section Records

variable (order : ByteOrder)

end Records

/-- A big-endian record with three bytes of padding. -/
def sampleEntry : Entry where
  ino := 7
  off := -1
  type := 8
  name := ascii "f"
  padding := [1, 2, 3]
  named := by decide
  noNul := by decide
  aligned := by decide

end GenericTests.Call64
