import GenericTests.Lib.Vectored

/-!
# iovec_demo.c: the four demos that gather and scatter

Each demo writes two strings as one sequence of bytes and reads them back into segments of
other lengths. They measure what to show in three ways: the return value, `strlen` of a zeroed
array, and `msg_len`. The memory before a demo is arbitrary.
-/
namespace GenericTests.IovecDemo

open GenericTests.CString GenericTests.Memory GenericTests.Vectored

/-- The calls whose failure ends the program. -/
inductive Op where
  | pipe
  | writev
  | readv
  | mkstemp
  | pwritev
  | preadv
  | socketpair
  | sendmsg
  | recvmsg
  | sendmmsg
  | recvmmsg
  deriving DecidableEq

/-- A call, and `die` with its name if it fails. -/
def call (fails : Op → Bool) (op : Op) : Except Op Unit :=
  if fails op then .error op else .ok ()

/-- `"%s: [%.*s]\n"` -/
def shownLine (tag text : List Byte) : List Byte := tag ++ ascii ": [" ++ text ++ ascii "]\n"

def showBuf (tag : List Byte) (m : Mem) (buf n : Nat) : List Byte := shownLine tag (atMost m buf n)

/-- The bytes that two strings are written as. -/
def written (first second : List Byte) : List Byte :=
  gather [stringSegment first, stringSegment second]

/-- Two arrays `char b1[32], b2[32]`. -/
structure Arrays where
  b1 : Nat
  b2 : Nat
  apart : b1 + 32 ≤ b2 ∨ b2 + 32 ≤ b1

/-- `= {0}` on both. -/
def Arrays.cleared (arrays : Arrays) (m : Mem) : Mem :=
  (m.write arrays.b1 (List.replicate 32 0)).write arrays.b2 (List.replicate 32 0)

theorem written_eq {first second : List Byte} (noNul : (0 : Byte) ∉ first ++ second) :
    written first second = first ++ second := by
  rw [List.mem_append, not_or] at noNul
  rw [written, stringSegment_eq first noNul.1, stringSegment_eq second noNul.2]
  simp [gather]

section Preadv

variable (arrays : Arrays) (m : Mem)

end Preadv

section Batch

variable (rbufs : Nat) (payload : Nat → List Byte) (m : Mem)

end Batch

end GenericTests.IovecDemo
