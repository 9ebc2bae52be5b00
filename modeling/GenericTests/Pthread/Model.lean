import GenericTests.Lib.CString
import GenericTests.Lib.Transition
import Mathlib.Logic.Function.Basic

/-!
# pthread.c and spawnthreads of forktree_and_pthread.c

The creator fills one slot of `thread_ids` for each thread, passes its address and goes on
while the threads run; then it joins them one after the other. The two sources differ in
the indentation, which only pthread.c has, and in what they print. The array is
uninitialised memory at first.
-/
namespace GenericTests.Pthread

open GenericTests.CString GenericTests.Transition

def maxThreads : Nat := 20

/-- `num_threads` after the test against `MAXTHREADS`. -/
def numThreads (requested : Int) : Int := if maxThreads < requested then maxThreads else requested

inductive Source where
  | pthread
  | spawnthreads

/-- `char pad[]="           ";` -/
def pad : List Byte := List.replicate 11 32 ++ [0]

/-- `if (i < strlen(pad)) pad[i] = b;` A negative `i` is converted to a large `size_t`. -/
def setPad (pad : List Byte) (i : Int) (b : Byte) : List Byte :=
  if 0 ≤ i ∧ i < (cstr pad).length then pad.set i.toNat b else pad

inductive Line where
  | willCreate (numThreads : Int)
  | running (threadId : Int) (pad : List Byte)
  | ready (threadId : Int)
  /-- the index (pthread.c) or the handle (spawnthreads), `*threadstatus` and the pad -/
  | joined (thread : Nat) (status : Int) (pad : List Byte)

/-- The places of print_thread_id. -/
inductive ThreadPc where
  | readId
  | malloc
  | print
  | sleep
  | printReady
  | write
  | exit
  | exited
  | joined
  deriving DecidableEq

structure Thread where
  pc : ThreadPc
  /-- the slot of `thread_ids` whose address it was given -/
  id : Nat
  threadId : Int
  /-- the block that `malloc` returned; `none` is `NULL` -/
  exitval : Option Nat

/-- One allocation; a reused address is a new block. -/
structure Block where
  owner : Nat
  value : Option Int
  frees : Nat

inductive Pc where
  | createTest (i : Nat)
  | writeSlot (i : Nat)
  | create (i : Nat)
  | joinTest (i : Nat)
  | indent (i : Nat)
  | join (i : Nat)
  | print (i : Nat) (threadstatus : Option Nat)
  | free (i : Nat) (threadstatus : Option Nat)
  | unindent (i : Nat)
  | done

structure State where
  pc : Pc
  pad : List Byte
  threadIds : Nat → Int
  /-- `threads`, the array of handles -/
  threads : Nat → Nat
  /-- the threads by their handles -/
  thread : Nat → Option Thread
  created : Nat
  block : Nat → Option Block
  allocated : Nat
  out : List Line
  /-- a null pointer or a block without a value has been dereferenced -/
  crashed : Bool

inductive Act where
  | creator
  /-- `ok`: if the thread calls `malloc`, it succeeds -/
  | thread (t : Nat) (ok : Bool)

def State.setThread (s : State) (k : Nat) (t : Thread) : State :=
  { s with thread := Function.update s.thread k (some t) }

/-- `*p` -/
def State.load (s : State) (p : Option Nat) : Option Int :=
  match p with
  | some b =>
    match s.block b with
    | some B => if B.frees = 0 then B.value else none
    | none => none
  | none => none

/-- `free(p)`; the block counts how often this happens to it. -/
def State.free (s : State) (p : Option Nat) : Nat → Option Block :=
  match p with
  | some b => Function.update s.block b ((s.block b).map fun B => { B with frees := B.frees + 1 })
  | none => s.block

section Step

variable (src : Source) (count : Int)

def creatorStep (s : State) : Option State :=
  match s.pc with
  | .createTest i => some { s with pc := if i < count then .writeSlot i else .joinTest 0 }
  | .writeSlot i =>
    some { s with pc := .create i, threadIds := Function.update s.threadIds i (i + 1) }
  | .create i => some
    { s with
      pc := .createTest (i + 1)
      threads := Function.update s.threads i s.created
      thread := Function.update s.thread s.created (some ⟨.readId, i, 0, none⟩)
      created := s.created + 1 }
  | .joinTest i => some
    { s with
      pc := if i < count then
          match src with
          | .pthread => .indent i
          | .spawnthreads => .join i
        else .done }
  | .indent i => some { s with pc := .join i, pad := setPad s.pad i 0 }
  | .join i =>
    match s.thread (s.threads i) with
    | some t =>
      if t.pc = .exited then
        some { s.setThread (s.threads i) { t with pc := .joined } with pc := .print i t.exitval }
      else none
    | none => none
  | .print i threadstatus =>
    match s.load threadstatus with
    | some v => some
      { s with
        pc := .free i threadstatus
        out := s.out ++ [match src with
          | .pthread => .joined i v (cstr s.pad)
          | .spawnthreads => .joined (s.threads i) v []] }
    | none => some { s with crashed := true }
  | .free i threadstatus => some
    { s with
      block := s.free threadstatus
      pc := match src with
        | .pthread => .unindent i
        | .spawnthreads => .joinTest (i + 1) }
  | .unindent i => some { s with pc := .joinTest (i + 1), pad := setPad s.pad i 32 }
  | .done => none

/-- print_thread_id -/
def threadStep (s : State) (k : Nat) (t : Thread) (ok : Bool) : Option State :=
  match t.pc with
  | .readId => some (s.setThread k { t with pc := .malloc, threadId := s.threadIds t.id })
  | .malloc =>
    if ok then some
      { s.setThread k { t with pc := .print, exitval := some s.allocated } with
        block := Function.update s.block s.allocated (some ⟨k, none, 0⟩)
        allocated := s.allocated + 1 }
    else some (s.setThread k { t with pc := .print, exitval := none })
  | .print => some
    { s.setThread k { t with pc := .sleep } with
      out := s.out ++ [.running t.threadId (match src with
        | .pthread => cstr (setPad pad t.threadId 0)
        | .spawnthreads => [])] }
  | .sleep => some (s.setThread k { t with pc := .printReady })
  | .printReady => some
    { s.setThread k { t with pc := .write } with out := s.out ++ [.ready t.threadId] }
  | .write =>
    match t.exitval with
    | some b => some
      { s.setThread k { t with pc := .exit } with
        block := Function.update s.block b
          ((s.block b).map fun B => { B with value := some t.threadId }) }
    | none => some { s with crashed := true }
  | .exit => some (s.setThread k { t with pc := .exited })
  | .exited | .joined => none

def step (s : State) (a : Act) : Option State :=
  if s.crashed then none else
    match a with
    | .creator => creatorStep src count s
    | .thread k ok =>
      match s.thread k with
      | some t => threadStep src s k t ok
      | none => none

/-- Before the create loop; `threadIds` and `threads` are what the arrays happen to hold. -/
def initial (threadIds : Nat → Int) (threads : Nat → Nat) : State where
  pc := .createTest 0
  pad := pad
  threadIds := threadIds
  threads := threads
  thread := fun _ => none
  created := 0
  block := fun _ => none
  allocated := 0
  out := match src with
    | .pthread => [.willCreate count]
    | .spawnthreads => []
  crashed := false

end Step

def system (src : Source) (count : Int) : System State Act where
  init s := ∃ threadIds threads, s = initial src count threadIds threads
  step := step src count

end GenericTests.Pthread
