import GenericTests.Forks.StatusChain
import GenericTests.Lib.Printf
import GenericTests.Lib.Stdio

/-!
# sample.c

main flushes its output, makes a child with `clone` and waits for its end. When fn returns the
child ends with `_exit`. The global `file` that fn flushes is a null pointer, since main has a
variable of this name, so each call flushes all streams; but there is none behind the last
newline.
-/
namespace GenericTests.Forks.Sample

open GenericTests.CString GenericTests.Processes GenericTests.Printf GenericTests.Stdio
open GenericTests.Transition

/-- `argv[1]`; the products that fn prints are of type `int`. -/
structure Factor where
  text : List Byte
  small : -2 ^ 31 ≤ 3 * atoi text ∧ 3 * atoi text < 2 ^ 31

def helloText : List Byte := ascii "Hello, World!\n"

/-- `Arg %d: %s` -/
def argText (i : Nat) (arg : List Byte) : List Byte := ascii "Arg " ++ decimal i ++ ascii ": " ++ arg

def infoText : List Byte := ascii "\nINFO: This code is running under child process.\n"

/-- `%d * %d = %d` -/
def productText (n i : Int) : List Byte :=
  decimal n ++ ascii " * " ++ decimal i ++ ascii " = " ++ decimal (n * i) ++ ascii "\n"

def terminatedText : List Byte := ascii "INFO: Child process terminated.\n"

/-- An iteration of the loop in fn. -/
def product (n i : Int) (k : Code Unit) : Code Unit := .printf (fun _ => productText n i) <| .fflush k

def fn (factor : Factor) : Code Unit :=
  let n := atoi factor.text
  .printf (fun _ => infoText) <|
  product n 1 <| product n 2 <| product n 3 <|
  .printf (fun _ => ascii "\n") <|
  .quit 0

/-- The loop over the arguments from `argv[i]` on. -/
def printArgs : Nat → List (List Byte) → Code Unit → Code Unit
  | _, [], k => k
  | i, arg :: args, k => .printf (fun _ => argText i arg) (printArgs (i + 1) args k)

/-- main returns nothing, so its exit status is not specified. -/
def farewell (status : Int) : Code Unit := .printf (fun _ => terminatedText) <| .exit status

/-- Behind `clone`; a `waitpid` that fails leaves the loop. -/
def parent (status : Int) : Code Unit :=
  .waitLoop .any (statusText []) (farewell status) (farewell status)

/-- main, with the arguments behind `argv[1]`, where `malloc` and `clone` succeed -/
def main (factor : Factor) (args : List (List Byte)) (status : Int) : Code Unit :=
  .printf (fun _ => helloText) <|
  printArgs 1 (factor.text :: args) <|
  .fflush <|
  .fork (fn factor) fun _ => parent status

def sample (policy : Policy) (factor : Factor) (args : List (List Byte)) (status : Int) :
    System (Table (Image Unit)) Act :=
  program policy (fun _ => false) (main factor args status) ()

/-! ### The parent -/

section Parent

variable {policy : Policy} {factor : Factor} {args : List (List Byte)} {status : Int}

end Parent

/-! ### The child -/

/-- What fn prints before the last newline. -/
def childText (factor : Factor) : List Byte :=
  infoText ++ productText (atoi factor.text) 1 ++ productText (atoi factor.text) 2 ++
    productText (atoi factor.text) 3

section Child

variable {policy : Policy} {factor : Factor} {args : List (List Byte)} {status : Int}

/-- The loop goes straight through the arguments. -/
theorem straight_printArgs (policy : Policy) (args : List (List Byte)) (i : Nat) (k : Code Unit)
    (stdout : Stream) :
    ∃ stdout', ∀ d, Straight policy d ⟨k, (), stdout', [], none⟩ →
      Straight policy d ⟨printArgs i args k, (), stdout, [], none⟩ := by
  induction args generalizing i stdout with
  | nil => exact ⟨stdout, fun _ => id⟩
  | cons arg args ih =>
    obtain ⟨stdout', goes⟩ := ih (i + 1) (stdout.printf policy (argText i arg))
    exact ⟨stdout', fun d behind => .goto _ _ rfl (goes d behind)⟩

/-- Nothing waits in the buffer that the child gets. -/
theorem forksOnce :
    ForksOnce policy (.start (main factor args status) ()) ⟨fn factor, (), .empty, [], none⟩ := by
  obtain ⟨stdout, goes⟩ := straight_printArgs policy (factor.text :: args) 1
    (.fflush <| .fork (fn factor) fun _ => parent status) (Stream.empty.printf policy helloText)
  exact ⟨⟨_, _, .goto _ _ rfl (goes _ (.goto _ _ rfl .here)), rfl, fun _ => ⟨trivial, trivial⟩⟩, trivial⟩

/-- The child when it calls `_exit`. -/
def lastStream (policy : Policy) (factor : Factor) : Stream :=
  (Stream.mk [] (childText factor)).printf policy (ascii "\n")

theorem straight_product (n i : Int) (k : Code Unit) (stdout : Stream) {d : Image Unit}
    (behind : Straight policy d ⟨k, (), ⟨[], stdout.all ++ productText n i⟩, [], none⟩) :
    Straight policy d ⟨product n i k, (), stdout, [], none⟩ := by
  rw [← Stream.fflush_printf policy] at behind
  exact .goto _ _ rfl (.goto _ _ rfl behind)

theorem straight_fn (policy : Policy) (factor : Factor) :
    Straight policy ⟨.quit 0, (), lastStream policy factor, [], none⟩
      ⟨fn factor, (), .empty, [], none⟩ := by
  have info : (Stream.empty.printf policy infoText).all = infoText := Stream.all_printf policy .empty _
  have flushed (written : List Byte) : (Stream.mk [] written).all = written := List.append_nil written
  refine .goto _ _ rfl ?_
  apply straight_product
  rw [info]
  apply straight_product
  rw [flushed]
  apply straight_product
  rw [flushed]
  exact .goto _ _ rfl .here

/-- The child writes what it prints, as far as the library passes on the last newline at once. -/
theorem child_written {s : Table (Image Unit)} (h : (sample policy factor args status).Reachable s)
    {p : Pid} {K : Process (Image Unit)} {c : Image Unit} {st : Nat} (inner : p ≠ [])
    (present : s.proc p = some K) (prog : K.prog = some c) (ended : K.life = .ended (.exited st)) :
    p = [0] ∧ st = 0 ∧
      c.stdout.written = childText factor ++ (ascii "\n").take (policy (ascii "\n")) := by
  obtain ⟨first, rfl, zero⟩ := forksOnce.child_straight (straight_fn policy factor) rfl rfl h inner
    present prog ended
  cases zero
  exact ⟨first, rfl, rfl⟩

end Child

/-- The child writes all that it prints. -/
def ChildWritesAll (policy : Policy) (factor : Factor) (args : List (List Byte)) (status : Int) : Prop :=
  ∀ s, (sample policy factor args status).Reachable s → ∀ K c st, s.proc [0] = some K →
    K.prog = some c → K.life = .ended (.exited st) →
    c.stdout.written = childText factor ++ ascii "\n"

/-- **Lost output**: the child writes all that it prints exactly if the library passes a newline on
at once. It does on a terminal, and never if the output is buffered in larger blocks. -/
theorem childWritesAll_iff (factor : Factor) (args : List (List Byte)) (status : Int) :
    (∀ policy, ChildWritesAll policy factor args status ↔ 0 < policy (ascii "\n")) ∧
    ChildWritesAll lineBuffered factor args status ∧
    ∀ size, 1 < size → ¬ChildWritesAll (fullyBuffered size) factor args status := by
  have iff (policy : Policy) : ChildWritesAll policy factor args status ↔ 0 < policy (ascii "\n") := by
    constructor
    · intro all
      obtain ⟨s, K, reached, present, prog, ended⟩ := forksOnce.child_ends
        (straight_fn policy factor) rfl rfl
      have whole := all s reached K _ 0 present prog ended
      have written := (child_written reached (List.cons_ne_nil 0 []) present prog ended).2.2
      -- the newline has been taken from the buffer
      have newline := List.append_cancel_left (written.symm.trans whole)
      by_contra kept
      rw [Nat.eq_zero_of_not_pos kept] at newline
      cases newline
    · intro passed s h K c st present prog ended
      obtain ⟨-, -, written⟩ := child_written h (List.cons_ne_nil 0 []) present prog ended
      rw [written, List.take_of_length_le passed]
  refine ⟨iff, (iff _).mpr (by decide), fun size large => ?_⟩
  have short : (ascii "\n").length < size := large
  have none_full : fullyBuffered size (ascii "\n") = 0 := by
    rw [fullyBuffered, Nat.div_eq_of_lt short, Nat.zero_mul]
  rw [iff, none_full]
  exact Nat.lt_irrefl 0

end GenericTests.Forks.Sample
