import GenericTests.Forks.StatusChain
import GenericTests.Lib.Printf
import GenericTests.Lib.Stdio

/-!
# fork.c and forkexec.c

Both programs print, fork one child and wait for its end, and neither flushes its output
before the fork. What waits in the buffer then is written by the parent and once more by a
child that exits on its own.
-/
namespace GenericTests.Forks

open GenericTests.CString GenericTests.Processes GenericTests.Printf GenericTests.Stdio
open GenericTests.Transition

/-- `Main program %s started with %d args` -/
def mainText (name : List Byte) (argc : Nat) : List Byte :=
  ascii "Main program " ++ name ++ ascii " started with " ++ decimal argc ++ ascii " args\n"

/-! ### fork.c -/

namespace Fork

/-- `%02x %02x %02x %02x` -/
def valuesText (label : String) (v : Vars) : List Byte :=
  ascii label ++ zeroPaddedHex 2 v.localvar ++ ascii " " ++ zeroPaddedHex 2 v.staticvar ++
    ascii " " ++ zeroPaddedHex 2 v.globalvar ++ ascii " " ++ zeroPaddedHex 2 v.heap ++ ascii "\n"

def initialText : Vars → List Byte := valuesText "Initial local, static, global, heap = "

def childText : Vars → List Byte := valuesText "child local, static, global = "

def childChangedText : Vars → List Byte := valuesText "child changed local, static, global = "

def parentBeforeText : Vars → List Byte :=
  valuesText "parent before check if child exitted local, static, global = "

def parentAfterText : Vars → List Byte :=
  valuesText "parent after child exitted local, static, global = "

def parentChangedText : Vars → List Byte := valuesText "parent changed local, static, global = "

/-- What `getpid` and its kin return in the child. -/
structure Ids where
  pid : Int
  ppid : Int
  uid : Int
  euid : Int
  gid : Int
  egid : Int

def idsText (i : Ids) : List Byte :=
  ascii "Child PID " ++ decimal i.pid ++ ascii ", parent PID " ++ decimal i.ppid ++
    ascii ", uid " ++ decimal i.uid ++ ascii ", euid " ++ decimal i.euid ++ ascii ", gid " ++
    decimal i.gid ++ ascii ", egid " ++ decimal i.egid ++ ascii "\n"

def child (ids : Ids) : Code Vars :=
  .printf (fun _ => idsText ids) <|
  .printf childText <|
  .assign (fun _ => childVars) <|
  .printf childChangedText <|
  .exit 0

/-- `perror` prints on another stream. -/
def parent (cpid : Pid) : Code Vars :=
  .printf parentBeforeText <|
  .waitLoop (.child cpid) (statusText [])
    (.printf parentAfterText <|
     .assign (fun _ => parentVars) <|
     .printf parentChangedText <|
     .exit 0)
    (.exit (-1))

def main (name : List Byte) (argc : Nat) (ids : Ids) : Code Vars :=
  .printf (fun _ => mainText name argc) <|
  .assign (fun _ => initialVars) <|
  .printf initialText <|
  .fork (child ids) parent

/-- `m` is what the variables hold at first. -/
def fork (policy : Policy) (name : List Byte) (argc : Nat) (ids : Ids) (m : Vars) :
    System (Table (Image Vars)) Act :=
  program policy (fun _ => false) (main name argc ids) m

/-- The stream at the fork. -/
def atFork (policy : Policy) (name : List Byte) (argc : Nat) : Stream :=
  (Stream.empty.printf policy (mainText name argc)).printf policy (initialText initialVars)

/-- What the child prints: its copies of the variables, and what it makes of them. -/
def childOutput (ids : Ids) : List Byte :=
  idsText ids ++ childText initialVars ++ childChangedText childVars

section Origins

variable {policy : Policy} {name : List Byte} {argc : Nat} {ids : Ids} {m : Vars}

theorem forksOnce :
    ForksOnce policy (.start (main name argc ids) m)
      ⟨child ids, initialVars, (atFork policy name argc).copy, [], none⟩ :=
  ⟨⟨_, _, .goto _ _ rfl (.goto _ _ rfl (.goto _ _ rfl .here)), rfl, fun _ => ⟨trivial, trivial⟩⟩,
    trivial⟩

theorem prints_child {o : List Byte} {rs : List Status} {st : Int}
    (h : Prints (fun _ => false) [0] 0 [] (child ids) initialVars o rs st) : st = 0 ∧ o = childOutput ids := by
  cases h with
  | printf _ _ _ _ _ _ _ _ h =>
  cases h with
  | printf _ _ _ _ _ _ _ _ h =>
  cases h with
  | assign _ _ _ _ _ _ _ _ h =>
  cases h with
  | printf _ _ _ _ _ _ _ _ h =>
  cases h with
  | exit => exact ⟨rfl, by simp [childOutput]⟩

theorem child_written {s : Table (Image Vars)} (h : (fork policy name argc ids m).Reachable s)
    {p : Pid} {K : Process (Image Vars)} {c : Image Vars} {st : Nat} (inner : p ≠ [])
    (present : s.proc p = some K) (prog : K.prog = some c) (ended : K.life = .ended (.exited st)) :
    p = [0] ∧ st = 0 ∧
      c.stdout.written = (atFork policy name argc).buffer ++ childOutput ids := by
  obtain ⟨first, o, status, same, prints, written⟩ :=
    forksOnce.child_written trivial h inner present prog ended
  obtain ⟨rfl, rfl⟩ := prints_child prints
  cases same
  exact ⟨first, rfl, written⟩

/-- The child writes nothing but its own lines. -/
def ChildWritesItsOwn (policy : Policy) (name : List Byte) (argc : Nat) (ids : Ids) (m : Vars) :
    Prop :=
  ∀ s, (fork policy name argc ids m).Reachable s → ∀ K c st, s.proc [0] = some K →
    K.prog = some c → K.life = .ended (.exited st) → c.stdout.written = childOutput ids

theorem own_iff : ChildWritesItsOwn policy name argc ids m ↔ (atFork policy name argc).buffer = [] := by
  constructor
  · intro own
    have reached : (fork policy name argc ids m).Reachable _ :=
      ⟨_, List.replicate 4 (Act.run []) ++ List.replicate 6 (Act.run [0]), rfl, rfl⟩
    have once := own _ reached _ _ 0 rfl rfl rfl
    obtain ⟨-, -, written⟩ := child_written reached (List.cons_ne_nil 0 []) rfl rfl rfl
    exact List.append_left_eq_self.mp (written.symm.trans once)
  · intro nothing s h K c st present prog ended
    obtain ⟨-, -, written⟩ := child_written h (List.cons_ne_nil 0 []) present prog ended
    rw [written, nothing, List.nil_append]

/-- **Doubled output**: the child repeats nothing of the parent's output exactly if nothing is
waiting at the fork. It never does on a terminal, and always if the output is buffered in blocks
that are not full yet. -/
theorem childWritesItsOwn_iff (name : List Byte) (argc : Nat) (ids : Ids) (m : Vars) :
    (∀ policy, ChildWritesItsOwn policy name argc ids m ↔ (atFork policy name argc).buffer = []) ∧
    ChildWritesItsOwn lineBuffered name argc ids m ∧
    ∀ size, (mainText name argc ++ initialText initialVars).length < size →
      ¬ChildWritesItsOwn (fullyBuffered size) name argc ids m := by
  refine ⟨fun policy => own_iff, own_iff.mpr ?_, fun size short => ?_⟩
  · have line : initialText initialVars = (initialText initialVars).dropLast ++ [10] := by decide
    rw [atFork, line, Stream.buffer_lineBuffered]
  · have first : (Stream.empty.printf (fullyBuffered size) (mainText name argc)).buffer =
        mainText name argc := by
      rw [List.length_append] at short
      exact Stream.buffer_fullyBuffered .empty size _ (by rw [Stream.empty, List.nil_append]; omega)
    have some_text : initialText initialVars ≠ [] := by decide
    rw [own_iff, atFork, Stream.buffer_fullyBuffered _ size _ (by rw [first]; exact short)]
    exact List.append_ne_nil_of_right_ne_nil _ some_text

end Origins

end Fork

/-! ### forkexec.c -/

namespace Forkexec

/-- `command` is `argv[1]`. -/
def childText (argc : Nat) (command : List Byte) : List Byte :=
  if argc = 1 then ascii "Need name of command to exec as first argument\n"
  else ascii "Failed to start " ++ command ++ ascii " with " ++ decimal argc ++ ascii " args\n"

def child (argc : Nat) (command : List Byte) : Code Unit :=
  if argc = 1 then .printf (fun _ => childText argc command) <| .exit 0
  else .execve <| .printf (fun _ => childText argc command) <| .exit 0

def parent (cpid : Pid) : Code Unit := .waitLoop (.child cpid) (statusText []) (.exit 0) (.exit (-1))

/-- The four variables of fork.c are declared here too, and never used. -/
def main (name : List Byte) (argc : Nat) (command : List Byte) : Code Unit :=
  .printf (fun _ => mainText name argc) <| .fork (child argc command) parent

/-- `exec` tells whether the command can be executed. -/
def forkexec (policy : Policy) (exec : Pid → Bool) (name : List Byte) (argc : Nat)
    (command : List Byte) : System (Table (Image Unit)) Act :=
  program policy exec (main name argc command) ()

def atFork (policy : Policy) (name : List Byte) (argc : Nat) : Stream :=
  Stream.empty.printf policy (mainText name argc)

section Written

variable {policy : Policy} {exec : Pid → Bool} {name : List Byte} {argc : Nat}
  {command : List Byte}

theorem forksOnce :
    ForksOnce policy (.start (main name argc command) ())
      ⟨child argc command, (), (atFork policy name argc).copy, [], none⟩ := by
  refine ⟨⟨_, _, .goto _ _ rfl .here, rfl, fun _ => ⟨trivial, trivial⟩⟩, ?_⟩
  rw [child]
  split <;> exact trivial

theorem child_flushes : (child argc command).flushes := by
  rw [child]
  split <;> exact trivial

theorem prints_child {o : List Byte} {rs : List Status} {st : Int}
    (h : Prints exec [0] 0 [] (child argc command) () o rs st) :
    st = 0 ∧ o = childText argc command ∧ (argc = 1 ∨ exec [0] = false) := by
  have text (h : Prints exec [0] 0 [] (.printf (fun _ => childText argc command) (.exit 0)) () o
      rs st) : st = 0 ∧ o = childText argc command := by
    cases h with
    | printf _ _ _ _ _ _ _ _ h =>
    cases h with
    | exit => exact ⟨rfl, List.append_nil _⟩
  by_cases one : argc = 1
  · rw [child, if_pos one] at h
    exact ⟨(text h).1, (text h).2, .inl one⟩
  · rw [child, if_neg one] at h
    cases h with
    | execFailed _ _ _ _ _ _ _ fails h => exact ⟨(text h).1, (text h).2, .inr fails⟩

theorem child_written {s : Table (Image Unit)}
    (h : (forkexec policy exec name argc command).Reachable s) {p : Pid} {K : Process (Image Unit)}
    {c : Image Unit} {st : Nat} (inner : p ≠ []) (present : s.proc p = some K)
    (prog : K.prog = some c) (ended : K.life = .ended (.exited st)) :
    (argc = 1 ∨ exec [0] = false) ∧
      c.stdout.written = (atFork policy name argc).buffer ++ childText argc command := by
  obtain ⟨-, o, status, -, prints, written⟩ := forksOnce.child_written child_flushes h inner present prog ended
  obtain ⟨-, rfl, stays⟩ := prints_child prints
  exact ⟨stays, written⟩

/-- A child that stays with this program writes nothing but its own line. -/
def ChildWritesItsOwn (policy : Policy) (exec : Pid → Bool) (name : List Byte) (argc : Nat)
    (command : List Byte) : Prop :=
  ∀ s, (forkexec policy exec name argc command).Reachable s → ∀ K c st, s.proc [0] = some K →
    K.prog = some c → K.life = .ended (.exited st) → c.stdout.written = childText argc command

end Written

end Forkexec

end GenericTests.Forks
