import GenericTests.Lib.Transition
import Mathlib.Logic.Function.Basic

/-!
# controlthreads.c: processes, threads and the FIFO

`fork_demon` ends its child with `exit`, `fork_and_wait` with `return`: that child comes
back into `main`, makes its own threads and removes the FIFO. A signal can kill any
process at any time, and an open call that succeeded may return at any time.
-/
namespace GenericTests.Controlthreads

open GenericTests.Transition

/-- The processes: the first one and the two it forks. -/
inductive Proc where
  | main
  | demon
  /-- the child of fork_and_wait -/
  | child
  deriving DecidableEq

/-- `defs` of makethreads, in the order of creation. -/
inductive ThreadFunc where
  | printThreadId
  | waitkeyboard
  | waitfakedev
  | waitfakefile
  | pipewriter
  | pipereader
  | useioctls
  deriving DecidableEq

def defs : List ThreadFunc :=
  [.printThreadId, .waitkeyboard, .waitfakedev, .waitfakefile, .pipewriter, .pipereader, .useioctls]

/-- The statement a process executes next. -/
inductive Pc where
  | absent
  | access
  | mkfifo
  | forkDemon
  | forkWait
  /-- the read loops of the two children -/
  | read
  /-- the `waitpid` loop of fork_and_wait -/
  | waitChild
  | create (i : Nat)
  | join (i : Nat)
  /-- `waitpid(demon_pid, ...)` -/
  | waitDemon
  | unlink
  | ret
  | exited (status : Int)
  | killed
  deriving DecidableEq

inductive Thread where
  | absent
  /-- in front of `open(PIPE_NAME, ...)` -/
  | atOpen
  | running
  /-- `pthread_exit`; `none` is `NULL` -/
  | exited (exitval : Option Int)
  | joined
  deriving DecidableEq

structure State where
  /-- the FIFO is there -/
  fifo : Bool
  pc : Proc → Pc
  thread : Proc → ThreadFunc → Thread

inductive WaitResult where
  | error
  | terminated
  | stoppedOrContinued

inductive Act where
  | access
  | mkfifo (ok : Bool)
  | forkDemon
  | forkWait
  | demonRead (bytesread : Int) (inchar : Int)
  | childRead (bytesread : Int)
  | waitChild (result : WaitResult)
  | create (p : Proc) (ok : Bool)
  | join (p : Proc)
  /-- `stopped`: `waitpid` reports that the demon was stopped or continued -/
  | waitDemon (p : Proc) (stopped : Bool)
  | unlink (p : Proc)
  | ret (p : Proc)
  | openPipe (p : Proc) (f : ThreadFunc) (ok : Bool)
  | threadExit (p : Proc) (f : ThreadFunc) (exitval : Int)
  | kill (p : Proc)

def Pc.terminated : Pc → Bool
  | .exited _ | .killed => true
  | _ => false

def Pc.alive : Pc → Bool
  | .absent | .exited _ | .killed => false
  | _ => true

def State.goto (s : State) (p : Proc) (x : Pc) : State :=
  { s with pc := Function.update s.pc p x }

def State.setThread (s : State) (p : Proc) (f : ThreadFunc) (x : Thread) : State :=
  { s with thread := Function.update s.thread p (Function.update (s.thread p) f x) }

/-- Where a new thread starts; only the two pipe threads are followed to their open call. -/
def ThreadFunc.start : ThreadFunc → Thread
  | .pipewriter | .pipereader => .atOpen
  | _ => .running

def step (s : State) : Act → Option State
  | .access =>
    if s.pc .main = .access then some (s.goto .main (if s.fifo then .forkDemon else .mkfifo))
    else none
  -- return EXIT_FAILURE when mkfifo fails
  | .mkfifo ok =>
    if s.pc .main = .mkfifo then
      if ok then some ({ s with fifo := true }.goto .main .forkDemon)
      else some (s.goto .main (.exited 1))
    else none
  | .forkDemon =>
    if s.pc .main = .forkDemon then some ((s.goto .demon .read).goto .main .forkWait) else none
  | .forkWait =>
    if s.pc .main = .forkWait then some ((s.goto .child .read).goto .main .waitChild) else none
  | .demonRead bytesread inchar =>
    -- end of file and errors keep the loop going
    if s.pc .demon = .read then
      if bytesread = 1 then some (s.goto .demon (.exited inchar)) else some s
    else none
  | .childRead bytesread =>
    if s.pc .child = .read then
      -- `return`, and `main` goes on with makethreads
      if bytesread = 1 then some (s.goto .child (.create 0)) else some s
    else none
  | .waitChild result =>
    if s.pc .main = .waitChild then
      match result with
      | .error => some (s.goto .main (.exited (-1)))
      | .terminated =>
        if (s.pc .child).terminated then some (s.goto .main (.create 0)) else none
      | .stoppedOrContinued => some s
    else none
  | .create p ok =>
    match s.pc p with
    | .create i =>
      match defs[i]? with
      | some f =>
        -- exit(-1) when pthread_create fails
        if ok then some ((s.setThread p f f.start).goto p (.create (i + 1)))
        else some (s.goto p (.exited (-1)))
      | none => some (s.goto p (.join 0))
    | _ => none
  | .join p =>
    match s.pc p with
    | .join i =>
      match defs[i]? with
      | some f =>
        match s.thread p f with
        | .exited (some _) => some ((s.setThread p f .joined).goto p (.join (i + 1)))
        -- `*threadstatus` with a null pointer
        | .exited none => some (s.goto p .killed)
        | _ => none
      | none => some (s.goto p .waitDemon)
    | _ => none
  | .waitDemon p stopped =>
    -- the demon is no child of the child, where the call fails at once
    if s.pc p = .waitDemon ∧
        (p = .child ∨ stopped = true ∨ (s.pc .demon).terminated = true) then
      some (s.goto p .unlink)
    else none
  | .unlink p =>
    if s.pc p = .unlink then some ({ s with fifo := false }.goto p .ret) else none
  | .ret p =>
    if s.pc p = .ret then some (s.goto p (.exited defs.length)) else none
  | .openPipe p f ok =>
    -- without the FIFO the call fails; with it, it can fail for other reasons
    if (s.pc p).alive ∧ s.thread p f = .atOpen then
      some (s.setThread p f (if s.fifo && ok then .running else .exited none))
    else none
  | .threadExit p f exitval =>
    if (s.pc p).alive ∧ s.thread p f = .running then
      some (s.setThread p f (.exited (some exitval)))
    else none
  | .kill p => if (s.pc p).alive then some (s.goto p .killed) else none

/-- `main` starts; the FIFO may be there from an earlier run. -/
def program : System State Act where
  init s := s.pc = Function.update (fun _ => .absent) .main .access ∧
    s.thread = fun _ _ => .absent
  step := step

@[simp] theorem goto_pc_self (s : State) (p : Proc) (x : Pc) : (s.goto p x).pc p = x := by
  simp [State.goto]

theorem goto_pc_other (s : State) (p q : Proc) (x : Pc) (h : q ≠ p) :
    (s.goto p x).pc q = s.pc q := by
  simp [State.goto, h]

@[simp] theorem setThread_self (s : State) (p : Proc) (f : ThreadFunc) (x : Thread) :
    (s.setThread p f x).thread p f = x := by
  simp [State.setThread]

theorem setThread_other (s : State) (p q : Proc) (f g : ThreadFunc) (x : Thread)
    (h : ¬ (q = p ∧ g = f)) : (s.setThread p f x).thread q g = s.thread q g := by
  by_cases same : q = p
  · subst same
    have other : g ≠ f := fun e => h ⟨rfl, e⟩
    simp [State.setThread, other]
  · simp [State.setThread, same]

end GenericTests.Controlthreads
