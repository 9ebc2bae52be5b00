import GenericTests.Lib.Processes
import GenericTests.Mkuidns.IdMap

/-!
# mkuidns.c: the parent and the child in the new namespaces

From the successful `clone` on. The child waits for a message on a socket pair before it
mounts anything; both processes hold both ends. The child is the first process of a new
PID namespace, so signals whose default action would end it do nothing, except `SIGKILL`
and `SIGSTOP`. `waitpid` is called without options and reports terminations alone.
-/
namespace GenericTests.Mkuidns

open GenericTests.CString GenericTests.Printf GenericTests.Processes GenericTests.Transition

/-- The files of `/proc/<childpid>` that the parent writes, in this order. -/
inductive MapFile where
  | uidMap
  | setgroups
  | gidMap
  deriving DecidableEq

/-- The arguments and the results of the calls that open and write the map files. -/
structure Setting where
  uid : BitVec 32
  gid : BitVec 32
  bigenoughbuf : Buffer bufSize
  cmdargs : List (List Byte)
  opens : MapFile → Bool
  /-- the kernel accepts what is written -/
  writes : MapFile → Bool

def Setting.contents (o : Setting) : MapFile → List Byte
  | .uidMap => idMapBytes o.bigenoughbuf o.uid
  | .setgroups => ascii "deny\n"
  | .gidMap => idMapBytes o.bigenoughbuf o.gid

def MapFile.openFailed : MapFile → List Byte
  | .uidMap => ascii "unable to open uid map\n"
  | .setgroups => ascii "unable to open setgroups\n"
  | .gidMap => ascii "unable to open gid map\n"

inductive ParentPc where
  | openFile (f : MapFile)
  | writeFile (f : MapFile)
  | openFailed (f : MapFile)
  | kill
  | exitFailed
  | writeGo
  | waitpid
  | exited (status : Int)
  deriving DecidableEq

/-- What follows the write to a map file. -/
def MapFile.next : MapFile → ParentPc
  | .uidMap => .openFile .setgroups
  | .setgroups => .openFile .gidMap
  | .gidMap => .writeGo

inductive Mount where
  | lib64
  | qemu
  | proc
  deriving DecidableEq

/-- The places of childfunc. -/
inductive ChildPc where
  | read
  | mkdir (m : Mount)
  | mount (m : Mount)
  | chroot
  | chdir
  | accessExists
  | accessExecutes
  | printArgs
  | execve
  /-- the command runs -/
  | command
  | terminated (status : Status)
  deriving DecidableEq

inductive Call where
  | mkdir (m : Mount)
  | mount (m : Mount)
  | chroot

/-- The calls that need the mapping. -/
def Call.privileged : Call → Bool
  | .mount _ | .chroot => true
  | .mkdir _ => false

structure State where
  parent : ParentPc
  child : ChildPc
  accepted : MapFile → Option (List Byte)
  /-- the bytes on the way from `sockets[1]` to `sockets[0]` -/
  stream : List Byte
  /-- the calls the child has made -/
  calls : List Call
  parentOut : List (List Byte)
  childOut : List (List Byte)
  childErr : List (List Byte)

inductive Party where
  | parent
  | child

/-- The processes with an open descriptor for `sockets[1]`; neither ever closes it. -/
def State.holders (s : State) : List Party :=
  (match s.parent with
    | .exited _ => []
    | _ => [.parent]) ++
  match s.child with
    | .terminated _ => []
    | _ => [.child]

/-- The child's `read` does not return. -/
def State.Blocked (s : State) : Prop := s.child = .read ∧ s.stream = [] ∧ s.holders ≠ []

def sigkill : Nat := 9

def sigterm : Nat := 15

/-- A signal from outside the child's namespace: `SIGKILL` ends the child, `SIGSTOP` delays it,
and it ignores all others. -/
def ChildPc.signalled (c : ChildPc) (signal : Nat) : ChildPc :=
  match c with
  | .terminated status => .terminated status
  | c => if signal = sigkill then .terminated (.killed signal) else c

/-- What the parent prints about the end of the child; it is silent about status 0. -/
def statusLine : Status → List (List Byte)
  | .exited status =>
    if status = 0 then [] else [ascii "child exited, status=" ++ decimal status ++ ascii "\n"]
  | .killed signal => [ascii "killed by signal " ++ decimal signal ++ ascii "\n"]
  | .stopped signal => [ascii "stopped by signal " ++ decimal signal ++ ascii "\n"]
  | .continued => [ascii "continued\n"]

/-- main, from `clone` on. -/
def parentStep (o : Setting) (s : State) : Option State :=
  match s.parent with
  | .openFile f => some { s with parent := if o.opens f then .writeFile f else .openFailed f }
  | .writeFile f => some
    { s with
      parent := f.next
      accepted := if o.writes f then Function.update s.accepted f (some (o.contents f))
        else s.accepted }
  | .openFailed f => some { s with parent := .kill, parentOut := s.parentOut ++ [f.openFailed] }
  | .kill => some { s with parent := .exitFailed, child := s.child.signalled sigterm }
  | .exitFailed => some { s with parent := .exited 2 }
  | .writeGo => some { s with parent := .waitpid, stream := s.stream ++ ascii "go" }
  | .waitpid =>
    match s.child with
    | .terminated status => some
      { s with parent := .exited 0, parentOut := s.parentOut ++ statusLine status }
    | _ => none
  | .exited _ => none

/-- The text for `perror` and the argument of `exit` if a call of the child fails; a missing
status means that the child goes on. -/
def ChildPc.failure : ChildPc → List Byte × Option Int
  | .mount .lib64 => (ascii "mkuidns: Mount of lib64 failed", some 11)
  | .mount .qemu => (ascii "mkuidns: Mount of qemu failed", some 12)
  | .mount .proc => (ascii "mkuidns: Mount of proc failed", none)
  | .chroot => (ascii "mkuidns: Chroot failed", some 22)
  | .chdir => (ascii "mkuidns: Chdir to / failed", some 66)
  | .accessExists => (ascii "mkuidns: cmd does not exist", some (-2))
  | .accessExecutes => (ascii "mkuidns: No execute access to cmd", some (-2))
  | .execve => (ascii "mkuidns: Execve failed", some (-2))
  | _ => ([], none)

def Mount.next : Mount → ChildPc
  | .lib64 => .mkdir .qemu
  | .qemu => .mkdir .proc
  | .proc => .chroot

def State.call (s : State) (call : Call) : State := { s with calls := s.calls ++ [call] }

/-- A call of the child returns; `next` is the place behind it. -/
def State.called (s : State) (ok : Bool) (next : ChildPc) : State :=
  if ok then { s with child := next }
  else
    { s with
      child := match s.child.failure.2 with
        | some status => .terminated (exitStatus status)
        | none => next
      childErr := s.childErr ++ [s.child.failure.1] }

/-- childfunc; `ok` is the result of the call at this place. -/
def childStep (o : Setting) (s : State) (ok : Bool) : Option State :=
  match s.child with
  | .read =>
    if s.stream = [] ∧ s.holders ≠ [] then none
    else some { s with child := .mkdir .lib64, stream := s.stream.drop 2 }
  -- the result of mkdir is overwritten by that of mount
  | .mkdir m => some { s.call (.mkdir m) with child := .mount m }
  | .mount m => some ((s.call (.mount m)).called ok m.next)
  | .chroot => some ((s.call .chroot).called ok .chdir)
  | .chdir => some (s.called ok .accessExists)
  | .accessExists => some (s.called ok .accessExecutes)
  | .accessExecutes => some (s.called ok .printArgs)
  | .printArgs => some
    { s with
      child := .execve
      childOut := s.childOut ++ (o.cmdargs.take 10).map (ascii " " ++ ·) ++ [ascii "\n"] }
  | .execve => some (s.called ok .command)
  | .command => none
  | .terminated _ => none

inductive Act where
  | parent
  | child (ok : Bool)
  /-- the command in the child ends -/
  | finish (status : Int)
  /-- somebody else sends a signal to the child -/
  | signal (signal : Nat)

def step (o : Setting) (s : State) : Act → Option State
  | .parent => parentStep o s
  | .child ok => childStep o s ok
  | .finish status =>
    if s.child = .command then some { s with child := .terminated (exitStatus status) } else none
  | .signal signal => some { s with child := s.child.signalled signal }

def initial : State :=
  ⟨.openFile .uidMap, .read, fun _ => none, [], [], [], [], []⟩

def system (o : Setting) : System State Act where
  init s := s = initial
  step := step o

end GenericTests.Mkuidns
