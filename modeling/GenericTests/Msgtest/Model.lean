import GenericTests.Lib.MessageQueue
import GenericTests.Lib.Transition

/-!
# msgtest.c: any number of instances

All instances compute the same key from the same file, so they meet at the same queue. One
step is one system call of one instance, with the lines it prints afterwards. Other keys
and queues may exist from the start.
-/
namespace GenericTests.Msgtest

open GenericTests.CString GenericTests.MessageQueue GenericTests.Transition

/-- `sizeof(msg.msg_text)` -/
def textSize : Nat := 100

/-- The text of message 1 and of message 2. -/
def messageText (k : Nat) : List Byte := ascii "Hello, this is a message of type " ++ decimal k

inductive Line where
  | createdAndDestroyed (msgid : Nat)
  | recreated (msgid : Nat)
  /-- `Message %d sent: %s` -/
  | sent (k : Nat) (text : List Byte)
  /-- `Message %d received: %.*s` -/
  | received (k : Nat) (text : List Byte)
  | msggetFailed
  /-- `msgget which should fail did not` -/
  | msggetDidNotFail
  | msgctlFailed
  | msgsndFailed
  | msgrcvFailed

/-- The call of main that comes next. -/
inductive Pc where
  | create
  | createAgain
  | destroy
  | recreate
  | send1
  | send2
  | receive2
  | receive1
  | cleanup
  | done
  deriving DecidableEq

structure Instance where
  pc : Pc
  /-- the exit status, once it has ended; a failure ends it at the call that failed -/
  ended : Option Nat
  msgid : Option Nat
  newmsgid : Option Nat
  /-- `msg.msg_text` -/
  text : Buffer textSize
  /-- `received_msg.msg_text` -/
  received : Buffer textSize
  out : List Line

namespace Instance

/-- `perror(...); exit(1);` -/
def fail (p : Instance) (line : Line) : Instance :=
  { p with ended := some 1, out := p.out ++ [line] }

def print (p : Instance) (line : Line) : Instance := { p with out := p.out ++ [line] }

/-- `strcpy(msg.msg_text, "...")` before the message is sent as type `k` -/
def prepare (p : Instance) (k : Nat) : Instance :=
  { p with text := p.text.write (messageText k ++ [0]) }

end Instance

section Calls

variable {κ : Type} [DecidableEq κ]

/-- `msg.msg_type = k; strcpy(...); msgsnd(...)` and the line behind it -/
def send (qbytes k : Nat) (next : Pc) (S : Queues κ) (p : Instance) (id : Nat) (room : Bool) :
    Option (Queues κ × Instance) :=
  let p := p.prepare k
  match S.msgsnd qbytes id ⟨k, p.text.bytes⟩ room with
  | .returned S' => some (S', { p.print (.sent k p.text.text) with pc := next })
  | .failed => some (S, p.fail .msgsndFailed)
  | .blocked => none

/-- `msgrcv(...)` and the line behind it, which shows at most `szrecvd` bytes -/
def receive (k : Nat) (next : Pc) (S : Queues κ) (p : Instance) (id : Nat) :
    Option (Queues κ × Instance) :=
  match S.msgrcv id textSize k with
  | .returned (S', m) =>
    let p := { p with received := p.received.write m.mtext }
    let szrecvd := m.mtext.length
    some (S', { p.print (.received k (cstr (p.received.bytes.take szrecvd))) with pc := next })
  | .failed => some (S, p.fail .msgrcvFailed)
  | .blocked => none

/-- One call of main. A call that is given no identifier does not occur. -/
def call (key : κ) (qbytes : Nat) (S : Queues κ) (p : Instance) (room : Bool) :
    Option (Queues κ × Instance) :=
  match p.pc, p.msgid with
  | .create, _ =>
    match S.msggetExcl key room with
    | some (S', id) => some (S', { p with pc := .createAgain, msgid := some id })
    | none => some (S, p.fail .msggetFailed)
  | .createAgain, _ =>
    match S.msggetExcl key room with
    -- here success is the error
    | some (S', id) => some (S', { p.fail .msggetDidNotFail with newmsgid := some id })
    | none => some (S, { p with pc := .destroy })
  | .destroy, some id =>
    match S.rmid id with
    | some S' => some (S', { p.print (.createdAndDestroyed id) with pc := .recreate })
    | none => some (S, p.fail .msgctlFailed)
  | .recreate, _ =>
    match S.msgget key room with
    | some (S', id) => some (S', { p.print (.recreated id) with pc := .send1, msgid := some id })
    | none => some (S, p.fail .msggetFailed)
  | .send1, some id => send qbytes 1 .send2 S p id room
  | .send2, some id => send qbytes 2 .receive2 S p id room
  | .receive2, some id => receive 2 .receive1 S p id
  | .receive1, some id => receive 1 .cleanup S p id
  | .cleanup, some id =>
    match S.rmid id with
    | some S' => some (S', { p with pc := .done, ended := some 0 })
    | none => some (S, p.fail .msgctlFailed)
  | .done, _ => none
  | _, none => none

variable {n : Nat}

structure State (κ : Type) (n : Nat) where
  queues : Queues κ
  inst : Fin n → Instance

/-- Instance `i` goes on; `room` tells if the kernel has memory for a queue or a message. -/
structure Act (n : Nat) where
  i : Fin n
  room : Bool

def step (key : κ) (qbytes : Nat) (s : State κ n) (a : Act n) : Option (State κ n) :=
  if (s.inst a.i).ended.isSome then none
  else (call key qbytes s.queues (s.inst a.i) a.room).map fun (S, p) =>
    ⟨S, Function.update s.inst a.i p⟩

/-- Before its first call; the two arrays are uninitialised. -/
def Instance.Starts (p : Instance) : Prop :=
  p.pc = .create ∧ p.ended = none ∧ p.msgid = none ∧ p.newmsgid = none ∧ p.out = []

/-- No queue exists, and the arrays happen to hold zeros. -/
def State.start (κ : Type) (n : Nat) : State κ n where
  queues := .empty
  inst := fun _ => ⟨.create, none, none, none, .zeros textSize, .zeros textSize, []⟩

/-- `qbytes` is the limit of a queue, the same for all that are created. -/
def msgtest (key : κ) (qbytes n : Nat) : System (State κ n) (Act n) where
  init s := ∀ i, (s.inst i).Starts
  step := step key qbytes

end Calls

end GenericTests.Msgtest
