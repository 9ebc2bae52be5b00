import GenericTests.Controlthreads.Pipe
import GenericTests.Controlthreads.Processes

/-!
# controlthreads.c: makethreads and its thread functions

makethreads creates seven threads, joins them one after the other, reads `*threadstatus`
and frees it. Every result of a call is a choice of the label; only the two calls of
`open(PIPE_NAME, ...)` are fixed for a run. `malloc` and `pthread_create` succeed.
-/
namespace GenericTests.Controlthreads.Makethreads

open GenericTests.CString GenericTests.Transition

/-- Which of the two calls of `open(PIPE_NAME, ...)` succeed. -/
structure Opens where
  writer : Bool
  reader : Bool

inductive Line where
  | running (threadId : Int)
  | ready (threadId : Int)
  | willWaitChar (threadId : Int)
  | interrupted
  | got (ch : Int)
  | noDev
  | noFile
  | willWaitBingo (threadId : Int)
  | notEnoughDev (nb : Int)
  | notEnoughFile (nb : Int)
  | gotBingo (c : Int)
  | badInput (input : List Byte)
  /-- `perror` of pipewriter and, with the same text, of pipereader -/
  | noPipe
  | sent (sendbuf : List Byte)
  | received (threadId : Int) (readbuf : List Byte)
  | noDevice
  | writeFailed
  | readFailed
  | dataWritten
  | dataRead (readBuf : List Byte)
  | mismatch (readBuf : List Byte)
  | created (numthreads : Nat)
  | joined (i : Nat) (status : Int)

inductive ThreadPc where
  /-- `int thread_id = *((int*)id);` -/
  | readId
  | malloc
  | print
  | sleep
  | printReady
  | getchar
  | open
  | read (i : Nat)
  | write (i : Nat)
  | ioctlWrite
  | ioctlRead
  | close
  /-- `*exitval = value;` -/
  | store (value : Int)
  /-- `pthread_exit(result)`; `none` is `NULL` -/
  | exit (result : Option Nat)
  | exited (result : Option Nat)
  | joined (result : Option Nat)

structure Thread where
  func : ThreadFunc
  pc : ThreadPc
  threadId : Int
  /-- the block that `malloc` returned; no thread allocates twice, so a block is named by
  the index of its thread -/
  exitval : Option Nat
  input : Buffer 11
  /-- `sendbuf`, `readbuf` or `read_buf` -/
  buf : Buffer bufSize

structure Block where
  value : Option Int
  frees : Nat

/-- A `char` is signed. -/
def charValue (b : Byte) : Int := b.toInt8.toInt

def exitFailure : Int := 1

/-- `char write_buf[] = "Hello, device!";` -/
def writeBuf : List Byte := ascii "Hello, device!" ++ [0]

/-! ### The thread functions

`ok` and `bytes` are the outcome of the call in the statement, if there is one: a read that
fails returns -1, one that succeeds the number of bytes. -/

/-- What a thread does at a statement of its own: where it goes and what it prints. -/
abbrev Body := Thread → Bool → List Byte → Option (Thread × List Line)

def printThreadId : Body := fun t _ _ =>
  match t.pc with
  | .print => some ({ t with pc := .sleep }, [.running t.threadId])
  | .sleep => some ({ t with pc := .printReady }, [])
  | .printReady => some ({ t with pc := .store t.threadId }, [.ready t.threadId])
  | _ => none

/-- `ch = getchar();` The byte 255 becomes the same `char` as `EOF`. -/
def getchar (ok : Bool) (bytes : List Byte) : Int :=
  if ok then charValue (bytes.headD 255) else -1

def waitkeyboard : Body := fun t ok bytes =>
  match t.pc with
  | .print => some ({ t with pc := .getchar }, [.willWaitChar t.threadId])
  | .getchar =>
    let ch := getchar ok bytes
    some ({ t with pc := .store ch }, [if ch = -1 then .interrupted else .got ch])
  | _ => none

/-- `input[10]=0;` -/
def terminate (input : Buffer 11) : Buffer 11 :=
  ⟨input.bytes.set 10 0, by rw [List.length_set, input.length_eq]⟩

/-- waitfakedev and waitfakefile; they sleep in different cases, too. -/
def waitFake (missing : Line) (notEnough : Int → Line) : Body := fun t ok bytes =>
  match t.pc with
  | .open =>
    let t := { t with input := terminate t.input }
    if ok then some ({ t with pc := .print }, [])
    else some ({ t with pc := .store (-1) }, [missing])
  | .print => some ({ t with pc := .read 0 }, [.willWaitBingo t.threadId])
  | .read i =>
    if ok then
      if bytes.length < 10 then
        some ({ t with pc := .read i, input := t.input.write bytes }, [notEnough bytes.length])
      else if bytes.length = 10 then
        let input := t.input.write bytes
        let last := charValue (input.bytes.getD 9 0)
        -- strncmp("bingo",input,5) == 0
        if input.bytes.take 5 = ascii "bingo" then
          some ({ t with pc := .store last, input := input }, [.gotBingo last])
        else some ({ t with pc := .read i, input := input }, [.badInput input.text])
      else none
    else some ({ t with pc := .read i }, [notEnough (-1)])
  | _ => none

def waitfakedev : Body := waitFake .noDev .notEnoughDev

def waitfakefile : Body := waitFake .noFile .notEnoughFile

def pipewriter (opens : Bool) : Body := fun t _ _ =>
  match t.pc with
  | .open =>
    if opens then some ({ t with pc := .write 0 }, []) else some ({ t with pc := .exit none }, [.noPipe])
  -- the result of `write` is not looked at
  | .write i =>
    match messages[i]? with
    | some message =>
      let text := ascii "From " ++ decimal t.threadId ++ ascii ": " ++ message
      let sendbuf := t.buf.write (text ++ [0])
      some ({ t with pc := .write (i + 1), buf := sendbuf }, [.sent sendbuf.text])
    | none => some ({ t with pc := .close }, [])
  | .close => some ({ t with pc := .store (charValue (byteOf 'X')) }, [])
  | _ => none

def pipereader (opens : Bool) : Body := fun t ok bytes =>
  match t.pc with
  | .open =>
    if opens then some ({ t with pc := .read 0 }, []) else some ({ t with pc := .exit none }, [.noPipe])
  | .read i =>
    if i < 3 then
      if ok then
        if bytes.length ≤ bufSize then
          let readbuf := t.buf.write bytes
          some ({ t with pc := .read (i + 1), buf := readbuf },
            if bytes = [] then [] else [.received t.threadId readbuf.text])
        else none
      else some ({ t with pc := .read (i + 1) }, [])
    else some ({ t with pc := .close }, [])
  -- `readbuf` is uninitialised if no read has returned eleven bytes
  | .close => some ({ t with pc := .store (charValue (t.buf.bytes.getD 10 0)) }, [])
  | _ => none

def useioctls : Body := fun t ok bytes =>
  match t.pc with
  | .open =>
    if ok then some ({ t with pc := .ioctlWrite }, [])
    else some ({ t with pc := .store exitFailure }, [.noDevice])
  | .ioctlWrite =>
    if ok then some ({ t with pc := .ioctlRead }, [.dataWritten])
    else some ({ t with pc := .store exitFailure }, [.writeFailed])
  | .ioctlRead =>
    let readBuf : Buffer bufSize := Buffer.zeros bufSize
    if ok then
      let readBuf := readBuf.write bytes
      some ({ t with pc := .close, buf := readBuf }, .dataRead readBuf.text ::
        -- strncmp(write_buf,read_buf,sizeof(write_buf)) != 0
        if readBuf.bytes.take writeBuf.length = writeBuf then [] else [.mismatch readBuf.text])
    else some ({ t with pc := .store exitFailure, buf := readBuf }, [.readFailed])
  | .close => some ({ t with pc := .store 0 }, [])
  | _ => none

def body (opens : Opens) (f : ThreadFunc) : Body :=
  match f with
  | .printThreadId => printThreadId
  | .waitkeyboard => waitkeyboard
  | .waitfakedev => waitfakedev
  | .waitfakefile => waitfakefile
  | .pipewriter => pipewriter opens.writer
  | .pipereader => pipereader opens.reader
  | .useioctls => useioctls

/-- print_thread_id reads its id before it calls `malloc`, the others after it. -/
def first : ThreadFunc → ThreadPc
  | .printThreadId => .readId
  | .waitkeyboard | .waitfakedev | .waitfakefile | .pipewriter | .pipereader | .useioctls => .malloc

def afterReadId : ThreadFunc → ThreadPc
  | .printThreadId => .malloc
  | .waitkeyboard => .print
  | .waitfakedev | .waitfakefile | .pipewriter | .pipereader | .useioctls => .open

/-- useioctls does not use its argument. -/
def afterMalloc : ThreadFunc → ThreadPc
  | .printThreadId => .print
  | .waitkeyboard | .waitfakedev | .waitfakefile | .pipewriter | .pipereader => .readId
  | .useioctls => .open

/-! ### makethreads -/

inductive Pc where
  | createTest (i : Nat)
  | writeId (i : Nat)
  | create (i : Nat)
  | printCreated
  | joinTest (i : Nat)
  | join (i : Nat)
  | print (i : Nat) (threadstatus : Option Nat)
  | free (i : Nat) (threadstatus : Option Nat)
  | returned

structure State where
  pc : Pc
  /-- `defs[i].id` -/
  id : Nat → Int
  thread : Nat → Option Thread
  block : Nat → Option Block
  out : List Line
  /-- a null pointer or a block without a value has been dereferenced -/
  crashed : Bool

inductive Act where
  /-- `input` and `buf`: what a new thread finds in its uninitialised arrays -/
  | makethreads (input : Buffer 11) (buf : Buffer bufSize)
  | thread (i : Nat) (ok : Bool) (bytes : List Byte)

def numthreads : Nat := defs.length

/-- `*p` -/
def State.load (s : State) (p : Option Nat) : Option Int :=
  match p with
  | some b =>
    match s.block b with
    | some B => if B.frees = 0 then B.value else none
    | none => none
  | none => none

/-- `free(p)`; the block counts how often this happens to it. -/
def State.free (s : State) (p : Option Nat) : Nat → Option Block :=
  match p with
  | some b => Function.update s.block b ((s.block b).map fun B => { B with frees := B.frees + 1 })
  | none => s.block

def State.setThread (s : State) (i : Nat) (t : Thread) : State :=
  { s with thread := Function.update s.thread i (some t) }

def makethreadsStep (input : Buffer 11) (buf : Buffer bufSize) (s : State) : Option State :=
  match s.pc with
  | .createTest i => some { s with pc := if i < numthreads then .writeId i else .printCreated }
  | .writeId i => some { s with pc := .create i, id := Function.update s.id i (i + 1) }
  | .create i =>
    match defs[i]? with
    | some f => some { s.setThread i ⟨f, first f, 0, none, input, buf⟩ with pc := .createTest (i + 1) }
    | none => none
  | .printCreated => some { s with pc := .joinTest 0, out := s.out ++ [.created numthreads] }
  | .joinTest i => some { s with pc := if i < numthreads then .join i else .returned }
  | .join i =>
    match s.thread i with
    | some t =>
      match t.pc with
      | .exited result =>
        some { s.setThread i { t with pc := .joined result } with pc := .print i result }
      | _ => none
    | none => none
  | .print i threadstatus =>
    match s.load threadstatus with
    | some v => some { s with pc := .free i threadstatus, out := s.out ++ [.joined i v] }
    | none => some { s with crashed := true }
  | .free i threadstatus =>
    some { s with pc := .joinTest (i + 1), block := s.free threadstatus }
  | .returned => none

def threadStep (opens : Opens) (s : State) (i : Nat) (t : Thread) (ok : Bool) (bytes : List Byte) :
    Option State :=
  match t.pc with
  | .readId => some (s.setThread i { t with pc := afterReadId t.func, threadId := s.id i })
  | .malloc => some
    { s.setThread i { t with pc := afterMalloc t.func, exitval := some i } with
      block := Function.update s.block i (some ⟨none, 0⟩) }
  | .store v =>
    match t.exitval with
    | some b => some
      { s.setThread i { t with pc := .exit (some b) } with
        block := Function.update s.block b ((s.block b).map fun B => { B with value := some v }) }
    | none => some { s with crashed := true }
  | .exit result => some (s.setThread i { t with pc := .exited result })
  | .exited _ | .joined _ => none
  | .print | .sleep | .printReady | .getchar | .open | .read _ | .write _ | .ioctlWrite | .ioctlRead
  | .close =>
    (body opens t.func t ok bytes).map fun (t', lines) =>
      { s.setThread i t' with out := s.out ++ lines }

def step (opens : Opens) (s : State) (a : Act) : Option State :=
  if s.crashed then none else
    match a with
    | .makethreads input buf => makethreadsStep input buf s
    | .thread i ok bytes =>
      match s.thread i with
      | some t => threadStep opens s i t ok bytes
      | none => none

def initial (id : Nat → Int) : State where
  pc := .createTest 0
  id := id
  thread := fun _ => none
  block := fun _ => none
  out := []
  crashed := false

def makethreads (opens : Opens) : System State Act where
  init s := ∃ id, s = initial id
  step := step opens

end GenericTests.Controlthreads.Makethreads
