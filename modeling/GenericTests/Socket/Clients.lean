import GenericTests.Lib.Transition
import GenericTests.Socket.Server
import Mathlib.Logic.Function.Basic

/-!
# socket.c: server_thread and the three client_threads

The server is past its accept loop, the clients are connected. A client's step is one
call on its socket with the `printf` after it; the server steps entry by entry, so that
the clients move while it serves.
-/
namespace GenericTests.Socket

open GenericTests.CString GenericTests.Transition

/-- `NUM_THREADS` -/
abbrev numThreads : Nat := 3

/-- The next call of client_thread on its socket. -/
inductive ClientPc where
  | send
  | read
  | close
  | returned
  deriving DecidableEq

structure Client where
  pc : ClientPc
  buffer : Buffer bufferSize

inductive ServerPc where
  /-- the condition of the `while` loop -/
  | test
  | poll
  /-- the `for` loop at entry `i` -/
  | entry (i pollCount : Nat)
  /-- `if (poll_count == 3)` -/
  | check (pollCount : Nat)
  | left
  deriving DecidableEq

structure World where
  server : Server
  pc : ServerPc
  clients : Fin numThreads → Client
  /-- the messages on each connection that the server has not read, oldest first -/
  pending : Fin numThreads → List (List Byte)

inductive Move where
  | client (i : Fin numThreads)
  | server

def clientMessage (threadId : Int) : List Byte :=
  ascii "Hello from client" ++ ascii " " ++ decimal threadId

def sentLine (threadId : Int) (text : List Byte) : List Byte :=
  ascii "Client " ++ decimal threadId ++ ascii ": Sent message: " ++ text ++ ascii "\n"

def receivedMessageLine (threadId : Int) (text : List Byte) : List Byte :=
  ascii "Client " ++ decimal threadId ++ ascii ": Received message: " ++ text ++ ascii "\n"

def closedSocketLine (threadId : Int) : List Byte :=
  ascii "Client " ++ decimal threadId ++ ascii ": Closed socket\n"

section System

variable (accepted : Accepted numThreads) (threadId : Fin numThreads → Int)

def setClient (w : World) (i : Fin numThreads) (c : Client) (line : List Byte) : World :=
  { w with clients := Function.update w.clients i c, server := w.server.print line }

/-- The next call of client `i`. Its `read` returns when a reply is there, or with end of
file once the server has closed the connection. -/
def clientStep (w : World) (i : Fin numThreads) : Option World :=
  let c := w.clients i
  match c.pc with
  | .send =>
    -- sprintf(buffer, "%s %d", message, thread_id), then send of strlen(buffer) bytes
    let buffer := c.buffer.write (clientMessage (threadId i) ++ [0])
    let w := { w with pending := Function.update w.pending i (w.pending i ++ [buffer.text]) }
    some (setClient w i ⟨.read, buffer⟩ (sentLine (threadId i) buffer.text))
  | .read =>
    let arrived := replies accepted w.server i
    if arrived = [] ∧ accepted.fd i ∉ w.server.closefdCalls then none
    else
      -- the reply lands in the buffer the message was built in, without a NUL of its own
      let buffer := c.buffer.write arrived.flatten
      some (setClient w i ⟨.close, buffer⟩ (receivedMessageLine (threadId i) buffer.text))
  | .close => some (setClient w i { c with pc := .returned } (closedSocketLine (threadId i)))
  | .returned => none

/-- What `poll` reports for connection `i`. -/
def pollResult (w : World) (i : Fin numThreads) : Events :=
  if accepted.fd i ∈ w.server.closefdCalls then pollnval
  -- data, or the end of file that the client's close leaves behind
  else if (w.pending i).isEmpty = false ∨ (w.clients i).pc = .returned then pollin
  else 0

/-- The return value of `poll`. -/
def pollCount (w : World) : Nat :=
  (Finset.univ.filter fun i => pollResult accepted w i ≠ 0).card

/-- What `read` on connection `i` returns, and what is left to read. It blocks on an open
connection with nothing to read. -/
def readResult (w : World) (i : Fin numThreads) : Option (ReadResult × List (List Byte)) :=
  if accepted.fd i ∈ w.server.closefdCalls then some (.error, w.pending i)
  else match w.pending i with
    | message :: rest => some (.data message, rest)
    | [] => if (w.clients i).pc = .returned then some (.eof, []) else none

def entryStep (w : World) (i : Fin numThreads) (count : Nat) : Option World :=
  match w.server.fds[i.val]? with
  | none => none
  | some entry =>
    if entry.revents &&& pollin ≠ 0 then
      match readResult accepted w i with
      -- read blocks, and the whole server with it
      | none => none
      | some (valread, rest) =>
        some { w with
          server := serveEntry socketServer i valread w.server
          pending := Function.update w.pending i rest
          pc := .entry (i + 1) count }
    else
      -- read is not called, so its result is of no account
      some { w with
        server := serveEntry socketServer i .error w.server
        pc := .entry (i + 1) count }

def serverStep (w : World) : Option World :=
  match w.pc with
  | .test =>
    if socketServer.guard w.server.numOpen w.server.timeouts then some { w with pc := .poll }
    else some { w with pc := .left }
  | .poll =>
    let server := setRevents (fun i => if h : i < numThreads then pollResult accepted w ⟨i, h⟩ else 0)
      w.server
    if pollCount accepted w = 0 then
      some { w with server := timedOut socketServer server, pc := .check 0 }
    else some { w with server := server, pc := .entry 0 (pollCount accepted w) }
  | .entry i count =>
    if h : i < numThreads then entryStep accepted w ⟨i, h⟩ count
    else some { w with pc := .check count }
  | .check count => some { w with pc := if count = 3 then .left else .test }
  | .left => none

def worldStep (w : World) : Move → Option World
  | .client i => clientStep accepted threadId w i
  | .server => serverStep accepted w

/-- The clients are connected and the accept loop is over. -/
def connected : World where
  server := start accepted
  pc := .test
  clients _ := ⟨.send, .zeros bufferSize⟩
  pending _ := []

def clientServer : System World Move where
  init w := w = connected accepted
  step := worldStep accepted threadId

end System

end GenericTests.Socket
