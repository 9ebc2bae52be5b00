import GenericTests.Lib.CString
import Mathlib.Data.Fintype.Card

/-!
# socket.c and socketforkserver.c: the poll loop of server_thread

The two servers share the loop body; they differ in the loop guard, in `TIMEOUT` and in
whether the error branch prints. `poll` and `read` are inputs: a `Round` holds what
one call of `poll` and the reads after it return.
-/
namespace GenericTests.Socket

open GenericTests.CString

/-- `BUFFER_SIZE` -/
def bufferSize : Nat := 1024

/-- The type of `events` and `revents`, `short`. -/
abbrev Events := BitVec 16

/-- `POLLIN` -/
def pollin : Events := 0x001

/-- `POLLNVAL` -/
def pollnval : Events := 0x020

structure PollFd where
  fd : Int
  events : Events
  revents : Events

/-- The result of `read`: `valread > 0` with the bytes, `valread == 0`, `valread < 0`. -/
inductive ReadResult where
  | data (bytes : List Byte)
  | eof
  | error
  deriving DecidableEq

/-- Where the two servers differ. -/
structure Variant where
  /-- the `while` condition on `num_open` and `timeouts` -/
  guard : Int → Int → Bool
  /-- `TIMEOUT` -/
  timeout : Nat
  printsPolled : Bool

/-- server_thread of socket.c -/
def socketServer : Variant where
  guard numOpen timeouts := decide (numOpen > 0) || decide (timeouts > 3)
  timeout := 5000
  printsPolled := true

/-- server_thread of socketforkserver.c -/
def socketForkServer : Variant where
  guard numOpen timeouts := decide (numOpen > 0) && decide (timeouts < 3)
  timeout := 5000000
  printsPolled := false

structure Server where
  fds : List PollFd
  numOpen : Int
  timeouts : Int
  buffer : Buffer bufferSize
  /-- the descriptors `closefd` was called with -/
  closefdCalls : List Int
  /-- what was sent, and on which descriptor -/
  sent : List (Int × List Byte)
  stdout : List (List Byte)

def response : List Byte := ascii "Hello from server"

def receivedLine (client : Nat) (text : List Byte) : List Byte :=
  ascii "Server: Received from client " ++ decimal client ++ ascii ": " ++ text ++ ascii "\n"

def eofLine (client : Nat) : List Byte :=
  ascii "Server: Received EOF from client " ++ decimal client ++ ascii "\n"

def polledLine (revents : Events) (client : Nat) : List Byte :=
  -- the argument of %x is a short, promoted to int
  ascii "Server: Polled 0x" ++ hexadecimal (revents.signExtend 32).toNat ++ ascii " from client " ++
    decimal client ++ ascii "\n"

def timedOutLine (timeout : Nat) : List Byte :=
  ascii "Server: Poll timed out. No data in " ++ decimal timeout ++ ascii " ms\n"

/-- The line `closefd` prints; `close` fails on a descriptor that is closed already. -/
def closefdLine (i : Nat) (fd : Int) (closed : Bool) : List Byte :=
  (if closed then ascii "Error closing fd " else ascii "Closed fd ") ++
    decimal i ++ ascii " " ++ decimal fd ++ ascii "\n"

def Server.print (s : Server) (line : List Byte) : Server :=
  { s with stdout := s.stdout ++ [line] }

def closefd (i : Nat) (fd : Int) (s : Server) : Server :=
  { s.print (closefdLine i fd (decide (fd ∈ s.closefdCalls))) with
    closefdCalls := s.closefdCalls ++ [fd] }

/-- The body of the inner `for` loop for entry `i`; `valread` is what `read` returns if
it is called. -/
def serveEntry (v : Variant) (i : Nat) (valread : ReadResult) (s : Server) : Server :=
  match s.fds[i]? with
  | none => s
  | some entry =>
    if entry.revents &&& pollin ≠ 0 then
      match valread with
      | .data bytes =>
        -- the buffer is shared by all clients and is not cleared between reads
        let s := { s with buffer := s.buffer.write bytes }
        let s := s.print (receivedLine (i + 1) s.buffer.text)
        { s with sent := s.sent ++ [(entry.fd, response)] }
      | .eof =>
        let s := closefd i entry.fd (s.print (eofLine (i + 1)))
        { s with numOpen := s.numOpen - 1 }
      -- neither branch of the source handles valread < 0
      | .error => s
    else if entry.revents ≠ 0 then
      let s := if v.printsPolled then s.print (polledLine entry.revents (i + 1)) else s
      { s with fds := s.fds.set i { entry with events := 0, revents := 0 } }
    else s

/-- The inner `for` loop over the first `count` entries. -/
def serve (v : Variant) (reads : Nat → ReadResult) (count : Nat) (s : Server) : Server :=
  (List.range count).foldl (fun s i => serveEntry v i (reads i) s) s

/-- `poll` writes the `revents` field of every entry. -/
def setRevents (revents : Nat → Events) (s : Server) : Server :=
  { s with fds := s.fds.mapIdx fun i entry => { entry with revents := revents i } }

def timedOut (v : Variant) (s : Server) : Server :=
  { s.print (timedOutLine v.timeout) with timeouts := s.timeouts + 1 }

structure Round where
  pollCount : Int
  revents : Nat → Events
  reads : Nat → ReadResult

/-- How one iteration of the `while` loop ends. -/
inductive Next where
  /-- at the loop test -/
  | again (s : Server)
  /-- `poll_count == 3` -/
  | broke (s : Server)
  /-- `exit(EXIT_FAILURE)` after a poll error -/
  | failed

def iteration (v : Variant) (r : Round) (s : Server) : Next :=
  let s := setRevents r.revents s
  if r.pollCount < 0 then .failed
  else
    let s := if r.pollCount = 0 then timedOut v s else serve v r.reads s.fds.length s
    -- the test on 3 stands after the branches, so this iteration has served its entries
    if r.pollCount = 3 then .broke s else .again s

/-- The state at every call of `poll`, in order. -/
def pollCalls (v : Variant) : List Round → Server → List Server
  | [], s => if v.guard s.numOpen s.timeouts then [s] else []
  | r :: rs, s =>
    if v.guard s.numOpen s.timeouts then
      s :: match iteration v r s with
        | .again s' => pollCalls v rs s'
        | .broke _ | .failed => []
    else []

/-- The descriptors the accept loop returned: pairwise different and not negative. -/
structure Accepted (n : Nat) where
  fd : Fin n → Int
  nonneg : ∀ i, 0 ≤ fd i
  distinct : Function.Injective fd

/-- The first descriptors after the listening socket's. -/
def threeClients : Accepted 3 where
  fd i := 4 + (i : Int)
  nonneg i := by omega
  distinct i j h := by
    have : 4 + (i : Int) = 4 + (j : Int) := h
    omega

def Accepted.fds {n : Nat} (accepted : Accepted n) : List Int := List.ofFn accepted.fd

/-- After the accept loop. -/
def start {n : Nat} (accepted : Accepted n) : Server where
  fds := accepted.fds.map fun fd => ⟨fd, pollin, 0⟩
  numOpen := n
  timeouts := 0
  buffer := .zeros bufferSize
  closefdCalls := []
  sent := []
  stdout := []

/-- The connections `closefd` was not called for. -/
def openClients {n : Nat} (accepted : Accepted n) (s : Server) : Finset (Fin n) :=
  Finset.univ.filter fun i => accepted.fd i ∉ s.closefdCalls

/-- What was sent on connection `i`. -/
def replies {n : Nat} (accepted : Accepted n) (s : Server) (i : Fin n) : List (List Byte) :=
  (s.sent.filter fun message => decide (message.1 = accepted.fd i)).map Prod.snd

theorem setRevents_fd (revents : Nat → Events) (s : Server) :
    (setRevents revents s).fds.map PollFd.fd = s.fds.map PollFd.fd := by
  apply List.ext_getElem?
  intro i
  simp [setRevents, Function.comp_def]

theorem length_setRevents (revents : Nat → Events) (s : Server) :
    (setRevents revents s).fds.length = s.fds.length := List.length_mapIdx

/-- An iteration that does not fail has either timed out or served every entry. -/
theorem iteration_ends {v : Variant} {r : Round} {s t : Server}
    (ends : iteration v r s = .again t ∨ iteration v r s = .broke t) :
    ¬ r.pollCount < 0 ∧
      t = if r.pollCount = 0 then timedOut v (setRevents r.revents s)
        else serve v r.reads (setRevents r.revents s).fds.length (setRevents r.revents s) := by
  simp only [iteration] at ends
  split at ends
  · rcases ends with e | e <;> cases e
  next notFailed =>
    refine ⟨notFailed, ?_⟩
    split at ends
    · rcases ends with e | e <;> cases e
      rfl
    · rcases ends with e | e <;> cases e
      rfl

/-! ### One entry -/

/-- Everything the body of the inner loop can do with an entry. -/
inductive Serves (i : Nat) (entry : PollFd) (s : Server) : ReadResult → Server → Prop where
  | data (bytes : List Byte) (buffer : Buffer bufferSize) (stdout : List (List Byte)) :
      entry.revents &&& pollin ≠ 0 →
      Serves i entry s (.data bytes)
        { s with buffer := buffer, stdout := stdout, sent := s.sent ++ [(entry.fd, response)] }
  | eof (stdout : List (List Byte)) :
      entry.revents &&& pollin ≠ 0 →
      Serves i entry s .eof
        { s with
          stdout := stdout
          closefdCalls := s.closefdCalls ++ [entry.fd]
          numOpen := s.numOpen - 1 }
  | error : entry.revents &&& pollin ≠ 0 → Serves i entry s .error s
  | cleared (valread : ReadResult) (stdout : List (List Byte)) :
      ¬ entry.revents &&& pollin ≠ 0 → entry.revents ≠ 0 →
      Serves i entry s valread
        { s with stdout := stdout, fds := s.fds.set i { entry with events := 0, revents := 0 } }
  | quiet (valread : ReadResult) :
      ¬ entry.revents &&& pollin ≠ 0 → ¬ entry.revents ≠ 0 → Serves i entry s valread s

theorem serveEntry_serves (v : Variant) (i : Nat) (valread : ReadResult) (s : Server)
    (entry : PollFd) (found : s.fds[i]? = some entry) :
    Serves i entry s valread (serveEntry v i valread s) := by
  rw [serveEntry, found]
  dsimp only
  -- one case per branch of the body, in the order of the source
  split
  next ready =>
    cases valread with
    | data bytes => exact .data bytes _ _ ready
    | eof => exact .eof _ ready
    | error => exact .error ready
  next notReady =>
    split
    next nonzero => cases v.printsPolled <;> exact .cleared valread _ notReady nonzero
    next zero => exact .quiet valread notReady zero

theorem serveEntry_of_none (v : Variant) (i : Nat) (valread : ReadResult) (s : Server)
    (missing : s.fds[i]? = none) : serveEntry v i valread s = s := by
  rw [serveEntry, missing]

/-- The descriptor an entry closes when its read returns `valread`. -/
def closing (valread : ReadResult) (entry : PollFd) : Option Int :=
  match valread with
  | .eof => if entry.revents &&& pollin ≠ 0 then some entry.fd else none
  | _ => none

/-- The reply an entry gets when its read returns `valread`. -/
def answering (valread : ReadResult) (entry : PollFd) : Option (Int × List Byte) :=
  match valread with
  | .data _ => if entry.revents &&& pollin ≠ 0 then some (entry.fd, response) else none
  | _ => none

theorem closing_of_eof (entry : PollFd) (ready : entry.revents &&& pollin ≠ 0) :
    closing .eof entry = some entry.fd := if_pos ready

theorem answering_of_data (bytes : List Byte) (entry : PollFd)
    (ready : entry.revents &&& pollin ≠ 0) :
    answering (.data bytes) entry = some (entry.fd, response) := if_pos ready

theorem closing_of_not_ready (valread : ReadResult) (entry : PollFd)
    (notReady : ¬ entry.revents &&& pollin ≠ 0) : closing valread entry = none := by
  cases valread <;> simp only [closing, if_neg notReady]

theorem answering_of_not_ready (valread : ReadResult) (entry : PollFd)
    (notReady : ¬ entry.revents &&& pollin ≠ 0) : answering valread entry = none := by
  cases valread <;> simp only [answering, if_neg notReady]

/-- What serving an entry does to the connections. -/
theorem serveEntry_effect (v : Variant) (i : Nat) (valread : ReadResult) (s : Server)
    (entry : PollFd) (found : s.fds[i]? = some entry) :
    (serveEntry v i valread s).closefdCalls = s.closefdCalls ++ (closing valread entry).toList ∧
    (serveEntry v i valread s).numOpen = s.numOpen - (closing valread entry).toList.length ∧
    (serveEntry v i valread s).sent = s.sent ++ (answering valread entry).toList := by
  have serves := serveEntry_serves v i valread s entry found
  generalize serveEntry v i valread s = t at serves ⊢
  cases serves with
  | data bytes _ _ ready => simp [closing, answering_of_data bytes entry ready]
  | eof _ ready => simp [answering, closing_of_eof entry ready]
  | error => simp [closing, answering]
  | cleared _ _ notReady =>
    simp [closing_of_not_ready valread entry notReady, answering_of_not_ready valread entry notReady]
  | quiet _ notReady =>
    simp [closing_of_not_ready valread entry notReady, answering_of_not_ready valread entry notReady]

/-- Serving one entry touches no other entry. -/
theorem serveEntry_other (v : Variant) (i j : Nat) (valread : ReadResult) (s : Server)
    (other : j ≠ i) : (serveEntry v i valread s).fds[j]? = s.fds[j]? := by
  cases found : s.fds[i]? with
  | none => rw [serveEntry_of_none v i valread s found]
  | some entry =>
    have serves := serveEntry_serves v i valread s entry found
    generalize serveEntry v i valread s = t at serves ⊢
    cases serves with
    | cleared => exact List.getElem?_set_ne (Ne.symm other)
    | data | eof | error | quiet => rfl

/-- The `fd` fields are written by the accept loop only. -/
theorem serveEntry_fd (v : Variant) (i : Nat) (valread : ReadResult) (s : Server) :
    (serveEntry v i valread s).fds.map PollFd.fd = s.fds.map PollFd.fd := by
  cases found : s.fds[i]? with
  | none => rw [serveEntry_of_none v i valread s found]
  | some entry =>
    have serves := serveEntry_serves v i valread s entry found
    generalize serveEntry v i valread s = t at serves ⊢
    cases serves with
    | data | eof | error | quiet => rfl
    | cleared =>
      -- the entry is written back with its own fd
      have same : (s.fds.map PollFd.fd).set i entry.fd = s.fds.map PollFd.fd := by
        obtain ⟨bound, rfl⟩ := List.getElem?_eq_some_iff.mp found
        rw [← List.map_set, List.set_getElem_self]
      rw [List.map_set, same]

/-! ### One connection -/

section Connections

variable {n : Nat} (accepted : Accepted n)

theorem fd_of_entry (s : Server) (i : Fin n) (entry : PollFd)
    (fds : s.fds.map PollFd.fd = accepted.fds) (found : s.fds[i.val]? = some entry) :
    entry.fd = accepted.fd i := by
  have polled : (s.fds.map PollFd.fd)[i.val]? = some entry.fd := by simp [found]
  rw [fds, Accepted.fds, List.getElem?_ofFn] at polled
  simpa using polled.symm

theorem openClients_of_closefd (s t : Server) (i : Fin n)
    (calls : t.closefdCalls = s.closefdCalls ++ [accepted.fd i]) :
    openClients accepted t = (openClients accepted s).erase i := by
  ext j
  simp only [openClients, Finset.mem_filter, Finset.mem_univ, true_and, Finset.mem_erase, calls,
    List.mem_append, List.mem_singleton, not_or, accepted.distinct.eq_iff, and_comm, ne_eq]

theorem replies_of_send (s t : Server) (i j : Fin n) (message : List Byte)
    (sent : t.sent = s.sent ++ [(accepted.fd i, message)]) :
    replies accepted t j = replies accepted s j ++ if j = i then [message] else [] := by
  by_cases here : j = i
  · subst here
    simp [replies, sent]
  · have other : accepted.fd i ≠ accepted.fd j := fun h => here (accepted.distinct h).symm
    simp [replies, sent, here, other]

/-- Serving one connection touches no other connection. -/
theorem serveEntry_other_connection (v : Variant) (i j : Fin n) (valread : ReadResult) (s : Server)
    (entry : PollFd) (fds : s.fds.map PollFd.fd = accepted.fds)
    (found : s.fds[i.val]? = some entry) (other : j ≠ i) :
    replies accepted (serveEntry v i valread s) j = replies accepted s j ∧
    (accepted.fd j ∈ (serveEntry v i valread s).closefdCalls ↔
      accepted.fd j ∈ s.closefdCalls) := by
  have fd := fd_of_entry accepted s i entry fds found
  obtain ⟨calls, -, sent⟩ := serveEntry_effect v i valread s entry found
  -- accept never returned one descriptor twice, so what happens on i's is not seen on j's
  have differ : accepted.fd j ≠ accepted.fd i := fun h => other (accepted.distinct h)
  constructor
  · by_cases ready : entry.revents &&& pollin ≠ 0
    · cases valread with
      | data bytes =>
        rw [answering_of_data bytes entry ready, fd] at sent
        simpa [other] using replies_of_send accepted s _ i j response sent
      | eof | error => simp [replies, sent, answering]
    · rw [answering_of_not_ready valread entry ready] at sent
      simp [replies, sent]
  · by_cases ready : entry.revents &&& pollin ≠ 0
    · cases valread with
      | eof =>
        rw [closing_of_eof entry ready, fd] at calls
        simp [calls, differ]
      | data | error => simp [calls, closing]
    · rw [closing_of_not_ready valread entry ready] at calls
      simp [calls]

end Connections

end GenericTests.Socket
