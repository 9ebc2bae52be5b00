import GenericTests.Socket.Progress

/-!
# socket.c from the start of main to its end

main creates server_thread, sleeps for a second and creates the clients. Nothing but the sleep
puts `listen` before the calls of `connect`, and server_thread waits for three connections. So
main comes to its end exactly if no client is turned away.
-/
namespace GenericTests.Socket.Program

open GenericTests.CString GenericTests.Transition

inductive MainPc where
  | createServer
  /-- `pthread_create` for `threads[i]`, or the line behind the loop -/
  | createClient (i : Nat)
  | joinServer
  /-- `pthread_join` of `threads[i]`, or the line behind the loop -/
  | joinClient (i : Nat)
  | returned
  deriving DecidableEq

inductive ServerPhase where
  | absent
  /-- socket, bind and listen -/
  | listen
  /-- the accept loop with the entries of `fds` it has filled -/
  | accept (fds : List PollFd)
  | polling
  | returned

inductive ClientPhase where
  | absent
  | socket
  | connect
  /-- returned without a connection -/
  | failed
  /-- with the number of its connection -/
  | connected (j : Fin numThreads)
  deriving DecidableEq

structure State where
  main : MainPc
  server : ServerPhase
  clients : Fin numThreads → ClientPhase
  /-- the clients in the order of their connections -/
  connections : List (Fin numThreads)
  /-- the connections by their numbers, and the poll loop -/
  world : World
  /-- server_thread has called `exit(EXIT_FAILURE)` -/
  exited : Bool

inductive Act where
  | main
  | server
  | client (k : Fin numThreads)
  /-- the call server_thread is at fails -/
  | serverFails
  /-- the call of client `k` fails for want of resources -/
  | clientFails (k : Fin numThreads)

/-- `thread_ids[k]` -/
def threadId (k : Fin numThreads) : Int := k.val + 1

def createdLine : List Byte := ascii "Created " ++ decimal numThreads ++ ascii " threads\n"

def allDoneLine : List Byte := ascii "All " ++ decimal numThreads ++ ascii " threads done\n"

def listeningLine : List Byte := ascii "Server: Listening on port " ++ decimal 8080 ++ ascii "...\n"

def acceptedLine : List Byte := ascii "Server: Accepted connections from all children\n"

def doneLine : List Byte := ascii "Server: Done\n"

def socketErrorLine : List Byte := ascii "Socket creation error\n"

def connectionFailedLine : List Byte := ascii "Connection failed\n"

def State.print (s : State) (line : List Byte) : State :=
  { s with world := { s.world with server := s.world.server.print line } }

def State.setClient (s : State) (k : Fin numThreads) (c : ClientPhase) : State :=
  { s with clients := Function.update s.clients k c }

/-- Has client_thread `k` returned? -/
def State.finished (s : State) (k : Fin numThreads) : Bool :=
  match s.clients k with
  | .failed => true
  | .connected j => decide ((s.world.clients j).pc = .returned)
  | .absent | .socket | .connect => false

def ServerPhase.listening : ServerPhase → Bool
  | .absent | .listen => false
  | .accept _ | .polling | .returned => true

def ServerPhase.isReturned : ServerPhase → Bool
  | .returned => true
  | .absent | .listen | .accept _ | .polling => false

def mainStep (s : State) : Option State :=
  match s.main with
  | .createServer => some { s with main := .createClient 0, server := .listen }
  | .createClient i =>
    if h : i < numThreads then
      some { s.setClient ⟨i, h⟩ .socket with main := .createClient (i + 1) }
    else some { s.print createdLine with main := .joinServer }
  | .joinServer => if s.server.isReturned then some { s with main := .joinClient 0 } else none
  | .joinClient i =>
    if h : i < numThreads then
      if s.finished ⟨i, h⟩ then some { s with main := .joinClient (i + 1) } else none
    else some { s.print allDoneLine with main := .returned }
  | .returned => none

/-- `fds`, with `num_fds` and `num_open` for it -/
def withFds (w : World) (fds : List PollFd) : World :=
  { w with server := { w.server with fds := fds, numOpen := fds.length } }

section System

variable (accepted : Accepted numThreads)

def serverThread (s : State) : Option State :=
  match s.server with
  | .absent => none
  | .listen => some { s.print listeningLine with server := .accept [] }
  | .accept fds =>
    if h : fds.length < numThreads then
      -- accept takes the oldest connection, and waits if there is none
      if fds.length < s.connections.length then
        some { s with server := .accept (fds ++ [⟨accepted.fd ⟨fds.length, h⟩, pollin, 0⟩]) }
      else none
    else some { ({ s with world := withFds s.world fds } : State).print acceptedLine with
      server := .polling }
  | .polling =>
    if s.world.pc = .left then some { s.print doneLine with server := .returned }
    else (serverStep accepted s.world).map fun w => { s with world := w }
  | .returned => none

/-- Each client connects once, so the queue of `listen(server_fd, 3)` has room for it. -/
def clientThread (s : State) (k : Fin numThreads) : Option State :=
  match s.clients k with
  | .absent | .failed => none
  | .socket => some (s.setClient k .connect)
  | .connect =>
    if s.server.listening then
      if h : s.connections.length < numThreads then
        some { s.setClient k (.connected ⟨s.connections.length, h⟩) with
          connections := s.connections ++ [k] }
      else none
    -- nobody listens on the port
    else some ((s.print connectionFailedLine).setClient k .failed)
  | .connected j =>
    (clientStep accepted (fun _ => threadId k) s.world j).map fun w => { s with world := w }

/-- The error paths of server_thread; its test on the result of `socket` never fires. -/
def serverFails (s : State) : Option State :=
  match s.server with
  | .listen => some { s with exited := true }
  | .accept fds => if fds.length < numThreads then some { s with exited := true } else none
  | .polling => if s.world.pc = .poll then some { s with exited := true } else none
  | .absent | .returned => none

def clientFails (s : State) (k : Fin numThreads) : Option State :=
  match s.clients k with
  | .socket => some ((s.print socketErrorLine).setClient k .failed)
  | .connect => some ((s.print connectionFailedLine).setClient k .failed)
  | .absent | .failed | .connected _ => none

def step (s : State) (a : Act) : Option State :=
  if s.exited then none
  else match a with
    | .main => mainStep s
    | .server => serverThread accepted s
    | .client k => clientThread accepted s k
    | .serverFails => serverFails s
    | .clientFails k => clientFails s k

def initial : State where
  main := .createServer
  server := .absent
  clients _ := .absent
  connections := []
  world := withFds (connected accepted) []
  exited := false

def program : System State Act where
  init s := s = initial accepted
  step := step accepted

end System

theorem step_alive {accepted : Accepted numThreads} {s : State} (alive : s.exited = false) (a : Act) :
    step accepted s a = match a with
      | .main => mainStep s
      | .server => serverThread accepted s
      | .client k => clientThread accepted s k
      | .serverFails => serverFails s
      | .clientFails k => clientFails s k := by
  simp [step, alive]

/-! ### What holds in every state -/

/-- How many clients main has created. -/
def MainPc.created : MainPc → Nat
  | .createServer => 0
  | .createClient i => i
  | .joinServer | .joinClient _ | .returned => numThreads

def MainPc.serverJoined : MainPc → Bool
  | .createServer | .createClient _ | .joinServer => false
  | .joinClient _ | .returned => true

/-- How many clients main has joined. -/
def MainPc.joined : MainPc → Nat
  | .createServer | .createClient _ | .joinServer => 0
  | .joinClient i => i
  | .returned => numThreads

section Invariant

variable (accepted : Accepted numThreads)

/-- The poll loop has not begun. With all the entries it would be in order. -/
def Early (s : State) : Prop :=
  s.world.pc = .test ∧ Inv accepted (withFds s.world (start accepted).fds)

def ServerInv (s : State) : ServerPhase → Prop
  | .absent | .listen => s.connections = [] ∧ Early accepted s
  | .accept fds => fds = (start accepted).fds.take fds.length ∧
      fds.length ≤ s.connections.length ∧ Early accepted s
  | .polling => s.connections.length = numThreads ∧ Inv accepted s.world
  | .returned => s.connections.length = numThreads ∧ Inv accepted s.world ∧ s.world.pc = .left

structure Whole (s : State) : Prop where
  nodup : s.connections.Nodup
  numbers : ∀ k j, s.clients k = .connected j ↔ s.connections[j.val]? = some k
  server : ServerInv accepted s s.server
  absent : s.server = .absent ↔ s.main = .createServer
  created : ∀ k, s.clients k = .absent ↔ s.main.created ≤ k.val
  serverJoined : s.main.serverJoined = true → s.server = .returned
  joined : ∀ k : Fin numThreads, k.val < s.main.joined → s.finished k = true
  exited : s.exited = true → s.server ≠ .returned

end Invariant

/-- A step moves one client at most, and none that has failed. -/
def Moves (s t : State) : Prop :=
  t.clients = s.clients ∨ ∃ k c, s.clients k ≠ .failed ∧ t.clients = Function.update s.clients k c

theorem MainPc.serverJoined_of_lt {pc : MainPc} {k : Nat} (h : k < pc.joined) :
    pc.serverJoined = true := by
  cases pc with
  | joinClient i | returned => rfl
  | createServer | createClient i | joinServer => exact absurd h (Nat.not_lt_zero k)

section Steps

variable {accepted : Accepted numThreads} {s t : State}

theorem State.finished_iff (s : State) (k : Fin numThreads) :
    s.finished k = true ↔ s.clients k = .failed ∨
      ∃ j, s.clients k = .connected j ∧ (s.world.clients j).pc = .returned := by
  rw [State.finished]
  split
  next there => simp [there]
  next j there => simp [there]
  all_goals simp [*]

theorem ServerInv.print {phase : ServerPhase} (h : ServerInv accepted s phase) (line : List Byte) :
    ServerInv accepted (s.print line) phase := by
  cases phase with
  | absent | listen =>
    obtain ⟨none, test, inv⟩ := h
    exact ⟨none, test, inv_print inv line⟩
  | accept fds =>
    obtain ⟨entries, few, test, inv⟩ := h
    exact ⟨entries, few, test, inv_print inv line⟩
  | polling => exact ⟨h.1, inv_print h.2 line⟩
  | returned => exact ⟨h.1, inv_print h.2.1 line, h.2.2⟩

theorem Whole.print (h : Whole accepted s) (line : List Byte) : Whole accepted (s.print line) :=
  ⟨h.nodup, h.numbers, h.server.print line, h.absent, h.created, h.serverJoined, h.joined, h.exited⟩

/-- A client that has no connection yet goes on without one. -/
theorem Whole.setClient (h : Whole accepted s) {k : Fin numThreads} {c : ClientPhase}
    (before : s.clients k = .socket ∨ s.clients k = .connect) (after : c = .connect ∨ c = .failed) :
    Whole accepted (s.setClient k c) := by
  have apart (j : Fin numThreads) : s.clients k ≠ .connected j := by
    rcases before with there | there <;> simp [there]
  have alone (j : Fin numThreads) : c ≠ .connected j := by
    rcases after with rfl | rfl <;> simp
  refine ⟨h.nodup, fun k' j => ?_, h.server, h.absent, fun k' => ?_, h.serverJoined, ?_, h.exited⟩
  · refine Iff.trans ?_ (h.numbers k' j)
    by_cases here : k' = k
    · subst here
      simp [State.setClient, apart j, alone j]
    · simp [State.setClient, here]
  · refine Iff.trans ?_ (h.created k')
    by_cases here : k' = k
    · subst here
      rcases before with there | there <;> rcases after with rfl | rfl <;>
        simp [State.setClient, there]
    · simp [State.setClient, here]
  · intro k' early
    have finished := h.joined k' early
    rw [State.finished_iff] at finished ⊢
    by_cases here : k' = k
    · subst here
      rcases before with there | there <;> simp [there] at finished
    · simpa [State.setClient, here] using finished

theorem Whole.length_connections (h : Whole accepted s) : s.connections.length ≤ numThreads := by
  simpa using h.nodup.length_le_card

theorem Whole.present (h : Whole accepted s) (there : s.server ≠ .absent) :
    s.main ≠ .createServer := fun start => there (h.absent.mpr start)

/-- Before server_thread returns main has joined nobody. -/
theorem Whole.none_joined (h : Whole accepted s) (running : s.server ≠ .returned)
    (k : Fin numThreads) : ¬k.val < s.main.joined :=
  fun early => running (h.serverJoined (MainPc.serverJoined_of_lt early))

/-- server_thread moves on; `w` is the poll loop then. -/
theorem Whole.serve (h : Whole accepted s) (there : s.server ≠ .absent)
    (running : s.server ≠ .returned) {phase : ServerPhase} (stays : phase ≠ .absent) {w : World}
    (server : ServerInv accepted { s with world := w, server := phase } phase)
    (alive : s.exited = false) : Whole accepted { s with world := w, server := phase } where
  nodup := h.nodup
  numbers := h.numbers
  server := server
  absent := ⟨fun none => absurd none stays, fun start => absurd start (h.present there)⟩
  created := h.created
  serverJoined joined := absurd (h.serverJoined joined) running
  joined k early := absurd early (h.none_joined running k)
  exited gone := by
    have := alive.symm.trans gone
    cases this

theorem Whole.not_mem (h : Whole accepted s) {k : Fin numThreads}
    (apart : ∀ j, s.clients k ≠ .connected j) : k ∉ s.connections := by
  intro member
  obtain ⟨i, bound, there⟩ := List.mem_iff_getElem.mp member
  have small : i < numThreads := bound.trans_le h.length_connections
  refine apart ⟨i, small⟩ ((h.numbers k ⟨i, small⟩).mpr ?_)
  rw [List.getElem?_eq_getElem bound, there]

end Steps

end GenericTests.Socket.Program
