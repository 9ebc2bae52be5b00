import GenericTests.Socket.Program

/-!
# socket.c: how main comes to its end

A state from which main can return has a step that brings the end nearer: while a client can move
it does, and only then the server goes round its loop.
-/
namespace GenericTests.Socket.Program

open GenericTests.CString GenericTests.Transition Finset

section Ending

def MainPc.rank : MainPc → Nat
  | .createServer => 10
  | .createClient i => 6 + (numThreads - i)
  | .joinServer => 5
  | .joinClient i => 1 + (numThreads - i)
  | .returned => 0

def ClientPhase.rank : ClientPhase → Nat
  | .absent => 3
  | .socket => 2
  | .connect => 1
  | .failed | .connected _ => 0

def ServerPhase.rank (pc : ServerPc) : ServerPhase → Nat
  | .absent => 40
  | .listen => 30
  | .accept fds => 20 + (numThreads - fds.length)
  | .polling => 1 + loopRank pc
  | .returned => 0

/-- The server is not asked to go round its loop while a client can move. -/
def State.rank (s : State) : Nat :=
  50 * (s.main.rank + ∑ k, (s.clients k).rank + ∑ j, callsLeft (s.world.clients j)) +
    s.server.rank s.world.pc

/-- No client was turned away, and the server has met no error. -/
def OnCourse (s : State) : Prop := (∀ k, s.clients k ≠ .failed) ∧ s.exited = false

def Lowers (accepted : Accepted numThreads) (s : State) : Prop :=
  ∃ a t, step accepted s a = some t ∧ OnCourse t ∧ t.rank < s.rank

variable {accepted : Accepted numThreads} {s : State}

theorem OnCourse.setClient (h : OnCourse s) {k : Fin numThreads} {c : ClientPhase}
    (goes : c ≠ .failed) (k' : Fin numThreads) :
    Function.update s.clients k c k' ≠ .failed := by
  by_cases here : k' = k
  · subst here
    simpa using goes
  · simpa [here] using h.1 k'

theorem lowers_createServer (h : OnCourse s) (pc : s.main = .createServer)
    (none : s.server = .absent) : Lowers accepted s := by
  refine ⟨.main, { s with main := .createClient 0, server := .listen }, ?_, h, ?_⟩
  · simp [step_alive h.2, mainStep, pc]
  · have three : numThreads = 3 := rfl
    simp only [State.rank, pc, none, MainPc.rank, ServerPhase.rank]
    omega

theorem lowers_createClient (h : OnCourse s) {i : Nat} (pc : s.main = .createClient i)
    (fresh : ∀ bound : i < numThreads, s.clients ⟨i, bound⟩ = .absent) : Lowers accepted s := by
  by_cases bound : i < numThreads
  · refine ⟨.main, { s.setClient ⟨i, bound⟩ .socket with main := .createClient (i + 1) }, ?_,
      ⟨h.setClient (by simp), h.2⟩, ?_⟩
    · simp [step_alive h.2, mainStep, pc, bound]
    · have less := sum_update_lt ClientPhase.rank s.clients ⟨i, bound⟩ .socket
        (by simp [fresh bound, ClientPhase.rank])
      simp only [State.rank, State.setClient, pc, MainPc.rank]
      omega
  · refine ⟨.main, { s.print createdLine with main := .joinServer }, ?_, h, ?_⟩
    · simp [step_alive h.2, mainStep, pc, bound]
    · simp only [State.rank, State.print, pc, MainPc.rank]
      omega

theorem lowers_socket (h : OnCourse s) {k : Fin numThreads} (there : s.clients k = .socket) :
    Lowers accepted s := by
  refine ⟨.client k, s.setClient k .connect, ?_, ⟨h.setClient (by simp), h.2⟩, ?_⟩
  · simp [step_alive h.2, clientThread, there]
  · have less := sum_update_lt ClientPhase.rank s.clients k .connect
      (by simp [there, ClientPhase.rank])
    simp only [State.rank, State.setClient]
    omega

theorem lowers_listen (h : OnCourse s) (phase : s.server = .listen) : Lowers accepted s := by
  refine ⟨.server, { s.print listeningLine with server := .accept [] }, ?_, h, ?_⟩
  · simp [step_alive h.2, serverThread, phase]
  · have three : numThreads = 3 := rfl
    simp only [State.rank, State.print, phase, ServerPhase.rank, List.length_nil]
    omega

theorem lowers_connect (h : OnCourse s) {k : Fin numThreads} (there : s.clients k = .connect)
    (listening : s.server.listening = true) (room : s.connections.length < numThreads) :
    Lowers accepted s := by
  refine ⟨.client k, { s.setClient k (.connected ⟨s.connections.length, room⟩) with
      connections := s.connections ++ [k] }, ?_, ⟨h.setClient (by simp), h.2⟩, ?_⟩
  · simp [step_alive h.2, clientThread, there, listening, room]
  · have less := sum_update_lt ClientPhase.rank s.clients k
      (.connected ⟨s.connections.length, room⟩) (by simp [there, ClientPhase.rank])
    simp only [State.rank, State.setClient]
    omega

theorem lowers_talk (h : OnCourse s) {k j : Fin numThreads} (there : s.clients k = .connected j)
    {w : World} (moved : clientStep accepted (fun _ => threadId k) s.world j = some w) :
    Lowers accepted s := by
  obtain ⟨pc, c, clients, less⟩ := clientStep_frame moved
  refine ⟨.client k, { s with world := w }, ?_, h, ?_⟩
  · simp [step_alive h.2, clientThread, there, moved]
  · have lower := sum_update_lt callsLeft s.world.clients j c less
    simp only [State.rank, clients, pc]
    omega

theorem lowers_accept (h : OnCourse s) {fds : List PollFd} (phase : s.server = .accept fds)
    (full : s.connections.length = numThreads) : Lowers accepted s := by
  have three : numThreads = 3 := rfl
  by_cases bound : fds.length < numThreads
  · refine ⟨.server, { s with
      server := .accept (fds ++ [⟨accepted.fd ⟨fds.length, bound⟩, pollin, 0⟩]) }, ?_, h, ?_⟩
    · simp [step_alive h.2, serverThread, phase, bound, full]
    · simp only [State.rank, phase, ServerPhase.rank, List.length_append, List.length_singleton]
      omega
  · refine ⟨.server, { ({ s with world := withFds s.world fds } : State).print acceptedLine with
      server := .polling }, ?_, h, ?_⟩
    · simp [step_alive h.2, serverThread, phase, bound]
    · have low : loopRank s.world.pc ≤ 12 := by
        cases s.world.pc with
        | test | poll | left => decide
        | entry i count =>
          simp only [loopRank]
          split <;> omega
        | check count =>
          simp only [loopRank]
          split <;> omega
      simp only [State.rank, State.print, withFds, phase, ServerPhase.rank]
      omega

theorem lowers_polling (h : OnCourse s) (phase : s.server = .polling)
    (inv : Inv accepted s.world) (quiet : ∀ j, Quiet s.world j) : Lowers accepted s := by
  by_cases left : s.world.pc = .left
  · refine ⟨.server, { s.print doneLine with server := .returned }, ?_, h, ?_⟩
    · simp [step_alive h.2, serverThread, phase, left]
    · simp only [State.rank, State.print, phase, ServerPhase.rank]
      omega
  · obtain ⟨u, moved, clients, less⟩ := serverStep_lowers inv quiet left
    refine ⟨.server, { s with world := u }, ?_, h, ?_⟩
    · simp [step_alive h.2, serverThread, phase, left, moved]
    · simp only [State.rank, clients, phase, ServerPhase.rank]
      omega

theorem lowers_joinServer (h : OnCourse s) (pc : s.main = .joinServer)
    (phase : s.server = .returned) : Lowers accepted s := by
  refine ⟨.main, { s with main := .joinClient 0 }, ?_, h, ?_⟩
  · simp [step_alive h.2, mainStep, pc, phase, ServerPhase.isReturned]
  · simp only [State.rank, pc, MainPc.rank]
    have three : numThreads = 3 := rfl
    omega

theorem lowers_joinClient (h : OnCourse s) {i : Nat} (pc : s.main = .joinClient i)
    (finished : ∀ k, s.finished k = true) : Lowers accepted s := by
  by_cases bound : i < numThreads
  · refine ⟨.main, { s with main := .joinClient (i + 1) }, ?_, h, ?_⟩
    · simp [step_alive h.2, mainStep, pc, bound, finished]
    · simp only [State.rank, pc, MainPc.rank]
      omega
  · refine ⟨.main, { s.print allDoneLine with main := .returned }, ?_, h, ?_⟩
    · simp [step_alive h.2, mainStep, pc, bound]
    · simp only [State.rank, State.print, pc, MainPc.rank]
      omega

theorem Whole.all_connected (h : Whole accepted s) (full : s.connections.length = numThreads)
    (k : Fin numThreads) : ∃ j, s.clients k = .connected j := by
  have all : s.connections.toFinset = univ :=
    eq_univ_of_card _ ((List.toFinset_card_of_nodup h.nodup).trans
      (full.trans (Fintype.card_fin _).symm))
  have member : k ∈ s.connections := List.mem_toFinset.mp (all ▸ mem_univ k)
  by_contra none
  exact h.not_mem (fun j connected => none ⟨j, connected⟩) member

theorem Whole.full (h : Whole accepted s) (all : ∀ k, ∃ j, s.clients k = .connected j) :
    s.connections.length = numThreads := by
  have everyone : (univ : Finset (Fin numThreads)) ⊆ s.connections.toFinset := by
    intro k _
    obtain ⟨j, connected⟩ := all k
    exact List.mem_toFinset.mpr (List.mem_of_getElem? ((h.numbers k j).mp connected))
  refine Nat.le_antisymm h.length_connections ?_
  calc numThreads = (univ : Finset (Fin numThreads)).card := (Fintype.card_fin _).symm
    _ ≤ s.connections.toFinset.card := card_le_card everyone
    _ ≤ s.connections.length := List.toFinset_card_le _

/-- With every connection made, a client moves or all of them are quiet. -/
theorem Whole.talks (h : Whole accepted s) (good : OnCourse s)
    (full : s.connections.length = numThreads) (inv : Inv accepted s.world) :
    Lowers accepted s ∨ ∀ j, Quiet s.world j := by
  by_cases busy : ∃ j, ¬Quiet s.world j
  · obtain ⟨j, busy⟩ := busy
    have inside : j.val < s.connections.length := j.isLt.trans_eq full.symm
    have there := (h.numbers s.connections[j.val] j).mpr (List.getElem?_eq_getElem inside)
    obtain ⟨w, moved⟩ := clientStep_enabled (fun _ => threadId s.connections[j.val]) j inv busy
    exact .inl (lowers_talk good there moved)
  · exact .inr fun j => not_not.mp fun loud => busy ⟨j, loud⟩

theorem Whole.lowers_waiting (h : Whole accepted s) (good : OnCourse s)
    (made : s.main.created = numThreads) (there : s.server ≠ .absent)
    (rest : s.server = .returned → (∀ k, s.finished k = true) → Lowers accepted s) :
    Lowers accepted s := by
  by_cases sockets : ∃ k, s.clients k = .socket
  · obtain ⟨k, socket⟩ := sockets
    exact lowers_socket good socket
  by_cases listen : s.server = .listen
  · exact lowers_listen good listen
  by_cases connects : ∃ k, s.clients k = .connect
  · obtain ⟨k, connect⟩ := connects
    have listening : s.server.listening = true := by
      cases phase : s.server with
      | absent => exact absurd phase there
      | listen => exact absurd phase listen
      | accept fds | polling | returned => rfl
    have room : s.connections.length < numThreads := by
      refine Nat.lt_of_le_of_ne h.length_connections fun full => ?_
      obtain ⟨j, connected⟩ := h.all_connected full k
      rw [connect] at connected
      cases connected
    exact lowers_connect good connect listening room
  have all (k : Fin numThreads) : ∃ j, s.clients k = .connected j := by
    cases phase : s.clients k with
    | absent =>
      have := (h.created k).mp phase
      omega
    | socket => exact absurd ⟨k, phase⟩ sockets
    | connect => exact absurd ⟨k, phase⟩ connects
    | failed => exact absurd phase (good.1 k)
    | connected j => exact ⟨j, rfl⟩
  have full := h.full all
  have server := h.server
  cases phase : s.server with
  | absent => exact absurd phase there
  | listen => exact absurd phase listen
  | accept fds => exact lowers_accept good phase full
  | polling =>
    rw [phase] at server
    rcases h.talks good full server.2 with lowers | quiet
    · exact lowers
    · exact lowers_polling good phase server.2 quiet
  | returned =>
    rw [phase] at server
    rcases h.talks good full server.2.1 with lowers | quiet
    · exact lowers
    · refine rest phase fun k => (s.finished_iff k).mpr ?_
      obtain ⟨j, connected⟩ := all k
      exact .inr ⟨j, connected, returned_of_quiet server.2.1 server.2.2 (quiet j)⟩

theorem Whole.lowers (h : Whole accepted s) (good : OnCourse s) (more : s.main ≠ .returned) :
    Lowers accepted s := by
  have there (later : s.main ≠ .createServer) : s.server ≠ .absent :=
    fun none => later (h.absent.mp none)
  cases pc : s.main with
  | createServer => exact lowers_createServer good pc (h.absent.mpr pc)
  | createClient i =>
    refine lowers_createClient good pc fun bound => (h.created _).mpr ?_
    rw [pc]
    exact Nat.le_refl i
  | joinServer =>
    refine h.lowers_waiting good (by rw [pc]; rfl) (there (by simp [pc])) fun returned _ => ?_
    exact lowers_joinServer good pc returned
  | joinClient i =>
    refine h.lowers_waiting good (by rw [pc]; rfl) (there (by simp [pc])) fun _ finished => ?_
    exact lowers_joinClient good pc finished
  | returned => exact absurd pc more

/-! ### A client that was turned away -/

end Ending

end GenericTests.Socket.Program
