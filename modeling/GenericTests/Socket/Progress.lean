import GenericTests.Socket.Answered

/-!
# socket.c: server and clients go on

A client waits only for a reply to a message that the server has not read. If all clients wait or
have returned, `poll` reports all three of them, so that round is the server's last one.
-/
namespace GenericTests.Socket

open GenericTests.CString GenericTests.Transition Finset

section Progress

variable {accepted : Accepted numThreads}

/-- The world with other lines on the terminal. -/
def withOut (w : World) (out : List (List Byte)) : World :=
  { w with server := { w.server with stdout := out } }

theorem inv_withOut {w : World} (h : Inv accepted w) (out : List (List Byte)) :
    Inv accepted (withOut w out) := by
  obtain ⟨talk, fds, numOpen, place⟩ := h
  refine ⟨talk, fds, numOpen, ?_⟩
  change Place accepted _ w.pc
  cases pc : w.pc with
  | test | poll => trivial
  | entry k count | check count | left =>
    rw [pc] at place
    exact place

theorem inv_print {w : World} (h : Inv accepted w) (line : List Byte) :
    Inv accepted { w with server := w.server.print line } := inv_withOut h _

/-- The calls a client has to make on its socket. -/
def callsLeft (c : Client) : Nat :=
  match c.pc with
  | .send => 3
  | .read => 2
  | .close => 1
  | .returned => 0

theorem clientStep_frame {ids : Fin numThreads → Int} {w u : World} {j : Fin numThreads}
    (moved : clientStep accepted ids w j = some u) :
    u.pc = w.pc ∧ ∃ c, u.clients = Function.update w.clients j c ∧
      callsLeft c < callsLeft (w.clients j) := by
  simp only [clientStep] at moved
  split at moved
  next pc =>
    cases Option.some.inj moved
    exact ⟨rfl, _, rfl, by simp [callsLeft, pc]⟩
  next pc =>
    split at moved
    · cases moved
    · cases Option.some.inj moved
      exact ⟨rfl, _, rfl, by simp [callsLeft, pc]⟩
  next pc =>
    cases Option.some.inj moved
    exact ⟨rfl, _, rfl, by simp [callsLeft, pc]⟩
  next => cases moved

/-- Client `j` has its message under way or has returned. -/
def Quiet (w : World) (j : Fin numThreads) : Prop := (w.clients j).pc = .returned ∨ w.pending j ≠ []

theorem answered_of_read {pending : List (List Byte)} {k : Nat} {closed : Prop}
    (h : Talk .read pending k closed) (none : pending = []) : k = 1 := by
  cases h with
  | asked message isOpen => cases none
  | answered isOpen => rfl

/-- A client waits only for a reply to what the server has not read. -/
theorem clientStep_enabled {w : World} (ids : Fin numThreads → Int) (j : Fin numThreads)
    (inv : Inv accepted w) (busy : ¬Quiet w j) : ∃ u, clientStep accepted ids w j = some u := by
  have talk := inv.talk j
  obtain ⟨live, none⟩ := not_or.mp busy
  cases pc : (w.clients j).pc with
  | send => exact ⟨_, by simp only [clientStep, pc]; rfl⟩
  | read =>
    rw [pc] at talk
    have answered := answered_of_read talk (not_not.mp none)
    have arrived : ¬(replies accepted w.server j = [] ∧ accepted.fd j ∉ w.server.closefdCalls) := by
      rintro ⟨empty, -⟩
      simp [empty] at answered
    exact ⟨_, by simp only [clientStep, pc, if_neg arrived]; rfl⟩
  | close => exact ⟨_, by simp only [clientStep, pc]; rfl⟩
  | returned => exact absurd pc live

/-- A round that counts three is the last one. -/
def loopRank : ServerPc → Nat
  | .left => 0
  | .check count => if count = 3 then 1 else 8
  | .entry i count => (if count = 3 then 2 else 9) + (numThreads - i)
  | .poll => 6
  | .test => 7

theorem entryStep_enabled {w : World} {i : Fin numThreads} {count : Nat}
    (unserved : Unserved accepted w i count) : ∃ u, entryStep accepted w i count = some u := by
  obtain ⟨entry, found, fresh, -⟩ := unserved
  rw [entryStep, found]
  dsimp only
  split
  next ready =>
    -- what poll reported is still there, so the read does not block
    have readable : ∃ r, readResult accepted w i = some r := by
      rcases fresh with zero | ⟨-, isOpen, there⟩ | ⟨invalid, -⟩
      · rw [zero] at ready
        exact absurd rfl ready
      · rw [readResult, if_neg isOpen]
        cases pending : w.pending i with
        | cons message rest => exact ⟨_, rfl⟩
        | nil => exact ⟨_, if_pos (there.resolve_left fun some => some pending)⟩
      · rw [invalid] at ready
        exact absurd (by decide) ready
    obtain ⟨r, read⟩ := readable
    rw [read]
    exact ⟨_, rfl⟩
  next => exact ⟨_, rfl⟩

/-- If all clients are quiet, `poll` counts three. -/
theorem pollCount_of_quiet {w : World} (quiet : ∀ j, Quiet w j) : pollCount accepted w = 3 := by
  have all (j : Fin numThreads) : pollResult accepted w j ≠ 0 := by
    rw [pollResult]
    split
    next => decide
    next =>
      rw [if_pos]
      · decide
      · refine (quiet j).symm.imp_left fun some => ?_
        simpa using some
  rw [pollCount, filter_true_of_mem fun j _ => all j]
  rfl

theorem serverStep_lowers {w : World} (inv : Inv accepted w) (quiet : ∀ j, Quiet w j)
    (inside : w.pc ≠ .left) : ∃ u, serverStep accepted w = some u ∧ u.clients = w.clients ∧
      loopRank u.pc < loopRank w.pc := by
  have place := inv.place
  cases pc : w.pc with
  | test =>
    simp only [serverStep, pc]
    split
    · exact ⟨_, rfl, rfl, by simp [loopRank]⟩
    · exact ⟨_, rfl, rfl, by simp [loopRank]⟩
  | poll =>
    simp only [serverStep, pc, pollCount_of_quiet quiet]
    exact ⟨_, rfl, rfl, by simp [loopRank, numThreads]⟩
  | entry k count =>
    rw [pc] at place
    simp only [serverStep, pc]
    split
    next bound =>
      have unserved := place ⟨k, bound⟩
      rw [if_pos (Nat.le_refl k)] at unserved
      obtain ⟨u, served⟩ := entryStep_enabled unserved
      obtain ⟨next, clients, -⟩ := entryStep_cases accepted inv unserved served
      refine ⟨u, served, clients, ?_⟩
      rw [next]
      simp only [loopRank]
      split <;> omega
    next past =>
      refine ⟨_, rfl, rfl, ?_⟩
      simp only [loopRank]
      split <;> omega
  | check count =>
    simp only [serverStep, pc]
    refine ⟨_, rfl, rfl, ?_⟩
    dsimp only
    split
    next three => simp [loopRank, three]
    next more => simp [loopRank, more]
  | left => exact absurd pc inside

/-- Behind the poll loop a quiet client has returned. -/
theorem returned_of_quiet {w : World} (inv : Inv accepted w) (left : w.pc = .left)
    {j : Fin numThreads} (quiet : Quiet w j) : (w.clients j).pc = .returned := by
  refine quiet.resolve_right fun some => ?_
  have answered := inv.place
  rw [left] at answered
  have one := answered j
  have talk := inv.talk j
  cases pending : w.pending j with
  | nil => exact some pending
  | cons message rest =>
    rw [pending] at talk
    rw [Answered, talk.of_pending.2.2.1] at one
    cases one

end Progress

end GenericTests.Socket
