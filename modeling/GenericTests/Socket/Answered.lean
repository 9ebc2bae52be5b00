import GenericTests.Socket.Clients

/-!
# Every client is answered exactly once

A `Talk` says how far one connection has come. The early `break` fires on a count that
includes closed descriptors; it is harmless because a closed connection belongs to a
client that has its reply.
-/
namespace GenericTests.Socket

open GenericTests.CString GenericTests.Transition

/-- The stages of one connection: client, unread messages, number of replies, and whether
the server has closed it. -/
inductive Talk : ClientPc → List (List Byte) → Nat → Prop → Prop where
  | idle {closed : Prop} : ¬ closed → Talk .send [] 0 closed
  | asked {closed : Prop} (message : List Byte) : ¬ closed → Talk .read [message] 0 closed
  | answered {closed : Prop} : ¬ closed → Talk .read [] 1 closed
  | closing {closed : Prop} : ¬ closed → Talk .close [] 1 closed
  -- the only stage in which the server may close: it has seen end of file
  | returned {closed : Prop} : Talk .returned [] 1 closed

theorem Talk.replies_le {pc : ClientPc} {pending : List (List Byte)} {k : Nat} {closed : Prop}
    (h : Talk pc pending k closed) : k ≤ 1 := by
  cases h <;> omega

theorem Talk.of_closed {pc : ClientPc} {pending : List (List Byte)} {k : Nat} {closed : Prop}
    (h : Talk pc pending k closed) (hc : closed) : k = 1 ∧ pc = .returned := by
  cases h with
  | returned => exact ⟨rfl, rfl⟩
  | _ => contradiction

theorem Talk.of_send {pending : List (List Byte)} {k : Nat} {closed : Prop}
    (h : Talk .send pending k closed) : pending = [] ∧ k = 0 ∧ ¬ closed := by
  cases h with
  | idle isOpen => exact ⟨rfl, rfl, isOpen⟩

theorem Talk.of_read {pending : List (List Byte)} {k : Nat} {closed : Prop}
    (h : Talk .read pending k closed) : ¬ closed ∧ (k = 0 ∨ pending = [] ∧ k = 1) := by
  cases h with
  | asked message isOpen => exact ⟨isOpen, .inl rfl⟩
  | answered isOpen => exact ⟨isOpen, .inr ⟨rfl, rfl⟩⟩

theorem Talk.of_pending {pc : ClientPc} {message : List Byte} {rest : List (List Byte)} {k : Nat}
    {closed : Prop} (h : Talk pc (message :: rest) k closed) :
    pc = .read ∧ rest = [] ∧ k = 0 ∧ ¬ closed := by
  cases h with
  | asked message isOpen => exact ⟨rfl, rfl, rfl, isOpen⟩

theorem Talk.of_returned {pending : List (List Byte)} {k : Nat} {closed : Prop}
    (h : Talk .returned pending k closed) : k = 1 := by
  cases h
  rfl

theorem Talk.of_close {pending : List (List Byte)} {k : Nat} {closed : Prop}
    (h : Talk .close pending k closed) : pending = [] ∧ k = 1 := by
  cases h
  exact ⟨rfl, rfl⟩

section Invariant

variable (accepted : Accepted numThreads) (threadId : Fin numThreads → Int)

def Answered (w : World) (i : Fin numThreads) : Prop := (replies accepted w.server i).length = 1

/-- What `poll` reported for connection `i` is still so when its entry is served. -/
def Fresh (w : World) (i : Fin numThreads) (revents : Events) : Prop :=
  revents = 0 ∨
    (revents = pollin ∧ accepted.fd i ∉ w.server.closefdCalls ∧
      (w.pending i ≠ [] ∨ (w.clients i).pc = .returned)) ∨
    (revents = pollnval ∧ accepted.fd i ∈ w.server.closefdCalls)

/-- The entry for connection `i` has not been served in this round. -/
def Unserved (w : World) (i : Fin numThreads) (count : Nat) : Prop :=
  ∃ entry, w.server.fds[i.val]? = some entry ∧ Fresh accepted w i entry.revents ∧
    (count = 3 → entry.revents ≠ 0)

/-- What the place in the poll loop tells about the connections. -/
def Place (w : World) : ServerPc → Prop
  | .test | .poll => True
  | .entry k count => ∀ i : Fin numThreads,
      if k ≤ i.val then Unserved accepted w i count else count = 3 → Answered accepted w i
  | .check count => count = 3 → ∀ i, Answered accepted w i
  | .left => ∀ i, Answered accepted w i

structure Inv (w : World) : Prop where
  talk : ∀ i, Talk (w.clients i).pc (w.pending i) (replies accepted w.server i).length
    (accepted.fd i ∈ w.server.closefdCalls)
  fds : w.server.fds.map PollFd.fd = accepted.fds
  numOpen : w.server.numOpen = ((openClients accepted w.server).card : Int)
  place : Place accepted w w.pc

theorem inv_connected : Inv accepted (connected accepted) := by
  refine ⟨fun i => .idle (by simp [connected, start]), ?_, ?_, trivial⟩
  · simp [connected, start, Function.comp_def]
  · simp [connected, start, openClients]

/-! ### The clients -/

/-- A client moves its own connection one stage and touches nothing else. -/
theorem clientStep_cases {w t : World} {i : Fin numThreads} (inv : Inv accepted w)
    (hs : clientStep accepted threadId w i = some t) :
    ∃ c line pending,
      t = setClient { w with pending := Function.update w.pending i pending } i c line ∧
      Talk c.pc pending (replies accepted w.server i).length
        (accepted.fd i ∈ w.server.closefdCalls) ∧
      (w.pending i ≠ [] → pending ≠ []) ∧ (w.clients i).pc ≠ .returned := by
  have talk := inv.talk i
  have same : { w with pending := Function.update w.pending i (w.pending i) } = w := by
    rw [Function.update_eq_self]
  simp only [clientStep] at hs
  split at hs
  next pc =>
    rw [pc] at talk
    obtain ⟨none, zero, isOpen⟩ := talk.of_send
    cases Option.some.inj hs
    refine ⟨_, _, _, rfl, ?_, by simp, by simp [pc]⟩
    rw [none, zero]
    exact .asked _ isOpen
  next pc =>
    rw [pc] at talk
    obtain ⟨isOpen, k⟩ := talk.of_read
    split at hs
    · cases hs
    next arrived =>
      -- read returned, and not for a closed connection: there was a reply
      cases Option.some.inj hs
      refine ⟨_, _, w.pending i, (congrArg (setClient · i _ _) same).symm, ?_, id, by simp [pc]⟩
      rcases k with zero | ⟨none, one⟩
      · exact absurd ⟨List.length_eq_zero_iff.mp zero, isOpen⟩ arrived
      · rw [none, one]
        exact .closing isOpen
  next pc =>
    rw [pc] at talk
    obtain ⟨none, one⟩ := talk.of_close
    cases Option.some.inj hs
    refine ⟨_, _, w.pending i, (congrArg (setClient · i _ _) same).symm, ?_, id, by simp [pc]⟩
    rw [none, one]
    exact .returned
  next pc => cases hs

/-- A connection keeps what `poll` reported about it while clients move. -/
private theorem Fresh.client {w t : World} {j : Fin numThreads} {r : Events}
    (h : Fresh accepted w j r) (calls : t.server.closefdCalls = w.server.closefdCalls)
    (pending : w.pending j ≠ [] → t.pending j ≠ [])
    (returned : (w.clients j).pc = .returned → (t.clients j).pc = .returned) :
    Fresh accepted t j r := by
  rcases h with zero | ⟨ready, isOpen, there⟩ | ⟨invalid, closed⟩
  · exact .inl zero
  · exact .inr (.inl ⟨ready, calls ▸ isOpen, there.imp pending returned⟩)
  · exact .inr (.inr ⟨invalid, calls ▸ closed⟩)

theorem clientStep_inv {w t : World} {i : Fin numThreads} (inv : Inv accepted w)
    (hs : clientStep accepted threadId w i = some t) : Inv accepted t := by
  obtain ⟨c, line, pending, rfl, talk, kept, notReturned⟩ :=
    clientStep_cases accepted threadId inv hs
  have place := inv.place
  refine ⟨?_, inv.fds, inv.numOpen, ?_⟩
  · intro j
    by_cases here : j = i
    · subst here
      simp only [setClient, Function.update_self]
      exact talk
    · simp only [setClient, Function.update_of_ne here]
      exact inv.talk j
  · -- only `entry` speaks about clients, in `Fresh`
    change Place accepted _ w.pc
    cases pc : w.pc with
    | test => trivial
    | poll => trivial
    | check count =>
      rw [pc] at place
      exact place
    | left =>
      rw [pc] at place
      exact place
    | entry k count =>
      rw [pc] at place
      intro j
      have there := place j
      split
      next later =>
        rw [if_pos later] at there
        obtain ⟨entry, found, fresh, nonzero⟩ := there
        refine ⟨entry, found, ?_, nonzero⟩
        by_cases here : j = i
        · subst here
          refine fresh.client accepted rfl ?_ (fun h => absurd h notReturned)
          simpa only [setClient, Function.update_self] using kept
        · refine fresh.client accepted rfl ?_ ?_
          · simp only [setClient, Function.update_of_ne here, imp_self]
          · simp only [setClient, Function.update_of_ne here, imp_self]
      next earlier =>
        rw [if_neg earlier] at there
        exact there

/-! ### The inner loop -/

/-- Connection `i` is served: it is a `Talk` still, and has its reply if its entry was
reported at all. -/
structure Served (i : Fin numThreads) (reported : Prop) (t : World) : Prop where
  talk : Talk (t.clients i).pc (t.pending i) (replies accepted t.server i).length
    (accepted.fd i ∈ t.server.closefdCalls)
  numOpen : t.server.numOpen = ((openClients accepted t.server).card : Int)
  answered : reported → Answered accepted t i

private theorem Served.of_same {w t : World} {i : Fin numThreads} {reported : Prop}
    (inv : Inv accepted w) (clients : t.clients = w.clients) (pending : t.pending = w.pending)
    (calls : t.server.closefdCalls = w.server.closefdCalls)
    (sent : t.server.sent = w.server.sent) (numOpen : t.server.numOpen = w.server.numOpen)
    (answered : reported → Answered accepted w i) : Served accepted i reported t := by
  have same : replies accepted t.server i = replies accepted w.server i := by
    simp only [replies, sent]
  refine ⟨?_, ?_, ?_⟩
  · rw [clients, pending, calls, same]
    exact inv.talk i
  · rw [numOpen, openClients, calls]
    exact inv.numOpen
  · intro h
    rw [Answered, same]
    exact answered h

/-- A message is answered. -/
private theorem Served.of_data {w t : World} {i : Fin numThreads} {reported : Prop} {message : List Byte}
    {rest : List (List Byte)} (inv : Inv accepted w) (there : w.pending i = message :: rest)
    (clients : t.clients = w.clients) (pending : t.pending i = rest)
    (calls : t.server.closefdCalls = w.server.closefdCalls)
    (sent : t.server.sent = w.server.sent ++ [(accepted.fd i, response)])
    (numOpen : t.server.numOpen = w.server.numOpen) : Served accepted i reported t := by
  have talk := inv.talk i
  rw [there] at talk
  obtain ⟨pc, none, zero, isOpen⟩ := talk.of_pending
  have one : (replies accepted t.server i).length = 1 := by
    rw [replies_of_send accepted w.server t.server i i response sent]
    simp [zero]
  refine ⟨?_, ?_, fun _ => one⟩
  · rw [clients, pending, calls, one, pc, none]
    exact .answered isOpen
  · rw [numOpen, openClients, calls]
    exact inv.numOpen

/-- A client at end of file has its reply. -/
private theorem Served.of_eof {w t : World} {i : Fin numThreads} {reported : Prop}
    (inv : Inv accepted w)
    (isOpen : accepted.fd i ∉ w.server.closefdCalls) (returned : (w.clients i).pc = .returned)
    (clients : t.clients = w.clients) (pending : t.pending i = [])
    (calls : t.server.closefdCalls = w.server.closefdCalls ++ [accepted.fd i])
    (sent : t.server.sent = w.server.sent)
    (numOpen : t.server.numOpen = w.server.numOpen - 1) : Served accepted i reported t := by
  have talk := inv.talk i
  rw [returned] at talk
  have one : (replies accepted t.server i).length = 1 := by
    have same : replies accepted t.server i = replies accepted w.server i := by
      simp only [replies, sent]
    rw [same]
    exact talk.of_returned
  refine ⟨?_, ?_, fun _ => one⟩
  · rw [clients, pending, one, returned]
    exact .returned
  · have mem : i ∈ openClients accepted w.server := by
      simp only [openClients, Finset.mem_filter, Finset.mem_univ, true_and]
      exact isOpen
    have positive : 0 < (openClients accepted w.server).card := Finset.card_pos.mpr ⟨i, mem⟩
    rw [openClients_of_closefd accepted w.server t.server i calls, Finset.card_erase_of_mem mem,
      numOpen, inv.numOpen]
    omega

theorem entryStep_cases {w t : World} {i : Fin numThreads} {count : Nat} (inv : Inv accepted w)
    (unserved : Unserved accepted w i count) (hs : entryStep accepted w i count = some t) :
    t.pc = .entry (i + 1) count ∧ t.clients = w.clients ∧
      (∀ j, j ≠ i → t.pending j = w.pending j) ∧
      (∃ valread, t.server = serveEntry socketServer i valread w.server) ∧
      Served accepted i (count = 3) t := by
  obtain ⟨entry, found, fresh, reported⟩ := unserved
  have fd := fd_of_entry accepted w.server i entry inv.fds found
  rw [entryStep, found] at hs
  dsimp only at hs
  split at hs
  next ready =>
    -- POLLIN was reported, so the read finds the message or the end of file.
    rcases fresh with zero | ⟨-, isOpen, there⟩ | ⟨invalid, -⟩
    · rw [zero] at ready
      exact absurd rfl ready
    · cases hp : w.pending i with
      | cons message rest =>
        have data : readResult accepted w i = some (.data message, rest) := by
          rw [readResult, if_neg isOpen, hp]
        rw [data] at hs
        cases Option.some.inj hs
        obtain ⟨calls, numOpen, sent⟩ :=
          serveEntry_effect socketServer i (.data message) w.server entry found
        rw [answering_of_data message entry ready, fd] at sent
        refine ⟨rfl, rfl, fun j hj => Function.update_of_ne hj rest w.pending, ⟨.data message, rfl⟩,
          .of_data accepted inv hp rfl (Function.update_self i rest w.pending) ?_ sent ?_⟩
        · simpa [closing] using calls
        · simpa [closing] using numOpen
      | nil =>
        have returned : (w.clients i).pc = .returned := there.resolve_left fun h => h hp
        have eof : readResult accepted w i = some (.eof, []) := by
          rw [readResult, if_neg isOpen, hp]
          exact if_pos returned
        rw [eof] at hs
        cases Option.some.inj hs
        obtain ⟨calls, numOpen, sent⟩ := serveEntry_effect socketServer i .eof w.server entry found
        rw [closing_of_eof entry ready] at calls numOpen
        rw [fd] at calls
        refine ⟨rfl, rfl, fun j hj => Function.update_of_ne hj [] w.pending, ⟨.eof, rfl⟩,
          .of_eof accepted inv isOpen returned rfl (Function.update_self i [] w.pending) calls ?_ ?_⟩
        · simpa [answering] using sent
        · simpa using numOpen
    · rw [invalid] at ready
      exact absurd (by decide) ready
  next notReady =>
    cases Option.some.inj hs
    obtain ⟨calls, numOpen, sent⟩ := serveEntry_effect socketServer i .error w.server entry found
    refine ⟨rfl, rfl, fun _ _ => rfl, ⟨.error, rfl⟩, .of_same accepted inv rfl rfl ?_ ?_ ?_ ?_⟩
    · simpa [closing] using calls
    · simpa [answering] using sent
    · simpa [closing] using numOpen
    · intro three
      -- With a count of three this entry was reported, and as closed.
      rcases fresh with zero | ⟨pollin, -⟩ | ⟨-, closed⟩
      · exact absurd zero (reported three)
      · rw [pollin] at notReady
        exact absurd (by decide) notReady
      · exact ((inv.talk i).of_closed closed).1

theorem entryStep_inv {w t : World} {i : Fin numThreads} {count : Nat} (inv : Inv accepted w)
    (pc : w.pc = .entry i count) (hs : entryStep accepted w i count = some t) :
    Inv accepted t := by
  have place := inv.place
  rw [pc] at place
  have here := place i
  rw [if_pos (Nat.le_refl i.val)] at here
  obtain ⟨pc', clients, pending, ⟨valread, server⟩, served⟩ := entryStep_cases accepted inv here hs
  obtain ⟨entry, found, -⟩ := here
  -- Connection i moves from the unserved to the served; the others stay on their side.
  have others := fun j hj =>
    serveEntry_other_connection accepted socketServer i j valread w.server entry inv.fds found hj
  rw [← server] at others
  refine ⟨?_, ?_, served.numOpen, ?_⟩
  · intro j
    by_cases same : j = i
    · subst same
      exact served.talk
    · rw [clients, pending j same, (others j same).1, (others j same).2]
      exact inv.talk j
  · rw [server, serveEntry_fd, inv.fds]
  · rw [pc']
    intro j
    have there := place j
    by_cases same : j = i
    · subst same
      rw [if_neg (by omega)]
      exact served.answered
    · have apart : j.val ≠ i.val := fun h => same (Fin.ext h)
      have unchanged := serveEntry_other socketServer i j valread w.server apart
      rw [← server] at unchanged
      split
      next later =>
        rw [if_pos (by omega)] at there
        obtain ⟨entry', found', fresh, nonzero⟩ := there
        refine ⟨entry', unchanged.trans found', ?_, nonzero⟩
        rw [Fresh, clients, pending j same, (others j same).2]
        exact fresh
      next earlier =>
        rw [if_neg (by omega)] at there
        intro three
        rw [Answered, (others j same).1]
        exact there three

/-! ### The poll loop -/

private theorem fresh_pollResult (w : World) (i : Fin numThreads) :
    Fresh accepted w i (pollResult accepted w i) := by
  rw [pollResult]
  split
  next closed => exact .inr (.inr ⟨rfl, closed⟩)
  next isOpen =>
    split
    next there =>
      refine .inr (.inl ⟨rfl, isOpen, there.imp_left ?_⟩)
      intro nonempty none
      rw [none] at nonempty
      cases nonempty
    next => exact .inl rfl

/-- A count of three is a report for every connection. -/
private theorem pollCount_three (w : World) (three : pollCount accepted w = 3)
    (i : Fin numThreads) : pollResult accepted w i ≠ 0 := by
  -- three of three connections are all of them
  have all := Finset.eq_univ_of_card _ (three.trans (Fintype.card_fin 3).symm)
  have mem : i ∈ Finset.univ.filter fun i => pollResult accepted w i ≠ 0 := by
    rw [all]
    exact Finset.mem_univ i
  exact (Finset.mem_filter.mp mem).2

/-- With no connection open every client has its reply. -/
private theorem answered_of_none_open {w : World} (inv : Inv accepted w)
    (none : w.server.numOpen ≤ 0) (i : Fin numThreads) : Answered accepted w i := by
  have empty : openClients accepted w.server = ∅ := by
    have := inv.numOpen
    exact Finset.card_eq_zero.mp (by omega)
  have closed : accepted.fd i ∈ w.server.closefdCalls := by
    by_contra isOpen
    have mem : i ∈ openClients accepted w.server := by
      simp only [openClients, Finset.mem_filter, Finset.mem_univ, true_and]
      exact isOpen
    rw [empty] at mem
    simp at mem
  exact ((inv.talk i).of_closed closed).1

theorem serverStep_inv {w t : World} (inv : Inv accepted w)
    (hs : serverStep accepted w = some t) : Inv accepted t := by
  have place := inv.place
  simp only [serverStep] at hs
  split at hs
  next pc =>
    split at hs
    next => exact Option.some.inj hs ▸ ⟨inv.talk, inv.fds, inv.numOpen, trivial⟩
    next ends =>
      -- The guard fails, and its first half alone gives the bound.
      have none : w.server.numOpen ≤ 0 := by
        by_contra h
        exact ends (by simp [socketServer]; omega)
      have answered := answered_of_none_open accepted inv none
      exact Option.some.inj hs ▸ ⟨inv.talk, inv.fds, inv.numOpen, answered⟩
  next pc =>
    have fds := fun r => (setRevents_fd r w.server).trans inv.fds
    split at hs
    next => exact Option.some.inj hs ▸ ⟨inv.talk, fds _, inv.numOpen, fun h => by cases h⟩
    next =>
      refine Option.some.inj hs ▸ ⟨inv.talk, fds _, inv.numOpen, ?_⟩
      intro i
      rw [if_pos (Nat.zero_le _)]
      have length : w.server.fds.length = numThreads := by
        simpa [Accepted.fds] using congrArg List.length inv.fds
      have bound : i.val < w.server.fds.length := by omega
      refine ⟨{ w.server.fds[i.val] with revents := pollResult accepted w i }, ?_, ?_, ?_⟩
      · simp [setRevents, bound, i.isLt]
      · exact fresh_pollResult accepted w i
      · intro three
        exact pollCount_three accepted w three i
  next k count pc =>
    split at hs
    next bound => exact entryStep_inv accepted inv pc hs
    next past =>
      -- past the last entry every connection is on the served side
      refine Option.some.inj hs ▸ ⟨inv.talk, inv.fds, inv.numOpen, ?_⟩
      intro three i
      rw [pc] at place
      have served := place i
      rw [if_neg (by omega)] at served
      exact served three
  next count pc =>
    refine Option.some.inj hs ▸ ⟨inv.talk, inv.fds, inv.numOpen, ?_⟩
    rw [pc] at place
    dsimp only
    split
    next three => exact place three
    next => trivial
  next => cases hs

theorem inv_of_reachable (w : World) (h : (clientServer accepted threadId).Reachable w) :
    Inv accepted w := by
  apply (clientServer accepted threadId).reachable_invariant (Inv accepted) ?_ ?_ w h
  · rintro s rfl
    exact inv_connected accepted
  · intro s move t inv hs
    cases move with
    | client i => exact clientStep_inv accepted threadId inv hs
    | server => exact serverStep_inv accepted inv hs

/-- **Answered exactly once**: no client is sent a second reply, and when the server is out
of its poll loop every client was sent one. -/
theorem answered_exactly_once (w : World) (h : (clientServer accepted threadId).Reachable w) :
    (∀ i, (replies accepted w.server i).length ≤ 1) ∧
    (w.pc = .left → ∀ i, (replies accepted w.server i).length = 1) := by
  have inv := inv_of_reachable accepted threadId w h
  refine ⟨fun i => (inv.talk i).replies_le, ?_⟩
  intro left
  have place := inv.place
  rw [left] at place
  exact place

end Invariant

/-- All three clients send before the first `poll`, and the loop ends by the `break`. -/
theorem answered_at_break :
    ∃ w, (clientServer threeClients (fun i => i.val + 1)).Reachable w ∧ w.pc = .left ∧
      ∀ i, (replies threeClients w.server i).length = 1 := by
  have run : ∃ w, (clientServer threeClients (fun i => i.val + 1)).run (connected threeClients)
      [.client 0, .client 1, .client 2, .server, .server, .server, .server, .server, .server,
        .server] = some w ∧ w.pc = .left := ⟨_, rfl, rfl⟩
  obtain ⟨w, hrun, left⟩ := run
  have reachable : (clientServer threeClients (fun i => i.val + 1)).Reachable w :=
    ⟨_, _, rfl, hrun⟩
  exact ⟨w, reachable, left, (answered_exactly_once _ _ w reachable).2 left⟩

end GenericTests.Socket
