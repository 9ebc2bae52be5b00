import GenericTests.Socket.Progress
import GenericTests.Socket.Received

/-!
# socketforkserver.c: the server process and the three client_threads

The server gives up after three timeouts, and its exit closes the connections. A client that it
has not answered reads nothing then and prints its own message as the one it received.
-/
namespace GenericTests.Socket.ForkServer

open GenericTests.CString GenericTests.Transition Finset

/-! ### The poll loop of either server -/

section Loop

variable (accepted : Accepted numThreads) (v : Variant)

/-- `entryStep` with the parts in which the servers differ. -/
def entryStep (w : World) (i : Fin numThreads) (count : Nat) : Option World :=
  match w.server.fds[i.val]? with
  | none => none
  | some entry =>
    if entry.revents &&& pollin ≠ 0 then
      match readResult accepted w i with
      | none => none
      | some (valread, rest) =>
        some { w with
          server := serveEntry v i valread w.server
          pending := Function.update w.pending i rest
          pc := .entry (i + 1) count }
    else
      some { w with
        server := serveEntry v i .error w.server
        pc := .entry (i + 1) count }

def serverStep (w : World) : Option World :=
  match w.pc with
  | .test =>
    if v.guard w.server.numOpen w.server.timeouts then some { w with pc := .poll }
    else some { w with pc := .left }
  | .poll =>
    let server := setRevents (fun i => if h : i < numThreads then pollResult accepted w ⟨i, h⟩ else 0)
      w.server
    if pollCount accepted w = 0 then
      some { w with server := timedOut v server, pc := .check 0 }
    else some { w with server := server, pc := .entry 0 (pollCount accepted w) }
  | .entry i count =>
    if h : i < numThreads then entryStep accepted v w ⟨i, h⟩ count
    else some { w with pc := .check count }
  | .check count => some { w with pc := if count = 3 then .left else .test }
  | .left => none

end Loop

structure State where
  world : World
  /-- the server process has exited -/
  gone : Bool

inductive Act where
  | client (i : Fin numThreads)
  | server
  /-- main of the server process returns -/
  | exit

section System

variable (accepted : Accepted numThreads) (ids : Fin numThreads → CInt)

def threadId (i : Fin numThreads) : Int := (ids i).val

/-- A `read` that nobody will answer any more. -/
def State.dropped (s : State) (i : Fin numThreads) : Prop :=
  s.gone = true ∧ (s.world.clients i).pc = .read ∧ replies accepted s.world.server i = [] ∧
    accepted.fd i ∉ s.world.server.closefdCalls

instance (s : State) (i : Fin numThreads) : Decidable (s.dropped accepted i) :=
  inferInstanceAs (Decidable (_ ∧ _ ∧ _ ∧ _))

def clientThread (s : State) (i : Fin numThreads) : Option State :=
  if s.dropped accepted i then
    -- end of file or a reset connection: the buffer stays as it is
    let buffer := (s.world.clients i).buffer
    some { s with
      world := setClient s.world i ⟨.close, buffer⟩
        (receivedMessageLine (threadId ids i) buffer.text) }
  else (clientStep accepted (threadId ids) s.world i).map fun w => { s with world := w }

def doneLine : List Byte := ascii "Server: Done\n"

def step (s : State) : Act → Option State
  | .client i => clientThread accepted ids s i
  | .server => (serverStep accepted socketForkServer s.world).map fun w => { s with world := w }
  | .exit =>
    if s.world.pc = .left ∧ s.gone = false then
      some ⟨{ s.world with server := s.world.server.print doneLine }, true⟩
    else none

def forkServer : System State Act where
  init s := s = ⟨connected accepted, false⟩
  step := step accepted ids

end System

/-! ### The two servers -/

section Compare

variable (accepted : Accepted numThreads) (v : Variant)

theorem serveEntry_withOut (i : Nat) (valread : ReadResult) (s : Server) :
    ∃ out, serveEntry v i valread s = { serveEntry socketServer i valread s with stdout := out } := by
  unfold serveEntry
  split
  · exact ⟨_, rfl⟩
  · split
    · split
      · exact ⟨_, rfl⟩
      · exact ⟨_, rfl⟩
      · exact ⟨_, rfl⟩
    · split
      · cases v.printsPolled with
        | false => exact ⟨s.stdout, by simp [socketServer, Server.print]⟩
        | true => exact ⟨_, rfl⟩
      · exact ⟨_, rfl⟩

theorem entryStep_withOut (w : World) (i : Fin numThreads) (count : Nat) :
    ∃ out, entryStep accepted v w i count =
      (Socket.entryStep accepted w i count).map fun u => withOut u out := by
  cases found : w.server.fds[i.val]? with
  | none => exact ⟨[], by simp only [entryStep, Socket.entryStep, found, Option.map_none]⟩
  | some entry =>
    by_cases ready : entry.revents &&& pollin ≠ 0
    · cases read : readResult accepted w i with
      | none =>
        exact ⟨[], by simp only [entryStep, Socket.entryStep, found, if_pos ready, read,
          Option.map_none]⟩
      | some r =>
        obtain ⟨out, same⟩ := serveEntry_withOut v i r.1 w.server
        refine ⟨out, ?_⟩
        simp only [entryStep, Socket.entryStep, found, if_pos ready, read, Option.map_some, same]
        rfl
    · obtain ⟨out, same⟩ := serveEntry_withOut v i .error w.server
      refine ⟨out, ?_⟩
      simp only [entryStep, Socket.entryStep, found, if_neg ready, Option.map_some, same]
      rfl

/-- Behind the loop test the servers differ in what they print only. -/
theorem serverStep_withOut (w : World) (inside : w.pc ≠ .test) :
    ∃ out, serverStep accepted v w = (Socket.serverStep accepted w).map fun u => withOut u out := by
  cases pc : w.pc with
  | test => exact absurd pc inside
  | poll =>
    by_cases none : pollCount accepted w = 0
    · refine ⟨w.server.stdout ++ [timedOutLine v.timeout], ?_⟩
      simp only [serverStep, Socket.serverStep, pc, if_pos none, Option.map_some]
      rfl
    · refine ⟨w.server.stdout, ?_⟩
      simp only [serverStep, Socket.serverStep, pc, if_neg none, Option.map_some]
      rfl
  | entry i count =>
    by_cases bound : i < numThreads
    · simp only [serverStep, Socket.serverStep, pc, dif_pos bound]
      exact entryStep_withOut accepted v w ⟨i, bound⟩ count
    · refine ⟨w.server.stdout, ?_⟩
      simp only [serverStep, Socket.serverStep, pc, dif_neg bound, Option.map_some]
      rfl
  | check count =>
    refine ⟨w.server.stdout, ?_⟩
    simp only [serverStep, Socket.serverStep, pc, Option.map_some]
    rfl
  | left => exact ⟨[], by simp only [serverStep, Socket.serverStep, pc, Option.map_none]⟩

end Compare

/-! ### What holds in every state -/

/-- The server sends nothing but its response, and takes back neither that nor its lines. -/
structure Grows (s t : Server) : Prop where
  sent : ∃ more, t.sent = s.sent ++ more ∧ ∀ m ∈ more, m.2 = response
  stdout : ∃ lines, t.stdout = s.stdout ++ lines

section Invariant

variable (accepted : Accepted numThreads) (ids : Fin numThreads → CInt)

/-- What client `i` has read and printed. -/
structure Received (s : State) (i : Fin numThreads) : Prop where
  buffer : (s.world.clients i).buffer =
    (messageBuffer (threadId ids i)).write (replies accepted s.world.server i).flatten
  unanswered : replies accepted s.world.server i = [] → s.gone = true
  printed : receivedMessageLine (threadId ids i) (s.world.clients i).buffer.text ∈
    s.world.server.stdout

def ClientInv (s : State) (i : Fin numThreads) : ClientPc → Prop
  | .send => (s.world.clients i).buffer = .zeros bufferSize
  | .read => (s.world.clients i).buffer = messageBuffer (threadId ids i)
  | .close | .returned => Received accepted ids s i

structure ForkInv (s : State) : Prop where
  inside : s.world.pc ≠ .left → Inv accepted s.world
  once : ∀ i, (replies accepted s.world.server i).length ≤ 1
  closed : ∀ i, accepted.fd i ∈ s.world.server.closefdCalls → Answered accepted s.world i
  left : s.world.pc = .left → (∀ i, Answered accepted s.world i) ∨ 3 ≤ s.world.server.timeouts
  gone : s.gone = true → s.world.pc = .left
  texts : ∀ m ∈ s.world.server.sent, m.2 = response
  clients : ∀ i, ClientInv accepted ids s i (s.world.clients i).pc

end Invariant

section Steps

variable {accepted : Accepted numThreads} {ids : Fin numThreads → CInt} {s t : State}

theorem Grows.of_same {s t : Server} (sent : t.sent = s.sent) (stdout : t.stdout = s.stdout) :
    Grows s t :=
  ⟨⟨[], by simp [sent]⟩, ⟨[], by simp [stdout]⟩⟩

theorem serveEntry_grows (v : Variant) (i : Nat) (valread : ReadResult) (s : Server) :
    Grows s (serveEntry v i valread s) := by
  unfold serveEntry
  split
  · exact .of_same rfl rfl
  next entry _ =>
    split
    · split
      · exact ⟨⟨[(entry.fd, response)], rfl, by simp⟩, ⟨[_], rfl⟩⟩
      · exact ⟨⟨[], by simp [closefd, Server.print]⟩, ⟨_, List.append_assoc _ [_] [_]⟩⟩
      · exact .of_same rfl rfl
    · split
      · cases v.printsPolled with
        | false => exact .of_same rfl rfl
        | true => exact ⟨⟨[], by simp [Server.print]⟩, ⟨[_], rfl⟩⟩
      · exact .of_same rfl rfl

theorem serverStep_grows {v : Variant} {w u : World} (moved : serverStep accepted v w = some u) :
    Grows w.server u.server ∧ u.clients = w.clients := by
  unfold serverStep at moved
  split at moved
  next =>
    split at moved
    · cases Option.some.inj moved
      exact ⟨.of_same rfl rfl, rfl⟩
    · cases Option.some.inj moved
      exact ⟨.of_same rfl rfl, rfl⟩
  next =>
    dsimp only at moved
    split at moved
    · cases Option.some.inj moved
      exact ⟨⟨⟨[], by simp [timedOut, setRevents, Server.print]⟩, ⟨[_], rfl⟩⟩, rfl⟩
    · cases Option.some.inj moved
      exact ⟨.of_same rfl rfl, rfl⟩
  next i count pc =>
    split at moved
    · unfold entryStep at moved
      split at moved
      · cases moved
      · split at moved
        · split at moved
          · cases moved
          · cases Option.some.inj moved
            exact ⟨serveEntry_grows v _ _ _, rfl⟩
        · cases Option.some.inj moved
          exact ⟨serveEntry_grows v i .error w.server, rfl⟩
    · cases Option.some.inj moved
      exact ⟨.of_same rfl rfl, rfl⟩
  next =>
    cases Option.some.inj moved
    exact ⟨.of_same rfl rfl, rfl⟩
  next => cases moved

/-- A client that has its reply keeps it. -/
theorem Grows.replies_eq {s t : Server} (h : Grows s t) {i : Fin numThreads}
    (one : (replies accepted s i).length = 1) (once : (replies accepted t i).length ≤ 1) :
    replies accepted t i = replies accepted s i := by
  obtain ⟨more, sent, -⟩ := h.sent
  have split : replies accepted t i = replies accepted s i ++
      (more.filter fun message => decide (message.1 = accepted.fd i)).map Prod.snd := by
    rw [replies, sent, List.filter_append, List.map_append]
    rfl
  rw [split, List.length_append] at once
  have none : ((more.filter fun message => decide (message.1 = accepted.fd i)).map Prod.snd).length =
      0 := by omega
  rw [split, List.length_eq_zero_iff.mp none, List.append_nil]

theorem inv_initial : ForkInv accepted ids ⟨connected accepted, false⟩ where
  inside _ := inv_connected accepted
  once i := by simp [connected, start, replies]
  closed i h := by simp [connected, start] at h
  left h := by cases h
  gone h := by cases h
  texts m h := by simp [connected, start] at h
  clients i := rfl

/-- The lines stay, and so does what a client has read. -/
theorem ClientInv.keep {i : Fin numThreads} (h : ClientInv accepted ids s i (s.world.clients i).pc)
    (client : t.world.clients i = s.world.clients i)
    (replied : (s.world.clients i).pc = .close ∨ (s.world.clients i).pc = .returned →
      replies accepted t.world.server i = replies accepted s.world.server i)
    (stays : s.gone = true → t.gone = true)
    (lines : ∀ line ∈ s.world.server.stdout, line ∈ t.world.server.stdout) :
    ClientInv accepted ids t i (t.world.clients i).pc := by
  have received (late : (s.world.clients i).pc = .close ∨ (s.world.clients i).pc = .returned)
      (old : Received accepted ids s i) : Received accepted ids t i := by
    have same := replied late
    refine ⟨?_, fun none => stays (old.unanswered (same ▸ none)), ?_⟩
    · rw [client, same]
      exact old.buffer
    · rw [client]
      exact lines _ old.printed
  rw [client]
  cases pc : (s.world.clients i).pc with
  | send | read =>
    rw [pc] at h
    exact (congrArg Client.buffer client).trans h
  | close =>
    rw [pc] at h
    exact received (.inl pc) h
  | returned =>
    rw [pc] at h
    exact received (.inr pc) h

theorem replied_of_talk {w : World} (inv : Inv accepted w) {i : Fin numThreads}
    (late : (w.clients i).pc = .close ∨ (w.clients i).pc = .returned) :
    (replies accepted w.server i).length = 1 := by
  have talk := inv.talk i
  rcases late with pc | pc
  · rw [pc] at talk
    exact talk.of_close.2
  · rw [pc] at talk
    exact talk.of_returned

theorem inv_server (h : ForkInv accepted ids s)
    {u : World} (moved : serverStep accepted socketForkServer s.world = some u) :
    ForkInv accepted ids { s with world := u } := by
  have inside : s.world.pc ≠ .left := by
    intro left
    simp only [serverStep, left] at moved
    cases moved
  have inv := h.inside inside
  obtain ⟨grows, clients⟩ := serverStep_grows moved
  -- what the loop of socket.c would know in the next state
  have next : (∀ i, (replies accepted u.server i).length ≤ 1) ∧
      (∀ i, accepted.fd i ∈ u.server.closefdCalls → Answered accepted u i) ∧
      (u.pc ≠ .left → Inv accepted u) ∧
      (u.pc = .left → (∀ i, Answered accepted u i) ∨ 3 ≤ u.server.timeouts) := by
    by_cases test : s.world.pc = .test
    · simp only [serverStep, test] at moved
      split at moved
      next =>
        cases Option.some.inj moved
        exact ⟨h.once, h.closed, fun _ => ⟨inv.talk, inv.fds, inv.numOpen, trivial⟩, nofun⟩
      next ends =>
        cases Option.some.inj moved
        refine ⟨h.once, h.closed, fun outside => absurd rfl outside, fun _ => ?_⟩
        by_cases late : 3 ≤ s.world.server.timeouts
        · exact .inr late
        · -- no connection is open, and the loop of socket.c would end here too
          have guard : ¬socketServer.guard s.world.server.numOpen s.world.server.timeouts = true := by
            simp [socketServer, socketForkServer] at ends ⊢
            omega
          have same : Socket.serverStep accepted s.world = some { s.world with pc := .left } := by
            simp only [Socket.serverStep, test, if_neg guard]
          exact .inl (serverStep_inv accepted inv same).place
    · obtain ⟨out, same⟩ := serverStep_withOut accepted socketForkServer s.world test
      rw [same] at moved
      obtain ⟨u', moved', rfl⟩ := Option.map_eq_some_iff.mp moved
      have after := serverStep_inv accepted inv moved'
      refine ⟨fun i => (after.talk i).replies_le, fun i closed => ((after.talk i).of_closed closed).1,
        fun _ => inv_withOut after out, fun left => .inl ?_⟩
      have place := after.place
      rw [show u'.pc = .left from left] at place
      exact place
  obtain ⟨once, closed, later, left⟩ := next
  refine ⟨later, once, closed, left, fun gone => absurd (h.gone gone) inside, ?_, fun i => ?_⟩
  · obtain ⟨more, sent, texts⟩ := grows.sent
    intro m member
    rw [show u.server.sent = s.world.server.sent ++ more from sent] at member
    rcases List.mem_append.mp member with old | new
    · exact h.texts m old
    · exact texts m new
  · refine (h.clients i).keep (congrFun clients i) (fun late => ?_) id ?_
    · exact grows.replies_eq (replied_of_talk inv late) (once i)
    · obtain ⟨lines, stdout⟩ := grows.stdout
      intro line member
      rw [show u.server.stdout = s.world.server.stdout ++ lines from stdout]
      exact List.mem_append_left _ member

/-- Client `i` moves; the server and the other clients stay. -/
theorem ForkInv.setClient (h : ForkInv accepted ids s) {i : Fin numThreads} {c : Client}
    {line : List Byte} {p : Fin numThreads → List (List Byte)} {u : World}
    (moved : u = Socket.setClient { s.world with pending := p } i c line)
    (inv : s.world.pc ≠ .left → Inv accepted u)
    (own : ClientInv accepted ids { s with world := u } i c.pc) :
    ForkInv accepted ids { s with world := u } := by
  subst moved
  refine ⟨inv, h.once, h.closed, h.left, h.gone, h.texts, fun j => ?_⟩
  by_cases here : j = i
  · subst here
    have now : (Function.update s.world.clients j c) j = c := Function.update_self _ _ _
    change ClientInv accepted ids _ j ((Function.update s.world.clients j c) j).pc
    rw [now]
    exact own
  · refine (h.clients j).keep ?_ (fun _ => rfl) id ?_
    · exact Function.update_of_ne here c s.world.clients
    · intro old member
      exact List.mem_append_left _ member

theorem write_nil {n : Nat} (b : Buffer n) : b.write [] = b := by
  rw [Buffer.mk.injEq]
  exact List.take_of_length_le b.length_eq.le

theorem inv_client (h : ForkInv accepted ids s) {i : Fin numThreads}
    (moved : clientThread accepted ids s i = some t) : ForkInv accepted ids t := by
  have own := h.clients i
  rw [clientThread] at moved
  split at moved
  next dropped =>
    obtain ⟨gone, reading, none, -⟩ := dropped
    cases Option.some.inj moved
    rw [reading] at own
    refine h.setClient (p := s.world.pending) rfl
      (fun inside => absurd (h.gone gone) inside) ⟨?_, fun _ => gone, ?_⟩
    · have same : replies accepted s.world.server i = [] := none
      simp only [Socket.setClient, Function.update_self]
      change _ = (messageBuffer (threadId ids i)).write (replies accepted s.world.server i).flatten
      rw [same, List.flatten_nil, write_nil]
      exact own
    · simp [Socket.setClient, Server.print]
  next kept =>
    obtain ⟨u, talked, rfl⟩ := Option.map_eq_some_iff.mp moved
    have inv (inside : s.world.pc ≠ .left) : Inv accepted u :=
      clientStep_inv accepted (threadId ids) (h.inside inside) talked
    cases pc : (s.world.clients i).pc with
    | send =>
      rw [pc] at own
      simp only [clientStep, pc] at talked
      refine h.setClient (Option.some.inj talked).symm inv ?_
      cases Option.some.inj talked
      simp only [ClientInv, Socket.setClient, Function.update_self]
      rw [show (s.world.clients i).buffer = .zeros bufferSize from own]
      rfl
    | read =>
      rw [pc] at own
      simp only [clientStep, pc] at talked
      split at talked
      next => cases talked
      next arrived =>
        refine h.setClient (p := s.world.pending) (Option.some.inj talked).symm inv ?_
        cases Option.some.inj talked
        refine ⟨?_, fun none => ?_, ?_⟩
        · simp only [Socket.setClient, Function.update_self]
          rw [show (s.world.clients i).buffer = messageBuffer (threadId ids i) from own]
          rfl
        · -- a connection the server has closed was answered
          have none' : replies accepted s.world.server i = [] := none
          have closed : accepted.fd i ∈ s.world.server.closefdCalls := by
            by_contra isOpen
            exact arrived ⟨none', isOpen⟩
          have answered := h.closed i closed
          rw [Answered, none'] at answered
          cases answered
        · simp [Socket.setClient, Server.print]
    | close =>
      rw [pc] at own
      simp only [clientStep, pc] at talked
      refine h.setClient (p := s.world.pending) (Option.some.inj talked).symm inv ?_
      cases Option.some.inj talked
      obtain ⟨buffer, unanswered, printed⟩ := own
      refine ⟨?_, unanswered, ?_⟩
      · simp only [Socket.setClient, Function.update_self]
        exact buffer
      · simp only [Socket.setClient, Function.update_self]
        exact List.mem_append_left _ printed
    | returned =>
      simp only [clientStep, pc] at talked
      cases talked

theorem inv_exit (h : ForkInv accepted ids s) (left : s.world.pc = .left) :
    ForkInv accepted ids ⟨{ s.world with server := s.world.server.print doneLine }, true⟩ := by
  refine ⟨fun inside => absurd left inside, h.once, h.closed, h.left, fun _ => left, h.texts,
    fun i => (h.clients i).keep rfl (fun _ => rfl) (fun _ => rfl) ?_⟩
  intro line member
  exact List.mem_append_left _ member

theorem inv_step {a : Act} (h : ForkInv accepted ids s) (moved : step accepted ids s a = some t) :
    ForkInv accepted ids t := by
  cases a with
  | client i => exact inv_client h moved
  | server =>
    obtain ⟨u, stepped, rfl⟩ := Option.map_eq_some_iff.mp moved
    exact inv_server h stepped
  | exit =>
    simp only [step] at moved
    split at moved
    next leaves =>
      cases Option.some.inj moved
      exact inv_exit h leaves.1
    next => cases moved

theorem inv_reachable (s : State) (h : (forkServer accepted ids).Reachable s) :
    ForkInv accepted ids s := by
  refine (forkServer accepted ids).reachable_invariant (ForkInv accepted ids) ?_ (fun s a t inv moved =>
    inv_step inv moved) s h
  rintro s rfl
  exact inv_initial

end Steps

/-! ### How it ends -/

section Ending

variable {accepted : Accepted numThreads} {ids : Fin numThreads → CInt} {s : State}

def State.rank (s : State) : Nat :=
  20 * ∑ i, callsLeft (s.world.clients i) + loopRank s.world.pc + (if s.gone then 0 else 1)

theorem serverStep_lowers (v : Variant) {w : World} (inv : Inv accepted w)
    (quiet : ∀ j, Quiet w j) (inside : w.pc ≠ .left) :
    ∃ u, serverStep accepted v w = some u ∧ u.clients = w.clients ∧
      loopRank u.pc < loopRank w.pc := by
  by_cases test : w.pc = .test
  · simp only [serverStep, test]
    split
    · exact ⟨_, rfl, rfl, by simp [loopRank]⟩
    · exact ⟨_, rfl, rfl, by simp [loopRank]⟩
  · obtain ⟨out, same⟩ := serverStep_withOut accepted v w test
    obtain ⟨u, moved, clients, less⟩ := Socket.serverStep_lowers inv quiet inside
    exact ⟨withOut u out, by rw [same, moved, Option.map_some], clients, less⟩

def Lowers (accepted : Accepted numThreads) (ids : Fin numThreads → CInt) (s : State) : Prop :=
  ∃ a t, step accepted ids s a = some t ∧ t.rank < s.rank

theorem lowers_client {i : Fin numThreads} {u : World} {c : Client}
    (moved : clientThread accepted ids s i = some { s with world := u })
    (clients : u.clients = Function.update s.world.clients i c) (pc : u.pc = s.world.pc)
    (less : callsLeft c < callsLeft (s.world.clients i)) : Lowers accepted ids s := by
  refine ⟨.client i, _, moved, ?_⟩
  have lower := sum_update_lt callsLeft s.world.clients i c less
  simp only [State.rank, clients, pc]
  omega

theorem lowers_talk {i : Fin numThreads} (kept : ¬s.dropped accepted i)
    (enabled : ∃ u, clientStep accepted (threadId ids) s.world i = some u) :
    Lowers accepted ids s := by
  obtain ⟨u, moved⟩ := enabled
  obtain ⟨pc, c, clients, less⟩ := clientStep_frame moved
  exact lowers_client (by rw [clientThread, if_neg kept, moved, Option.map_some]) clients pc less

/-- When the server process is gone no client waits. -/
theorem lowers_gone (gone : s.gone = true) {i : Fin numThreads}
    (more : (s.world.clients i).pc ≠ .returned) : Lowers accepted ids s := by
  by_cases dropped : s.dropped accepted i
  · have reading := dropped.2.1
    have moved : clientThread accepted ids s i = some { s with
        world := setClient s.world i ⟨.close, (s.world.clients i).buffer⟩
          (receivedMessageLine (threadId ids i) (s.world.clients i).buffer.text) } := by
      rw [clientThread, if_pos dropped]
    refine lowers_client moved rfl rfl ?_
    simp [callsLeft, reading]
  · refine lowers_talk dropped ?_
    cases pc : (s.world.clients i).pc with
    | send => exact ⟨_, by simp only [clientStep, pc]; rfl⟩
    | read =>
      have arrived : ¬(replies accepted s.world.server i = [] ∧
          accepted.fd i ∉ s.world.server.closefdCalls) :=
        fun waits => dropped ⟨gone, pc, waits⟩
      exact ⟨_, by simp only [clientStep, pc, if_neg arrived]; rfl⟩
    | close => exact ⟨_, by simp only [clientStep, pc]; rfl⟩
    | returned => exact absurd pc more

theorem ForkInv.lowers (h : ForkInv accepted ids s)
    (more : ¬(s.gone = true ∧ ∀ i, (s.world.clients i).pc = .returned)) :
    Lowers accepted ids s := by
  by_cases left : s.world.pc = .left
  · cases gone : s.gone with
    | false =>
      refine ⟨.exit, ⟨{ s.world with server := s.world.server.print doneLine }, true⟩, ?_, ?_⟩
      · simp [step, left, gone]
      · simp [State.rank, gone]
    | true =>
      obtain ⟨i, running⟩ : ∃ i, (s.world.clients i).pc ≠ .returned := by
        by_contra none
        exact more ⟨gone, fun i => not_not.mp fun running => none ⟨i, running⟩⟩
      exact lowers_gone gone running
  · have inv := h.inside left
    by_cases busy : ∃ i, ¬Quiet s.world i
    · obtain ⟨i, busy⟩ := busy
      have kept : ¬s.dropped accepted i := fun dropped => left (h.gone dropped.1)
      exact lowers_talk kept (clientStep_enabled (threadId ids) i inv busy)
    · have quiet (i : Fin numThreads) : Quiet s.world i := not_not.mp fun loud => busy ⟨i, loud⟩
      obtain ⟨u, moved, clients, less⟩ := serverStep_lowers socketForkServer inv quiet left
      refine ⟨.server, { s with world := u }, by simp [step, moved], ?_⟩
      simp only [State.rank, clients]
      omega

end Ending

end GenericTests.Socket.ForkServer
