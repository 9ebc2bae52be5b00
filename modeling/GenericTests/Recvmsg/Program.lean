import GenericTests.Lib.Transition
import GenericTests.Recvmsg.Scatter

/-!
# recvmsg.c and recvmsg-flush.c: a datagram that comes too early

main creates recv_thread, sleeps for a second and creates sender_thread. Nothing but the sleep
makes the port bound before the datagram is sent, and a datagram for a port that nobody has bound
is lost. Then recv_thread waits for ever, and main waits for recv_thread.
-/
namespace GenericTests.Recvmsg

open GenericTests.CString GenericTests.Memory GenericTests.Transition

/-- The places of main; the sleep only takes time. -/
inductive MainPc where
  | createRecv
  | createSender
  | print
  | joinSender
  | joinRecv
  | printDone
  | returned

inductive RecvPc where
  /-- not created yet -/
  | absent
  | socket
  | bind
  | announce
  | recvmsg
  /-- in `recvmsg`, until there is a datagram -/
  | blocked
  | print (payload : List Byte)
  | returned

inductive SenderPc where
  | absent
  | socket
  | print
  | sendmsg
  | close
  | returned

inductive Line where
  | created
  | waiting
  | sending (texts : List (List Byte))
  /-- the rows of the buffer; the line before them shows the address -/
  | received (rows : List (List Byte))
  | allDone

structure State where
  main : MainPc
  receiver : RecvPc
  sender : SenderPc
  /-- the port belongs to the socket of recv_thread -/
  bound : Bool
  /-- the datagrams that wait there -/
  queue : List (List Byte)
  /-- `socket` has succeeded in sender_thread -/
  sockfd : Bool
  out : List Line

/-- Before main. -/
def State.start : State := ⟨.createRecv, .absent, .absent, false, [], false, []⟩

inductive Act where
  | main
  /-- `ok`: the call of this step succeeds -/
  | receiver (ok : Bool)
  /-- `ok`: the call of this step succeeds, and a datagram for a bound port is not dropped -/
  | sender (ok : Bool)
  /-- another program sends to the port -/
  | arrive (payload : List Byte)

def Act.own : Act → Bool
  | .arrive _ => false
  | _ => true

/-- What the world around the program may do. -/
structure World where
  /-- others send to the port -/
  others : Bool
  /-- the calls of recv_thread may fail -/
  fails : Bool

def State.print (s : State) (line : Line) : State := { s with out := s.out ++ [line] }

def mainStep (s : State) : Option State :=
  match s.main with
  | .createRecv => some { s with main := .createSender, receiver := .socket }
  | .createSender => some { s with main := .print, sender := .socket }
  | .print => some { s.print .created with main := .joinSender }
  | .joinSender =>
    match s.sender with
    | .returned => some { s with main := .joinRecv }
    | _ => none
  | .joinRecv =>
    match s.receiver with
    | .returned => some { s with main := .printDone }
    | _ => none
  | .printDone => some { s.print .allDone with main := .returned }
  | .returned => none

section Step

variable (texts : List (List Byte)) (buffer : Nat) (m : Mem)

/-- recv_thread, whose `buffer` lies in the uninitialised memory `m` -/
def receiverStep (s : State) (ok : Bool) : Option State :=
  match s.receiver with
  | .absent | .returned => none
  | .socket => some { s with receiver := if ok then .bind else .returned }
  | .bind =>
    -- a socket that is not bound is closed
    some { s with receiver := if ok then .announce else .returned, bound := ok }
  | .announce => some { s.print .waiting with receiver := .recvmsg }
  | .recvmsg =>
    if ok then some { s with receiver := .blocked }
    else some { s with receiver := .returned, bound := false }
  | .blocked =>
    match s.queue with
    | [] => none
    | payload :: rest => some { s with receiver := .print payload, queue := rest }
  | .print payload =>
    some { s.print (.received (recvThread buffer m payload)) with receiver := .returned, bound := false }

/-- sender_thread does not look at what its calls return. -/
def senderStep (s : State) (ok : Bool) : Option State :=
  match s.sender with
  | .absent | .returned => none
  | .socket => some { s with sender := .print, sockfd := ok }
  | .print => some { s.print (.sending texts) with sender := .sendmsg }
  | .sendmsg =>
    if ok && s.sockfd && s.bound then
      some { s with sender := .close, queue := s.queue ++ [senderThread texts] }
    else some { s with sender := .close }
  | .close => some { s with sender := .returned }

def step (world : World) (s : State) : Act → Option State
  | .main => mainStep s
  | .receiver ok => if ok || world.fails then receiverStep buffer m s ok else none
  | .sender ok => senderStep texts s ok
  | .arrive payload =>
    if world.others && s.bound then some { s with queue := s.queue ++ [payload] } else none

def program (world : World) : System State Act where
  init s := s = .start
  step := step texts buffer m world

end Step

/-- None of the three can go on. -/
def Stuck (texts : List (List Byte)) (buffer : Nat) (m : Mem) (world : World) (s : State) : Prop :=
  ∀ a t, a.own = true → step texts buffer m world s a ≠ some t

/-- The datagram is sent, and to a port that is bound. -/
def InTime (s : State) (a : Act) : Prop :=
  ∀ ok, a = .sender ok → s.sender = .sendmsg → (ok && s.sockfd && s.bound) = true

/-! ### One step -/

section Moves

variable {texts : List (List Byte)} {buffer : Nat} {m : Mem} {world : World} {s t : State} {a : Act}

/-- The steps, one by one. -/
inductive Moves (texts : List (List Byte)) (buffer : Nat) (m : Mem) (world : World) (s : State) :
    Act → State → Prop where
  | createRecv (pc : s.main = .createRecv) :
      Moves texts buffer m world s .main { s with main := .createSender, receiver := .socket }
  | createSender (pc : s.main = .createSender) :
      Moves texts buffer m world s .main { s with main := .print, sender := .socket }
  | created (pc : s.main = .print) :
      Moves texts buffer m world s .main { s.print .created with main := .joinSender }
  | joinedSender (pc : s.main = .joinSender) (done : s.sender = .returned) :
      Moves texts buffer m world s .main { s with main := .joinRecv }
  | joinedRecv (pc : s.main = .joinRecv) (done : s.receiver = .returned) :
      Moves texts buffer m world s .main { s with main := .printDone }
  | allDone (pc : s.main = .printDone) :
      Moves texts buffer m world s .main { s.print .allDone with main := .returned }
  | receiverSocket (pc : s.receiver = .socket) :
      Moves texts buffer m world s (.receiver true) { s with receiver := .bind }
  | bind (pc : s.receiver = .bind) :
      Moves texts buffer m world s (.receiver true) { s with receiver := .announce, bound := true }
  | announce (pc : s.receiver = .announce) (ok : Bool) :
      Moves texts buffer m world s (.receiver ok) { s.print .waiting with receiver := .recvmsg }
  | recvmsg (pc : s.receiver = .recvmsg) :
      Moves texts buffer m world s (.receiver true) { s with receiver := .blocked }
  | receive (pc : s.receiver = .blocked) (ok : Bool) (payload : List Byte) (rest : List (List Byte))
      (waiting : s.queue = payload :: rest) :
      Moves texts buffer m world s (.receiver ok) { s with receiver := .print payload, queue := rest }
  | received (payload : List Byte) (pc : s.receiver = .print payload) (ok : Bool) :
      Moves texts buffer m world s (.receiver ok)
        { s.print (.received (recvThread buffer m payload)) with receiver := .returned, bound := false }
  | failed (fails : world.fails = true)
      (pc : s.receiver = .socket ∨ s.receiver = .bind ∨ s.receiver = .recvmsg) (bound : Bool) :
      Moves texts buffer m world s (.receiver false) { s with receiver := .returned, bound := bound }
  | senderSocket (pc : s.sender = .socket) (ok : Bool) :
      Moves texts buffer m world s (.sender ok) { s with sender := .print, sockfd := ok }
  | sending (pc : s.sender = .print) (ok : Bool) :
      Moves texts buffer m world s (.sender ok) { s.print (.sending texts) with sender := .sendmsg }
  | sent (pc : s.sender = .sendmsg) (ok : Bool) (reaches : (ok && s.sockfd && s.bound) = true) :
      Moves texts buffer m world s (.sender ok)
        { s with sender := .close, queue := s.queue ++ [senderThread texts] }
  | lost (pc : s.sender = .sendmsg) (ok : Bool) (early : ¬(ok && s.sockfd && s.bound) = true) :
      Moves texts buffer m world s (.sender ok) { s with sender := .close }
  | closed (pc : s.sender = .close) (ok : Bool) :
      Moves texts buffer m world s (.sender ok) { s with sender := .returned }
  | arrive (others : world.others = true) (payload : List Byte) :
      Moves texts buffer m world s (.arrive payload) { s with queue := s.queue ++ [payload] }

theorem mainStep_moves (stepped : mainStep s = some t) : Moves texts buffer m world s .main t := by
  unfold mainStep at stepped
  split at stepped
  next pc =>
    cases stepped
    exact .createRecv pc
  next pc =>
    cases stepped
    exact .createSender pc
  next pc =>
    cases stepped
    exact .created pc
  next pc =>
    split at stepped
    next done =>
      cases stepped
      exact .joinedSender pc done
    next => cases stepped
  next pc =>
    split at stepped
    next done =>
      cases stepped
      exact .joinedRecv pc done
    next => cases stepped
  next pc =>
    cases stepped
    exact .allDone pc
  next => cases stepped

theorem receiverStep_moves {ok : Bool} (may : ok = true ∨ world.fails = true)
    (stepped : receiverStep buffer m s ok = some t) :
    Moves texts buffer m world s (.receiver ok) t := by
  -- a call that fails is one of three
  have fail (pc : s.receiver = .socket ∨ s.receiver = .bind ∨ s.receiver = .recvmsg) (bound : Bool)
      (no : ok = false) : Moves texts buffer m world s (.receiver ok)
        { s with receiver := .returned, bound := bound } := by
    subst no
    exact .failed (may.resolve_left nofun) pc bound
  unfold receiverStep at stepped
  split at stepped
  next => cases stepped
  next => cases stepped
  next pc =>
    cases stepped
    cases ok with
    | true => exact .receiverSocket pc
    | false => exact fail (.inl pc) s.bound rfl
  next pc =>
    cases stepped
    cases ok with
    | true => exact .bind pc
    | false => exact fail (.inr (.inl pc)) false rfl
  next pc =>
    cases stepped
    exact .announce pc ok
  next pc =>
    cases ok with
    | true =>
      cases stepped
      exact .recvmsg pc
    | false =>
      cases stepped
      exact fail (.inr (.inr pc)) false rfl
  next pc =>
    split at stepped
    next => cases stepped
    next payload rest waiting =>
      cases stepped
      exact .receive pc ok payload rest waiting
  next payload pc =>
    cases stepped
    exact .received payload pc ok

theorem senderStep_moves {ok : Bool} (stepped : senderStep texts s ok = some t) :
    Moves texts buffer m world s (.sender ok) t := by
  unfold senderStep at stepped
  split at stepped
  next => cases stepped
  next => cases stepped
  next pc =>
    cases stepped
    exact .senderSocket pc ok
  next pc =>
    cases stepped
    exact .sending pc ok
  next pc =>
    split at stepped
    next reaches =>
      cases stepped
      exact .sent pc ok reaches
    next early =>
      cases stepped
      exact .lost pc ok early
  next pc =>
    cases stepped
    exact .closed pc ok

theorem step_moves (stepped : step texts buffer m world s a = some t) :
    Moves texts buffer m world s a t := by
  cases a with
  | main => exact mainStep_moves stepped
  | receiver ok =>
    simp only [step] at stepped
    split at stepped
    next may => exact receiverStep_moves (by simpa using may) stepped
    next => cases stepped
  | sender ok => exact senderStep_moves stepped
  | arrive payload =>
    simp only [step] at stepped
    split at stepped
    next may =>
      cases stepped
      rw [Bool.and_eq_true] at may
      exact .arrive may.1 payload
    next => cases stepped

/-! ### What keeps main from returning -/

/-- Which threads there are, and who has been joined. -/
structure Control (s : State) : Prop where
  receiver : s.receiver = .absent ↔ s.main = .createRecv
  sender : s.sender = .absent ↔ s.main = .createRecv ∨ s.main = .createSender
  joined : s.main = .joinRecv ∨ s.main = .printDone ∨ s.main = .returned → s.sender = .returned
  ended : s.main = .printDone ∨ s.main = .returned → s.receiver = .returned

theorem control_step (h : Control s) (moved : Moves texts buffer m world s a t) : Control t := by
  obtain ⟨receiver, sender, joined, ended⟩ := h
  cases moved with
  | arrive => exact ⟨receiver, sender, joined, ended⟩
  | createRecv pc | createSender pc | created pc | joinedSender pc done | joinedRecv pc done | allDone pc =>
    exact ⟨by simp_all [State.print], by simp_all [State.print], by simp_all [State.print],
      by simp_all [State.print]⟩
  | receiverSocket pc | bind pc | announce pc | recvmsg pc | receive pc =>
    -- main is past the creation of the receiver, and not past its join
    rw [pc] at receiver ended
    exact ⟨by simpa [State.print] using receiver, sender, joined, by simpa [State.print] using ended⟩
  | received _ pc =>
    rw [pc] at receiver
    exact ⟨by simpa [State.print] using receiver, sender, joined, fun _ => rfl⟩
  | failed fails pc bound =>
    refine ⟨?_, sender, joined, fun _ => rfl⟩
    rcases pc with pc | pc | pc <;> simp_all
  | senderSocket pc | sending pc | sent pc | lost pc =>
    rw [pc] at sender joined
    exact ⟨receiver, by simpa [State.print] using sender, by simpa [State.print] using joined, ended⟩
  | closed pc =>
    rw [pc] at sender
    exact ⟨receiver, by simpa using sender, fun _ => rfl, ended⟩

/-- Behind `sendmsg`. -/
def SenderPc.past : SenderPc → Bool
  | .close | .returned => true
  | _ => false

/-- Behind the wait for a datagram. -/
def RecvPc.past : RecvPc → Bool
  | .print _ | .returned => true
  | _ => false

/-- Once the sender has sent, the receiver does not wait in vain. -/
def Served (s : State) : Prop := s.sender.past = true → s.queue ≠ [] ∨ s.receiver.past = true

/-- Only a receiver that waits in vain keeps main from returning. -/
theorem returned_of_stuck (h : Control s) (served : Served s) (stuck : Stuck texts buffer m world s) :
    s.main = .returned := by
  have main_stuck : mainStep s = none :=
    Option.eq_none_iff_forall_ne_some.mpr fun t => stuck .main t rfl
  have receiver_stuck : receiverStep buffer m s true = none :=
    Option.eq_none_iff_forall_ne_some.mpr fun t => stuck (.receiver true) t rfl
  have sender_stuck : senderStep texts s true = none :=
    Option.eq_none_iff_forall_ne_some.mpr fun t => stuck (.sender true) t rfl
  cases pc : s.main with
  | createRecv | createSender | print | printDone => simp [mainStep, pc] at main_stuck
  | joinSender =>
    -- the sender never waits
    have born : s.sender ≠ .absent := fun e => by simpa [pc] using h.sender.mp e
    cases here : s.sender with
    | absent => exact absurd here born
    | returned => simp [mainStep, pc, here] at main_stuck
    | sendmsg =>
      simp only [senderStep, here] at sender_stuck
      split at sender_stuck <;> cases sender_stuck
    | socket | print | close => simp [senderStep, here] at sender_stuck
  | joinRecv =>
    have born : s.receiver ≠ .absent := fun e => by simpa [pc] using h.receiver.mp e
    cases here : s.receiver with
    | absent => exact absurd here born
    | returned => simp [mainStep, pc, here] at main_stuck
    | blocked =>
      -- the sender has been joined, so it has sent
      have sent : s.sender.past = true := by
        rw [h.joined (.inl pc)]
        rfl
      have fed : s.queue ≠ [] := (served sent).resolve_right (by rw [here]; nofun)
      obtain ⟨payload, rest, waiting⟩ := List.exists_cons_of_ne_nil fed
      simp [receiverStep, here, waiting] at receiver_stuck
    | socket | bind | announce | recvmsg | print payload => simp [receiverStep, here] at receiver_stuck
  | returned => rfl

/-! ### The datagram -/

theorem served_step (control : Control s) (h : Served s) (inTime : InTime s a)
    (moved : Moves texts buffer m world s a t) : Served t := by
  unfold Served at h ⊢
  cases moved with
  | createSender | senderSocket | sending => exact nofun
  | created | joinedSender | joinedRecv | allDone => exact h
  | createRecv pc =>
    have absent : s.sender = .absent := control.sender.mpr (.inl pc)
    rw [absent]
    exact nofun
  | receiverSocket pc | bind pc | announce pc | recvmsg pc =>
    rw [pc] at h
    exact h
  | receive | received | failed => exact fun _ => .inr rfl
  | sent => exact fun _ => .inl (List.append_ne_nil_of_right_ne_nil _ (List.cons_ne_nil _ _))
  | lost pc ok early => exact absurd (inTime ok rfl pc) early
  | closed pc =>
    rw [pc] at h
    exact fun _ => h rfl
  | arrive => exact fun _ => .inl (List.append_ne_nil_of_right_ne_nil _ (List.cons_ne_nil _ _))

/-- Nobody else sends to the port, and the calls of recv_thread succeed. -/
def World.calm : World := ⟨false, false⟩

/-- What a calm world guarantees. -/
structure Calm (texts : List (List Byte)) (buffer : Nat) (m : Mem) (s : State) : Prop where
  early : s.sender.past = false → s.queue = [] ∧ s.receiver.past = false
  queued : ∀ payload ∈ s.queue, payload = senderThread texts
  printing : ∀ payload, s.receiver = .print payload → payload = senderThread texts
  shown : s.receiver = .returned → .received (recvThread buffer m (senderThread texts)) ∈ s.out

theorem calm_step (control : Control s) (h : Calm texts buffer m s)
    (moved : Moves texts buffer m .calm s a t) : Calm texts buffer m t := by
  obtain ⟨early, queued, printing, shown⟩ := h
  cases moved with
  | created | joinedSender | joinedRecv | allDone =>
    exact ⟨early, queued, printing, fun done => by simp [State.print, shown done]⟩
  | createRecv pc => exact ⟨fun unsent => ⟨(early unsent).1, rfl⟩, queued, nofun, nofun⟩
  | createSender pc =>
    have absent : s.sender = .absent := control.sender.mpr (.inr pc)
    rw [absent] at early
    exact ⟨fun _ => early rfl, queued, printing, shown⟩
  | receiverSocket | bind | announce | recvmsg =>
    exact ⟨fun unsent => ⟨(early unsent).1, rfl⟩, queued, nofun, nofun⟩
  | receive pc ok payload rest waiting =>
    rw [waiting] at early queued
    obtain ⟨first, later⟩ := List.forall_mem_cons.mp queued
    refine ⟨fun unsent => ?_, later, fun other same => ?_, nofun⟩
    · cases (early unsent).1
    · cases same
      exact first
  | received payload pc =>
    refine ⟨fun unsent => ?_, queued, nofun, fun _ => ?_⟩
    · have waits := (early unsent).2
      rw [pc] at waits
      cases waits
    · rw [← printing payload pc]
      exact List.mem_append_right _ (List.mem_singleton_self _)
  | failed fails => cases fails
  | senderSocket pc | sending pc =>
    rw [pc] at early
    exact ⟨fun _ => early rfl, queued, printing, fun done => by simp [State.print, shown done]⟩
  | sent =>
    refine ⟨nofun, fun payload member => ?_, printing, shown⟩
    rcases List.mem_append.mp member with old | new
    · exact queued payload old
    · exact List.mem_singleton.mp new
  | lost | closed => exact ⟨nofun, queued, printing, shown⟩
  | arrive others => cases others

/-- In a calm world a receiver that waits in vain goes on to do so. -/
theorem served_of_step (control : Control s) (served : Served t)
    (moved : Moves texts buffer m .calm s a t) : Served s := by
  intro past
  cases moved with
  | created | joinedSender | joinedRecv | allDone => exact served past
  | createRecv pc =>
    rw [control.sender.mpr (.inl pc)] at past
    cases past
  | createSender pc =>
    rw [control.sender.mpr (.inr pc)] at past
    cases past
  | receiverSocket | bind | announce | recvmsg => exact .inl ((served past).resolve_right nofun)
  | receive pc ok payload rest waiting => exact .inl (by rw [waiting]; exact List.cons_ne_nil _ _)
  | received payload pc => exact .inr (by rw [pc]; rfl)
  | failed fails => cases fails
  | senderSocket pc | sending pc | sent pc | lost pc =>
    rw [pc] at past
    cases past
  | closed => exact served rfl
  | arrive others => cases others

/-- In a calm world only the datagram can serve the receiver. -/
theorem inTime_of_served (h : Calm texts buffer m s) (served : Served t)
    (moved : Moves texts buffer m .calm s a t) : InTime s a := by
  intro ok sends pc
  subst sends
  have before := h.early (by rw [pc]; rfl)
  cases moved with
  | sent _ _ reaches => exact reaches
  | lost =>
    -- nothing is in the queue, and the receiver has not got anything
    rcases served rfl with queued | past
    · exact absurd before.1 queued
    · rw [before.2] at past
      cases past
  | senderSocket here | sending here | closed here => cases pc.symm.trans here

/-! ### Whole runs -/

def MainPc.left : MainPc → Nat
  | .createRecv => 6
  | .createSender => 5
  | .print => 4
  | .joinSender => 3
  | .joinRecv => 2
  | .printDone => 1
  | .returned => 0

def RecvPc.left : RecvPc → Nat
  | .absent | .socket => 6
  | .bind => 5
  | .announce => 4
  | .recvmsg => 3
  | .blocked => 2
  | .print _ => 1
  | .returned => 0

def SenderPc.left : SenderPc → Nat
  | .absent | .socket => 4
  | .print => 3
  | .sendmsg => 2
  | .close => 1
  | .returned => 0

/-- The most steps that the program can still make. -/
def State.left (s : State) : Nat := s.main.left + s.receiver.left + s.sender.left

theorem left_step (control : Control s) (moved : Moves texts buffer m world s a t) :
    t.left + (if a.own then 1 else 0) ≤ s.left := by
  cases moved with
  | createRecv pc =>
    have absent : s.receiver = .absent := control.receiver.mpr pc
    simp only [State.left, pc, absent, MainPc.left, RecvPc.left, Act.own, if_true]
    omega
  | createSender pc =>
    have absent : s.sender = .absent := control.sender.mpr (.inr pc)
    simp only [State.left, pc, absent, MainPc.left, SenderPc.left, Act.own, if_true]
    omega
  | created pc | joinedSender pc | joinedRecv pc | allDone pc =>
    simp only [State.left, State.print, pc, MainPc.left, Act.own, if_true]
    omega
  | receiverSocket pc | bind pc | announce pc | recvmsg pc | receive pc | received _ pc =>
    simp only [State.left, State.print, pc, RecvPc.left, Act.own, if_true]
    omega
  | failed fails pc bound =>
    rcases pc with pc | pc | pc <;> simp only [State.left, pc, RecvPc.left, Act.own, if_true] <;> omega
  | senderSocket pc | sending pc | sent pc | lost pc | closed pc =>
    simp only [State.left, State.print, pc, SenderPc.left, Act.own, if_true]
    omega
  | arrive => exact Nat.le_refl _

/-- The invariant of a run in any world. -/
structure Bounded (acts : List Act) (s : State) : Prop where
  control : Control s
  steps : (acts.filter Act.own).length + s.left ≤ 16

theorem control_start : Control .start :=
  ⟨by simp [State.start], by simp [State.start], by simp [State.start], by simp [State.start]⟩

theorem bounded_of_run {acts : List Act} (ran : (program texts buffer m world).run .start acts = some s) :
    Bounded acts s := by
  apply (program texts buffer m world).run_history Bounded ?_ .start s acts
    ⟨control_start, Nat.le_refl _⟩ ran
  rintro past s a t ⟨control, steps⟩ stepped
  have moved := step_moves stepped
  have less := left_step control moved
  refine ⟨control_step control moved, ?_⟩
  rw [List.filter_append, List.length_append]
  cases own : a.own with
  | true =>
    rw [own, if_pos rfl] at less
    rw [List.filter_cons_of_pos own, List.filter_nil, List.length_singleton]
    omega
  | false =>
    rw [own, if_neg Bool.false_ne_true] at less
    rw [List.filter_cons_of_neg (by simp [own]), List.filter_nil, List.length_nil]
    omega

end Moves

section Calm

variable {texts : List (List Byte)} {buffer : Nat} {m : Mem} {s : State} {acts : List Act}

theorem calm_start : Calm texts buffer m .start :=
  ⟨fun _ => ⟨rfl, rfl⟩, List.forall_mem_nil _, nofun, nofun⟩

theorem calm_of_run (ran : (program texts buffer m .calm).run .start acts = some s) :
    Control s ∧ Calm texts buffer m s := by
  apply (program texts buffer m .calm).run_invariant (fun s => Control s ∧ Calm texts buffer m s) ?_
    .start s acts ⟨control_start, calm_start⟩ ran
  rintro s a t ⟨control, calm⟩ stepped
  have moved := step_moves stepped
  exact ⟨control_step control moved, calm_step control calm moved⟩

/-- The induction is on the run: a datagram that comes too early at one of its steps would leave the
receiver unserved up to the end. -/
theorem inTime_of_served_end {u : State} (control : Control s) (calm : Calm texts buffer m s)
    (ran : (program texts buffer m .calm).run s acts = some u) (served : Served u) :
    Served s ∧ (program texts buffer m .calm).StepsMeet InTime s acts := by
  induction acts generalizing s with
  | nil =>
    cases ran
    exact ⟨served, trivial⟩
  | cons a acts ih =>
    obtain ⟨t, stepped, rest⟩ := ((program texts buffer m .calm).run_cons_eq_some s u a acts).mp ran
    have moved := step_moves stepped
    obtain ⟨after, later⟩ := ih (control_step control moved) (calm_step control calm moved) rest
    refine ⟨served_of_step control after moved, fun t' stepped' => ?_⟩
    cases Option.some.inj (stepped.symm.trans stepped')
    exact ⟨inTime_of_served calm after moved, later⟩

end Calm

/-- **When recvmsg.c returns**: it makes at most 16 steps, and comes to its end in every run in which
the datagram is sent to a bound port. If nobody else sends to that port and the calls of recv_thread
succeed, main returns in no other run, and recv_thread shows the datagram. -/
theorem returns_iff_sent_in_time (texts : List (List Byte)) (buffer : Nat) (m : Mem) :
    (∀ world acts s, (program texts buffer m world).run .start acts = some s →
      (acts.filter Act.own).length ≤ 16 ∧
      ((program texts buffer m world).StepsMeet InTime .start acts →
        Stuck texts buffer m world s → s.main = .returned)) ∧
    ∀ acts s, (program texts buffer m .calm).run .start acts = some s →
      Stuck texts buffer m .calm s →
      (s.main = .returned ↔ (program texts buffer m .calm).StepsMeet InTime .start acts) ∧
      (s.main = .returned → .received (recvThread buffer m (senderThread texts)) ∈ s.out) := by
  have served (world : World) (acts : List Act) (s : State)
      (ran : (program texts buffer m world).run .start acts = some s)
      (inTime : (program texts buffer m world).StepsMeet InTime .start acts) : Served s := by
    have both := (program texts buffer m world).stepsMeet_invariant (fun s => Control s ∧ Served s)
      InTime ?_ .start s acts ⟨control_start, nofun⟩ inTime ran
    · exact both.2
    · rintro s a t ⟨control, served⟩ inTime stepped
      have moved := step_moves stepped
      exact ⟨control_step control moved, served_step control served inTime moved⟩
  refine ⟨fun world acts s ran => ⟨?_, fun inTime stuck => ?_⟩, fun acts s ran stuck => ⟨⟨?_, ?_⟩, ?_⟩⟩
  · have bounded := bounded_of_run ran
    exact (Nat.le_add_right _ _).trans bounded.steps
  · exact returned_of_stuck (bounded_of_run ran).control (served world acts s ran inTime) stuck
  · intro returned
    have receiver : s.receiver = .returned := (calm_of_run ran).1.ended (.inr returned)
    exact (inTime_of_served_end control_start calm_start ran fun _ => .inr (by rw [receiver]; rfl)).2
  · intro inTime
    exact returned_of_stuck (bounded_of_run ran).control (served .calm acts s ran inTime) stuck
  · intro returned
    obtain ⟨control, calm⟩ := calm_of_run ran
    exact calm.shown (control.ended (.inr returned))

/-- A sender that is faster than the receiver. -/
theorem returns_iff_sent_in_time_early :
    ∃ acts s, (program senderTexts 0 (fun _ => 0) .calm).run .start acts = some s ∧
      Stuck senderTexts 0 (fun _ => 0) .calm s ∧
      ¬(program senderTexts 0 (fun _ => 0) .calm).StepsMeet InTime .start acts := by
  have ran : (program senderTexts 0 (fun _ => 0) .calm).run .start
      ([.main, .main] ++ List.replicate 4 (.sender true) ++ List.replicate 4 (.receiver true) ++
        [.main, .main]) = some _ := rfl
  have stuck : Stuck senderTexts 0 (fun _ => 0) .calm
      ⟨.joinRecv, .blocked, .returned, true, [], true, [.sending senderTexts, .waiting, .created]⟩ := by
    intro a t own stepped
    cases a with
    | main => cases stepped
    | receiver ok => cases ok <;> cases stepped
    | sender ok => cases stepped
    | arrive payload => cases own
  refine ⟨_, _, ran, stuck, fun inTime => ?_⟩
  cases ((returns_iff_sent_in_time senderTexts 0 fun _ => 0).2 _ _ ran stuck).1.mpr inTime

end GenericTests.Recvmsg
