import GenericTests.Msgtest.Exchange

/-!
# msgtest.c: how many instances a queue can serve

No instance waits for a message, so all can only be stuck in `msgsnd`. Each of them has then
put at most one message into the queue, and the queue is full.
-/
namespace GenericTests.Msgtest

open GenericTests.CString GenericTests.MessageQueue GenericTests.Transition

variable {κ : Type} {n : Nat}

/-- Some instance can go on, or all have ended. -/
def DeadlockFree [DecidableEq κ] (key : κ) (qbytes n : Nat) : Prop :=
  ∀ s, (msgtest key qbytes n).Reachable s →
    (∀ i, (s.inst i).ended ≠ none) ∨ ∃ i t, step key qbytes s ⟨i, true⟩ = some t

/-! ### What a stuck state looks like -/

/-- An instance at its end has returned; one that failed to receive has lost its queue. -/
structure Ended (s : State κ n) : Prop where
  done : ∀ i, (s.inst i).pc = .done → (s.inst i).ended ≠ none
  lost : ∀ i id, (s.inst i).ended ≠ none → (s.inst i).pc.receives = true →
    (s.inst i).msgid = some id → s.queues.queue id = none

section Ended

variable [DecidableEq κ] {key : κ} {qbytes : Nat} {S₀ : Queues κ} {s t : State κ n} {a : Act n}

/-- A queue that is gone does not come back. -/
theorem queue_gone {S' : Queues κ} {p p' : Instance}
    (effect : Effect key qbytes s.queues p S' p') {id : Nat} (used : id < s.queues.next)
    (gone : s.queues.queue id = none) : S'.queue id = none := by
  have fresh : (s.queues.create key).queue id = none :=
    (Function.update_of_ne (Nat.ne_of_lt used) _ _).trans gone
  have without (id' : Nat) : (s.queues.without id').queue id = none := by
    by_cases e : id = id'
    · simp [Queues.without, e]
    · exact (Function.update_of_ne e _ _).trans gone
  have modified (id' : Nat) (f : Queue → Queue) : (s.queues.modify id' f).queue id = none := by
    by_cases e : id = id'
    · subst e
      simp [Queues.modify, gone]
    · exact (Function.update_of_ne e _ _).trans gone
  cases effect with
  | fail _ line pc msgid newmsgid ended out error lost => exact gone
  | create pc unbound => exact fresh
  | didNotFail pc unbound => exact fresh
  | refused pc => exact gone
  | destroy id' pc msgid there => exact without id'
  | recreate pc unbound => exact fresh
  | join id' pc bound => exact gone
  | send id' k q next stage msgid there fits => exact modified id' _
  | receive id' k q m next stage msgid there found => exact modified id' _
  | cleanup id' pc msgid there => exact without id'

/-- The instance that acts ends only by failing or at the end of main. -/
theorem effect_ended {S S' : Queues κ} {p p' : Instance} (alive : p.ended = none)
    (effect : Effect key qbytes S p S' p') :
    (p'.pc = .done → p'.ended ≠ none) ∧ (p'.ended ≠ none → p'.pc.receives = true →
      p'.msgid = p.msgid ∧ p.pc.receives = true ∧ S' = S ∧
      ∀ id q, p.msgid = some id → S.queue id = some q → ∃ m ∈ q, textSize < m.mtext.length) := by
  cases effect with
  | fail _ line pc msgid newmsgid ended out error lost =>
    refine ⟨fun _ => by simp [ended], fun _ receives => ?_⟩
    rw [pc] at receives
    exact ⟨msgid, receives, rfl, lost receives⟩
  | create pc unbound => exact ⟨fun done => (by cases done), fun ended => absurd alive ended⟩
  | didNotFail pc unbound =>
    refine ⟨fun _ => by simp [Instance.fail], fun _ receives => ?_⟩
    simp [Instance.fail, pc, Pc.receives] at receives
  | refused pc => exact ⟨fun done => (by cases done), fun ended => absurd alive ended⟩
  | destroy id pc msgid there => exact ⟨fun done => (by cases done), fun ended => absurd alive ended⟩
  | recreate pc unbound => exact ⟨fun done => (by cases done), fun ended => absurd alive ended⟩
  | join id pc bound => exact ⟨fun done => (by cases done), fun ended => absurd alive ended⟩
  | send id k q next stage msgid there fits =>
    refine ⟨fun (pc : next = .done) => ?_, fun ended => absurd alive ended⟩
    have holds := stage.holds.2
    rw [pc] at holds
    cases holds
  | receive id k q m next stage msgid there found =>
    refine ⟨fun (pc : next = .done) => ?_, fun ended => absurd alive ended⟩
    have holds := stage.holds.2
    rw [pc] at holds
    cases holds
  | cleanup id pc msgid there => exact ⟨fun _ => Option.some_ne_none 0, fun _ receives => by cases receives⟩

theorem ended_step (h : Ended s) (frame : Frame key S₀ s) (content : Content S₀ s)
    (moved : step key qbytes s a = some t) : Ended t := by
  obtain ⟨alive, S', p', effect, rfl⟩ := step_cases moved
  obtain ⟨done, lost⟩ := effect_ended alive effect
  constructor
  · exact (Function.forall_update_iff s.inst (p := fun _ (p : Instance) => p.pc = .done →
      p.ended ≠ none)).mpr ⟨done, fun i _ => h.done i⟩
  · refine (Function.forall_update_iff s.inst (p := fun _ (p : Instance) => ∀ id, p.ended ≠ none →
      p.pc.receives = true → p.msgid = some id → S'.queue id = none)).mpr ⟨?_, ?_⟩
    · intro id ended receives msgid
      obtain ⟨same, -, rfl, long⟩ := lost ended receives
      rw [same] at msgid
      -- no message is longer than the array
      cases there : s.queues.queue id with
      | none => rfl
      | some q =>
        obtain ⟨m, member, longer⟩ := long id q msgid there
        have size := (content.carried id q (frame.held a.i id msgid).1 there m member).size
        omega
    · intro i _ id ended receives msgid
      exact queue_gone effect (frame.held i id msgid).2 (h.lost i id ended receives msgid)

theorem ended_of_run {s₀ : State κ n} {acts : List (Act n)} (starts : ∀ i, (s₀.inst i).Starts)
    (ran : (msgtest key qbytes n).run s₀ acts = some s) : Ended s := by
  refine ((msgtest key qbytes n).run_invariant (fun s => Frame key s₀.queues s ∧
    Content s₀.queues s ∧ Ended s) ?_ s₀ s acts ⟨frame_init key s₀ starts, content_init s₀ starts,
      ?_, ?_⟩ ran).2.2
  · rintro s a t ⟨frame, content, ended⟩ moved
    exact ⟨frame_step frame moved, content_step content frame moved,
      ended_step ended frame content moved⟩
  · intro i pc
    rw [(starts i).1] at pc
    cases pc
  · intro i id ended
    exact absurd (starts i).2.1 ended

end Ended

/-- Every message of this run is of type 1 or of type 2. -/
theorem length_eq_counts (q : Queue) (types : ∀ m ∈ q, m.mtype = 1 ∨ m.mtype = 2) :
    q.length = q.count 1 + q.count 2 := by
  induction q with
  | nil => rfl
  | cons m q ih =>
    have rest := ih fun m' member => types m' (List.mem_cons_of_mem m member)
    simp only [Queue.count, List.countP_cons, List.length_cons, Message.ofType] at rest ⊢
    rcases types m List.mem_cons_self with one | two
    · simp only [one]
      simp
      omega
    · simp only [two]
      simp
      omega

theorem length_le_of_outstanding (inst : Fin n → Instance) (id : Nat)
    (most : ∀ i, outstanding 1 id (inst i) + outstanding 2 id (inst i) ≤ 1) :
    total inst 1 id + total inst 2 id ≤ n := by
  rw [total, total, ← Finset.sum_add_distrib]
  calc ∑ i, (outstanding 1 id (inst i) + outstanding 2 id (inst i))
      ≤ ∑ _i : Fin n, 1 := Finset.sum_le_sum fun i _ => most i
    _ = n := by
      simp only [Finset.sum_const, Finset.card_univ, Fintype.card_fin]
      exact Nat.mul_one n

section Stuck

variable [DecidableEq κ] {key : κ} {qbytes : Nat} {S₀ : Queues κ} {s : State κ n}

/-- The instance waits in `msgsnd`: its queue is there and full. -/
structure Waiting (qbytes : Nat) (s : State κ n) (i : Fin n) (id : Nat) (q : Queue) : Prop where
  pc : (s.inst i).pc = .send1 ∨ (s.inst i).pc = .send2
  msgid : (s.inst i).msgid = some id
  there : s.queues.queue id = some q
  full : ¬(q.bytes + textSize ≤ qbytes ∧ q.length + 1 ≤ qbytes)

/-- Only `msgsnd` keeps an instance waiting. -/
theorem waiting_of_stuck (frame : Frame key S₀ s) (content : Content S₀ s) (ended : Ended s)
    {i : Fin n} (alive : (s.inst i).ended = none) (stuck : step key qbytes s ⟨i, true⟩ = none) :
    ∃ id q, Waiting qbytes s i id q := by
  have quiet : call key qbytes s.queues (s.inst i) true = none := by
    simpa [step, alive] using stuck
  by_cases first : (s.inst i).pc = .create
  · simp only [call, first] at quiet
    split at quiet <;> cases quiet
  obtain ⟨id, msgid⟩ := Option.isSome_iff_exists.mp (frame.started i first)
  have sends (k : Nat) (next : Pc) (quiet : send qbytes k next s.queues (s.inst i) id true = none)
      (pc : (s.inst i).pc = .send1 ∨ (s.inst i).pc = .send2) : ∃ id q, Waiting qbytes s i id q := by
    cases there : s.queues.queue id with
    | none => simp [send, Queues.msgsnd, there] at quiet
    | some q =>
      refine ⟨id, q, pc, msgid, there, fun fits => ?_⟩
      rw [← ((s.inst i).prepare k).text.length_eq] at fits
      simp only [send, Queues.msgsnd, there, if_true, if_pos fits] at quiet
      cases quiet
  cases pc : (s.inst i).pc with
  | create => exact absurd pc first
  | createAgain =>
    simp only [call, pc] at quiet
    split at quiet <;> cases quiet
  | destroy =>
    simp only [call, pc, msgid] at quiet
    split at quiet <;> cases quiet
  | recreate =>
    simp only [call, pc] at quiet
    split at quiet <;> cases quiet
  | send1 => exact sends 1 .send2 (by simpa only [call, pc, msgid] using quiet) (.inl pc)
  | send2 => exact sends 2 .receive2 (by simpa only [call, pc, msgid] using quiet) (.inr pc)
  | receive2 =>
    obtain ⟨t, moved⟩ := receive_enabled qbytes frame content alive (.inl pc) true
    rw [stuck] at moved
    cases moved
  | receive1 =>
    obtain ⟨t, moved⟩ := receive_enabled qbytes frame content alive (.inr pc) true
    rw [stuck] at moved
    cases moved
  | cleanup =>
    simp only [call, pc, msgid] at quiet
    split at quiet <;> cases quiet
  | done => exact absurd alive (ended.done i pc)

/-- If all are stuck, each has at most one message in the queue. -/
theorem length_le_of_stuck (frame : Frame key S₀ s) (content : Content S₀ s) (ended : Ended s)
    (stuck : ∀ i, step key qbytes s ⟨i, true⟩ = none) {i : Fin n} {id : Nat} {q : Queue}
    (waiting : Waiting qbytes s i id q) : q.length ≤ n := by
  have new := (frame.held i id waiting.msgid).1
  have types : ∀ m ∈ q, m.mtype = 1 ∨ m.mtype = 2 :=
    fun m member => (content.carried id q new waiting.there m member).type
  rw [length_eq_counts q types, content.balanced id q 1 new waiting.there,
    content.balanced id q 2 new waiting.there]
  apply length_le_of_outstanding
  intro j
  by_cases same : (s.inst j).msgid = some id
  · have elsewhere : (s.inst j).pc ≠ .receive2 := by
      intro pc
      by_cases alive : (s.inst j).ended = none
      · obtain ⟨t, moved⟩ := receive_enabled qbytes frame content alive (.inl pc) true
        rw [stuck j] at moved
        cases moved
      · have gone := ended.lost j id alive (by rw [pc]; rfl) same
        rw [waiting.there] at gone
        cases gone
    simp only [outstanding, same, true_and]
    cases pc : (s.inst j).pc <;> simp [Pc.pending]
    exact absurd pc elsewhere
  · simp [outstanding, same]

theorem deadlockFree_of_few (few : n < qbytes / textSize) : DeadlockFree key qbytes n := by
  rintro s ⟨s₀, acts, starts, ran⟩
  obtain ⟨frame, content⟩ := inv_of_run starts ran
  have ended := ended_of_run starts ran
  by_contra dead
  rw [not_or] at dead
  obtain ⟨some_alive, none_moves⟩ := dead
  have stuck : ∀ i, step key qbytes s ⟨i, true⟩ = none := by
    intro i
    cases moved : step key qbytes s ⟨i, true⟩ with
    | none => rfl
    | some t => exact absurd ⟨i, t, moved⟩ none_moves
  obtain ⟨i, alive⟩ := not_forall.mp some_alive
  obtain ⟨id, q, waiting⟩ :=
    waiting_of_stuck frame content ended (not_not.mp alive) (stuck i)
  have length := length_le_of_stuck frame content ended stuck waiting
  have new := (frame.held i id waiting.msgid).1
  have bytes := q.bytes_of_length textSize fun m member =>
    (content.carried id q new waiting.there m member).size
  -- one more message would fit
  apply waiting.full
  rw [bytes]
  simp only [textSize] at few ⊢
  omega

end Stuck

/-! ### The way into a deadlock

All instances destroy their first queue before one of them creates the second, which they
then share. Each fills one place of it. -/

section Way

variable [DecidableEq κ] {key : κ} {qbytes : Nat} {s : State κ n} {j : Nat}

theorem Reaches.call (h : (msgtest key qbytes n).Reachable s) {i : Fin n} {S' : Queues κ}
    {p' : Instance} (alive : (s.inst i).ended = none)
    (called : call key qbytes s.queues (s.inst i) true = some (S', p')) :
    (msgtest key qbytes n).Reachable ⟨S', Function.update s.inst i p'⟩ := by
  refine h.step (a := ⟨i, true⟩) ?_
  simp [msgtest, step, alive, called]

/-- The first `j` instances have destroyed their first queues. -/
structure Destroyed (key : κ) (qbytes : Nat) (s : State κ n) (j : Nat) : Prop where
  reachable : (msgtest key qbytes n).Reachable s
  alive : ∀ i, (s.inst i).ended = none
  unbound : s.queues.keys key = none
  before : ∀ i : Fin n, i < j → (s.inst i).pc = .recreate
  after : ∀ i : Fin n, j ≤ i → (s.inst i).pc = .create

/-- The first `j` instances share the second queue, and of these the first `k` have sent
message 1. -/
structure Shared (key : κ) (qbytes : Nat) (s : State κ n) (j k id : Nat) (q : Queue) : Prop where
  reachable : (msgtest key qbytes n).Reachable s
  alive : ∀ i, (s.inst i).ended = none
  bound : s.queues.keys key = some id
  there : s.queues.queue id = some q
  length : q.length = k
  bytes : q.bytes = textSize * k
  sent : ∀ i : Fin n, i < k → (s.inst i).pc = .send2
  joined : ∀ i : Fin n, k ≤ i → i < j → (s.inst i).pc = .send1
  msgid : ∀ i : Fin n, i < j → (s.inst i).msgid = some id
  after : ∀ i : Fin n, j ≤ i → (s.inst i).pc = .recreate

theorem destroyed_zero (key : κ) (qbytes n : Nat) : Destroyed key qbytes (State.start κ n) 0 where
  reachable := System.reachable_init _ _ (start_starts κ n)
  alive := fun _ => rfl
  unbound := rfl
  before := fun _ h => absurd h (Nat.not_lt_zero _)
  after := fun _ _ => rfl

theorem Destroyed.next (h : Destroyed key qbytes s j) (hj : j < n) :
    ∃ t : State κ n, Destroyed key qbytes t (j + 1) := by
  have pc := h.after ⟨j, hj⟩ (Nat.le_refl j)
  have created : call key qbytes s.queues (s.inst ⟨j, hj⟩) true = some (s.queues.create key,
      { s.inst ⟨j, hj⟩ with pc := .createAgain, msgid := some s.queues.next }) := by
    simp [call, pc, Queues.msggetExcl, h.unbound]
  have first := Reaches.call h.reachable (h.alive _) created
  have refused : call key qbytes (s.queues.create key)
      { s.inst ⟨j, hj⟩ with pc := .createAgain, msgid := some s.queues.next } true =
      some (s.queues.create key,
        { s.inst ⟨j, hj⟩ with pc := .destroy, msgid := some s.queues.next }) := by
    simp [call, Queues.msggetExcl, Queues.create]
  have second := Reaches.call (i := ⟨j, hj⟩) first
    (by simpa using h.alive ⟨j, hj⟩) (by simpa using refused)
  have removed : call key qbytes (s.queues.create key)
      { s.inst ⟨j, hj⟩ with pc := .destroy, msgid := some s.queues.next } true =
      some ((s.queues.create key).without s.queues.next,
        { (s.inst ⟨j, hj⟩).print (.createdAndDestroyed s.queues.next) with
          pc := .recreate, msgid := some s.queues.next }) := by
    simp [call, Queues.rmid, Queues.create, Instance.print]
  have third := Reaches.call (i := ⟨j, hj⟩) second
    (by simpa using h.alive ⟨j, hj⟩) (by simpa using removed)
  simp only [Function.update_idem] at third
  refine ⟨_, third, ?_, ?_, ?_, ?_⟩
  · intro i
    by_cases e : i = ⟨j, hj⟩
    · subst e
      simpa [Instance.print] using h.alive ⟨j, hj⟩
    · simpa [Function.update_of_ne e] using h.alive i
  · simp [Queues.without, Queues.create]
  · intro i less
    by_cases e : i = ⟨j, hj⟩
    · simp [e]
    · simp only [Function.update_of_ne e]
      have : (i : Nat) ≠ j := fun same => e (Fin.ext same)
      exact h.before i (by omega)
  · intro i more
    have e : i ≠ ⟨j, hj⟩ := by
      rintro rfl
      simp at more
    simp only [Function.update_of_ne e]
    exact h.after i (by omega)

theorem destroyed_all (key : κ) (qbytes n : Nat) : ∃ s : State κ n, Destroyed key qbytes s n := by
  have upTo : ∀ j, j ≤ n → ∃ s : State κ n, Destroyed key qbytes s j := by
    intro j
    induction j with
    | zero => exact fun _ => ⟨_, destroyed_zero key qbytes n⟩
    | succ j ih =>
      intro le
      obtain ⟨s, h⟩ := ih (by omega)
      exact h.next (by omega)
  exact upTo n (Nat.le_refl n)

theorem Destroyed.create (h : Destroyed key qbytes s n) (pos : 0 < n) :
    ∃ (t : State κ n) (id : Nat), Shared key qbytes t 1 0 id [] := by
  have pc := h.before ⟨0, pos⟩ pos
  have called : call key qbytes s.queues (s.inst ⟨0, pos⟩) true = some (s.queues.create key,
      { (s.inst ⟨0, pos⟩).print (.recreated s.queues.next) with
        pc := .send1, msgid := some s.queues.next }) := by
    simp [call, pc, Queues.msgget, h.unbound]
  have only (i : Fin n) (less : (i : Nat) < 1) : i = ⟨0, pos⟩ := Fin.ext (by simpa using less)
  refine ⟨_, s.queues.next, Reaches.call h.reachable (h.alive _) called, ?_, ?_, ?_, rfl, rfl,
    fun _ less => absurd less (Nat.not_lt_zero _), ?_, ?_, ?_⟩
  · intro i
    by_cases e : i = ⟨0, pos⟩
    · subst e
      simpa [Instance.print] using h.alive ⟨0, pos⟩
    · simpa [Function.update_of_ne e] using h.alive i
  · simp [Queues.create]
  · simp [Queues.create]
  · intro i _ less
    simp [only i less]
  · intro i less
    simp [only i less]
  · intro i more
    have e : i ≠ ⟨0, pos⟩ := by
      rintro rfl
      simp at more
    simp only [Function.update_of_ne e]
    exact h.before i i.isLt

theorem Shared.join {id : Nat} (h : Shared key qbytes s j 0 id []) (hj : j < n) :
    ∃ t : State κ n, Shared key qbytes t (j + 1) 0 id [] := by
  have pc := h.after ⟨j, hj⟩ (Nat.le_refl j)
  have called : call key qbytes s.queues (s.inst ⟨j, hj⟩) true = some (s.queues,
      { (s.inst ⟨j, hj⟩).print (.recreated id) with pc := .send1, msgid := some id }) := by
    simp [call, pc, Queues.msgget, h.bound]
  have cases_on (i : Fin n) (less : (i : Nat) < j + 1) : i = ⟨j, hj⟩ ∨ i < j ∧ i ≠ ⟨j, hj⟩ := by
    by_cases e : i = ⟨j, hj⟩
    · exact .inl e
    · exact .inr ⟨by have : (i : Nat) ≠ j := fun same => e (Fin.ext same)
                     omega, e⟩
  refine ⟨_, Reaches.call h.reachable (h.alive _) called, ?_, h.bound, h.there, rfl, rfl,
    fun _ less => absurd less (Nat.not_lt_zero _), ?_, ?_, ?_⟩
  · intro i
    by_cases e : i = ⟨j, hj⟩
    · subst e
      simpa [Instance.print] using h.alive ⟨j, hj⟩
    · simpa [Function.update_of_ne e] using h.alive i
  · intro i zero less
    rcases cases_on i less with rfl | ⟨old, e⟩
    · simp
    · simpa [Function.update_of_ne e] using h.joined i zero old
  · intro i less
    rcases cases_on i less with rfl | ⟨old, e⟩
    · simp
    · simpa [Function.update_of_ne e] using h.msgid i old
  · intro i more
    have e : i ≠ ⟨j, hj⟩ := by
      rintro rfl
      simp at more
    simp only [Function.update_of_ne e]
    exact h.after i (by omega)

theorem shared_all (key : κ) (qbytes : Nat) (pos : 0 < n) :
    ∃ (s : State κ n) (id : Nat), Shared key qbytes s n 0 id [] := by
  obtain ⟨s, destroyed⟩ := destroyed_all key qbytes n
  obtain ⟨s, id, one⟩ := destroyed.create pos
  have upTo : ∀ j, 1 ≤ j → j ≤ n → ∃ s : State κ n, Shared key qbytes s j 0 id [] := by
    intro j least
    induction j, least using Nat.le_induction with
    | base => exact fun _ => ⟨s, one⟩
    | succ j _ ih =>
      intro le
      obtain ⟨s, h⟩ := ih (by omega)
      exact h.join (by omega)
  obtain ⟨s, h⟩ := upTo n pos (Nat.le_refl n)
  exact ⟨s, id, h⟩

theorem Shared.send {k id : Nat} {q : Queue} (h : Shared key qbytes s n k id q) (hk : k < n)
    (room : k < qbytes / textSize) :
    ∃ (t : State κ n) (q' : Queue), Shared key qbytes t n (k + 1) id q' := by
  have pc := h.joined ⟨k, hk⟩ (Nat.le_refl k) hk
  have fits : q.bytes + textSize ≤ qbytes ∧ q.length + 1 ≤ qbytes := by
    rw [h.bytes, h.length]
    simp only [textSize] at room ⊢
    omega
  have called : call key qbytes s.queues (s.inst ⟨k, hk⟩) true =
      some (s.queues.modify id fun q => q ++ [⟨1, ((s.inst ⟨k, hk⟩).prepare 1).text.bytes⟩],
        { ((s.inst ⟨k, hk⟩).prepare 1).print (.sent 1 ((s.inst ⟨k, hk⟩).prepare 1).text.text) with
          pc := .send2 }) := by
    simp only [call, pc, h.msgid ⟨k, hk⟩ hk, Msgtest.send, Queues.msgsnd, h.there, if_true,
      Buffer.length_eq, if_pos fits]
  refine ⟨_, q ++ [⟨1, ((s.inst ⟨k, hk⟩).prepare 1).text.bytes⟩],
    Reaches.call h.reachable (h.alive _) called, ?_, h.bound, ?_, ?_, ?_, ?_, ?_, ?_, ?_⟩
  · intro i
    by_cases e : i = ⟨k, hk⟩
    · subst e
      simpa [Instance.print, Instance.prepare] using h.alive ⟨k, hk⟩
    · simpa [Function.update_of_ne e] using h.alive i
  · simp [Queues.modify, h.there]
  · simp [h.length]
  · have size := ((s.inst ⟨k, hk⟩).prepare 1).text.length_eq
    have before := h.bytes
    simp only [Queue.bytes] at before
    simp only [Queue.bytes, List.map_append, List.sum_append, before, List.map_singleton,
      List.sum_singleton, size]
    rfl
  · intro i less
    by_cases e : i = ⟨k, hk⟩
    · simp [e]
    · simp only [Function.update_of_ne e]
      have : (i : Nat) ≠ k := fun same => e (Fin.ext same)
      exact h.sent i (by omega)
  · intro i more less
    have e : i ≠ ⟨k, hk⟩ := by
      rintro rfl
      simp at more
    simp only [Function.update_of_ne e]
    exact h.joined i (by omega) less
  · intro i less
    by_cases e : i = ⟨k, hk⟩
    · subst e
      simpa [Instance.print, Instance.prepare] using h.msgid ⟨k, hk⟩ hk
    · simpa [Function.update_of_ne e] using h.msgid i less
  · exact fun i more => absurd i.isLt (by omega)

/-- With the queue full, every instance waits. -/
theorem Shared.stuck {id : Nat} {q : Queue}
    (h : Shared key qbytes s n (qbytes / textSize) id q) (i : Fin n) :
    step key qbytes s ⟨i, true⟩ = none := by
  have full : ¬(q.bytes + textSize ≤ qbytes ∧ q.length + 1 ≤ qbytes) := by
    rw [h.bytes]
    simp only [textSize]
    omega
  have waits (k : Nat) (next : Pc) : Msgtest.send qbytes k next s.queues (s.inst i) id true = none := by
    simp only [Msgtest.send, Queues.msgsnd, h.there, if_true, Buffer.length_eq, if_neg full]
  have quiet : call key qbytes s.queues (s.inst i) true = none := by
    by_cases less : (i : Nat) < qbytes / textSize
    · simp only [call, h.sent i less, h.msgid i i.isLt, waits]
    · simp only [call, h.joined i (by omega) i.isLt, h.msgid i i.isLt, waits]
  simp [step, h.alive i, quiet]

theorem deadlock_of_many (pos : 0 < n) (many : qbytes / textSize ≤ n) :
    ¬DeadlockFree key qbytes n := by
  intro free
  have upTo : ∀ k, k ≤ qbytes / textSize → ∃ (s : State κ n) (id : Nat) (q : Queue),
      Shared key qbytes s n k id q := by
    intro k
    induction k with
    | zero =>
      intro _
      obtain ⟨s, id, h⟩ := shared_all key qbytes pos
      exact ⟨s, id, [], h⟩
    | succ k ih =>
      intro le
      obtain ⟨s, id, q, h⟩ := ih (by omega)
      obtain ⟨t, q', next⟩ := h.send (by omega) (by omega)
      exact ⟨t, id, q', next⟩
  obtain ⟨s, id, q, h⟩ := upTo _ (Nat.le_refl _)
  rcases free s h.reachable with ended | ⟨i, t, moved⟩
  · exact ended ⟨0, pos⟩ (h.alive _)
  · rw [h.stuck i] at moved
    cases moved

end Way

/-- **Deadlock**: any number of instances that is smaller than the number of messages a queue
can hold always gets on; as many as that can get stuck. -/
theorem deadlockFree_iff [DecidableEq κ] (key : κ) (qbytes n : Nat) :
    DeadlockFree key qbytes n ↔ n = 0 ∨ n < qbytes / textSize := by
  constructor
  · intro free
    by_contra not_few
    exact deadlock_of_many (by omega) (by omega) free
  · rintro (rfl | few)
    · exact fun s _ => .inl fun i => i.elim0
    · exact deadlockFree_of_few few

end GenericTests.Msgtest
