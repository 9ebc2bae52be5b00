import GenericTests.Msgtest.Model
import Mathlib.Algebra.Order.BigOperators.Group.Finset

/-!
# msgtest.c: what the instances leave and what they receive

The instances may share a queue: between the destruction of its first queue and the second
`msgget` of one instance, another one can create it. The invariant counts, for each queue
that came to be during the run, the messages its holders have sent and not yet taken back.
-/
namespace GenericTests.Msgtest

open GenericTests.CString GenericTests.MessageQueue GenericTests.Transition

variable {κ : Type} {n : Nat}

/-! ### What a step does -/

section Steps

variable [DecidableEq κ]

/-- What a line shows of a message. -/
def Line.shown : Line → Option (Nat × List Byte)
  | .sent k text | .received k text => some (k, text)
  | _ => none

/-- At `pc`, a message of type `k` is sent. -/
inductive Sends : Pc → Nat → Pc → Prop
  | first : Sends .send1 1 .send2
  | second : Sends .send2 2 .receive2

inductive Receives : Pc → Nat → Pc → Prop
  | second : Receives .receive2 2 .receive1
  | first : Receives .receive1 1 .cleanup

def Pc.receives : Pc → Bool
  | .receive2 | .receive1 => true
  | _ => false

/-- All that one call can do to the queues and to the instance that makes it. -/
inductive Effect (key : κ) (qbytes : Nat) (S : Queues κ) (p : Instance) :
    Queues κ → Instance → Prop
  | fail (p' : Instance) (line : Line) (pc : p'.pc = p.pc) (msgid : p'.msgid = p.msgid)
      (newmsgid : p'.newmsgid = p.newmsgid) (ended : p'.ended = some 1)
      (out : p'.out = p.out ++ [line]) (error : line.shown = none)
      (lost : p.pc.receives = true → ∀ id q, p.msgid = some id → S.queue id = some q →
        ∃ m ∈ q, textSize < m.mtext.length) : Effect key qbytes S p S p'
  | create (pc : p.pc = .create) (unbound : S.keys key = none) :
      Effect key qbytes S p (S.create key) { p with pc := .createAgain, msgid := some S.next }
  | didNotFail (pc : p.pc = .createAgain) (unbound : S.keys key = none) :
      Effect key qbytes S p (S.create key)
        { p.fail .msggetDidNotFail with newmsgid := some S.next }
  | refused (pc : p.pc = .createAgain) : Effect key qbytes S p S { p with pc := .destroy }
  | destroy (id : Nat) (pc : p.pc = .destroy) (msgid : p.msgid = some id)
      (there : (S.queue id).isSome = true) :
      Effect key qbytes S p (S.without id)
        { p.print (.createdAndDestroyed id) with pc := .recreate }
  | recreate (pc : p.pc = .recreate) (unbound : S.keys key = none) :
      Effect key qbytes S p (S.create key)
        { p.print (.recreated S.next) with pc := .send1, msgid := some S.next }
  | join (id : Nat) (pc : p.pc = .recreate) (bound : S.keys key = some id) :
      Effect key qbytes S p S { p.print (.recreated id) with pc := .send1, msgid := some id }
  | send (id k : Nat) (q : Queue) (next : Pc) (stage : Sends p.pc k next)
      (msgid : p.msgid = some id) (there : S.queue id = some q)
      (fits : q.bytes + textSize ≤ qbytes) :
      Effect key qbytes S p
        (S.modify id fun q => q ++ [⟨k, (p.prepare k).text.bytes⟩])
        { (p.prepare k).print (.sent k (p.prepare k).text.text) with pc := next }
  | receive (id k : Nat) (q : Queue) (m : Message) (next : Pc) (stage : Receives p.pc k next)
      (msgid : p.msgid = some id) (there : S.queue id = some q)
      (found : q.find? (Message.ofType k) = some m) :
      Effect key qbytes S p (S.modify id fun q => q.eraseP (Message.ofType k))
        { p.print (.received k (cstr ((p.received.write m.mtext).bytes.take m.mtext.length))) with
          received := p.received.write m.mtext
          pc := next }
  | cleanup (id : Nat) (pc : p.pc = .cleanup) (msgid : p.msgid = some id)
      (there : (S.queue id).isSome = true) :
      Effect key qbytes S p (S.without id) { p with pc := .done, ended := some 0 }

variable {key : κ} {qbytes : Nat} {S S' : Queues κ} {p p' : Instance}

theorem Sends.receives {pc next : Pc} {k : Nat} (stage : Sends pc k next) : pc.receives = false := by
  cases stage <;> rfl

theorem send_cases {k : Nat} {next : Pc} {id : Nat} {room : Bool} (stage : Sends p.pc k next)
    (msgid : p.msgid = some id) (h : send qbytes k next S p id room = some (S', p')) :
    Effect key qbytes S p S' p' := by
  have sends := stage.receives
  simp only [send, Queues.msgsnd] at h
  cases there : S.queue id with
  | none =>
    simp only [there] at h
    cases h
    exact .fail _ _ rfl rfl rfl rfl rfl rfl (by simp [sends])
  | some q =>
    simp only [there] at h
    cases room with
    | false =>
      cases h
      exact .fail _ _ rfl rfl rfl rfl rfl rfl (by simp [sends])
    | true =>
      simp only [if_true] at h
      split at h
      next S'' returned =>
        split at returned
        next fits =>
          cases returned
          cases h
          rw [Buffer.length_eq] at fits
          exact .send id k q next stage msgid there fits.1
        next => cases returned
      next failed => split at failed <;> cases failed
      next => cases h

theorem receive_cases {k : Nat} {next : Pc} {id : Nat} (stage : Receives p.pc k next)
    (msgid : p.msgid = some id) (h : receive k next S p id = some (S', p')) :
    Effect key qbytes S p S' p' := by
  simp only [receive, Queues.msgrcv] at h
  cases there : S.queue id with
  | none =>
    simp only [there] at h
    cases h
    refine .fail _ _ rfl rfl rfl rfl rfl rfl fun _ id' q same found => ?_
    cases Option.some.inj (msgid.symm.trans same)
    rw [there] at found
    cases found
  | some q =>
    simp only [there] at h
    cases found : q.find? (Message.ofType k) with
    | none =>
      simp only [found] at h
      cases h
    | some m =>
      simp only [found] at h
      by_cases short : m.mtext.length ≤ textSize
      · simp only [if_pos short] at h
        cases h
        exact .receive id k q m next stage msgid there found
      · simp only [if_neg short] at h
        cases h
        refine .fail _ _ rfl rfl rfl rfl rfl rfl fun _ id' q' same found' => ?_
        cases Option.some.inj (msgid.symm.trans same)
        cases Option.some.inj (there.symm.trans found')
        exact ⟨m, List.mem_of_find?_eq_some found, by omega⟩

theorem call_cases {room : Bool} (h : call key qbytes S p room = some (S', p')) :
    Effect key qbytes S p S' p' := by
  rw [call] at h
  split at h
  next pc =>
    split at h
    next S'' id got =>
      obtain ⟨unbound, rfl, rfl⟩ := Queues.msggetExcl_eq_some got
      cases h
      exact .create pc unbound
    next =>
      cases h
      exact .fail _ _ rfl rfl rfl rfl rfl rfl (by simp [pc, Pc.receives])
  next pc =>
    split at h
    next S'' id got =>
      obtain ⟨unbound, rfl, rfl⟩ := Queues.msggetExcl_eq_some got
      cases h
      exact .didNotFail pc unbound
    next =>
      cases h
      exact .refused pc
  next id pc msgid =>
    split at h
    next S'' removed =>
      obtain ⟨there, rfl⟩ := Queues.rmid_eq_some removed
      cases h
      exact .destroy id pc msgid there
    next =>
      cases h
      exact .fail _ _ rfl rfl rfl rfl rfl rfl (by simp [pc, Pc.receives])
  next pc =>
    split at h
    next S'' id got =>
      cases h
      obtain ⟨unbound, rfl, rfl⟩ | ⟨bound, rfl⟩ := Queues.msgget_eq_some got
      · exact .recreate pc unbound
      · exact .join id pc bound
    next =>
      cases h
      exact .fail _ _ rfl rfl rfl rfl rfl rfl (by simp [pc, Pc.receives])
  next id pc msgid => exact send_cases (pc ▸ .first) msgid h
  next id pc msgid => exact send_cases (pc ▸ .second) msgid h
  next id pc msgid => exact receive_cases (pc ▸ .second) msgid h
  next id pc msgid => exact receive_cases (pc ▸ .first) msgid h
  next id pc msgid =>
    split at h
    next S'' removed =>
      obtain ⟨there, rfl⟩ := Queues.rmid_eq_some removed
      cases h
      exact .cleanup id pc msgid there
    next =>
      cases h
      exact .fail _ _ rfl rfl rfl rfl rfl rfl (by simp [pc, Pc.receives])
  next => cases h
  next => cases h

theorem step_cases {s t : State κ n} {a : Act n} (h : step key qbytes s a = some t) :
    (s.inst a.i).ended = none ∧ ∃ S' p', Effect key qbytes s.queues (s.inst a.i) S' p' ∧
      t = ⟨S', Function.update s.inst a.i p'⟩ := by
  rw [step] at h
  split at h
  · cases h
  next alive =>
    obtain ⟨⟨S', p'⟩, called, rfl⟩ := Option.map_eq_some_iff.mp h
    exact ⟨by simpa using alive, S', p', call_cases called, rfl⟩

end Steps

/-! ### Whose queue it is -/

/-- The instance works with the queue that it got last. -/
def Pc.holds : Pc → Bool
  | .create | .recreate | .done => false
  | .createAgain | .destroy | .send1 | .send2 | .receive2 | .receive1 | .cleanup => true

theorem Sends.holds {pc next : Pc} {k : Nat} (stage : Sends pc k next) :
    pc ≠ .create ∧ next.holds = true := by
  cases stage <;> exact ⟨nofun, rfl⟩

theorem Receives.holds {pc next : Pc} {k : Nat} (stage : Receives pc k next) :
    pc ≠ .create ∧ next.holds = true := by
  cases stage <;> exact ⟨nofun, rfl⟩

/-- The table of queues, compared with the one before the run. -/
structure Frame (key : κ) (S₀ : Queues κ) (s : State κ n) : Prop where
  grown : S₀.next ≤ s.queues.next
  others : ∀ k, k ≠ key → s.queues.keys k = S₀.keys k
  old : ∀ id, id < S₀.next → s.queues.queue id = S₀.queue id
  held : ∀ i id, (s.inst i).msgid = some id → S₀.next ≤ id ∧ id < s.queues.next
  started : ∀ i, (s.inst i).pc ≠ .create → (s.inst i).msgid.isSome = true
  /-- a queue that had the key before keeps every instance from its first step -/
  taken : ∀ id, S₀.keys key = some id →
    s.queues.keys key = some id ∧ ∀ i, (s.inst i).pc = .create
  bound : ∀ id, s.queues.keys key = some id → S₀.keys key = some id ∨ S₀.next ≤ id
  keyed : ∀ id, S₀.next ≤ id → (s.queues.queue id).isSome = true → s.queues.keys key = some id
  owned : ∀ id, S₀.next ≤ id → (s.queues.queue id).isSome = true → ∃ i,
    ((s.inst i).msgid = some id ∧ (s.inst i).pc.holds = true) ∨ (s.inst i).newmsgid = some id
  extra : ∀ i, (s.inst i).newmsgid ≠ none →
    (s.inst i).pc = .createAgain ∧ (s.inst i).ended = some 1

theorem frame_init (key : κ) (s : State κ n) (starts : ∀ i, (s.inst i).Starts) :
    Frame key s.queues s where
  grown := Nat.le_refl _
  others := fun _ _ => rfl
  old := fun _ _ => rfl
  held := fun i id h => by rw [(starts i).2.2.1] at h; cases h
  started := fun i h => absurd (starts i).1 h
  taken := fun id h => ⟨h, fun i => (starts i).1⟩
  bound := fun id h => .inl h
  keyed := fun id new there => by rw [s.queues.fresh id new] at there; cases there
  owned := fun id new there => by rw [s.queues.fresh id new] at there; cases there
  extra := fun i h => absurd (starts i).2.2.2.1 h

section Frame

variable {key : κ} {S₀ : Queues κ} {s : State κ n}

/-- An instance behind its first call shows that the key was free. -/
theorem Frame.free (h : Frame key S₀ s) {i : Fin n} (pc : (s.inst i).pc ≠ .create) :
    S₀.keys key = none := by
  cases before : S₀.keys key with
  | none => rfl
  | some id => exact absurd ((h.taken id before).2 i) pc

theorem Frame.no_extra (h : Frame key S₀ s) {i : Fin n} (alive : (s.inst i).ended = none) :
    (s.inst i).newmsgid = none := by
  by_contra there
  rw [(h.extra i there).2] at alive
  cases alive

/-- No queue comes or goes. -/
theorem Frame.keep (h : Frame key S₀ s) (j : Fin n) (S' : Queues κ) (p' : Instance)
    (keys : S'.keys = s.queues.keys) (next : S'.next = s.queues.next)
    (queues : ∀ id, (S'.queue id).isSome = (s.queues.queue id).isSome)
    (old : ∀ id, id < S₀.next → S'.queue id = s.queues.queue id)
    (held : ∀ id, p'.msgid = some id → S₀.next ≤ id ∧ id < s.queues.next)
    (started : p'.pc ≠ .create → p'.msgid.isSome = true)
    (early : p'.pc = .create ∨ S₀.keys key = none)
    (owns : ∀ id, (s.inst j).msgid = some id → (s.inst j).pc.holds = true →
      p'.msgid = some id ∧ p'.pc.holds = true)
    (newmsgid : p'.newmsgid = (s.inst j).newmsgid)
    (extra : p'.newmsgid ≠ none → p'.pc = .createAgain ∧ p'.ended = some 1) :
    Frame key S₀ ⟨S', Function.update s.inst j p'⟩ where
  grown := by rw [next]; exact h.grown
  others := by rw [keys]; exact h.others
  old := fun id before => (old id before).trans (h.old id before)
  held := by
    rw [next]
    exact (Function.forall_update_iff s.inst (p := fun _ (p : Instance) => ∀ id, p.msgid = some id →
      S₀.next ≤ id ∧ id < s.queues.next)).mpr ⟨held, fun i _ => h.held i⟩
  started := (Function.forall_update_iff s.inst (p := fun _ (p : Instance) => p.pc ≠ .create →
      p.msgid.isSome = true)).mpr ⟨started, fun i _ => h.started i⟩
  taken := by
    intro id before
    rw [keys]
    refine ⟨(h.taken id before).1, ?_⟩
    refine (Function.forall_update_iff s.inst (p := fun _ (p : Instance) => p.pc = .create)).mpr
      ⟨?_, fun i _ => (h.taken id before).2 i⟩
    rcases early with pc | free
    · exact pc
    · rw [free] at before
      cases before
  bound := by rw [keys]; exact h.bound
  keyed := fun id new there => by rw [keys]; exact h.keyed id new (queues id ▸ there)
  owned := by
    intro id new there
    obtain ⟨i, owner⟩ := h.owned id new (queues id ▸ there)
    refine ⟨i, ?_⟩
    by_cases same : i = j
    · subst same
      simp only [Function.update_self, newmsgid]
      exact owner.imp (fun held => owns id held.1 held.2) fun found => found
    · simp only [Function.update_of_ne same]
      exact owner
  extra := (Function.forall_update_iff s.inst (p := fun _ (p : Instance) => p.newmsgid ≠ none →
      p.pc = .createAgain ∧ p.ended = some 1)).mpr ⟨extra, fun i _ => h.extra i⟩

/-- A new queue; the instance keeps its identifier, in one variable or the other. -/
theorem Frame.created [DecidableEq κ] (h : Frame key S₀ s) (j : Fin n) (p' : Instance)
    (unbound : s.queues.keys key = none)
    (obtained : p'.msgid = some s.queues.next ∧ p'.pc.holds = true ∨
      p'.newmsgid = some s.queues.next)
    (held : ∀ id, p'.msgid = some id → S₀.next ≤ id ∧ id ≤ s.queues.next)
    (started : p'.msgid.isSome = true)
    (extra : p'.newmsgid ≠ none → p'.pc = .createAgain ∧ p'.ended = some 1) :
    Frame key S₀ ⟨s.queues.create key, Function.update s.inst j p'⟩ := by
  have free : S₀.keys key = none := by
    cases before : S₀.keys key with
    | none => rfl
    | some id =>
      rw [(h.taken id before).1] at unbound
      cases unbound
  -- a queue of this run has the key, so there was none
  have only : ∀ id, S₀.next ≤ id → ((s.queues.create key).queue id).isSome = true →
      id = s.queues.next := by
    intro id new there
    by_contra other
    simp only [Queues.create, Function.update_of_ne other] at there
    rw [h.keyed id new there] at unbound
    cases unbound
  constructor
  · exact Nat.le_succ_of_le h.grown
  · intro k other
    exact (Function.update_of_ne other _ _).trans (h.others k other)
  · intro id before
    have ne : id ≠ s.queues.next := fun e => by have := h.grown; omega
    exact (Function.update_of_ne ne _ _).trans (h.old id before)
  · refine (Function.forall_update_iff s.inst (p := fun _ (p : Instance) => ∀ id, p.msgid = some id →
      S₀.next ≤ id ∧ id < s.queues.next + 1)).mpr ⟨?_, fun i _ id found => ?_⟩
    · exact fun id found => ⟨(held id found).1, Nat.lt_succ_of_le (held id found).2⟩
    · exact ⟨(h.held i id found).1, Nat.lt_succ_of_lt (h.held i id found).2⟩
  · exact (Function.forall_update_iff s.inst (p := fun _ (p : Instance) => p.pc ≠ .create →
      p.msgid.isSome = true)).mpr ⟨fun _ => started, fun i _ => h.started i⟩
  · intro id before
    rw [free] at before
    cases before
  · intro id found
    simp only [Queues.create, Function.update_self, Option.some.injEq] at found
    exact .inr (found ▸ h.grown)
  · intro id new there
    rw [only id new there]
    exact Function.update_self _ _ _
  · intro id new there
    rw [only id new there]
    exact ⟨j, by simp only [Function.update_self]; exact obtained⟩
  · exact (Function.forall_update_iff s.inst (p := fun _ (p : Instance) => p.newmsgid ≠ none →
      p.pc = .createAgain ∧ p.ended = some 1)).mpr ⟨extra, fun i _ => h.extra i⟩

/-- An instance destroys the queue it works with. -/
theorem Frame.removed (h : Frame key S₀ s) (j : Fin n) (p' : Instance) (id : Nat)
    (msgid : (s.inst j).msgid = some id) (pc : (s.inst j).pc ≠ .create)
    (there : (s.queues.queue id).isSome = true) (same : p'.msgid = some id)
    (newmsgid : p'.newmsgid = none) :
    Frame key S₀ ⟨s.queues.without id, Function.update s.inst j p'⟩ := by
  have free := h.free pc
  have new := (h.held j id msgid).1
  have bound := h.keyed id new there
  -- it was the only queue of this run
  have gone : ∀ id', S₀.next ≤ id' → ((s.queues.without id).queue id').isSome = false := by
    intro id' new'
    by_cases e : id' = id
    · subst e
      simp [Queues.without]
    · cases left : s.queues.queue id' with
      | none => simp [Queues.without, Function.update_of_ne e, left]
      | some q =>
        have also := h.keyed id' new' (by rw [left]; rfl)
        rw [bound] at also
        exact absurd (Option.some.inj also).symm e
  constructor
  · exact h.grown
  · intro k other
    have still : s.queues.keys k ≠ some id := by
      rw [h.others k other]
      intro before
      have := S₀.live k id before
      rw [S₀.fresh id new] at this
      cases this
    simp only [Queues.without, if_neg still]
    exact h.others k other
  · intro id' before
    exact (Function.update_of_ne (by omega) _ _).trans (h.old id' before)
  · refine (Function.forall_update_iff s.inst (p := fun _ (p : Instance) => ∀ id, p.msgid = some id →
      S₀.next ≤ id ∧ id < s.queues.next)).mpr ⟨fun id' found => ?_, fun i _ => h.held i⟩
    exact h.held j id' (msgid.trans (same.symm.trans found))
  · exact (Function.forall_update_iff s.inst (p := fun _ (p : Instance) => p.pc ≠ .create →
      p.msgid.isSome = true)).mpr ⟨fun _ => by rw [same]; rfl, fun i _ => h.started i⟩
  · intro id' before
    rw [free] at before
    cases before
  · intro id' found
    simp [Queues.without, bound] at found
  · intro id' new' left
    rw [gone id' new'] at left
    cases left
  · intro id' new' left
    rw [gone id' new'] at left
    cases left
  · exact (Function.forall_update_iff s.inst (p := fun _ (p : Instance) => p.newmsgid ≠ none →
      p.pc = .createAgain ∧ p.ended = some 1)).mpr
        ⟨fun there => absurd newmsgid there, fun i _ => h.extra i⟩

/-- A call that leaves the table as it is. -/
theorem Frame.move (h : Frame key S₀ s) (j : Fin n) (p' : Instance)
    (alive : (s.inst j).ended = none) (pc : (s.inst j).pc ≠ .create)
    (held : ∀ id, p'.msgid = some id → S₀.next ≤ id ∧ id < s.queues.next)
    (started : p'.msgid.isSome = true)
    (owns : ∀ id, (s.inst j).msgid = some id → (s.inst j).pc.holds = true →
      p'.msgid = some id ∧ p'.pc.holds = true)
    (newmsgid : p'.newmsgid = (s.inst j).newmsgid) :
    Frame key S₀ ⟨s.queues, Function.update s.inst j p'⟩ :=
  h.keep j s.queues p' rfl rfl (fun _ => rfl) (fun _ _ => rfl) held (fun _ => started)
    (.inr (h.free pc)) owns newmsgid fun there =>
      absurd (newmsgid.trans (h.no_extra alive)) there

/-- A message comes or goes. -/
theorem Frame.exchange (h : Frame key S₀ s) (j : Fin n) (p' : Instance) (id : Nat)
    (f : Queue → Queue) (alive : (s.inst j).ended = none) (pc : (s.inst j).pc ≠ .create)
    (msgid : (s.inst j).msgid = some id) (same : p'.msgid = some id)
    (holds : p'.pc.holds = true) (newmsgid : p'.newmsgid = (s.inst j).newmsgid) :
    Frame key S₀ ⟨s.queues.modify id f, Function.update s.inst j p'⟩ := by
  have new := (h.held j id msgid).1
  refine h.keep j (s.queues.modify id f) p' rfl rfl ?_ ?_ ?_ ?_ (.inr (h.free pc)) ?_ newmsgid ?_
  · intro id'
    by_cases e : id' = id
    · subst e
      simp [Queues.modify]
    · simp [Queues.modify, Function.update_of_ne e]
  · intro id' before
    exact Function.update_of_ne (by omega) _ _
  · intro id' found
    exact h.held j id' (msgid.trans (same.symm.trans found))
  · exact fun _ => by rw [same]; rfl
  · intro id' found _
    exact ⟨same.trans (msgid.symm.trans found), holds⟩
  · exact fun there => absurd (newmsgid.trans (h.no_extra alive)) there

theorem frame_step [DecidableEq κ] {qbytes : Nat} {t : State κ n} {a : Act n}
    (h : Frame key S₀ s) (moved : step key qbytes s a = some t) : Frame key S₀ t := by
  obtain ⟨alive, S', p', effect, rfl⟩ := step_cases moved
  have started := h.started a.i
  have held := h.held a.i
  have none_yet := h.no_extra alive
  have last := h.grown
  cases effect with
  | fail _ line pc msgid newmsgid ended out error lost =>
    refine h.keep a.i s.queues p' rfl rfl (fun _ => rfl) (fun _ _ => rfl) ?_ ?_ ?_ ?_ newmsgid ?_
    · rwa [msgid]
    · rwa [msgid, pc]
    · by_cases first : (s.inst a.i).pc = .create
      · exact .inl (pc.trans first)
      · exact .inr (h.free first)
    · intro id found holds
      exact ⟨msgid.trans found, by rwa [pc]⟩
    · exact fun there => absurd (newmsgid.trans none_yet) there
  | create pc unbound =>
    refine h.created a.i _ unbound (.inl ⟨rfl, rfl⟩) ?_ rfl fun there => absurd none_yet there
    rintro id ⟨⟩
    exact ⟨last, Nat.le_refl _⟩
  | didNotFail pc unbound =>
    refine h.created a.i _ unbound (.inr rfl) (fun id found => ?_) (started (by simp [pc]))
      fun _ => ⟨pc, rfl⟩
    exact ⟨(held id found).1, Nat.le_of_lt (held id found).2⟩
  | refused pc =>
    exact h.move a.i _ alive (by simp [pc]) held (started (by simp [pc]))
      (fun id found _ => ⟨found, rfl⟩) rfl
  | destroy id pc msgid there => exact h.removed a.i _ id msgid (by simp [pc]) there msgid none_yet
  | recreate pc unbound =>
    refine h.created a.i _ unbound (.inl ⟨rfl, rfl⟩) ?_ rfl fun there => absurd none_yet there
    rintro id ⟨⟩
    exact ⟨last, Nat.le_refl _⟩
  | join id pc bound =>
    refine h.move a.i _ alive (by simp [pc]) ?_ rfl (fun id' _ holds => ?_) rfl
    · -- the key was free before the run, so the queue is one of this run
      rintro id' ⟨⟩
      rcases h.bound id bound with before | new
      · rw [h.free (i := a.i) (by simp [pc])] at before
        cases before
      · obtain ⟨q, there⟩ := Option.isSome_iff_exists.mp (s.queues.live key id bound)
        exact ⟨new, s.queues.lt_next there⟩
    · rw [pc] at holds
      cases holds
  | send id k q next stage msgid there fits =>
    exact h.exchange a.i _ id _ alive stage.holds.1 msgid msgid stage.holds.2 rfl
  | receive id k q m next stage msgid there found =>
    exact h.exchange a.i _ id _ alive stage.holds.1 msgid msgid stage.holds.2 rfl
  | cleanup id pc msgid there => exact h.removed a.i _ id msgid (by simp [pc]) there msgid none_yet

end Frame

/-! ### What is in the queues -/

/-- At `pc`, the message of type `k` has been sent and none has been taken for it. -/
def Pc.pending (k : Nat) : Pc → Bool
  | .send2 | .receive1 => decide (k = 1)
  | .receive2 => decide (k = 1) || decide (k = 2)
  | .create | .createAgain | .destroy | .recreate | .send1 | .cleanup | .done => false

theorem Sends.type {pc next : Pc} {k : Nat} (stage : Sends pc k next) : k = 1 ∨ k = 2 := by
  cases stage
  · exact .inl rfl
  · exact .inr rfl

theorem Sends.pending {pc next : Pc} {k : Nat} (stage : Sends pc k next) (j : Nat) :
    (if pc.pending j = true then 1 else 0) + (if k = j then 1 else 0) =
      if next.pending j = true then 1 else 0 := by
  cases stage with
  | first => simp [Pc.pending, eq_comm]
  | second => by_cases one : j = 1 <;> by_cases two : j = 2 <;> simp_all [Pc.pending, eq_comm]

theorem Receives.pending {pc next : Pc} {k : Nat} (stage : Receives pc k next) (j : Nat) :
    (if next.pending j = true then 1 else 0) + (if k = j then 1 else 0) =
      if pc.pending j = true then 1 else 0 := by
  cases stage with
  | first => simp [Pc.pending, eq_comm]
  | second => by_cases one : j = 1 <;> by_cases two : j = 2 <;> simp_all [Pc.pending, eq_comm]

/-- What an instance has in queue `id` of type `k`, be it its own message or another one in
exchange. -/
def outstanding (k id : Nat) (p : Instance) : Nat :=
  if p.msgid = some id ∧ p.pc.pending k = true then 1 else 0

def total (inst : Fin n → Instance) (k id : Nat) : Nat := ∑ i, outstanding k id (inst i)

theorem total_update (inst : Fin n → Instance) (j : Fin n) (p : Instance) (k id : Nat) :
    total (Function.update inst j p) k id + outstanding k id (inst j) =
      total inst k id + outstanding k id p :=
  sum_update_add Finset.univ (outstanding k id) inst (Finset.mem_univ j) p

theorem outstanding_le_total (inst : Fin n → Instance) (j : Fin n) (k id : Nat) :
    outstanding k id (inst j) ≤ total inst k id :=
  Finset.single_le_sum (f := fun i => outstanding k id (inst i)) (fun _ _ => Nat.zero_le _)
    (Finset.mem_univ j)

/-- A message as main sends it: an array of 100 bytes that shows the text of its type. -/
structure Carried (m : Message) : Prop where
  type : m.mtype = 1 ∨ m.mtype = 2
  size : m.mtext.length = textSize
  text : cstr m.mtext = messageText m.mtype

/-- Each message in a queue of this run is outstanding for one of the instances. -/
structure Content (S₀ : Queues κ) (s : State κ n) : Prop where
  carried : ∀ id q, S₀.next ≤ id → s.queues.queue id = some q → ∀ m ∈ q, Carried m
  balanced : ∀ id q k, S₀.next ≤ id → s.queues.queue id = some q → q.count k = total s.inst k id
  shown : ∀ i, ∀ line ∈ (s.inst i).out, ∀ k text, line.shown = some (k, text) → text = messageText k

theorem start_starts (κ : Type) (n : Nat) (i : Fin n) : ((State.start κ n).inst i).Starts :=
  ⟨rfl, rfl, rfl, rfl, rfl⟩

theorem content_init (s : State κ n) (starts : ∀ i, (s.inst i).Starts) : Content s.queues s where
  carried := fun id q new there => by rw [s.queues.fresh id new] at there; cases there
  balanced := fun id q k new there => by rw [s.queues.fresh id new] at there; cases there
  shown := fun i line member => by rw [(starts i).2.2.2.2] at member; cases member

theorem outstanding_of_pc {k id : Nat} {p : Instance} (pc : p.pc.pending k = false) :
    outstanding k id p = 0 := by
  simp [outstanding, pc]

theorem outstanding_of_other {k id id' : Nat} {p : Instance} (msgid : p.msgid = some id)
    (other : id' ≠ id) : outstanding k id' p = 0 := by
  simp [outstanding, msgid, other.symm]

theorem prepare_carried {k : Nat} (p : Instance) (type : k = 1 ∨ k = 2) :
    Carried ⟨k, (p.prepare k).text.bytes⟩ := by
  have noNul : (0 : Byte) ∉ messageText k := by
    rcases type with rfl | rfl <;> decide
  have fits : (messageText k ++ [0]).length ≤ textSize := by
    rcases type with rfl | rfl <;> decide
  refine ⟨type, Buffer.length_eq _, ?_⟩
  simp only [Instance.prepare, Buffer.bytes_write _ _ fits, List.append_assoc,
    List.singleton_append]
  exact cstr_append_nul _ _ noNul

section Content

variable {key : κ} {S₀ : Queues κ} {s : State κ n}

/-- Nobody has anything in a queue that is yet to come. -/
theorem Frame.total_next (frame : Frame key S₀ s) (k : Nat) : total s.inst k s.queues.next = 0 := by
  apply Finset.sum_eq_zero
  intro i _
  cases msgid : (s.inst i).msgid with
  | none => simp [outstanding, msgid]
  | some id =>
    have bound := (frame.held i id msgid).2
    exact outstanding_of_other msgid (by omega)

theorem Content.lines (h : Content S₀ s) (j : Fin n) (p' : Instance)
    (shown : ∀ line ∈ p'.out, line ∈ (s.inst j).out ∨
      ∀ k text, line.shown = some (k, text) → text = messageText k) :
    ∀ i, ∀ line ∈ (Function.update s.inst j p' i).out, ∀ k text, line.shown = some (k, text) →
      text = messageText k := by
  refine (Function.forall_update_iff s.inst (p := fun _ (p : Instance) => ∀ line ∈ p.out, ∀ k text,
    line.shown = some (k, text) → text = messageText k)).mpr ⟨fun line member => ?_, fun i _ => h.shown i⟩
  rcases shown line member with old | right
  · exact h.shown j line old
  · exact right

/-- A call that sends and receives nothing. -/
theorem Content.rest (h : Content S₀ s) (frame : Frame key S₀ s) (j : Fin n) (S' : Queues κ)
    (p' : Instance)
    (queues : ∀ id q, S₀.next ≤ id → S'.queue id = some q →
      s.queues.queue id = some q ∨ id = s.queues.next ∧ q = [])
    (same : ∀ k id, outstanding k id p' = outstanding k id (s.inst j))
    (shown : ∀ line ∈ p'.out, line ∈ (s.inst j).out ∨ line.shown = none) :
    Content S₀ ⟨S', Function.update s.inst j p'⟩ where
  carried := by
    intro id q new there
    rcases queues id q new there with old | ⟨-, rfl⟩
    · exact h.carried id q new old
    · nofun
  balanced := by
    intro id q k new there
    have kept : total (Function.update s.inst j p') k id = total s.inst k id := by
      have sum := total_update s.inst j p' k id
      rw [same] at sum
      omega
    rw [kept]
    rcases queues id q new there with old | ⟨rfl, rfl⟩
    · exact h.balanced id q k new old
    · exact (frame.total_next k).symm
  shown := by
    refine h.lines j p' fun line member => (shown line member).imp_right fun hidden k text found => ?_
    rw [hidden] at found
    cases found

/-- A line that shows no message. -/
theorem mem_print {p : Instance} {new : Line} (hidden : new.shown = none) :
    ∀ line ∈ p.out ++ [new], line ∈ p.out ∨ line.shown = none := by
  intro line member
  rcases List.mem_append.mp member with old | last
  · exact .inl old
  · exact .inr (List.mem_singleton.mp last ▸ hidden)

/-- The instance `j` sends or takes a message of type `k`. -/
theorem Content.exchange (h : Content S₀ s) (j : Fin n) (p' : Instance) (id : Nat) (q : Queue)
    (f : Queue → Queue) (there : s.queues.queue id = some q) (msgid : (s.inst j).msgid = some id)
    (same : p'.msgid = some id) (carried : ∀ m ∈ f q, m ∈ q ∨ Carried m)
    (count : ∀ k, (f q).count k + outstanding k id (s.inst j) = q.count k + outstanding k id p')
    (shown : ∀ line ∈ p'.out, line ∈ (s.inst j).out ∨
      ∀ k text, line.shown = some (k, text) → text = messageText k) :
    Content S₀ ⟨s.queues.modify id f, Function.update s.inst j p'⟩ := by
  have changed : (s.queues.modify id f).queue id = some (f q) := by simp [Queues.modify, there]
  have other : ∀ id', id' ≠ id → (s.queues.modify id f).queue id' = s.queues.queue id' :=
    fun id' ne => Function.update_of_ne ne _ _
  constructor
  · intro id' q' new there'
    by_cases e : id' = id
    · subst e
      cases Option.some.inj (changed.symm.trans there')
      intro m member
      exact (carried m member).elim (h.carried id' q new there m) fun right => right
    · exact h.carried id' q' new ((other id' e).symm.trans there')
  · intro id' q' k new there'
    have sum := total_update s.inst j p' k id'
    by_cases e : id' = id
    · subst e
      cases Option.some.inj (changed.symm.trans there')
      have before := h.balanced id' q k new there
      have now := count k
      simp only [] at sum ⊢
      omega
    · have before := h.balanced id' q' k new ((other id' e).symm.trans there')
      rw [outstanding_of_other msgid e, outstanding_of_other same e] at sum
      simp only [] at sum ⊢
      omega
  · exact h.lines j p' shown

theorem content_step [DecidableEq κ] {qbytes : Nat} {t : State κ n} {a : Act n}
    (h : Content S₀ s) (frame : Frame key S₀ s) (moved : step key qbytes s a = some t) :
    Content S₀ t := by
  obtain ⟨alive, S', p', effect, rfl⟩ := step_cases moved
  have kept : ∀ id q, S₀.next ≤ id → s.queues.queue id = some q →
      s.queues.queue id = some q ∨ id = s.queues.next ∧ q = [] := fun _ _ _ there => .inl there
  have created : ∀ id q, S₀.next ≤ id → (s.queues.create key).queue id = some q →
      s.queues.queue id = some q ∨ id = s.queues.next ∧ q = [] := by
    intro id q _ there
    by_cases new : id = s.queues.next
    · subst new
      simp only [Queues.create, Function.update_self, Option.some.injEq] at there
      exact .inr ⟨rfl, there.symm⟩
    · simp only [Queues.create, Function.update_of_ne new] at there
      exact .inl there
  have removed : ∀ gone id q, S₀.next ≤ id → (s.queues.without gone).queue id = some q →
      s.queues.queue id = some q ∨ id = s.queues.next ∧ q = [] := by
    intro gone id q _ there
    by_cases e : id = gone
    · simp [Queues.without, e] at there
    · simp only [Queues.without, Function.update_of_ne e] at there
      exact .inl there
  -- neither before nor after the call is a message outstanding
  have idle (p' : Instance) (before : ∀ k, (s.inst a.i).pc.pending k = false)
      (after : ∀ k, p'.pc.pending k = false) (k id : Nat) :
      outstanding k id p' = outstanding k id (s.inst a.i) := by
    rw [outstanding_of_pc (before k), outstanding_of_pc (after k)]
  cases effect with
  | fail _ line pc msgid newmsgid ended out error lost =>
    refine h.rest frame a.i s.queues p' kept (fun k id => by rw [outstanding, outstanding, pc, msgid]) ?_
    rw [out]
    exact mem_print error
  | create pc unbound =>
    exact h.rest frame a.i _ _ created (idle _ (by simp [pc, Pc.pending]) fun _ => rfl)
      fun line member => .inl member
  | didNotFail pc unbound =>
    exact h.rest frame a.i _ _ created
      (idle _ (by simp [pc, Pc.pending]) (by simp [Instance.fail, pc, Pc.pending])) (mem_print rfl)
  | refused pc =>
    exact h.rest frame a.i _ _ kept (idle _ (by simp [pc, Pc.pending]) fun _ => rfl)
      fun line member => .inl member
  | destroy id pc msgid there =>
    exact h.rest frame a.i _ _ (removed id) (idle _ (by simp [pc, Pc.pending]) fun _ => rfl)
      (mem_print rfl)
  | recreate pc unbound =>
    exact h.rest frame a.i _ _ created (idle _ (by simp [pc, Pc.pending]) fun _ => rfl)
      (mem_print rfl)
  | join id pc bound =>
    exact h.rest frame a.i _ _ kept (idle _ (by simp [pc, Pc.pending]) fun _ => rfl) (mem_print rfl)
  | cleanup id pc msgid there =>
    exact h.rest frame a.i _ _ (removed id) (idle _ (by simp [pc, Pc.pending]) fun _ => rfl)
      fun line member => .inl member
  | send id k q next stage msgid there fits =>
    have sent : Carried ⟨k, ((s.inst a.i).prepare k).text.bytes⟩ := prepare_carried _ stage.type
    refine h.exchange a.i _ id q _ there msgid msgid ?_ (fun j => ?_) ?_
    · intro m member
      refine (List.mem_append.mp member).imp_right fun last => ?_
      rw [List.mem_singleton.mp last]
      exact sent
    · rw [Queue.count_send]
      have own := stage.pending j
      simp only [outstanding, Instance.print, Instance.prepare, msgid, true_and]
      omega
    · intro line member
      refine (List.mem_append.mp member).imp_right fun last => ?_
      cases List.mem_singleton.mp last
      rintro _ _ ⟨⟩
      exact sent.text
  | receive id k q m next stage msgid there found =>
    have carried := h.carried id q (frame.held a.i id msgid).1 there m (List.mem_of_find?_eq_some found)
    have type : m.mtype = k := by simpa [Message.ofType] using List.find?_some found
    refine h.exchange a.i _ id q _ there msgid msgid ?_ (fun j => ?_) ?_
    · exact fun m' member => .inl (List.mem_of_mem_eraseP member)
    · have taken := q.count_take m k j found
      have own := stage.pending j
      simp only [outstanding, Instance.print, msgid, true_and]
      omega
    · intro line member
      refine (List.mem_append.mp member).imp_right fun last => ?_
      cases List.mem_singleton.mp last
      rintro _ _ ⟨⟩
      -- the whole array has been received
      rw [Buffer.bytes_write _ _ (Nat.le_of_eq carried.size), List.take_left', carried.text, type]
      rfl

end Content

/-! ### Counting the lines -/

def Line.isSent (k : Nat) : Line → Bool
  | .sent j _ => decide (j = k)
  | _ => false

def Line.isReceived (k : Nat) : Line → Bool
  | .received j _ => decide (j = k)
  | _ => false

/-- How many messages of type `k` an instance has sent, by its lines. -/
def Instance.sent (p : Instance) (k : Nat) : Nat := p.out.countP (Line.isSent k)

def Instance.taken (p : Instance) (k : Nat) : Nat := p.out.countP (Line.isReceived k)

theorem Line.counted_of_hidden (line : Line) (hidden : line.shown = none) (k : Nat) :
    line.isSent k = false ∧ line.isReceived k = false := by
  cases line <;> first | exact ⟨rfl, rfl⟩ | cases hidden

/-- An instance has taken a message for each one it has sent, except for what is outstanding. -/
def Tallied (p : Instance) : Prop :=
  ∀ k, p.sent k = p.taken k + if p.pc.pending k = true then 1 else 0

/-- A step that shows no message and neither begins nor ends a wait for one. -/
theorem Tallied.silent {p p' : Instance} (h : Tallied p)
    (pending : ∀ k, p'.pc.pending k = p.pc.pending k)
    (out : p'.out = p.out ∨ ∃ line, p'.out = p.out ++ [line] ∧ line.shown = none) : Tallied p' := by
  intro k
  have before := h k
  simp only [Instance.sent, Instance.taken, pending] at before ⊢
  rcases out with same | ⟨line, same, hidden⟩
  · rw [same]
    exact before
  · obtain ⟨noSent, noReceived⟩ := line.counted_of_hidden hidden k
    rw [same, List.countP_append, List.countP_append, List.countP_singleton, List.countP_singleton,
      noSent, noReceived]
    simpa using before

theorem tallied_effect [DecidableEq κ] {key : κ} {qbytes : Nat} {S S' : Queues κ} {p p' : Instance}
    (h : Tallied p) (effect : Effect key qbytes S p S' p') : Tallied p' := by
  cases effect with
  | fail _ line pc msgid newmsgid ended out error lost =>
    exact h.silent (fun k => by rw [pc]) (.inr ⟨line, out, error⟩)
  | create pc unbound => exact h.silent (fun k => by rw [pc]; rfl) (.inl rfl)
  | didNotFail pc unbound => exact h.silent (fun k => rfl) (.inr ⟨_, rfl, rfl⟩)
  | refused pc => exact h.silent (fun k => by rw [pc]; rfl) (.inl rfl)
  | destroy id pc msgid there => exact h.silent (fun k => by rw [pc]; rfl) (.inr ⟨_, rfl, rfl⟩)
  | recreate pc unbound => exact h.silent (fun k => by rw [pc]; rfl) (.inr ⟨_, rfl, rfl⟩)
  | join id pc bound => exact h.silent (fun k => by rw [pc]; rfl) (.inr ⟨_, rfl, rfl⟩)
  | cleanup id pc msgid there => exact h.silent (fun k => by rw [pc]; rfl) (.inl rfl)
  | send id k q next stage msgid there fits =>
    intro j
    have before := h j
    have own := stage.pending j
    simp only [Instance.sent, Instance.taken, Instance.print, Instance.prepare, List.countP_append,
      List.countP_singleton, Line.isSent, Line.isReceived, decide_eq_true_eq, Bool.false_eq_true,
      if_false] at before ⊢
    omega
  | receive id k q m next stage msgid there found =>
    intro j
    have before := h j
    have own := stage.pending j
    simp only [Instance.sent, Instance.taken, Instance.print, List.countP_append,
      List.countP_singleton, Line.isSent, Line.isReceived, decide_eq_true_eq, Bool.false_eq_true,
      if_false] at before ⊢
    omega

/-! ### Runs -/

section Runs

variable [DecidableEq κ] {key : κ} {qbytes : Nat} {s₀ s : State κ n} {acts : List (Act n)}

theorem inv_of_run (starts : ∀ i, (s₀.inst i).Starts)
    (ran : (msgtest key qbytes n).run s₀ acts = some s) :
    Frame key s₀.queues s ∧ Content s₀.queues s := by
  refine (msgtest key qbytes n).run_invariant
    (fun s => Frame key s₀.queues s ∧ Content s₀.queues s) ?_ s₀ s acts
    ⟨frame_init key s₀ starts, content_init s₀ starts⟩ ran
  rintro s a t ⟨frame, content⟩ moved
  exact ⟨frame_step frame moved, content_step content frame moved⟩

theorem tallied_of_reachable (h : (msgtest key qbytes n).Reachable s) (i : Fin n) :
    Tallied (s.inst i) := by
  refine (msgtest key qbytes n).reachable_invariant (fun s => ∀ i, Tallied (s.inst i)) ?_ ?_ s h i
  · intro s starts i k
    simp [Instance.sent, Instance.taken, (starts i).2.2.2.2, (starts i).1, Pc.pending]
  · intro s a t all moved
    obtain ⟨-, S', p', effect, rfl⟩ := step_cases moved
    exact (Function.forall_update_iff s.inst (p := fun _ (p : Instance) => Tallied p)).mpr
      ⟨tallied_effect (all a.i) effect, fun i _ => all i⟩

/-- An instance that asks for a message finds one, or no queue. -/
theorem receive_enabled (qbytes : Nat) {S₀ : Queues κ} (frame : Frame key S₀ s) (content : Content S₀ s) {i : Fin n}
    (alive : (s.inst i).ended = none)
    (receives : (s.inst i).pc = .receive2 ∨ (s.inst i).pc = .receive1) (room : Bool) :
    ∃ t, step key qbytes s ⟨i, room⟩ = some t := by
  obtain ⟨id, msgid⟩ := Option.isSome_iff_exists.mp
    (frame.started i (by rcases receives with pc | pc <;> simp [pc]))
  have enabled (k : Nat) (next : Pc) (stage : (s.inst i).pc.pending k = true) :
      (receive k next s.queues (s.inst i) id).isSome = true := by
    cases there : s.queues.queue id with
    | none =>
      simp only [receive, Queues.msgrcv, there]
      rfl
    | some q =>
      -- its own message is there, or another one in exchange
      have own : outstanding k id (s.inst i) = 1 := if_pos ⟨msgid, stage⟩
      have count := content.balanced id q k (frame.held i id msgid).1 there
      have least := outstanding_le_total s.inst i k id
      obtain ⟨m, found⟩ := q.exists_of_count k (by omega)
      have size := (content.carried id q (frame.held i id msgid).1 there m
        (List.mem_of_find?_eq_some found)).size
      simp only [receive, Queues.msgrcv, there, found, if_pos (Nat.le_of_eq size)]
      rfl
  apply Option.isSome_iff_exists.mp
  rcases receives with pc | pc
  · have := enabled 2 .receive1 (by rw [pc]; rfl)
    simpa [step, alive, call, pc, msgid] using this
  · have := enabled 1 .cleanup (by rw [pc]; rfl)
    simpa [step, alive, call, pc, msgid] using this

/-- The sum over the instances that work with queue `id`. -/
def sumOver (inst : Fin n → Instance) (id : Nat) (f : Instance → Nat) : Nat :=
  ∑ i, if (inst i).msgid = some id then f (inst i) else 0

/-- **Exchange**: however many instances run and share a queue, each one receives the text of
the type it asks for, never has to wait for a message, and no message is lost or received
twice: what the holders of a queue have sent, they have received or it is still there. -/
theorem received_in_exchange (key : κ) (qbytes n : Nat) (s : State κ n)
    (h : (msgtest key qbytes n).Reachable s) (i : Fin n) :
    (∀ k text, .received k text ∈ (s.inst i).out → text = messageText k) ∧
    ((s.inst i).ended = none → (s.inst i).pc = .receive2 ∨ (s.inst i).pc = .receive1 →
      ∀ room, ∃ t, step key qbytes s ⟨i, room⟩ = some t) ∧
    ∀ id q k, (s.inst i).msgid = some id → s.queues.queue id = some q →
      sumOver s.inst id (fun p => p.sent k) = q.count k + sumOver s.inst id fun p => p.taken k := by
  obtain ⟨s₀, acts, starts, ran⟩ := h
  have tallied := tallied_of_reachable ⟨s₀, acts, starts, ran⟩
  obtain ⟨frame, content⟩ := inv_of_run starts ran
  refine ⟨fun k text member => content.shown i _ member k text rfl, ?_, ?_⟩
  · intro alive receives room
    exact receive_enabled qbytes frame content alive receives room
  · intro id q k msgid there
    rw [content.balanced id q k (frame.held i id msgid).1 there, total, sumOver, sumOver,
      ← Finset.sum_add_distrib]
    apply Finset.sum_congr rfl
    intro j _
    have own := tallied j k
    by_cases same : (s.inst j).msgid = some id
    · simp only [outstanding, same, if_true, true_and]
      omega
    · simp [outstanding, same]

/-- Two instances share the second queue, and instance 1 has taken a message first. -/
theorem received_in_exchange_two :
    ∃ s, (msgtest true 16384 2).Reachable s ∧ (s.inst 0).pc = .receive2 ∧
      (s.inst 1).pc = .receive1 ∧ ∃ t, step true 16384 s ⟨0, true⟩ = some t := by
  have reached : (msgtest true 16384 2).Reachable _ :=
    ⟨State.start Bool 2, ([0, 0, 0, 1, 1, 1, 0, 1, 0, 1, 0, 1, 1] : List (Fin 2)).map (⟨·, true⟩),
      start_starts Bool 2, rfl⟩
  exact ⟨_, reached, rfl, rfl, (received_in_exchange true 16384 2 _ reached 0).2.1 rfl (.inl rfl) true⟩

/-- **Nothing is left behind**: after a run in which every instance has returned 0, the table
of queues is what it was before. -/
theorem queues_restored (key : κ) (qbytes n : Nat) (s₀ s : State κ n) (acts : List (Act n))
    (starts : ∀ i, (s₀.inst i).Starts) (ran : (msgtest key qbytes n).run s₀ acts = some s)
    (returned : ∀ i, (s.inst i).pc = .done) :
    s.queues.keys = s₀.queues.keys ∧ s.queues.queue = s₀.queues.queue := by
  obtain ⟨frame, -⟩ := inv_of_run starts ran
  -- a queue of this run would belong to an instance that is still at work or has failed
  have gone : ∀ id, s₀.queues.next ≤ id → s.queues.queue id = none := by
    intro id new
    cases there : s.queues.queue id with
    | none => rfl
    | some q =>
      obtain ⟨i, ⟨-, holds⟩ | found⟩ := frame.owned id new (by rw [there]; rfl)
      · rw [returned i] at holds
        cases holds
      · have := (frame.extra i (by simp [found])).1
        rw [returned i] at this
        cases this
  constructor
  · funext k
    by_cases other : k = key
    · subst other
      cases before : s₀.queues.keys k with
      | some id => exact (frame.taken id before).1
      | none =>
        cases now : s.queues.keys k with
        | none => rfl
        | some id =>
          have there := s.queues.live k id now
          rcases frame.bound id now with was | new
          · rw [before] at was
            cases was
          · rw [gone id new] at there
            cases there
    · exact frame.others k other
  · funext id
    by_cases old : id < s₀.queues.next
    · exact frame.old id old
    · rw [gone id (by omega), s₀.queues.fresh id (by omega)]

theorem queues_restored_one :
    ∃ s, (msgtest true 16384 1).run (State.start Bool 1) (List.replicate 9 ⟨0, true⟩) = some s ∧
      s.queues.keys = fun _ => none := by
  have ran : (msgtest true 16384 1).run (State.start Bool 1) (List.replicate 9 ⟨0, true⟩) = some _ := rfl
  refine ⟨_, ran, (queues_restored true 16384 1 _ _ _ (start_starts Bool 1) ran ?_).1⟩
  intro i
  rw [Subsingleton.elim i 0]
  rfl

end Runs

end GenericTests.Msgtest
