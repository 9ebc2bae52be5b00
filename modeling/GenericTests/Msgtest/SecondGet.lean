import GenericTests.Msgtest.Deadlock

/-!
# msgtest.c: the msgget that should fail

The second `msgget` asks for a queue that the first one has just created. It fails as it
should unless another instance, which has obtained the same queue without `IPC_EXCL`,
destroys it in between. To get that far the other instance needs room for two messages.
-/
namespace GenericTests.Msgtest

open GenericTests.CString GenericTests.MessageQueue GenericTests.Transition

variable {κ : Type} {n : Nat} {key : κ} {qbytes : Nat} {s t : State κ n}

/-- No instance has got a queue from the `msgget` that should fail. -/
def SecondGetFails [DecidableEq κ] (key : κ) (qbytes n : Nat) : Prop :=
  ∀ s, (msgtest key qbytes n).Reachable s → ∀ i, (s.inst i).newmsgid = none

/-! ### When it always fails -/

/-- Between its two calls, an instance's queue has the key. -/
structure Guarded (key : κ) (s : State κ n) : Prop where
  bound : ∀ i, (s.inst i).pc = .createAgain → (s.inst i).ended = none →
    (s.inst i).msgid.isSome = true ∧ s.queues.keys key = (s.inst i).msgid
  none_yet : ∀ i, (s.inst i).newmsgid = none

def Pc.removes : Pc → Bool
  | .destroy | .cleanup => true
  | _ => false

/-- No instance can destroy the queue of another one that is between its two calls. -/
def Apart (s : State κ n) : Prop :=
  ∀ i j, i ≠ j → (s.inst i).pc = .createAgain → (s.inst j).pc.removes = true →
    (s.inst i).msgid ≠ (s.inst j).msgid

/-- A step of `a.i` that changes no key. -/
theorem Guarded.keep (h : Guarded key s) (j : Fin n) (S' : Queues κ) (p' : Instance)
    (keys : S'.keys = s.queues.keys) (own : p'.pc = .createAgain → p'.ended ≠ none)
    (newmsgid : p'.newmsgid = none) : Guarded key ⟨S', Function.update s.inst j p'⟩ where
  bound := by
    rw [keys]
    exact (Function.forall_update_iff s.inst (p := fun _ (p : Instance) => p.pc = .createAgain →
      p.ended = none → p.msgid.isSome = true ∧ s.queues.keys key = p.msgid)).mpr
        ⟨fun pc alive => absurd alive (own pc), fun i _ => h.bound i⟩
  none_yet := (Function.forall_update_iff s.inst (p := fun _ (p : Instance) =>
    p.newmsgid = none)).mpr ⟨newmsgid, fun i _ => h.none_yet i⟩

/-- An instance gets a new queue, so the key was free and nobody is between the two calls. -/
theorem Guarded.create [DecidableEq κ] (h : Guarded key s) (j : Fin n) (p' : Instance)
    (unbound : s.queues.keys key = none) (msgid : p'.msgid = some s.queues.next)
    (newmsgid : p'.newmsgid = none) :
    Guarded key ⟨s.queues.create key, Function.update s.inst j p'⟩ where
  bound := by
    refine (Function.forall_update_iff s.inst (p := fun _ (p : Instance) => p.pc = .createAgain →
      p.ended = none → p.msgid.isSome = true ∧ (s.queues.create key).keys key = p.msgid)).mpr
        ⟨fun _ _ => ?_, fun i _ pc alive => ?_⟩
    · rw [msgid]
      exact ⟨rfl, Function.update_self _ _ _⟩
    · obtain ⟨there, bound⟩ := h.bound i pc alive
      rw [← bound, unbound] at there
      cases there
  none_yet := (Function.forall_update_iff s.inst (p := fun _ (p : Instance) =>
    p.newmsgid = none)).mpr ⟨newmsgid, fun i _ => h.none_yet i⟩

theorem Guarded.remove (h : Guarded key s) (apart : Apart s) (j : Fin n) (p' : Instance) (id : Nat)
    (removes : (s.inst j).pc.removes = true) (msgid : (s.inst j).msgid = some id)
    (pc : p'.pc ≠ .createAgain) (newmsgid : p'.newmsgid = none) :
    Guarded key ⟨s.queues.without id, Function.update s.inst j p'⟩ where
  bound := by
    refine (Function.forall_update_iff s.inst (p := fun _ (p : Instance) => p.pc = .createAgain →
      p.ended = none → p.msgid.isSome = true ∧ (s.queues.without id).keys key = p.msgid)).mpr
        ⟨fun here => absurd here pc, fun i other here alive => ?_⟩
    obtain ⟨there, bound⟩ := h.bound i here alive
    have ne : (s.inst i).msgid ≠ some id := msgid ▸ apart i j other here removes
    refine ⟨there, ?_⟩
    simp only [Queues.without, bound, if_neg ne]
  none_yet := (Function.forall_update_iff s.inst (p := fun _ (p : Instance) =>
    p.newmsgid = none)).mpr ⟨newmsgid, fun i _ => h.none_yet i⟩

theorem Sends.ne_createAgain {pc next : Pc} {k : Nat} (stage : Sends pc k next) :
    next ≠ .createAgain := by
  cases stage <;> nofun

theorem Receives.ne_createAgain {pc next : Pc} {k : Nat} (stage : Receives pc k next) :
    next ≠ .createAgain := by
  cases stage <;> nofun

theorem guarded_step [DecidableEq κ] {a : Act n} (h : Guarded key s) (apart : Apart s)
    (moved : step key qbytes s a = some t) : Guarded key t := by
  obtain ⟨alive, S', p', effect, rfl⟩ := step_cases moved
  have none_yet := h.none_yet a.i
  cases effect with
  | fail _ line pc msgid newmsgid ended out error lost =>
    exact h.keep a.i _ p' rfl (fun _ => by simp [ended]) (newmsgid.trans none_yet)
  | create pc unbound => exact h.create a.i _ unbound rfl none_yet
  | didNotFail pc unbound =>
    obtain ⟨there, bound⟩ := h.bound a.i pc alive
    rw [← bound, unbound] at there
    cases there
  | refused pc => exact h.keep a.i _ _ rfl nofun none_yet
  | destroy id pc msgid there =>
    exact h.remove apart a.i _ id (by rw [pc]; rfl) msgid nofun none_yet
  | recreate pc unbound => exact h.create a.i _ unbound rfl none_yet
  | join id pc bound => exact h.keep a.i _ _ rfl nofun none_yet
  | send id k q next stage msgid there fits =>
    exact h.keep a.i _ _ rfl (fun pc => absurd pc stage.ne_createAgain) none_yet
  | receive id k q m next stage msgid there found =>
    exact h.keep a.i _ _ rfl (fun pc => absurd pc stage.ne_createAgain) none_yet
  | cleanup id pc msgid there =>
    exact h.remove apart a.i _ id (by rw [pc]; rfl) msgid nofun none_yet

theorem guarded_init (starts : ∀ i, (s.inst i).Starts) : Guarded key s where
  bound := fun i pc => by rw [(starts i).1] at pc; cases pc
  none_yet := fun i => (starts i).2.2.2.1

/-! ### Too little room for two messages -/

/-- The instance has not received anything yet. -/
def Pc.early : Pc → Bool
  | .create | .createAgain | .destroy | .recreate | .send1 | .send2 => true
  | .receive2 | .receive1 | .cleanup | .done => false

def Pc.first : Pc → Bool
  | .createAgain | .destroy => true
  | _ => false

/-- Nobody gets past its second message, and first queues are nobody else's first queue. -/
structure Crowded (s : State κ n) : Prop where
  early : ∀ i, (s.inst i).pc.early = true
  distinct : ∀ i j, i ≠ j → (s.inst i).pc.first = true → (s.inst j).pc.first = true →
    (s.inst i).msgid ≠ (s.inst j).msgid

theorem Crowded.apart (h : Crowded s) : Apart s := by
  intro i j other here removes
  have early := h.early j
  apply h.distinct i j other (by rw [here]; rfl)
  cases pc : (s.inst j).pc <;> simp_all [Pc.removes, Pc.early, Pc.first]

/-- An instance moves on with its first queue, or behind it. -/
theorem Crowded.keep (h : Crowded s) (j : Fin n) (S' : Queues κ) (p' : Instance)
    (early : p'.pc.early = true)
    (first : p'.pc.first = true → (s.inst j).pc.first = true ∧ p'.msgid = (s.inst j).msgid) :
    Crowded ⟨S', Function.update s.inst j p'⟩ where
  early := (Function.forall_update_iff s.inst (p := fun _ (p : Instance) =>
    p.pc.early = true)).mpr ⟨early, fun i _ => h.early i⟩
  distinct := by
    intro i k other hi hk
    by_cases ei : i = j <;> by_cases ek : k = j
    · exact absurd (ei.trans ek.symm) other
    · subst ei
      simp only [Function.update_self, Function.update_of_ne ek] at hi hk ⊢
      obtain ⟨was, same⟩ := first hi
      rw [same]
      exact h.distinct i k other was hk
    · subst ek
      simp only [Function.update_self, Function.update_of_ne ei] at hi hk ⊢
      obtain ⟨was, same⟩ := first hk
      rw [same]
      exact h.distinct i k other hi was
    · simp only [Function.update_of_ne ei, Function.update_of_ne ek] at hi hk ⊢
      exact h.distinct i k other hi hk

/-- A new queue is nobody's yet. -/
theorem Crowded.create {S₀ : Queues κ} (h : Crowded s) (frame : Frame key S₀ s) (j : Fin n)
    (S' : Queues κ) (p' : Instance) (early : p'.pc.early = true)
    (msgid : p'.msgid = some s.queues.next) : Crowded ⟨S', Function.update s.inst j p'⟩ where
  early := (Function.forall_update_iff s.inst (p := fun _ (p : Instance) =>
    p.pc.early = true)).mpr ⟨early, fun i _ => h.early i⟩
  distinct := by
    have fresh (i : Fin n) : (s.inst i).msgid ≠ some s.queues.next := by
      intro found
      have := (frame.held i _ found).2
      omega
    intro i k other hi hk
    by_cases ei : i = j <;> by_cases ek : k = j
    · exact absurd (ei.trans ek.symm) other
    · subst ei
      simp only [Function.update_self, Function.update_of_ne ek, msgid]
      exact (fresh k).symm
    · subst ek
      simp only [Function.update_self, Function.update_of_ne ei, msgid]
      exact fresh i
    · simp only [Function.update_of_ne ei, Function.update_of_ne ek] at hi hk ⊢
      exact h.distinct i k other hi hk

theorem crowded_step [DecidableEq κ] {S₀ : Queues κ} {a : Act n} (h : Crowded s)
    (frame : Frame key S₀ s) (content : Content S₀ s) (few : qbytes < 2 * textSize)
    (moved : step key qbytes s a = some t) : Crowded t := by
  obtain ⟨alive, S', p', effect, rfl⟩ := step_cases moved
  have early := h.early a.i
  cases effect with
  | fail _ line pc msgid newmsgid ended out error lost =>
    exact h.keep a.i _ p' (by rwa [pc]) fun first => ⟨by rwa [pc] at first, msgid⟩
  | create pc unbound => exact h.create frame a.i _ _ rfl rfl
  | didNotFail pc unbound => exact h.keep a.i _ _ early fun first => ⟨first, rfl⟩
  | refused pc => exact h.keep a.i _ _ rfl fun _ => ⟨by rw [pc]; rfl, rfl⟩
  | destroy id pc msgid there => exact h.keep a.i _ _ rfl nofun
  | recreate pc unbound => exact h.create frame a.i _ _ rfl rfl
  | join id pc bound => exact h.keep a.i _ _ rfl nofun
  | send id k q next stage msgid there fits =>
    have new := (frame.held a.i id msgid).1
    generalize here : (s.inst a.i).pc = pc at stage
    cases stage with
    | first => exact h.keep a.i _ _ rfl nofun
    | second =>
      -- message 1 is still in the queue, and there is no room behind it
      have own : outstanding 1 id (s.inst a.i) = 1 := if_pos ⟨msgid, by rw [here]; rfl⟩
      have count := content.balanced id q 1 new there
      have least := outstanding_le_total s.inst a.i 1 id
      have bytes := q.bytes_of_length textSize fun m member =>
        (content.carried id q new there m member).size
      have most : q.count 1 ≤ q.length := List.countP_le_length
      simp only [textSize] at few fits bytes
      omega
  | receive id k q m next stage msgid there found =>
    generalize here : (s.inst a.i).pc = pc at stage
    rw [here] at early
    cases stage <;> cases early
  | cleanup id pc msgid there =>
    rw [pc] at early
    cases early

theorem crowded_init (starts : ∀ i, (s.inst i).Starts) : Crowded s where
  early := fun i => by rw [(starts i).1]; rfl
  distinct := fun i j _ here => by rw [(starts i).1] at here; cases here

/-- The second call fails whoever else is running. -/
theorem secondGetFails_of_few [DecidableEq κ] (few : n ≤ 1 ∨ qbytes < 2 * textSize) :
    SecondGetFails key qbytes n := by
  rintro s ⟨s₀, acts, starts, ran⟩
  rcases few with one | few
  · have alone (s : State κ n) : Apart s := by
      intro i j other
      exact absurd (Fin.ext (by omega)) other
    exact ((msgtest key qbytes n).run_invariant (Guarded key)
      (fun s a t h moved => guarded_step h (alone s) moved) s₀ s acts (guarded_init starts) ran).none_yet
  · refine ((msgtest key qbytes n).run_invariant (fun s => Frame key s₀.queues s ∧
      Content s₀.queues s ∧ Crowded s ∧ Guarded key s) ?_ s₀ s acts ⟨frame_init key s₀ starts,
        content_init s₀ starts, crowded_init starts, guarded_init starts⟩ ran).2.2.2.none_yet
    rintro s a t ⟨frame, content, crowded, guarded⟩ moved
    exact ⟨frame_step frame moved, content_step content frame moved,
      crowded_step crowded frame content few moved, guarded_step guarded crowded.apart moved⟩

/-! ### How it can succeed -/

section Way

variable [DecidableEq κ] {i : Fin n} {id : Nat}

/-- A reachable state with instance `i` at the call `pc` on queue `id`; the other instances
are as `others` says. -/
structure Works (key : κ) (qbytes : Nat) (s : State κ n) (i : Fin n) (pc : Pc) (id : Nat)
    (others : Fin n → Instance) : Prop where
  reachable : (msgtest key qbytes n).Reachable s
  alive : (s.inst i).ended = none
  pc : (s.inst i).pc = pc
  msgid : (s.inst i).msgid = some id
  others : ∀ j, j ≠ i → s.inst j = others j

/-- The call leads to `S'` and `p'`. -/
theorem Works.call {pc pc' : Pc} {others : Fin n → Instance} {id' : Nat} {S' : Queues κ}
    {p' : Instance} (h : Works key qbytes s i pc id others)
    (called : call key qbytes s.queues (s.inst i) true = some (S', p')) (alive : p'.ended = none)
    (here : p'.pc = pc') (msgid : p'.msgid = some id') :
    Works key qbytes ⟨S', Function.update s.inst i p'⟩ i pc' id' others where
  reachable := Reaches.call h.reachable h.alive called
  alive := by simpa using alive
  pc := by simpa using here
  msgid := by simpa using msgid
  others := fun j other => by simpa [Function.update_of_ne other] using h.others j other

theorem Works.send {pc next : Pc} {k : Nat} {q : Queue} {others : Fin n → Instance}
    (h : Works key qbytes s i pc id others) (stage : Sends pc k next)
    (there : s.queues.queue id = some q)
    (fits : q.bytes + textSize ≤ qbytes ∧ q.length + 1 ≤ qbytes) :
    ∃ (t : State κ n) (m : Message), Works key qbytes t i next id others ∧
      t.queues.keys = s.queues.keys ∧ t.queues.queue id = some (q ++ [m]) ∧ m.mtype = k ∧
      m.mtext.length = textSize := by
  have called : Msgtest.call key qbytes s.queues (s.inst i) true =
      Msgtest.send qbytes k next s.queues (s.inst i) id true := by
    cases stage <;> simp only [Msgtest.call, h.pc, h.msgid]
  simp only [Msgtest.send, Queues.msgsnd, there, if_true, Buffer.length_eq, if_pos fits] at called
  refine ⟨_, ⟨k, ((s.inst i).prepare k).text.bytes⟩, h.call called h.alive rfl h.msgid, rfl, ?_, rfl,
    Buffer.length_eq _⟩
  simp [Queues.modify, there]

theorem Works.receive {pc next : Pc} {k : Nat} {q : Queue} {m : Message}
    {others : Fin n → Instance} (h : Works key qbytes s i pc id others)
    (stage : Receives pc k next) (there : s.queues.queue id = some q)
    (found : q.find? (Message.ofType k) = some m) (short : m.mtext.length ≤ textSize) :
    ∃ t : State κ n, Works key qbytes t i next id others ∧ t.queues.keys = s.queues.keys ∧
      t.queues.queue id = some (q.eraseP (Message.ofType k)) := by
  have called : Msgtest.call key qbytes s.queues (s.inst i) true =
      Msgtest.receive k next s.queues (s.inst i) id := by
    cases stage <;> simp only [Msgtest.call, h.pc, h.msgid]
  simp only [Msgtest.receive, Queues.msgrcv, there, found, if_pos short] at called
  refine ⟨_, h.call called h.alive rfl h.msgid, rfl, ?_⟩
  simp [Queues.modify, there]

/-- An instance alone with an empty queue sends, receives and destroys it. -/
theorem Works.serve {others : Fin n → Instance} (h : Works key qbytes s i .send1 id others)
    (there : s.queues.queue id = some []) (bound : s.queues.keys key = some id)
    (room : 2 * textSize ≤ qbytes) :
    ∃ t : State κ n, (msgtest key qbytes n).Reachable t ∧ t.queues.keys key = none ∧
      ∀ j, j ≠ i → t.inst j = others j := by
  simp only [textSize] at room
  obtain ⟨s₁, m₁, h₁, keys₁, there₁, type₁, size₁⟩ :=
    h.send .first there (by
      simp only [Queue.bytes, List.map_nil, List.sum_nil, List.length_nil, textSize]
      omega)
  obtain ⟨s₂, m₂, h₂, keys₂, there₂, type₂, size₂⟩ :=
    h₁.send .second there₁ (by
      simp only [Queue.bytes, List.nil_append, List.map_singleton, List.sum_singleton,
        List.length_singleton, size₁, textSize]
      omega)
  simp only [List.nil_append, List.singleton_append] at there₂
  obtain ⟨s₃, h₃, keys₃, there₃⟩ := h₂.receive (m := m₂) .second there₂
    (by simp [Message.ofType, type₁, type₂]) (Nat.le_of_eq size₂)
  obtain ⟨s₄, h₄, keys₄, there₄⟩ := h₃.receive (m := m₁) .first there₃
    (by simp [Message.ofType, type₁, type₂]) (Nat.le_of_eq size₁)
  have bound₄ : s₄.queues.keys key = some id := by rw [keys₄, keys₃, keys₂, keys₁, bound]
  have called : Msgtest.call key qbytes s₄.queues (s₄.inst i) true =
      some (s₄.queues.without id, { s₄.inst i with pc := .done, ended := some 0 }) := by
    simp [Msgtest.call, h₄.pc, h₄.msgid, Queues.rmid, there₄]
  refine ⟨_, Reaches.call h₄.reachable h₄.alive called, ?_, fun j other => ?_⟩
  · simp [Queues.without, bound₄]
  · simpa [Function.update_of_ne other] using h₄.others j other

theorem not_secondGetFails_of_many (many : 2 ≤ n) (room : 2 * textSize ≤ qbytes) :
    ¬SecondGetFails key qbytes n := by
  intro fails
  let zero : Fin n := ⟨0, by omega⟩
  let one : Fin n := ⟨1, by omega⟩
  have apart : zero ≠ one := by simp [zero, one]
  -- instance 0 has destroyed its first queue, and instance 1 creates its own
  obtain ⟨s, h⟩ := Destroyed.next (j := 0) (destroyed_zero key qbytes n) (by omega)
  have pc₀ : (s.inst zero).pc = .recreate := h.before zero (by simp [zero])
  have pc₁ : (s.inst one).pc = .create := h.after one (by simp [one])
  have created : call key qbytes s.queues (s.inst one) true = some (s.queues.create key,
      { s.inst one with pc := .createAgain, msgid := some s.queues.next }) := by
    simp [call, pc₁, Queues.msggetExcl, h.unbound]
  have first := Reaches.call h.reachable (h.alive one) created
  -- instance 0 obtains the same queue
  have joined : call key qbytes (s.queues.create key) (s.inst zero) true = some (s.queues.create key,
      { (s.inst zero).print (.recreated s.queues.next) with
        pc := .send1, msgid := some s.queues.next }) := by
    simp [call, pc₀, Queues.msgget, Queues.create]
  have second := Reaches.call (i := zero) first
    (by simpa [Function.update_of_ne apart] using h.alive zero)
    (by simpa [Function.update_of_ne apart] using joined)
  have works : Works key qbytes _ zero .send1 s.queues.next _ :=
    ⟨second, by simpa [Instance.print] using h.alive zero, by simp, by simp,
      fun j other => Function.update_of_ne other _ _⟩
  obtain ⟨t, reached, unbound, others⟩ :=
    works.serve (by simp [Queues.create]) (by simp [Queues.create]) room
  have inst₁ := others one apart.symm
  simp only [Function.update_self] at inst₁
  have again : call key qbytes t.queues (t.inst one) true = some (t.queues.create key,
      { (t.inst one).fail .msggetDidNotFail with newmsgid := some t.queues.next }) := by
    simp [call, inst₁, Queues.msggetExcl, unbound]
  have last := Reaches.call reached (by rw [inst₁]; exact h.alive one) again
  have none_yet := fails _ last one
  simp at none_yet

end Way

/-- **The second msgget**: it fails in every run exactly if no second instance is running or
a queue has no room for two messages. -/
theorem secondGetFails_iff [DecidableEq κ] (key : κ) (qbytes n : Nat) :
    SecondGetFails key qbytes n ↔ n ≤ 1 ∨ qbytes < 2 * textSize := by
  constructor
  · intro fails
    by_contra many
    exact not_secondGetFails_of_many (by omega) (by omega) fails
  · exact secondGetFails_of_few

end GenericTests.Msgtest
