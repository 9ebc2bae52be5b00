import GenericTests.Semaphore.Control

/-!
# semaphore.c: every run ends

An iteration takes the producer four steps and the consumer three; one more is the producer's
exit and five are the consumer's cleanup. No step is ever made in vain, so all runs to the end
are equally long, whatever the scheduler does.
-/
namespace GenericTests.Semaphore

open GenericTests.CString GenericTests.Transition

/-- The steps up to the end of the iteration, or of the process. -/
def ProducerPc.left : ProducerPc → Nat
  | .waitEmpty => 4
  | .write => 3
  | .print => 2
  | .signalFull => 1
  | .exit | .exited _ => 0

def ConsumerPc.left : ConsumerPc → Nat
  | .waitFull => 3
  | .print => 2
  | .signalEmpty => 1
  | .wait => 5
  | .shmdt => 4
  | .shmRmid => 3
  | .semRmid => 2
  | .farewell => 1
  | .exited _ => 0

/-- The steps the producer has to make: the rest of its iteration, the later ones and the exit. -/
def producerLeft (n : Nat) (s : State) : Nat :=
  match s.producer with
  | .exited _ => 0
  | .exit => 1
  | pc => pc.left + 4 * (n - (s.pi + 1)) + 1

def consumerLeft (n : Nat) (s : State) : Nat :=
  if s.consumer.looping then s.consumer.left + 3 * (n - (s.ci + 1)) + 5 else s.consumer.left

/-- What the consumer has removed and said. -/
structure Cleanup (s : State) : Prop where
  segment : s.shmRemoved = true ↔
    s.consumer = .semRmid ∨ s.consumer = .farewell ∨ ∃ k, s.consumer = .exited k
  set : s.semRemoved = true ↔ s.consumer = .farewell ∨ ∃ k, s.consumer = .exited k
  said : s.cleanupOut = match s.consumer with
    | .exited _ => [cleanedUpLine]
    | _ => []

variable {numtrans : CInt} {s t : State}

theorem consumerLoop_cases (numtrans : CInt) (i : Nat) :
    consumerLoop numtrans i = .waitFull ∨ consumerLoop numtrans i = .wait := by
  rw [consumerLoop]
  split
  · exact .inl rfl
  · exact .inr rfl

theorem cleanup_initial (h : Initial numtrans s) : Cleanup s := by
  obtain ⟨pc, -, -, out⟩ := h.consumer
  obtain ⟨set, segment⟩ := h.present
  rcases consumerLoop_cases numtrans 0 with loop | loop <;> rw [loop] at pc <;>
    exact ⟨by simp [segment, pc], by simp [set, pc], by simp [out, pc]⟩

theorem cleanup_step (h : Cleanup s) (moved : Moves numtrans s t) : Cleanup t := by
  obtain ⟨segment, set, said⟩ := h
  cases moved with
  | waitEmpty | write | wrote | signalFull | exit => exact ⟨segment, set, said⟩
  | signalEmpty pc =>
    simp only [pc, reduceCtorEq, exists_false, or_self, iff_false] at segment set said
    rcases consumerLoop_cases numtrans (s.ci + 1) with loop | loop <;>
      exact ⟨by simp [segment, loop], by simp [set, loop], by simp [said, loop]⟩
  | waitFull pc | read pc | waited pc | shmdt pc | shmRmid pc | semRmid pc | farewell pc =>
    simp only [pc, reduceCtorEq, exists_false, or_self, iff_false] at segment set said
    exact ⟨by simp_all, by simp_all, by simp_all⟩

def stepsLeft (n : Nat) (s : State) : Nat := producerLeft n s + consumerLeft n s

theorem producerLeft_loop (i : Nat) (next : s.producer = producerLoop numtrans i)
    (count : s.pi = i) :
    producerLeft numtrans.val.toNat s = 4 * (numtrans.val.toNat - i) + 1 := by
  by_cases more : (i : Int) < numtrans.val
  · rw [producerLoop, if_pos more] at next
    simp only [producerLeft, next, count, ProducerPc.left]
    omega
  · rw [producerLoop, if_neg more] at next
    simp only [producerLeft, next]
    omega

theorem consumerLeft_loop (i : Nat) (next : s.consumer = consumerLoop numtrans i)
    (count : s.ci = i) :
    consumerLeft numtrans.val.toNat s = 3 * (numtrans.val.toNat - i) + 5 := by
  by_cases more : (i : Int) < numtrans.val
  · rw [consumerLoop, if_pos more] at next
    simp only [consumerLeft, next, count, ConsumerPc.looping, ConsumerPc.left, if_true]
    omega
  · rw [consumerLoop, if_neg more] at next
    simp only [consumerLeft, next, ConsumerPc.looping, ConsumerPc.left, Bool.false_eq_true, if_false]
    omega

theorem stepsLeft_initial (h : Initial numtrans s) :
    stepsLeft numtrans.val.toNat s = 7 * numtrans.val.toNat + 6 := by
  obtain ⟨producer, pi, -⟩ := h.producer
  obtain ⟨consumer, ci, -⟩ := h.consumer
  rw [stepsLeft, producerLeft_loop 0 producer pi, consumerLeft_loop 0 consumer ci]
  omega

/-- Every step counts. -/
theorem stepsLeft_step (moved : Moves numtrans s t) :
    stepsLeft numtrans.val.toNat t + 1 = stepsLeft numtrans.val.toNat s := by
  cases moved with
  | signalFull pc =>
    have after := producerLeft_loop (s := { s with
      sems := Function.update s.sems 1 (s.sems 1 + 1), pi := s.pi + 1,
      producer := producerLoop numtrans (s.pi + 1) }) (s.pi + 1) rfl rfl
    simp only [stepsLeft, consumerLeft, after]
    simp only [producerLeft, pc, ProducerPc.left]
    omega
  | signalEmpty pc =>
    have after := consumerLeft_loop (s := { s with
      sems := Function.update s.sems 0 (s.sems 0 + 1), ci := s.ci + 1,
      consumer := consumerLoop numtrans (s.ci + 1) }) (s.ci + 1) rfl rfl
    simp only [stepsLeft, producerLeft, after]
    simp only [consumerLeft, pc, ConsumerPc.looping, ConsumerPc.left, if_true]
    omega
  | waitEmpty pc | write pc | wrote pc | exit pc =>
    simp only [stepsLeft, producerLeft, consumerLeft, pc, ProducerPc.left]
    omega
  | waitFull pc | read pc =>
    simp only [stepsLeft, producerLeft, consumerLeft, pc, ConsumerPc.looping, ConsumerPc.left,
      if_true]
    omega
  | waited pc | shmdt pc | shmRmid pc | semRmid pc | farewell pc =>
    simp only [stepsLeft, producerLeft, consumerLeft, pc, ConsumerPc.looping, ConsumerPc.left,
      Bool.false_eq_true, if_false]

structure Progress (numtrans : CInt) (acts : List Act) (s : State) : Prop where
  control : Control numtrans s
  cleanup : Cleanup s
  steps : acts.length + stepsLeft numtrans.val.toNat s = 7 * numtrans.val.toNat + 6

theorem progress_of_run {s₀ : State} {acts : List Act} (start : Initial numtrans s₀)
    (ran : (system numtrans).run s₀ acts = some s) : Progress numtrans acts s := by
  refine (system numtrans).run_history (Progress numtrans) ?_ s₀ s acts ?_ ran
  · intro past s a t h stepped
    have moved := step_cases h.control stepped
    refine ⟨control_step h.control moved, cleanup_step h.cleanup moved, ?_⟩
    have steps := h.steps
    have counted := stepsLeft_step moved
    rw [List.length_append, List.length_singleton]
    omega
  · refine ⟨control_initial numtrans s₀ start, cleanup_initial start, ?_⟩
    rw [stepsLeft_initial start, List.length_nil, Nat.zero_add]

end GenericTests.Semaphore
