import GenericTests.Lib.Synchronisation
import GenericTests.Semaphore.Control

/-!
# semaphore.c: exactly-once in-order hand-off

The program refines the one-slot channel: the segment is the slot, `snprintf` puts
and the consumer's `printf` takes. Order and uniqueness of the printed messages are
the channel's conservation law.
-/
namespace GenericTests.Semaphore

open GenericTests.CString GenericTests.Transition GenericTests.Synchronisation

/-- 1 once the `snprintf` of the current iteration is done. -/
def ProducerPc.wrote : ProducerPc → Nat
  | .print | .signalFull => 1
  | .waitEmpty | .write | .exit | .exited _ => 0

/-- 1 once the `printf` of the current iteration is done. -/
def ProducerPc.printed : ProducerPc → Nat
  | .signalFull => 1
  | .waitEmpty | .write | .print | .exit | .exited _ => 0

def ConsumerPc.printed : ConsumerPc → Nat
  | .signalEmpty => 1
  | .waitFull | .print | .wait | .shmdt | .shmRmid | .semRmid | .farewell | .exited _ => 0

/-- The channel state a program state stands for. -/
structure Represents (numtrans : CInt) (s : State) (c : OneSlot.State (List Byte)) : Prop where
  control : Control numtrans s
  sent : c.sent = (List.range (s.pi + s.producer.wrote)).map fun k => message (k + 1)
  -- full from the snprintf to the consumer's printf of the same message
  slot : c.slot = if s.pi + s.producer.wrote = s.ci + s.consumer.printed + 1
    then some s.sharedMemory.text else none
  text : s.pi + s.producer.wrote = s.ci + s.consumer.printed + 1 →
    s.sharedMemory.text = message (s.pi + s.producer.wrote)
  received : c.received.length = s.ci + s.consumer.printed
  consumerOut : s.consumerOut = c.received.map readLine
  producerOut : s.producerOut =
    (List.range (s.pi + s.producer.printed)).map fun k => wroteLine (message (k + 1))

theorem ProducerPc.wrote_le_holds (pc : ProducerPc) : pc.wrote ≤ pc.holds := by
  cases pc with
  | print | signalFull => exact Nat.le_refl 1
  | _ => exact Nat.zero_le _

theorem ConsumerPc.printed_le_holds (pc : ConsumerPc) : pc.printed ≤ pc.holds := by
  cases pc with
  | signalEmpty => exact Nat.le_refl 1
  | _ => exact Nat.zero_le _

@[simp] theorem wrote_producerLoop (numtrans : CInt) (i : Nat) :
    (producerLoop numtrans i).wrote = 0 := by
  unfold producerLoop
  split <;> rfl

@[simp] theorem printed_producerLoop (numtrans : CInt) (i : Nat) :
    (producerLoop numtrans i).printed = 0 := by
  unfold producerLoop
  split <;> rfl

@[simp] theorem printed_consumerLoop (numtrans : CInt) (i : Nat) :
    (consumerLoop numtrans i).printed = 0 := by
  unfold consumerLoop
  split <;> rfl

theorem represents_initial (numtrans : CInt) (s : State) (h : Initial numtrans s) :
    Represents numtrans s OneSlot.empty := by
  have control := control_initial numtrans s h
  obtain ⟨-, -, -, ⟨producer, pi, pOut⟩, ⟨consumer, ci, cOut, -⟩⟩ := h
  have hw : s.producer.wrote = 0 := by rw [producer, wrote_producerLoop]
  have hp : s.producer.printed = 0 := by rw [producer, printed_producerLoop]
  have hc : s.consumer.printed = 0 := by rw [consumer, printed_consumerLoop]
  refine ⟨control, ?_, ?_, ?_, ?_, ?_, ?_⟩ <;> simp [OneSlot.empty, hw, hp, hc, pi, ci, pOut, cOut]

/-- The producer's `snprintf` finds the slot empty and fills it. -/
private theorem represents_write {numtrans : CInt} {s : State} {c : OneSlot.State (List Byte)}
    (rep : Represents numtrans s c) (pc : s.producer = .write)
    (control : Control numtrans { s with
      sharedMemory := s.sharedMemory.snprintf (message (s.pi + 1)), producer := .print }) :
    ∃ c', (OneSlot.channel (List Byte)).run c [.put (message (s.pi + 1))] = some c' ∧
      Represents numtrans { s with
        sharedMemory := s.sharedMemory.snprintf (message (s.pi + 1)), producer := .print } c' := by
  obtain ⟨sent, slot, received⟩ := c
  obtain ⟨inv, hsent, hslot, -, hreceived, hcOut, hpOut⟩ := rep
  have token := inv.token
  have lag := inv.lag
  have bound := s.consumer.printed_le_holds
  have limit := inv.producerLoop
  have upper := numtrans.upper
  rw [pc] at token limit hsent hslot hpOut
  simp only [ProducerPc.holds, ProducerPc.looping, if_true] at token limit
  -- The producer has the token, so the consumer is neither signalled nor printing.
  have level : s.pi = s.ci + s.consumer.printed := by omega
  have vacant : slot = none := by
    refine hslot.trans (if_neg ?_)
    simp only [ProducerPc.wrote]
    omega
  have shown : (s.sharedMemory.snprintf (message (s.pi + 1))).text = message (s.pi + 1) :=
    text_snprintf_message _ _ (by omega)
  subst vacant
  refine ⟨_, rfl, control, ?_, ?_, ?_, ?_, ?_, ?_⟩
  · simpa [ProducerPc.wrote, List.range_succ] using hsent
  · have full : s.pi + 1 = s.ci + s.consumer.printed + 1 := by omega
    simp only [ProducerPc.wrote, if_pos full, shown]
  · intro _
    exact shown
  · exact hreceived
  · exact hcOut
  · exact hpOut

/-- The consumer's `printf` finds the slot full and empties it. -/
private theorem represents_read {numtrans : CInt} {s : State} {c : OneSlot.State (List Byte)}
    (rep : Represents numtrans s c) (pc : s.consumer = .print)
    (control : Control numtrans { s with
      consumerOut := s.consumerOut ++ [readLine s.sharedMemory.text], consumer := .signalEmpty }) :
    ∃ c', (OneSlot.channel (List Byte)).run c [.take] = some c' ∧
      Represents numtrans { s with
        consumerOut := s.consumerOut ++ [readLine s.sharedMemory.text],
        consumer := .signalEmpty } c' := by
  obtain ⟨sent, slot, received⟩ := c
  obtain ⟨inv, hsent, hslot, -, hreceived, hcOut, hpOut⟩ := rep
  have token := inv.token
  have lag := inv.lag
  have bound := s.producer.wrote_le_holds
  rw [pc] at token lag hslot hreceived
  simp only [ConsumerPc.holds] at token lag
  -- Now the consumer has it, and the producer cannot have written a second time.
  have level : s.pi + s.producer.wrote = s.ci + 1 := by omega
  have full : slot = some s.sharedMemory.text := hslot.trans (if_pos level)
  subst full
  refine ⟨_, rfl, control, hsent, ?_, ?_, ?_, ?_, hpOut⟩
  · simp [ConsumerPc.printed, level]
  · intro more
    simp only [ConsumerPc.printed] at more
    omega
  · simpa [ConsumerPc.printed] using hreceived
  · simp [hcOut]

theorem represents_step {numtrans : CInt} {s t : State} {c : OneSlot.State (List Byte)}
    (rep : Represents numtrans s c) (h : Moves numtrans s t) :
    ∃ acts c', (OneSlot.channel (List Byte)).run c acts = some c' ∧ Represents numtrans t c' := by
  have control := control_step rep.control h
  -- Only snprintf and the consumer's printf move the channel. The others keep the
  -- represented state, the two signals by moving 1 from wrote or printed to a counter.
  cases h with
  | write pc =>
    obtain ⟨c', hrun, rep'⟩ := represents_write rep pc control
    exact ⟨_, c', hrun, rep'⟩
  | read pc =>
    obtain ⟨c', hrun, rep'⟩ := represents_read rep pc control
    exact ⟨_, c', hrun, rep'⟩
  | wrote pc =>
    have token := rep.control.token
    have lag := rep.control.lag
    have bound := s.consumer.printed_le_holds
    obtain ⟨-, hsent, hslot, htext, hreceived, hcOut, hpOut⟩ := rep
    rw [pc] at token hsent hslot htext hpOut
    simp only [ProducerPc.holds, ProducerPc.wrote] at token htext
    have shown : s.sharedMemory.text = message (s.pi + 1) := htext (by omega)
    refine ⟨[], c, rfl, control, hsent, hslot, htext, hreceived, hcOut, ?_⟩
    simp only [ProducerPc.printed, Nat.add_zero] at hpOut ⊢
    simp [hpOut, shown, List.range_succ]
  | signalFull pc =>
    obtain ⟨-, hsent, hslot, htext, hreceived, hcOut, hpOut⟩ := rep
    simp only [pc, ProducerPc.wrote, ProducerPc.printed] at hsent hslot htext hpOut
    refine ⟨[], c, rfl, control, ?_, ?_, ?_, hreceived, hcOut, ?_⟩
    · simpa only [wrote_producerLoop, Nat.add_zero] using hsent
    · simpa only [wrote_producerLoop, Nat.add_zero] using hslot
    · simpa only [wrote_producerLoop, Nat.add_zero] using htext
    · simpa only [printed_producerLoop, Nat.add_zero] using hpOut
  | signalEmpty pc =>
    obtain ⟨-, hsent, hslot, htext, hreceived, hcOut, hpOut⟩ := rep
    simp only [pc, ConsumerPc.printed] at hslot htext hreceived
    refine ⟨[], c, rfl, control, hsent, ?_, ?_, ?_, hcOut, hpOut⟩
    · simpa only [printed_consumerLoop, Nat.add_zero] using hslot
    · simpa only [printed_consumerLoop, Nat.add_zero] using htext
    · simpa only [printed_consumerLoop, Nat.add_zero] using hreceived
  | waitEmpty pc _ | exit pc =>
    obtain ⟨-, hsent, hslot, htext, hreceived, hcOut, hpOut⟩ := rep
    rw [pc] at hsent hslot htext hpOut
    exact ⟨[], c, rfl, control, hsent, hslot, htext, hreceived, hcOut, hpOut⟩
  | waitFull pc _ | waited pc _ | shmdt pc | shmRmid pc | semRmid pc | farewell pc =>
    obtain ⟨-, hsent, hslot, htext, hreceived, hcOut, hpOut⟩ := rep
    rw [pc] at hslot htext hreceived
    exact ⟨[], c, rfl, control, hsent, hslot, htext, hreceived, hcOut, hpOut⟩

end GenericTests.Semaphore
