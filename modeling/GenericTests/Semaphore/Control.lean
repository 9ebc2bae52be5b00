import GenericTests.Semaphore.Model

/-!
# semaphore.c: control

One token moves between the two semaphores and the two processes. Where it is fixes
the distance between the two loop counters, and with it who can move. Deadlock
freedom and the safety of the cleanup need nothing else.
-/
namespace GenericTests.Semaphore

open GenericTests.CString GenericTests.Transition

/-- 1 between the producer's wait on `empty` and its signal of `full`. -/
def ProducerPc.holds : ProducerPc → Nat
  | .write | .print | .signalFull => 1
  | .waitEmpty | .exit | .exited _ => 0

def ProducerPc.looping : ProducerPc → Bool
  | .waitEmpty | .write | .print | .signalFull => true
  | .exit | .exited _ => false

def ConsumerPc.holds : ConsumerPc → Nat
  | .print | .signalEmpty => 1
  | .waitFull | .wait | .shmdt | .shmRmid | .semRmid | .farewell | .exited _ => 0

def ConsumerPc.looping : ConsumerPc → Bool
  | .waitFull | .print | .signalEmpty => true
  | .wait | .shmdt | .shmRmid | .semRmid | .farewell | .exited _ => false

/-- The consumer's `wait(NULL)` has returned. -/
def ConsumerPc.cleaning : ConsumerPc → Bool
  | .shmdt | .shmRmid | .semRmid | .farewell | .exited _ => true
  | .waitFull | .print | .signalEmpty | .wait => false

structure Control (numtrans : CInt) (s : State) : Prop where
  -- exactly one of the four has the token
  token : s.sems 0 + s.sems 1 + s.producer.holds + s.consumer.holds = 1
  -- the producer is one iteration ahead from its signal of full to the consumer's signal of empty
  lag : s.pi = s.ci + s.sems 1 + s.consumer.holds
  producerLoop : if s.producer.looping then (s.pi : Int) < numtrans.val
    else s.pi = numtrans.val.toNat
  consumerLoop : if s.consumer.looping then (s.ci : Int) < numtrans.val
    else s.ci = numtrans.val.toNat
  producerStatus : ∀ k, s.producer = .exited k → k = 0
  consumerStatus : ∀ k, s.consumer = .exited k → k = 0
  waited : s.consumer.cleaning = true → s.producer = .exited 0
  removed : s.semRemoved = true → s.consumer = .farewell ∨ s.consumer = .exited 0

/-- Everything a step can do while the invariant holds; no `sem_op` fails. -/
inductive Moves (numtrans : CInt) (s : State) : State → Prop where
  | waitEmpty : s.producer = .waitEmpty → s.sems 0 = 1 →
      Moves numtrans s { s with sems := Function.update s.sems 0 0, producer := .write }
  | write : s.producer = .write →
      Moves numtrans s { s with
        sharedMemory := s.sharedMemory.snprintf (message (s.pi + 1)), producer := .print }
  | wrote : s.producer = .print →
      Moves numtrans s { s with
        producerOut := s.producerOut ++ [wroteLine s.sharedMemory.text], producer := .signalFull }
  | signalFull : s.producer = .signalFull →
      Moves numtrans s { s with
        sems := Function.update s.sems 1 (s.sems 1 + 1), pi := s.pi + 1,
        producer := producerLoop numtrans (s.pi + 1) }
  | exit : s.producer = .exit → Moves numtrans s { s with producer := .exited 0 }
  | waitFull : s.consumer = .waitFull → s.sems 1 = 1 →
      Moves numtrans s { s with sems := Function.update s.sems 1 0, consumer := .print }
  | read : s.consumer = .print →
      Moves numtrans s { s with
        consumerOut := s.consumerOut ++ [readLine s.sharedMemory.text], consumer := .signalEmpty }
  | signalEmpty : s.consumer = .signalEmpty →
      Moves numtrans s { s with
        sems := Function.update s.sems 0 (s.sems 0 + 1), ci := s.ci + 1,
        consumer := consumerLoop numtrans (s.ci + 1) }
  | waited : s.consumer = .wait → s.producer = .exited 0 →
      Moves numtrans s { s with consumer := .shmdt }
  | shmdt : s.consumer = .shmdt → Moves numtrans s { s with consumer := .shmRmid }
  | shmRmid : s.consumer = .shmRmid →
      Moves numtrans s { s with shmRemoved := true, consumer := .semRmid }
  | semRmid : s.consumer = .semRmid →
      Moves numtrans s { s with semRemoved := true, consumer := .farewell }
  | farewell : s.consumer = .farewell →
      Moves numtrans s { s with
        cleanupOut := s.cleanupOut ++ [cleanedUpLine], consumer := .exited 0 }

/-- A set that is still used has not been removed. -/
theorem Control.not_removed {numtrans : CInt} {s : State} (inv : Control numtrans s)
    (h : s.producer.looping = true ∨ s.consumer.looping = true) : s.semRemoved = false := by
  cases hr : s.semRemoved with
  | false => rfl
  | true =>
    have late := inv.removed hr
    -- The set goes after wait(NULL), so both processes are past their loops.
    have gone : s.producer = .exited 0 := inv.waited (by rcases late with e | e <;> rw [e] <;> rfl)
    rcases h with h | h
    · rw [gone] at h
      cases h
    · rcases late with e | e <;> rw [e] at h <;> cases h

private theorem semOp_wait {numtrans : CInt} {s t failed : State} (inv : Control numtrans s)
    (k : Fin 6) (small : s.sems k ≤ 1) (next : Sems → State)
    (h : s.producer.looping = true ∨ s.consumer.looping = true)
    (hs : semOp s k (-1) failed next = some t) :
    s.sems k = 1 ∧ t = next (Function.update s.sems k 0) := by
  simp only [semOp, inv.not_removed h, semop_wait] at hs
  by_cases zero : s.sems k = 0
  · simp [zero] at hs
  · have one : s.sems k = 1 := by omega
    have bound : ¬ semvmx + 1 < 1 := by decide
    simp only [one, Nat.one_ne_zero, if_false, bound, Nat.sub_self, Option.some.injEq] at hs
    exact ⟨one, hs.symm⟩

private theorem semOp_signal {numtrans : CInt} {s t failed : State} (inv : Control numtrans s)
    (k : Fin 6) (small : s.sems k ≤ 1) (next : Sems → State)
    (h : s.producer.looping = true ∨ s.consumer.looping = true)
    (hs : semOp s k 1 failed next = some t) :
    t = next (Function.update s.sems k (s.sems k + 1)) := by
  have bound : ¬ semvmx < s.sems k + 1 := by simp only [semvmx]; omega
  simp only [semOp, inv.not_removed h, semop_signal, bound, if_false, Option.some.injEq] at hs
  exact hs.symm

theorem step_cases {numtrans : CInt} {s t : State} {a : Act} (inv : Control numtrans s)
    (hs : step numtrans s a = some t) : Moves numtrans s t := by
  have token := inv.token
  -- With a single token no semaphore comes near SEMVMX.
  have small : s.sems 0 ≤ 1 ∧ s.sems 1 ≤ 1 := ⟨by omega, by omega⟩
  cases a with
  | producer =>
    simp only [step, producerStep] at hs
    cases pc : s.producer with
    | waitEmpty =>
      rw [pc] at hs
      obtain ⟨one, rfl⟩ := semOp_wait inv 0 small.1 _ (.inl (by rw [pc]; rfl)) hs
      exact .waitEmpty pc one
    | write =>
      rw [pc] at hs
      cases Option.some.inj hs
      exact .write pc
    | print =>
      rw [pc] at hs
      cases Option.some.inj hs
      exact .wrote pc
    | signalFull =>
      rw [pc] at hs
      cases semOp_signal inv 1 small.2 _ (.inl (by rw [pc]; rfl)) hs
      exact .signalFull pc
    | exit =>
      rw [pc] at hs
      cases Option.some.inj hs
      exact .exit pc
    | exited k =>
      rw [pc] at hs
      cases hs
  | consumer =>
    simp only [step, consumerStep] at hs
    cases pc : s.consumer with
    | waitFull =>
      rw [pc] at hs
      obtain ⟨one, rfl⟩ := semOp_wait inv 1 small.2 _ (.inr (by rw [pc]; rfl)) hs
      exact .waitFull pc one
    | print =>
      rw [pc] at hs
      cases Option.some.inj hs
      exact .read pc
    | signalEmpty =>
      rw [pc] at hs
      cases semOp_signal inv 0 small.1 _ (.inr (by rw [pc]; rfl)) hs
      exact .signalEmpty pc
    | wait =>
      rw [pc] at hs
      dsimp only at hs
      split at hs
      next k gone =>
        -- wait(NULL) accepts any status; the invariant leaves only 0
        cases Option.some.inj hs
        exact .waited pc (inv.producerStatus k gone ▸ gone)
      next => cases hs
    | shmdt =>
      rw [pc] at hs
      cases Option.some.inj hs
      exact .shmdt pc
    | shmRmid =>
      rw [pc] at hs
      cases Option.some.inj hs
      exact .shmRmid pc
    | semRmid =>
      rw [pc] at hs
      cases Option.some.inj hs
      exact .semRmid pc
    | farewell =>
      rw [pc] at hs
      cases Option.some.inj hs
      exact .farewell pc
    | exited k =>
      rw [pc] at hs
      cases hs

theorem control_initial (numtrans : CInt) (s : State) (h : Initial numtrans s) :
    Control numtrans s := by
  obtain ⟨empty, full, ⟨present, -⟩, ⟨producer, pi, -⟩, ⟨consumer, ci, -⟩⟩ := h
  -- With numtrans ≤ 0 neither process enters its loop.
  by_cases positive : 0 < numtrans.val
  · have hp : s.producer = .waitEmpty := by simpa [producerLoop, positive] using producer
    have hc : s.consumer = .waitFull := by simpa [consumerLoop, positive] using consumer
    constructor <;> simp [hp, hc, empty, full, pi, ci, present, positive, ProducerPc.holds,
      ConsumerPc.holds, ProducerPc.looping, ConsumerPc.looping, ConsumerPc.cleaning]
  · have hp : s.producer = .exit := by simpa [producerLoop, positive] using producer
    have hc : s.consumer = .wait := by simpa [consumerLoop, positive] using consumer
    have none : numtrans.val.toNat = 0 := by omega
    constructor <;> simp [hp, hc, empty, full, pi, ci, present, none, ProducerPc.holds,
      ConsumerPc.holds, ProducerPc.looping, ConsumerPc.looping, ConsumerPc.cleaning]

/-! ### The loop test -/

@[simp] theorem holds_producerLoop (numtrans : CInt) (i : Nat) :
    (producerLoop numtrans i).holds = 0 := by
  unfold producerLoop
  split <;> rfl

@[simp] theorem holds_consumerLoop (numtrans : CInt) (i : Nat) :
    (consumerLoop numtrans i).holds = 0 := by
  unfold consumerLoop
  split <;> rfl

@[simp] theorem cleaning_consumerLoop (numtrans : CInt) (i : Nat) :
    (consumerLoop numtrans i).cleaning = false := by
  unfold consumerLoop
  split <;> rfl

theorem producerLoop_ne_exited (numtrans : CInt) (i k : Nat) :
    producerLoop numtrans i ≠ .exited k := by
  unfold producerLoop
  split <;> simp

theorem consumerLoop_ne_exited (numtrans : CInt) (i k : Nat) :
    consumerLoop numtrans i ≠ .exited k := by
  unfold consumerLoop
  split <;> simp

/-- The counter stops exactly at `max(numtrans, 0)`. -/
private theorem producerLoop_count (numtrans : CInt) (i : Nat) (h : (i : Int) < numtrans.val) :
    if (producerLoop numtrans (i + 1)).looping then ((i + 1 : Nat) : Int) < numtrans.val
    else i + 1 = numtrans.val.toNat := by
  unfold producerLoop
  split
  next more => exact more
  next done =>
    change i + 1 = numtrans.val.toNat
    omega

private theorem consumerLoop_count (numtrans : CInt) (i : Nat) (h : (i : Int) < numtrans.val) :
    if (consumerLoop numtrans (i + 1)).looping then ((i + 1 : Nat) : Int) < numtrans.val
    else i + 1 = numtrans.val.toNat := by
  unfold consumerLoop
  split
  next more => exact more
  next done =>
    change i + 1 = numtrans.val.toNat
    omega

/-! ### Every step keeps the invariant -/

@[simp] theorem update_empty_full (sems : Sems) (v : Nat) :
    Function.update sems 0 v 1 = sems 1 := Function.update_of_ne (by decide) v sems

@[simp] theorem update_full_empty (sems : Sems) (v : Nat) :
    Function.update sems 1 v 0 = sems 0 := Function.update_of_ne (by decide) v sems

theorem control_step {numtrans : CInt} {s t : State} (inv : Control numtrans s)
    (h : Moves numtrans s t) : Control numtrans t := by
  obtain ⟨sems, semRemoved, shm, shmRemoved, producer, pi, pOut, consumer, ci, cOut, clOut⟩ := s
  obtain ⟨token, lag, pLoop, cLoop, pStatus, cStatus, waited, removed⟩ := inv
  dsimp only at token lag pLoop cLoop pStatus cStatus waited removed
  -- Only the four semaphore operations touch the token; in the other cases every
  -- field but the ones about program counters is inherited.
  cases h with
  | waitEmpty pc one =>
    cases pc
    have one : sems 0 = 1 := one
    have token : sems 0 + sems 1 + 0 + consumer.holds = 1 := token
    refine ⟨?_, ?_, pLoop, cLoop, nofun, cStatus, fun late => absurd (waited late) nofun, removed⟩
    · change Function.update sems 0 0 0 + Function.update sems 0 0 1 + 1 + consumer.holds = 1
      simp only [Function.update_self, update_empty_full]
      omega
    · simpa using lag
  | write pc =>
    cases pc
    exact ⟨token, lag, pLoop, cLoop, nofun, cStatus, fun late => absurd (waited late) nofun, removed⟩
  | wrote pc =>
    cases pc
    exact ⟨token, lag, pLoop, cLoop, nofun, cStatus, fun late => absurd (waited late) nofun, removed⟩
  | signalFull pc =>
    cases pc
    have token : sems 0 + sems 1 + 1 + consumer.holds = 1 := token
    refine ⟨?_, ?_, producerLoop_count numtrans pi pLoop, cLoop,
      fun k e => absurd e (producerLoop_ne_exited numtrans _ k), cStatus,
      fun late => absurd (waited late) nofun, removed⟩
    · simp only [Function.update_self, update_full_empty, holds_producerLoop]
      omega
    · simp only [Function.update_self]
      omega
  | exit pc =>
    cases pc
    exact ⟨token, lag, pLoop, cLoop, fun k e => by cases e; rfl, cStatus, fun _ => rfl, removed⟩
  | waitFull pc one =>
    cases pc
    have one : sems 1 = 1 := one
    have token : sems 0 + sems 1 + producer.holds + 0 = 1 := token
    have lag : pi = ci + sems 1 + 0 := lag
    refine ⟨?_, ?_, pLoop, cLoop, pStatus, nofun, nofun, fun gone => ?_⟩
    · change Function.update sems 1 0 0 + Function.update sems 1 0 1 + producer.holds + 1 = 1
      simp only [Function.update_self, update_full_empty]
      omega
    · change pi = ci + Function.update sems 1 0 1 + 1
      simp only [Function.update_self]
      omega
    · rcases removed gone with e | e <;> cases e
  | read pc =>
    cases pc
    refine ⟨token, lag, pLoop, cLoop, pStatus, nofun, nofun, fun gone => ?_⟩
    rcases removed gone with e | e <;> cases e
  | signalEmpty pc =>
    cases pc
    have token : sems 0 + sems 1 + producer.holds + 1 = 1 := token
    have lag : pi = ci + sems 1 + 1 := lag
    refine ⟨?_, ?_, pLoop, consumerLoop_count numtrans ci cLoop, pStatus,
      fun k e => absurd e (consumerLoop_ne_exited numtrans _ k), fun late => ?_, fun gone => ?_⟩
    · simp only [Function.update_self, update_empty_full, holds_consumerLoop]
      omega
    · simp only [update_empty_full, holds_consumerLoop]
      omega
    · simp at late
    · rcases removed gone with e | e <;> cases e
  | waited pc gone =>
    cases pc
    refine ⟨token, lag, pLoop, cLoop, pStatus, nofun, fun _ => gone, fun hr => ?_⟩
    rcases removed hr with e | e <;> cases e
  | shmdt pc =>
    cases pc
    refine ⟨token, lag, pLoop, cLoop, pStatus, nofun, fun _ => waited rfl, fun hr => ?_⟩
    rcases removed hr with e | e <;> cases e
  | shmRmid pc =>
    cases pc
    refine ⟨token, lag, pLoop, cLoop, pStatus, nofun, fun _ => waited rfl, fun hr => ?_⟩
    rcases removed hr with e | e <;> cases e
  | semRmid pc =>
    cases pc
    exact ⟨token, lag, pLoop, cLoop, pStatus, nofun, fun _ => waited rfl, fun _ => .inl rfl⟩
  | farewell pc =>
    cases pc
    exact ⟨token, lag, pLoop, cLoop, pStatus, fun k e => by cases e; rfl, fun _ => waited rfl,
      fun _ => .inr rfl⟩

theorem control_reachable (numtrans : CInt) (s : State) (h : (system numtrans).Reachable s) :
    Control numtrans s :=
  (system numtrans).reachable_invariant (Control numtrans) (control_initial numtrans)
    (fun _ _ _ inv hs => control_step inv (step_cases inv hs)) s h

/-! ### Progress -/

/-- Only an operation that would make a value negative blocks. -/
private theorem semOp_enabled (s failed : State) (k : Fin 6) (op : Int) (next : Sems → State)
    (nonzero : op ≠ 0) (room : 0 ≤ (s.sems k : Int) + op) :
    ∃ t, semOp s k op failed next = some t := by
  have below : ¬ ((s.sems k : Int) + op < 0) := by omega
  simp only [semOp, semop, nonzero, below, if_false]
  cases s.semRemoved with
  | true => exact ⟨failed, rfl⟩
  | false =>
    by_cases large : (semvmx : Int) < s.sems k + op
    · exact ⟨failed, by simp [large]⟩
    · simp [large]

/-- A producer that holds the token, or finds it in `empty`, can move. -/
private theorem producer_enabled (numtrans : CInt) (s : State)
    (h : s.producer.holds = 1 ∨ s.producer = .waitEmpty ∧ s.sems 0 = 1 ∨ s.producer = .exit) :
    ∃ t, producerStep numtrans s = some t := by
  unfold producerStep
  cases pc : s.producer with
  | waitEmpty =>
    have one : s.sems 0 = 1 := by simpa [pc, ProducerPc.holds] using h
    exact semOp_enabled s _ 0 (-1) _ (by decide) (by omega)
  | write => exact ⟨_, rfl⟩
  | print => exact ⟨_, rfl⟩
  | signalFull => exact semOp_enabled s _ 1 1 _ (by decide) (by omega)
  | exit => exact ⟨_, rfl⟩
  | exited k => simp [pc, ProducerPc.holds] at h

theorem enabled_of_control (numtrans : CInt) (s : State) (inv : Control numtrans s)
    (busy : s.consumer ≠ .exited 0) : (system numtrans).Enabled s := by
  have token := inv.token
  have lag := inv.lag
  have pLoop := inv.producerLoop
  have cLoop := inv.consumerLoop
  have byProducer : (∃ t, producerStep numtrans s = some t) → (system numtrans).Enabled s :=
    fun ⟨t, ht⟩ => ⟨.producer, t, ht⟩
  have byConsumer : (∃ t, consumerStep numtrans s = some t) → (system numtrans).Enabled s :=
    fun ⟨t, ht⟩ => ⟨.consumer, t, ht⟩
  cases pc : s.consumer with
  | waitFull =>
    simp only [pc, ConsumerPc.holds, ConsumerPc.looping, if_true] at token lag cLoop
    by_cases full : s.sems 1 = 0
    · -- The slot is empty, so the counters agree and the producer is inside its loop.
      apply byProducer
      apply producer_enabled
      cases hp : s.producer with
      | waitEmpty =>
        simp only [hp, ProducerPc.holds] at token
        exact .inr (.inl ⟨rfl, by omega⟩)
      | write => exact .inl rfl
      | print => exact .inl rfl
      | signalFull => exact .inl rfl
      | exit => exact .inr (.inr rfl)
      | exited k =>
        simp only [hp, ProducerPc.looping, Bool.false_eq_true, if_false] at pLoop
        omega
    · -- The token is in full.
      apply byConsumer
      simp only [consumerStep, pc]
      exact semOp_enabled s _ 1 (-1) _ (by decide) (by omega)
  | print => exact byConsumer ⟨_, by simp only [consumerStep, pc]; rfl⟩
  | signalEmpty =>
    apply byConsumer
    simp only [consumerStep, pc]
    exact semOp_enabled s _ 0 1 _ (by decide) (by omega)
  | wait =>
    simp only [pc, ConsumerPc.holds, ConsumerPc.looping, Bool.false_eq_true, if_false] at lag cLoop
    cases hp : s.producer with
    | exit => exact byProducer (producer_enabled numtrans s (.inr (.inr hp)))
    | exited k => exact byConsumer ⟨_, by simp only [consumerStep, pc, hp]; rfl⟩
    | waitEmpty | write | print | signalFull =>
      -- The consumer has done all iterations, and the producer is never behind it.
      simp only [hp, ProducerPc.looping, if_true] at pLoop
      omega
  | shmdt => exact byConsumer ⟨_, by simp only [consumerStep, pc]; rfl⟩
  | shmRmid => exact byConsumer ⟨_, by simp only [consumerStep, pc]; rfl⟩
  | semRmid => exact byConsumer ⟨_, by simp only [consumerStep, pc]; rfl⟩
  | farewell => exact byConsumer ⟨_, by simp only [consumerStep, pc]; rfl⟩
  | exited k => exact absurd (inv.consumerStatus k pc ▸ pc) busy

/-- **No deadlock and safe cleanup**: in every reachable state the two semaphores hold
at most one token, some process can move until the consumer has finished, and the
shared resources are removed only after the producer made its last `sem_op`, so no
`sem_op` ever fails. -/
theorem deadlock_free_and_safe_cleanup (numtrans : CInt) (s : State)
    (h : (system numtrans).Reachable s) :
    s.sems 0 + s.sems 1 ≤ 1 ∧
    (s.consumer ≠ .exited 0 → (system numtrans).Enabled s) ∧
    (s.consumer = .shmRmid ∨ s.consumer = .semRmid →
      s.producer = .exited 0 ∧ s.pi = numtrans.val.toNat) ∧
    (s.semRemoved = true → s.producer.looping = false ∧ s.consumer.looping = false) ∧
    (∀ k, s.producer = .exited k ∨ s.consumer = .exited k → k = 0) := by
  have inv := control_reachable numtrans s h
  refine ⟨?_, enabled_of_control numtrans s inv, ?_, ?_, ?_⟩
  · have token := inv.token
    omega
  · intro removing
    have gone : s.producer = .exited 0 :=
      inv.waited (by rcases removing with pc | pc <;> rw [pc] <;> rfl)
    have count := inv.producerLoop
    rw [gone] at count
    exact ⟨gone, count⟩
  · intro removed
    have unused : ¬ (s.producer.looping = true ∨ s.consumer.looping = true) := by
      intro used
      have := inv.not_removed used
      simp [removed] at this
    simpa using unused
  · rintro k (e | e)
    · exact inv.producerStatus k e
    · exact inv.consumerStatus k e

theorem cleanup_after_one_message :
    ∃ s, (system ⟨1, by decide, by decide⟩).Reachable s ∧ s.consumer = .shmRmid ∧
      s.producer = .exited 0 ∧ s.pi = 1 := by
  have reached : (system ⟨1, by decide, by decide⟩).Reachable _ :=
    ⟨forked _, [.producer, .producer, .producer, .producer, .consumer, .consumer, .consumer,
      .producer, .consumer, .consumer], initial_forked _, rfl⟩
  exact ⟨_, reached, rfl, (deadlock_free_and_safe_cleanup _ _ reached).2.2.1 (.inl rfl)⟩

end GenericTests.Semaphore
