import GenericTests.Pthread.OwnIds
import Mathlib.Algebra.Order.BigOperators.Group.Finset

/-!
# pthread.c and spawnthreads: every run ends

Every thread makes seven steps and the creator a fixed number for each thread, so all runs to the
end are equally long; only a failed `malloc` ends a run before. A thread says that it runs and that
it is ready before the creator says that it was joined.
-/
namespace GenericTests.Pthread

open GenericTests.Transition Finset

/-- What a line says about a thread. -/
inductive Event where
  | running
  | ready
  | joined

/-- What the line says about thread `k`. -/
def Line.about (k : Nat) : Line → Option Event
  | .willCreate _ => none
  | .running threadId _ => if threadId = k + 1 then some .running else none
  | .ready threadId => if threadId = k + 1 then some .ready else none
  | .joined thread _ _ => if thread = k then some .joined else none

def State.told (s : State) (k : Nat) : List Event := s.out.filterMap (Line.about k)

/-- The steps a thread has to make. -/
def ThreadPc.left : ThreadPc → Nat
  | .readId => 7
  | .malloc => 6
  | .print => 5
  | .sleep => 4
  | .printReady => 3
  | .write => 2
  | .exit => 1
  | .exited | .joined => 0

/-- What a thread has said about itself. -/
def ThreadPc.said : ThreadPc → List Event
  | .readId | .malloc | .print => []
  | .sleep | .printReady => [.running]
  | .write | .exit | .exited | .joined => [.running, .ready]

def threadLeft : Option Thread → Nat
  | some t => t.pc.left
  | none => ThreadPc.readId.left

def threadSaid : Option Thread → List Event
  | some t => t.pc.said
  | none => []

/-- Only pthread.c puts the blank back. -/
def Source.unindents : Source → Nat
  | .pthread => 1
  | .spawnthreads => 0

/-- The steps of one iteration of the join loop. -/
def Source.joinSteps (src : Source) : Nat := 4 + 2 * src.unindents

/-- The steps the creator has to make. -/
def Pc.left (src : Source) (n : Nat) : Pc → Nat
  | .createTest i => 3 * (n - i) + 1 + (src.joinSteps * n + 1)
  | .writeSlot i => 2 + (3 * (n - (i + 1)) + 1) + (src.joinSteps * n + 1)
  | .create i => 1 + (3 * (n - (i + 1)) + 1) + (src.joinSteps * n + 1)
  | .joinTest i => src.joinSteps * (n - i) + 1
  | .indent i => 4 + src.unindents + (src.joinSteps * (n - (i + 1)) + 1)
  | .join i => 3 + src.unindents + (src.joinSteps * (n - (i + 1)) + 1)
  | .print i _ => 2 + src.unindents + (src.joinSteps * (n - (i + 1)) + 1)
  | .free i _ => 1 + src.unindents + (src.joinSteps * (n - (i + 1)) + 1)
  | .unindent i => 1 + (src.joinSteps * (n - (i + 1)) + 1)
  | .done => 0

/-- The steps that are left in a run that does not crash. -/
def stepsLeft (src : Source) (n : Nat) (s : State) : Nat :=
  s.pc.left src n + ∑ k ∈ range n, threadLeft (s.thread k)

/-- The steps of a whole run. -/
def allSteps (src : Source) (n : Nat) : Nat := (10 + src.joinSteps) * n + 2

/-! ### One step -/

/-- What a step of thread `k` does. -/
inductive ThreadMoves (k : Nat) (t : Thread) (ok : Bool) (s s' : State) : Prop where
  | crash (pc : t.pc = .write) (null : t.exitval = none) (same : s' = { s with crashed := true })
  | on (t' : Thread) (lines : List Line) (alive : s'.crashed = s.crashed) (creator : s'.pc = s.pc)
      (thread : s'.thread = Function.update s.thread k (some t'))
      (out : s'.out = s.out ++ lines) (left : t'.pc.left + 1 = t.pc.left)
      (said : t'.pc.said = t.pc.said ++ lines.filterMap (Line.about k))
      (others : ∀ j, j ≠ k → lines.filterMap (Line.about j) = [])
      (null : t'.exitval = none → t'.pc = .malloc ∨ ok = false ∨
        t.exitval = none ∧ t.pc ≠ .readId ∧ t.pc ≠ .malloc)

section Steps

variable {src : Source} {s s' : State} {k : Nat} {t : Thread} {ok : Bool}

theorem threadStep_moves (id : t.pc ≠ .readId → t.threadId = k + 1)
    (moved : threadStep src s k t ok = some s') : ThreadMoves k t ok s s' := by
  cases pc : t.pc with
  | readId =>
    simp only [threadStep, pc, Option.some.injEq] at moved
    subst moved
    exact .on _ [] rfl rfl rfl (List.append_nil _).symm (by simp only [pc]; rfl) (by simp only [pc]; rfl)
      (fun _ _ => rfl) fun _ => .inl rfl
  | malloc =>
    cases ok with
    | true =>
      simp only [threadStep, pc, if_true, Option.some.injEq] at moved
      subst moved
      exact .on _ [] rfl rfl rfl (List.append_nil _).symm (by simp only [pc]; rfl)
        (by simp only [pc]; rfl) (fun _ _ => rfl) nofun
    | false =>
      simp only [threadStep, pc, Bool.false_eq_true, if_false, Option.some.injEq] at moved
      subst moved
      exact .on _ [] rfl rfl rfl (List.append_nil _).symm (by simp only [pc]; rfl)
        (by simp only [pc]; rfl) (fun _ _ => rfl) fun _ => .inr (.inl rfl)
  | print | printReady =>
    have mine : t.threadId = k + 1 := id (by rw [pc]; nofun)
    simp only [threadStep, pc, Option.some.injEq] at moved
    subst moved
    refine .on _ [_] rfl rfl rfl rfl (by simp only [pc]; rfl) ?_ (fun j other => ?_)
      fun none_held => .inr (.inr ⟨none_held, by rw [pc]; nofun, by rw [pc]; nofun⟩)
    · simp [pc, ThreadPc.said, Line.about, mine]
    · have : (k : Int) + 1 ≠ j + 1 := by omega
      simp [Line.about, mine, this]
  | sleep | exit =>
    simp only [threadStep, pc, Option.some.injEq] at moved
    subst moved
    exact .on _ [] rfl rfl rfl (List.append_nil _).symm (by simp only [pc]; rfl) (by simp only [pc]; rfl)
      (fun _ _ => rfl) fun none_held => .inr (.inr ⟨none_held, by rw [pc]; nofun, by rw [pc]; nofun⟩)
  | write =>
    simp only [threadStep, pc] at moved
    split at moved
    next b held =>
      cases moved
      exact .on _ [] rfl rfl rfl (List.append_nil _).symm (by simp only [pc]; rfl)
        (by simp only [pc]; rfl) (fun _ _ => rfl) fun none_held => nomatch held.symm.trans none_held
    next null =>
      cases moved
      exact .crash pc null rfl
  | exited | joined =>
    simp only [threadStep, pc] at moved
    cases moved

/-- What a step of the creator does. -/
structure CreatorMoves (src : Source) (n : Nat) (s s' : State) : Prop where
  alive : s'.crashed = s.crashed
  left : s'.pc.left src n + 1 = s.pc.left src n
  /-- it neither runs nor speaks for a thread -/
  threads : ∀ j, threadLeft (s'.thread j) = threadLeft (s.thread j) ∧
    threadSaid (s'.thread j) = threadSaid (s.thread j)
  null : ∀ j u, s'.thread j = some u → u.exitval = none → u.pc = .readId ∨ s.thread j = some u
  lines : ∃ lines, s'.out = s.out ++ lines ∧ s.pc.printed n ≤ s'.pc.printed n ∧
    ∀ j, lines.filterMap (Line.about j) =
      if s.pc.printed n ≤ j ∧ j < s'.pc.printed n then [.joined] else []

/-- A step that only goes from one place to another. -/
theorem creatorMoves_of_silent {n : Nat} (alive : s'.crashed = s.crashed)
    (thread : s'.thread = s.thread) (out : s'.out = s.out)
    (left : s'.pc.left src n + 1 = s.pc.left src n)
    (printed : s'.pc.printed n = s.pc.printed n) : CreatorMoves src n s s' := by
  refine ⟨alive, left, fun j => by rw [thread]; exact ⟨rfl, rfl⟩,
    fun j u there _ => .inr (thread ▸ there), [], ?_, printed.ge, fun j => ?_⟩
  · rw [out, List.append_nil]
  · rw [printed, if_neg (by omega)]
    rfl

/-- What an iteration of the join loop takes away. -/
theorem joinSteps_mul (src : Source) {i n : Nat} (less : i < n) :
    src.joinSteps * (n - i) = 4 + 2 * src.unindents + src.joinSteps * (n - (i + 1)) := by
  have next : n - i = n - (i + 1) + 1 := by omega
  rw [next, Nat.mul_succ, Nat.add_comm]
  rfl

theorem creatorStep_moves {count : Int} (inv : Inv count.toNat s.pc s)
    (moved : creatorStep src count s = some s') : CreatorMoves src count.toNat s s' := by
  cases pc : s.pc with
  | createTest i =>
    rw [pc] at inv
    have range : i ≤ count.toNat := inv.range
    simp only [creatorStep, pc, Option.some.injEq] at moved
    subst moved
    by_cases more : (i : Int) < count
    · refine creatorMoves_of_silent rfl rfl rfl ?_ ?_
      · simp only [pc, if_pos more, Pc.left]
        omega
      · simp only [pc, if_pos more, Pc.printed]
    · refine creatorMoves_of_silent rfl rfl rfl ?_ ?_
      · simp only [pc, if_neg more, Pc.left, Nat.sub_zero]
        omega
      · simp only [pc, if_neg more, Pc.printed]
  | joinTest i =>
    rw [pc] at inv
    have range : i ≤ count.toNat := inv.range
    simp only [creatorStep, pc, Option.some.injEq] at moved
    subst moved
    by_cases more : (i : Int) < count
    · have steps := joinSteps_mul src (show i < count.toNat by omega)
      refine creatorMoves_of_silent rfl rfl rfl ?_ ?_
      · simp only [pc, if_pos more]
        cases src <;> simp only [Pc.left, Source.unindents] at steps ⊢ <;> omega
      · simp only [pc, if_pos more]
        cases src <;> rfl
    · have none_left : count.toNat - i = 0 := by omega
      refine creatorMoves_of_silent rfl rfl rfl ?_ ?_
      · simp only [pc, if_neg more, Pc.left, none_left, Nat.mul_zero]
      · simp only [pc, if_neg more, Pc.printed]
        omega
  | writeSlot i | indent i | unindent i =>
    simp only [creatorStep, pc, Option.some.injEq] at moved
    subst moved
    refine creatorMoves_of_silent rfl rfl rfl ?_ ?_
    · simp only [pc, Pc.left]
      omega
    · simp only [pc, Pc.printed]
  | create i =>
    -- a thread that does not exist has all its steps to make, and has said nothing
    have fresh : s.thread s.created = none := by
      have absent := mt (inv.present s.created).mp (Nat.lt_irrefl _)
      simpa using absent
    simp only [creatorStep, pc, Option.some.injEq] at moved
    subst moved
    refine ⟨rfl, ?_, fun j => ?_, fun j u there _ => ?_, [], (List.append_nil _).symm, ?_, fun j => ?_⟩
    · simp only [pc, Pc.left]
      omega
    · by_cases new : j = s.created
      · simp [new, fresh, threadLeft, threadSaid, ThreadPc.said]
      · simp [new]
    · by_cases new : j = s.created
      · rw [new] at there
        simp only [Function.update_self, Option.some.injEq] at there
        rw [← there]
        exact .inl rfl
      · simp only [Function.update_of_ne new] at there
        exact .inr there
    · simp only [pc, Pc.printed, Nat.le_refl]
    · simp [pc, Pc.printed]
  | join i =>
    simp only [creatorStep, pc] at moved
    split at moved
    next t present =>
      split at moved
      next exited =>
        have holds := (inv.threads _ t present).written (by rw [exited]; rfl)
        cases moved
        refine ⟨rfl, ?_, fun j => ?_, fun j u there none_held => ?_, [], (List.append_nil _).symm, ?_,
          fun j => ?_⟩
        · simp only [pc, Pc.left]
          omega
        · by_cases here : j = s.threads i
          · simp [here, present, exited, State.setThread, threadLeft, threadSaid, ThreadPc.said,
              ThreadPc.left]
          · simp [here, State.setThread]
        · by_cases here : j = s.threads i
          · rw [here] at there
            simp only [State.setThread, Function.update_self, Option.some.injEq] at there
            rw [← there] at none_held
            rw [none_held] at holds
            cases holds
          · simp only [State.setThread, Function.update_of_ne here] at there
            exact .inr there
        · simp only [pc, Pc.printed, Nat.le_refl]
        · simp [pc, Pc.printed]
      next => cases moved
    next => cases moved
  | print i p =>
    rw [pc] at inv
    have handle := inv.handle rfl inv.range
    simp only [creatorStep, pc, load_status inv, Option.some.injEq] at moved
    subst moved
    refine ⟨rfl, ?_, fun j => ⟨rfl, rfl⟩, fun j u there _ => .inr there, _, rfl, ?_, fun j => ?_⟩
    · simp only [pc, Pc.left]
      omega
    · simp only [pc, Pc.printed, Nat.le_succ]
    · have line (status : Int) (pad : List UInt8) :
          [Line.joined i status pad].filterMap (Line.about j) =
            if i ≤ j ∧ j < i + 1 then [.joined] else [] := by
        by_cases here : i = j
        · simp [Line.about, here]
        · have apart : ¬(i ≤ j ∧ j < i + 1) := by omega
          simp only [List.filterMap_cons, Line.about, if_neg here, if_neg apart, List.filterMap_nil]
      simp only [pc, Pc.printed, handle]
      cases src <;> exact line _ _
  | free i p =>
    simp only [creatorStep, pc, Option.some.injEq] at moved
    subst moved
    refine creatorMoves_of_silent rfl rfl rfl ?_ ?_
    · cases src <;> simp only [pc, Pc.left, Source.unindents] <;> omega
    · cases src <;> simp only [pc, Pc.printed]
  | done =>
    simp only [creatorStep, pc] at moved
    cases moved

end Steps

/-! ### Whole runs -/

/-- The invariant of a run. -/
structure Progress (src : Source) (n : Nat) (acts : List Act) (s : State) : Prop where
  inv : Inv n s.pc s
  steps : s.crashed = false → acts.length + stepsLeft src n s = allSteps src n
  early : s.crashed = true → acts.length < allSteps src n
  told : ∀ k, s.told k = threadSaid (s.thread k) ++ if k < s.pc.printed n then [.joined] else []
  /-- a thread without a block has seen `malloc` fail -/
  null : ∀ k t, s.thread k = some t → t.exitval = none →
    t.pc = .readId ∨ t.pc = .malloc ∨ .thread k false ∈ acts

theorem progress_initial (src : Source) (count : Int) (s : State) (start : (system src count).init s) :
    Progress src count.toNat [] s := by
  obtain ⟨threadIds, threads, rfl⟩ := start
  refine ⟨inv_initial src count threadIds threads, fun _ => ?_, nofun, fun k => ?_, nofun⟩
  · have threads : ∑ _k ∈ range count.toNat, threadLeft none = count.toNat * 7 := by
      rw [sum_const_nat fun _ _ => rfl, card_range]
      rfl
    simp only [stepsLeft, initial, threads, Pc.left, allSteps, List.length_nil, Nat.add_mul]
    omega
  · cases src <;> simp [State.told, initial, Line.about, threadSaid, Pc.printed]

theorem Pc.made_le {n : Nat} {c : Pc} (range : c.InRange n) : c.made n ≤ n := by
  cases c <;> simp only [Pc.InRange, Pc.made] at range ⊢ <;> omega

theorem Pc.printed_le_joined (n : Nat) (c : Pc) : c.printed n ≤ c.joined n := by
  cases c <;> simp [Pc.printed, Pc.joined]

section Runs

variable {src : Source} {n : Nat} {acts : List Act} {s s' : State}

/-- The steps of a thread that is there count. -/
theorem left_le_stepsLeft (src : Source) {k : Nat} {t : Thread} (inv : Inv n s.pc s)
    (present : s.thread k = some t) : k < n ∧ t.pc.left ≤ stepsLeft src n s := by
  have less : k < n := by
    have created := (inv.present k).mp (by rw [present]; rfl)
    rw [inv.created] at created
    exact created.trans_le (Pc.made_le inv.range)
  refine ⟨less, ?_⟩
  have part : threadLeft (s.thread k) ≤ ∑ j ∈ range n, threadLeft (s.thread j) :=
    single_le_sum (f := fun j => threadLeft (s.thread j)) (fun _ _ => Nat.zero_le _)
      (mem_range.mpr less)
  rw [present] at part
  exact part.trans (Nat.le_add_left _ _)

theorem progress_thread {k : Nat} {t : Thread} {ok : Bool} (h : Progress src n acts s)
    (alive : s.crashed = false) (present : s.thread k = some t) (inv : Inv n s'.pc s')
    (moved : threadStep src s k t ok = some s') : Progress src n (acts ++ [.thread k ok]) s' := by
  have own := h.inv.threads k t present
  obtain ⟨less, part⟩ := left_le_stepsLeft src h.inv present
  have steps := h.steps alive
  have null (j : Nat) (u : Thread) (there : s.thread j = some u) (none_held : u.exitval = none) :
      u.pc = .readId ∨ u.pc = .malloc ∨ .thread j false ∈ acts ++ [.thread k ok] :=
    (h.null j u there none_held).imp_right (.imp_right (List.mem_append_left _))
  cases threadStep_moves own.threadId moved with
  | crash pc held same =>
    subst same
    refine ⟨inv, nofun, fun _ => ?_, h.told, null⟩
    simp only [pc, ThreadPc.left] at part
    rw [List.length_append, List.length_singleton]
    omega
  | on t' lines alive' creator thread out left said others null' =>
    -- a thread that can move has not been joined
    have unjoined : t.pc ≠ .joined := fun joined => by simp [joined, ThreadPc.left] at left
    have unprinted : ¬ k < s.pc.printed n := fun early =>
      own.unjoined unjoined (early.trans_le (s.pc.printed_le_joined n))
    refine ⟨inv, fun _ => ?_, fun crashed => ?_, fun j => ?_, fun j u there none_held => ?_⟩
    · have sum := sum_update_add (range n) threadLeft s.thread (mem_range.mpr less) (some t')
      have now : threadLeft (s.thread k) = t.pc.left := by rw [present, threadLeft]
      rw [now, ← left, threadLeft] at sum
      rw [stepsLeft] at steps ⊢
      rw [List.length_append, List.length_singleton, creator, thread]
      omega
    · cases alive.symm.trans (alive'.symm.trans crashed)
    · have before := h.told j
      rw [State.told] at before ⊢
      rw [out, List.filterMap_append, before, creator, thread]
      by_cases here : j = k
      · subst here
        simp [present, threadSaid, said, unprinted]
      · simp [here, others j here]
    · rw [thread] at there
      by_cases here : j = k
      · subst here
        rw [Function.update_self] at there
        cases there
        rcases null' none_held with first | rfl | ⟨held, reading, allocating⟩
        · exact .inr (.inl first)
        · exact .inr (.inr (List.mem_append_right _ (List.mem_singleton_self _)))
        · rcases null j t present held with first | second | failed
          · exact absurd first reading
          · exact absurd second allocating
          · exact .inr (.inr failed)
      · rw [Function.update_of_ne here] at there
        exact null j u there none_held

theorem progress_creator {count : Int} (h : Progress src count.toNat acts s)
    (alive : s.crashed = false) (inv : Inv count.toNat s'.pc s')
    (moved : creatorStep src count s = some s') :
    Progress src count.toNat (acts ++ [.creator]) s' := by
  obtain ⟨alive', left, threads, null, lines, out, later, said⟩ := creatorStep_moves h.inv moved
  have steps := h.steps alive
  refine ⟨inv, fun _ => ?_, fun crashed => ?_, fun j => ?_, fun j u there none_held => ?_⟩
  · have sum : ∑ k ∈ range count.toNat, threadLeft (s'.thread k) =
        ∑ k ∈ range count.toNat, threadLeft (s.thread k) := sum_congr rfl fun k _ => (threads k).1
    rw [stepsLeft] at steps ⊢
    rw [List.length_append, List.length_singleton, sum]
    omega
  · cases alive.symm.trans (alive'.symm.trans crashed)
  · have before := h.told j
    rw [State.told] at before ⊢
    rw [out, List.filterMap_append, before, said, (threads j).2, List.append_assoc]
    by_cases early : j < s.pc.printed count.toNat
    · rw [if_pos early, if_neg (by omega), if_pos (by omega), List.append_nil]
    · simp only [early, if_false, List.nil_append, Nat.not_lt.mp early, true_and]
  · rcases null j u there none_held with first | same
    · exact .inl first
    · exact (h.null j u same none_held).imp_right (.imp_right (List.mem_append_left _))

theorem progress_of_run {count : Int} {s₀ : State} (start : (system src count).init s₀)
    (ran : (system src count).run s₀ acts = some s) : Progress src count.toNat acts s := by
  refine (system src count).run_history (Progress src count.toNat) ?_ s₀ s acts
    (progress_initial src count s₀ start) ran
  intro past s a s' h moved
  have inv := inv_step h.inv moved
  simp only [system, step] at moved
  split at moved
  · cases moved
  next crashed =>
    have alive : s.crashed = false := by simpa using crashed
    cases a with
    | creator => exact progress_creator h alive inv moved
    | thread k ok =>
      cases present : s.thread k with
      | none =>
        simp only [present] at moved
        cases moved
      | some t =>
        simp only [present] at moved
        exact progress_thread h alive present inv moved

/-- When nothing is left to do, all threads have been joined. -/
theorem stepsLeft_eq_zero_iff_done (src : Source) (inv : Inv n s.pc s) :
    stepsLeft src n s = 0 ↔ s.pc = .done := by
  constructor
  · intro nothing
    have creator : s.pc.left src n = 0 := by
      rw [stepsLeft] at nothing
      omega
    cases pc : s.pc with
    | done => rfl
    | createTest i | writeSlot i | create i | joinTest i | indent i | join i | print i p | free i p
    | unindent i =>
      rw [pc, Pc.left] at creator
      omega
  · intro done
    have threads : ∑ k ∈ range n, threadLeft (s.thread k) = 0 := by
      refine sum_eq_zero fun k member => ?_
      have less : k < n := mem_range.mp member
      rw [done] at inv
      obtain ⟨t, present⟩ := Option.isSome_iff_exists.mp
        ((inv.present k).mpr (by rw [inv.created]; exact less))
      have joined : t.pc = .joined := (inv.threads k t present).joined.mpr less
      rw [present, threadLeft, joined, ThreadPc.left]
    rw [stepsLeft, done, threads, Pc.left]

end Runs

/-- **Every run of pthread.c and of spawnthreads ends**: whoever moves, a run is stuck exactly if a
thread has written through the null pointer of a failed `malloc` or all the steps are made. Then
every thread has said that it runs, that it is ready and, by its join, that it has exited, once each
and in this order. -/
theorem runs_end_joined (src : Source) (requested : Int) (s₀ s : State) (acts : List Act)
    (start : (system src (numThreads requested)).init s₀)
    (ran : (system src (numThreads requested)).run s₀ acts = some s) :
    acts.length ≤ allSteps src (numThreads requested).toNat ∧
    (¬(system src (numThreads requested)).Enabled s ↔
      s.crashed = true ∨ acts.length = allSteps src (numThreads requested).toNat) ∧
    (s.crashed = true → ∃ k, .thread k false ∈ acts) ∧
    (acts.length = allSteps src (numThreads requested).toNat → s.pc = .done ∧
      ∀ k, s.told k = if k < (numThreads requested).toNat then [.running, .ready, .joined] else []) := by
  have h := progress_of_run start ran
  have bound (acts : List Act) (t : State)
      (ran : (system src (numThreads requested)).run s₀ acts = some t) :
      acts.length ≤ allSteps src (numThreads requested).toNat := by
    have h := progress_of_run start ran
    cases crashed : t.crashed with
    | true => exact (h.early crashed).le
    | false => exact Nat.le.intro (h.steps crashed)
  have crash : s.crashed = true → ∃ k, .thread k false ∈ acts := by
    intro crashed
    obtain ⟨k, t, present, pc, held⟩ := h.inv.crashed crashed
    rcases h.null k t present held with first | second | failed
    · cases pc.symm.trans first
    · cases pc.symm.trans second
    · exact ⟨k, failed⟩
  have ended : acts.length = allSteps src (numThreads requested).toNat →
      s.crashed = false ∧ s.pc = .done := by
    intro all
    cases crashed : s.crashed with
    | true => exact absurd all (h.early crashed).ne
    | false =>
      refine ⟨rfl, (stepsLeft_eq_zero_iff_done src h.inv).mp ?_⟩
      have steps := h.steps crashed
      omega
  refine ⟨bound acts s ran, ⟨fun stuck => ?_, ?_⟩, crash, fun all => ⟨(ended all).2, fun k => ?_⟩⟩
  · cases crashed : s.crashed with
    | true => exact .inl rfl
    | false =>
      have done : s.pc = .done := by
        by_contra running
        exact stuck (enabled_of_inv src _ h.inv crashed running)
      have steps := h.steps crashed
      rw [(stepsLeft_eq_zero_iff_done src h.inv).mpr done] at steps
      exact .inr steps
  · rintro (crashed | all) ⟨a, t, moved⟩
    · simp only [system, step, crashed, if_true] at moved
      cases moved
    · have longer := bound (acts ++ [a]) t
        (((system src (numThreads requested)).run_concat_eq_some s₀ t acts a).mpr ⟨s, ran, moved⟩)
      rw [List.length_append, List.length_singleton] at longer
      omega
  · have done := (ended all).2
    have inv := h.inv
    rw [done] at inv
    rw [h.told k, done, Pc.printed]
    by_cases less : k < (numThreads requested).toNat
    · obtain ⟨t, present⟩ := Option.isSome_iff_exists.mp
        ((inv.present k).mpr (by rw [inv.created]; exact less))
      have joined : t.pc = .joined := (inv.threads k t present).joined.mpr less
      rw [present, threadSaid, joined, if_pos less, if_pos less]
      rfl
    · have absent := mt (inv.present k).mp (by rw [inv.created]; exact less)
      rw [Option.not_isSome_iff_eq_none.mp absent, threadSaid, if_neg less, if_neg less]
      rfl

/-- Two threads of pthread.c, in one of the orders of all the steps. -/
theorem runs_end_joined_two :
    ∃ s acts, (system .pthread (numThreads 2)).run
        (initial .pthread (numThreads 2) (fun _ => 0) (fun _ => 0)) acts = some s ∧
      acts.length = 34 ∧ s.pc = .done ∧ s.told 1 = [.running, .ready, .joined] := by
  have ran : (system .pthread (numThreads 2)).run
      (initial .pthread (numThreads 2) (fun _ => 0) (fun _ => 0))
      (List.replicate 7 Act.creator ++ List.replicate 7 (Act.thread 1 true) ++
        List.replicate 7 (Act.thread 0 true) ++ List.replicate 13 Act.creator) = some _ := rfl
  obtain ⟨-, -, -, ended⟩ := runs_end_joined .pthread 2 _ _ _ ⟨_, _, rfl⟩ ran
  obtain ⟨done, told⟩ := ended rfl
  exact ⟨_, _, ran, rfl, done, told 1⟩

end GenericTests.Pthread
