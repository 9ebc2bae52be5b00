import GenericTests.Pthread.OwnIds

/-!
# The indentation of the join loops

pthread.c, processesgalore.c, fork_and_pthread.c, forkexec_and_pthread.c,
forkexecwait_and_pthread.c, forkexecwait_and_pthreadchild.c, forkmulti.c and
system_and_pthread.c join their threads in the same loop. Each iteration cuts `pad` with a NUL
for its line and means to put the blank back.
-/
namespace GenericTests.Pthread

open GenericTests.CString GenericTests.Transition

/-- `if (i < strlen(pad)) { pad[i]=0; }` -/
def cutPad (pad : List Byte) (i : Nat) : List Byte := setPad pad i 0

/-- `if (i < strlen(pad)) { pad[i]=' '; }` -/
def restorePad (pad : List Byte) (i : Nat) : List Byte := setPad pad i 32

/-- `pad` at the start of iteration `i`, or after a loop of `i` iterations. -/
def padAt : Nat → List Byte
  | 0 => pad
  | i + 1 => restorePad (cutPad (padAt i) i) i

/-- What iteration `i` prints of `pad`. -/
def shownAt (i : Nat) : List Byte := cstr (cutPad (padAt i) i)

/-- A loop of `n` iterations prints growing pads and restores the array each time. -/
structure Indented (n : Nat) : Prop where
  shown : ∀ i < n, shownAt i = List.replicate (min i 11) 32
  restored : ∀ i ≤ n, padAt i = pad

/-! ### The cut pad -/

/-- `pad` with a NUL in front. -/
def emptyPad : List Byte := 0 :: List.replicate 10 32 ++ [0]

/-- An empty string has no byte to be changed. -/
theorem setPad_emptyPad (i : Int) (b : Byte) : setPad emptyPad i b = emptyPad := by
  have empty : (cstr emptyPad).length = 0 := by decide
  rw [setPad, empty, if_neg]
  omega

/-- The first iteration cuts the whole pad, and no later test succeeds. -/
theorem padAt_succ (i : Nat) : padAt (i + 1) = emptyPad := by
  induction i with
  | zero => decide
  -- from the second iteration on, both tests find an empty string
  | succ i ih => rw [padAt, ih, cutPad, restorePad, setPad_emptyPad, setPad_emptyPad]

/-- No line is indented. -/
theorem shownAt_eq_nil (i : Nat) : shownAt i = [] := by
  cases i with
  | zero => decide
  | succ i =>
    rw [shownAt, padAt_succ, cutPad, setPad_emptyPad]
    decide

/-- **The pads grow and the array is restored** in a loop without iterations only. -/
theorem join_loop_indented_iff (n : Nat) : Indented n ↔ n = 0 := by
  constructor
  · intro claim
    cases n with
    | zero => rfl
    | succ n =>
      have restored := claim.restored (n + 1) (Nat.le_refl _)
      rw [padAt_succ] at restored
      exact absurd restored (by decide)
  · rintro rfl
    refine ⟨nofun, fun i first => ?_⟩
    rw [Nat.le_zero.mp first]
    rfl

/-- Two threads: the second line is not indented, and `pad` stays empty. -/
theorem not_join_loop_indented : ¬ ∀ n, Indented n := by
  intro claim
  have second := (claim 2).shown 1 (by decide)
  revert second
  decide

/-! ### The loop of pthread.c -/

/-- `pad` at the places of the creator. -/
def Pc.padHere (n : Nat) : Pc → List Byte
  | .createTest _ | .writeSlot _ | .create _ => pad
  | .joinTest i | .indent i => padAt i
  | .join i | .print i _ | .free i _ | .unindent i => cutPad (padAt i) i
  | .done => padAt n

structure PadInv (n : Nat) (s : State) : Prop where
  pad : s.pad = s.pc.padHere n
  lines : ∀ i status shown, .joined i status shown ∈ s.out → shown = shownAt i

theorem PadInv.print {n : Nat} {s : State} (h : PadInv n s) (line : Line)
    (own : ∀ i status shown, line = .joined i status shown → shown = shownAt i) :
    ∀ i status shown, .joined i status shown ∈ s.out ++ [line] → shown = shownAt i := by
  intro i status shown member
  rcases List.mem_append.mp member with old | last
  · exact h.lines i status shown old
  · exact own i status shown (List.mem_singleton.mp last).symm

theorem padInv_thread {n : Nat} {s s' : State} {k : Nat} {t : Thread} {ok : Bool}
    (h : PadInv n s) (moved : threadStep .pthread s k t ok = some s') : PadInv n s' := by
  have atPc : s'.pad = s.pad → s'.pad = s'.pc.padHere n := by
    intro same
    rw [same, pc_threadStep moved]
    exact h.pad
  unfold threadStep at moved
  split at moved
  case h_2 | h_6 =>
    split at moved
    · cases moved
      exact ⟨atPc rfl, h.lines⟩
    · cases moved
      exact ⟨atPc rfl, h.lines⟩
  case h_3 | h_5 =>
    cases moved
    exact ⟨atPc rfl, h.print _ nofun⟩
  case h_8 | h_9 => cases moved
  all_goals
    cases moved
    exact ⟨atPc rfl, h.lines⟩

theorem padInv_creator {count : Int} {s s' : State} (inv : Inv count.toNat s.pc s)
    (h : PadInv count.toNat s) (moved : creatorStep .pthread count s = some s') :
    PadInv count.toNat s' := by
  have here := h.pad
  unfold creatorStep at moved
  split at moved
  next i pc =>
    rw [pc] at here
    cases moved
    refine ⟨?_, h.lines⟩
    simp only
    split
    · exact here
    · exact here
  next i pc =>
    rw [pc] at here
    cases moved
    exact ⟨here, h.lines⟩
  next i pc =>
    rw [pc] at here
    cases moved
    exact ⟨here, h.lines⟩
  next i pc =>
    rw [pc] at here inv
    have range : i ≤ count.toNat := inv.range
    cases moved
    refine ⟨?_, h.lines⟩
    simp only
    split
    next => exact here
    next done =>
      -- the loop ends at the number of threads, also if that is negative
      have all : i = count.toNat := by omega
      rw [here, all]
      rfl
  next i pc =>
    rw [pc] at here
    cases moved
    exact ⟨by simp only [here]; rfl, h.lines⟩
  next i pc =>
    rw [pc] at here
    split at moved
    next t present =>
      split at moved
      next =>
        cases moved
        exact ⟨here, h.lines⟩
      next => cases moved
    next => cases moved
  next i p pc =>
    rw [pc] at here
    split at moved
    next v loaded =>
      cases moved
      -- the line shows the pad as it is now, between the cut and the second test
      refine ⟨here, h.print _ fun j status shown same => ?_⟩
      cases same
      rw [here]
      rfl
    next =>
      cases moved
      exact ⟨by simp only [pc]; exact here, h.lines⟩
  next i p pc =>
    rw [pc] at here
    cases moved
    exact ⟨here, h.lines⟩
  next i pc =>
    rw [pc] at here
    cases moved
    exact ⟨by simp only [here]; rfl, h.lines⟩
  next => cases moved

/-- pthread.c goes through the pads of the loop, whatever its threads do meanwhile. -/
theorem padInv_reachable (count : Int) (s : State) (h : (system .pthread count).Reachable s) :
    PadInv count.toNat s := by
  have both : Inv count.toNat s.pc s ∧ PadInv count.toNat s := by
    apply (system .pthread count).reachable_invariant
      (fun s => Inv count.toNat s.pc s ∧ PadInv count.toNat s) ?_ ?_ s h
    · rintro s₀ ⟨threadIds, threads, rfl⟩
      refine ⟨inv_initial .pthread count threadIds threads, rfl, fun i status shown member => ?_⟩
      cases List.mem_singleton.mp member
    · rintro s a t ⟨inv, pads⟩ hs
      refine ⟨inv_step inv hs, ?_⟩
      simp only [system, step] at hs
      split at hs
      · cases hs
      · split at hs
        · exact padInv_creator inv pads hs
        · split at hs
          next u present => exact padInv_thread pads hs
          next => cases hs
  exact both.2

/-- No line `Joined with thread %d` of pthread.c is indented. -/
theorem joined_lines_bare (requested : Int) (s : State)
    (h : (system .pthread (numThreads requested)).Reachable s) (i : Nat) (status : Int)
    (shown : List Byte) (printed : .joined i status shown ∈ s.out) : shown = [] := by
  rw [(padInv_reachable _ s h).lines i status shown printed]
  exact shownAt_eq_nil i

end GenericTests.Pthread
