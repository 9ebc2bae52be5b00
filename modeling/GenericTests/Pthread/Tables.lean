import GenericTests.Pthread.OwnIds

/-!
# The tables of the threads

pthread.c and spawnthreads of forktree_and_pthread.c declare `threads` and `thread_ids` with
`MAXTHREADS` entries; processesgalore.c declares them with `num_threads` entries and reads
`num_threads` from the command line afterwards.
-/
namespace GenericTests.Pthread

open GenericTests.CString

inductive Program where
  | pthread
  | spawnthreads
  | processesgalore

/-- The length of the two arrays, and `num_threads` at the loops. -/
structure Tables where
  length : Nat
  numThreads : Int

/-- `num_threads` without an argument, and `numforks` of forktree_and_pthread.c. -/
def defaultThreads : Int := 5

/-- The argument, if there is one, as `atoi` returns it. -/
def requested (argument : Option CInt) : Int :=
  match argument with
  | some count => count.val
  | none => defaultThreads

def Program.tables (argument : Option CInt) : Program → Tables
  | .pthread | .spawnthreads => ⟨maxThreads, numThreads (requested argument)⟩
  -- the arrays are declared before `num_threads` changes
  | .processesgalore => ⟨defaultThreads.toNat, requested argument⟩

/-- The indices that the create loop uses from `i` on, with `left` iterations to go, and
whether it comes to its end: the program exits when a creation fails. -/
def createLoop (creates : Nat → Bool) : Nat → Nat → List Nat × Bool
  | _, 0 => ([], true)
  | i, left + 1 =>
    if creates i then
      let rest := createLoop creates (i + 1) left
      (i :: rest.1, rest.2)
    else ([i], false)

/-- All indices on `threads` and `thread_ids`; `creates` tells which creations succeed. -/
def indices (tables : Tables) (creates : Nat → Bool) : List Nat :=
  let created := createLoop creates 0 tables.numThreads.toNat
  created.1 ++ if created.2 then List.range tables.numThreads.toNat else []

def InBounds (tables : Tables) (creates : Nat → Bool) : Prop :=
  ∀ i ∈ indices tables creates, i < tables.length

/-! ### Which indices are used -/

theorem mem_createLoop (creates : Nat → Bool) (first left i : Nat) :
    i ∈ (createLoop creates first left).1 ↔
      first ≤ i ∧ i < first + left ∧ ∀ j, first ≤ j → j < i → creates j = true := by
  induction left generalizing first with
  | zero =>
    simp only [createLoop, List.not_mem_nil, false_iff]
    rintro ⟨low, high, -⟩
    omega
  | succ left ih =>
    simp only [createLoop]
    cases made : creates first with
    | false =>
      simp only [Bool.false_eq_true, if_false, List.mem_singleton]
      constructor
      · rintro rfl
        exact ⟨Nat.le_refl _, by omega, fun j low high => by omega⟩
      · rintro ⟨low, -, before⟩
        -- the program has left the loop at `first`
        by_contra other
        rw [before first (Nat.le_refl _) (by omega)] at made
        cases made
    | true =>
      simp only [if_true, List.mem_cons, ih]
      constructor
      · rintro (rfl | ⟨low, high, before⟩)
        · exact ⟨Nat.le_refl _, by omega, fun j low high => by omega⟩
        · refine ⟨by omega, by omega, fun j lowj highj => ?_⟩
          by_cases e : j = first
          · rw [e, made]
          · exact before j (by omega) highj
      · rintro ⟨low, high, before⟩
        by_cases e : i = first
        · exact .inl e
        · exact .inr ⟨by omega, by omega, fun j lowj highj => before j (by omega) highj⟩

/-- The join loop uses no index that the create loop has not used. -/
theorem createLoop_complete (creates : Nat → Bool) (first left : Nat)
    (complete : (createLoop creates first left).2 = true) (i : Nat) (low : first ≤ i)
    (high : i < first + left) : i ∈ (createLoop creates first left).1 := by
  induction left generalizing first with
  | zero => omega
  | succ left ih =>
    simp only [createLoop] at complete ⊢
    cases made : creates first with
    | false =>
      rw [made] at complete
      cases complete
    | true =>
      rw [made] at complete
      simp only [if_true, List.mem_cons] at complete ⊢
      by_cases e : i = first
      · exact .inl e
      · exact .inr (ih (first + 1) complete (by omega) (by omega))

theorem mem_indices (tables : Tables) (creates : Nat → Bool) (i : Nat) :
    i ∈ indices tables creates ↔
      i < tables.numThreads.toNat ∧ ∀ j < i, creates j = true := by
  have used := mem_createLoop creates 0 tables.numThreads.toNat i
  simp only [Nat.zero_le, Nat.zero_add, true_and, true_implies] at used
  rw [indices, List.mem_append, ← used]
  constructor
  · rintro (created | joined)
    · exact created
    · split at joined
      next complete =>
        exact createLoop_complete creates 0 _ complete i (Nat.zero_le i)
          (by rw [Nat.zero_add]; exact List.mem_range.mp joined)
      next => cases joined
  · exact .inl

/-- The loops stay in the tables if these are long enough, or the program exits in time. -/
theorem inBounds_iff (tables : Tables) (creates : Nat → Bool) :
    InBounds tables creates ↔
      tables.numThreads ≤ tables.length ∨ ∃ j < tables.length, creates j = false := by
  constructor
  · intro claim
    by_contra outside
    obtain ⟨long, none_fails⟩ := not_or.mp outside
    have made : ∀ j < tables.length, creates j = true := by
      intro j less
      cases value : creates j with
      | true => rfl
      | false => exact absurd ⟨j, less, value⟩ none_fails
    -- so the loop comes to the first entry behind the tables
    have used : tables.length ∈ indices tables creates :=
      (mem_indices tables creates _).mpr ⟨by omega, made⟩
    exact Nat.lt_irrefl _ (claim _ used)
  · intro bound i member
    obtain ⟨less, before⟩ := (mem_indices tables creates i).mp member
    rcases bound with enough | ⟨j, inside, failed⟩
    · omega
    · by_contra beyond
      rw [before j (by omega)] at failed
      cases failed

/-- The entry that the creator uses next. -/
def Pc.index : Pc → Option Nat
  | .writeSlot i | .create i | .join i => some i
  | _ => none

/-- The entries that pthread.c and spawnthreads use in the course of a run, as their creations
succeed there. -/
theorem index_mem_indices (src : Source) (argument : Option CInt) (s : State)
    (h : (system src (numThreads (requested argument))).Reachable s) (i : Nat)
    (here : s.pc.index = some i) :
    i ∈ indices (Program.pthread.tables argument) fun _ => true := by
  have range := (inv_reachable src _ s h).range
  refine (mem_indices _ _ i).mpr ⟨?_, fun _ _ => rfl⟩
  cases pc : s.pc with
  | writeSlot j | create j | join j =>
    rw [pc] at here range
    cases here
    exact range
  | createTest _ | joinTest _ | indent _ | print _ _ | free _ _ | unindent _ | done =>
    rw [pc] at here
    cases here

theorem numThreads_le (n : Int) : numThreads n ≤ maxThreads := by
  rw [numThreads]
  split
  · exact Int.le_refl _
  · omega

/-- **Every index is inside the tables** of all three programs if and only if at most five
threads are requested or one of the first five creations fails; only processesgalore.c leaves
its tables. -/
theorem tables_in_bounds_iff (argument : Option CInt) (creates : Nat → Bool) :
    (∀ program : Program, InBounds (program.tables argument) creates) ↔
      requested argument ≤ 5 ∨ ∃ i < 5, creates i = false := by
  have galore : InBounds (Program.processesgalore.tables argument) creates ↔
      requested argument ≤ 5 ∨ ∃ i < 5, creates i = false := inBounds_iff _ _
  constructor
  · exact fun claim => galore.mp (claim .processesgalore)
  · intro bound program
    cases program with
    | pthread | spawnthreads => exact (inBounds_iff _ _).mpr (.inl (numThreads_le _))
    | processesgalore => exact galore.mpr bound

/-- `processesgalore 6`: the sixth thread has no entry. -/
theorem not_tables_in_bounds :
    ¬ ∀ (argument : Option CInt) (creates : Nat → Bool) (program : Program),
        InBounds (program.tables argument) creates := by
  intro claim
  have sixth := claim (some ⟨6, by decide, by decide⟩) (fun _ => true) .processesgalore 5
    (by decide)
  revert sixth
  decide

end GenericTests.Pthread
