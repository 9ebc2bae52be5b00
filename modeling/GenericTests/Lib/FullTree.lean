import GenericTests.Lib.ProcessTree
import Mathlib.Algebra.BigOperators.Intervals
import Mathlib.Algebra.BigOperators.Group.List.Basic

/-!
# Families of processes: full trees

The names of the processes if each one down to a depth has the same number of children, and
the families that consist of these processes.
-/
namespace GenericTests.Processes

open GenericTests.Transition

variable {σ : Type}

/-- The names at one depth, if every process has `n` children. -/
def generation (n : Nat) : Nat → List Pid
  | 0 => [[]]
  | depth + 1 => (generation n depth).flatMap fun p => (List.range n).map (· :: p)

/-- The names down to a depth. -/
def fullTree (n depth : Nat) : List Pid := (List.range (depth + 1)).flatMap (generation n)

/-- All processes there have been. -/
def Table.pids (s : Table σ) : List Pid := [] :: s.created

/-! ### One generation -/

theorem mem_generation (n depth : Nat) (p : Pid) :
    p ∈ generation n depth ↔ p.length = depth ∧ ∀ k ∈ p, k < n := by
  induction depth generalizing p with
  | zero =>
    rw [generation, List.mem_singleton, List.length_eq_zero_iff]
    exact ⟨fun top => ⟨top, by simp [top]⟩, fun both => both.1⟩
  | succ depth ih =>
    rw [generation, List.mem_flatMap]
    constructor
    · rintro ⟨q, member, child⟩
      obtain ⟨k, bound, rfl⟩ := List.mem_map.mp child
      obtain ⟨length, entries⟩ := (ih q).mp member
      exact ⟨congrArg (· + 1) length, List.forall_mem_cons.mpr ⟨List.mem_range.mp bound, entries⟩⟩
    · rintro ⟨length, entries⟩
      cases p with
      | nil => cases length
      | cons k q =>
        obtain ⟨bound, rest⟩ := List.forall_mem_cons.mp entries
        exact ⟨q, (ih q).mpr ⟨Nat.succ.inj length, rest⟩,
          List.mem_map_of_mem (List.mem_range.mpr bound)⟩

theorem length_generation (n depth : Nat) : (generation n depth).length = n ^ depth := by
  induction depth with
  | zero => rfl
  | succ depth ih =>
    have each : ∀ p ∈ generation n depth, ((List.range n).map (· :: p)).length = n := by simp
    rw [generation, List.length_flatMap, List.map_congr_left each, List.map_const', List.sum_replicate_nat,
      ih, Nat.pow_succ]

theorem nodup_generation (n depth : Nat) : (generation n depth).Nodup := by
  induction depth with
  | zero => exact List.nodup_singleton _
  | succ depth ih =>
    rw [generation, List.nodup_flatMap]
    refine ⟨fun p _ => List.nodup_range.map fun i j same => (List.cons.inj same).1, ih.imp ?_⟩
    intro p q different r left right
    obtain ⟨i, -, rfl⟩ := List.mem_map.mp left
    obtain ⟨j, -, same⟩ := List.mem_map.mp right
    exact different (List.cons.inj same).2.symm

/-! ### All generations -/

theorem mem_fullTree (n depth : Nat) (p : Pid) :
    p ∈ fullTree n depth ↔ p.length ≤ depth ∧ ∀ k ∈ p, k < n := by
  simp only [fullTree, List.mem_flatMap, List.mem_range, mem_generation]
  exact ⟨fun ⟨d, bound, length, entries⟩ => ⟨by omega, entries⟩,
    fun ⟨bound, entries⟩ => ⟨p.length, by omega, rfl, entries⟩⟩

theorem nodup_fullTree (n depth : Nat) : (fullTree n depth).Nodup := by
  rw [fullTree, List.nodup_flatMap]
  refine ⟨fun d _ => nodup_generation n d, List.nodup_range.imp fun {d e} different p left right => ?_⟩
  have first := ((mem_generation n d p).mp left).1
  have second := ((mem_generation n e p).mp right).1
  omega

theorem fullTree_succ (n depth : Nat) :
    fullTree n (depth + 1) = fullTree n depth ++ generation n (depth + 1) := by
  rw [fullTree, List.range_succ, List.flatMap_append, List.flatMap_singleton, fullTree]

theorem length_fullTree (n depth : Nat) :
    (fullTree n depth).length = 1 + ∑ j ∈ Finset.Icc 1 depth, n ^ j := by
  induction depth with
  | zero => rfl
  | succ depth ih =>
    rw [fullTree_succ, List.length_append, ih, length_generation,
      Finset.sum_Icc_succ_top (Nat.le_add_left 1 depth), Nat.add_assoc]

/-- A sum to which only the last generation contributes. -/
theorem sum_fullTree (n depth x : Nat) (f : Pid → Nat)
    (last : ∀ p ∈ fullTree n depth, p.length = depth → f p = x)
    (earlier : ∀ p ∈ fullTree n depth, p.length < depth → f p = 0) :
    ((fullTree n depth).map f).sum = n ^ depth * x := by
  have split : fullTree n depth = (List.range depth).flatMap (generation n) ++ generation n depth := by
    rw [fullTree, List.range_succ, List.flatMap_append, List.flatMap_singleton]
  have zero : ∀ p ∈ (List.range depth).flatMap (generation n), f p = 0 := by
    intro p member
    obtain ⟨d, bound, inside⟩ := List.mem_flatMap.mp member
    have length := ((mem_generation n d p).mp inside).1
    refine earlier p (by rw [split]; exact List.mem_append_left _ member) ?_
    rw [length]
    exact List.mem_range.mp bound
  have same : ∀ p ∈ generation n depth, f p = x := fun p member =>
    last p (by rw [split]; exact List.mem_append_right _ member) ((mem_generation n depth p).mp member).1
  rw [split, List.map_append, List.sum_append, List.map_congr_left zero, List.map_congr_left same,
    List.map_const', List.map_const', List.sum_replicate_nat, List.sum_replicate_nat,
    length_generation, Nat.mul_zero, Nat.zero_add]

/-! ### The processes of a family -/

section Family

variable {next : σ → Action σ} {exec : Pid → Bool} {start : σ} {s : Table σ}

theorem mem_created_iff (h : (family next exec start).Reachable s) (q : Pid) :
    q ∈ s.created ↔ q ≠ [] ∧ (s.proc q).isSome = true := by
  obtain ⟨tree, records⟩ := recorded start s h
  constructor
  · intro member
    simpa [Table.forks] using records.present q member
  · rintro ⟨filled, present⟩
    cases q with
    | nil => exact absurd rfl filled
    | cons k p =>
      obtain ⟨n, count, bound⟩ := (tree p k).mp (by simpa [Table.forks] using present)
      have child : k :: p ∈ s.madeBy p := by
        rw [records.children p n count]
        exact List.mem_map_of_mem (List.mem_range.mpr bound)
      exact List.mem_of_mem_filter child

theorem created_nodup (h : (family next exec start).Reachable s) : s.created.Nodup := by
  obtain ⟨tree, records⟩ := recorded start s h
  rw [List.nodup_iff_count_le_one]
  intro q
  by_cases member : q ∈ s.created
  · obtain ⟨filled, present⟩ := records.present q member
    cases q with
    | nil => exact absurd rfl filled
    | cons k p =>
      -- the children of p are recorded once each
      obtain ⟨n, count, bound⟩ := (tree p k).mp present
      have once : (s.madeBy p).Nodup := by
        rw [records.children p n count]
        exact List.nodup_range.map fun i j same => (List.cons.inj same).1
      have counted : (s.madeBy p).count (k :: p) = s.created.count (k :: p) :=
        List.count_filter (by simp)
      rw [← counted]
      exact List.nodup_iff_count_le_one.mp once _
  · rw [List.count_eq_zero_of_not_mem member]
    exact Nat.zero_le 1

theorem pids_nodup (h : (family next exec start).Reachable s) : s.pids.Nodup := by
  refine List.nodup_cons.mpr ⟨fun member => ?_, created_nodup h⟩
  exact ((mem_created_iff h []).mp member).1 rfl

theorem mem_pids_iff (h : (family next exec start).Reachable s) (q : Pid) :
    q ∈ s.pids ↔ (s.proc q).isSome = true := by
  rw [Table.pids, List.mem_cons, mem_created_iff h]
  constructor
  · rintro (rfl | ⟨-, present⟩)
    · obtain ⟨P, there⟩ := first_present start s h
      rw [there]
      rfl
    · exact present
  · intro present
    by_cases top : q = []
    · exact .inl top
    · exact .inr ⟨top, present⟩

/-- If the processes there are the full tree, the list of processes is one of the tree. -/
theorem pids_perm (h : (family next exec start).Reachable s) (n depth : Nat)
    (full : ∀ q, (s.proc q).isSome = true ↔ q.length ≤ depth ∧ ∀ k ∈ q, k < n) :
    s.pids.Perm (fullTree n depth) := by
  rw [List.perm_ext_iff_of_nodup (pids_nodup h) (nodup_fullTree n depth)]
  intro q
  rw [mem_pids_iff h, mem_fullTree, full]

end Family

end GenericTests.Processes
