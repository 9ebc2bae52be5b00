import GenericTests.Forks.TreeShape

/-!
# forktree_and_pthread.c: the recursion of spawnforks

A child makes the next call of spawnforks on a copy of its parent's stack, so the calls
nest across processes. `numlevels == 0` is the only test that ends the recursion.
-/
namespace GenericTests.Forks.Forktree

open GenericTests.Processes GenericTests.Transition

/-- The calls of spawnforks on the stack of the process `p`. Each of its ancestors left it
one; its own one lies between the start of the loop and the return. -/
def nesting (p : Pid) (c : Local) : Nat :=
  match c.pc with
  | .start | .mainEnd => 0
  | .childAnnounce | .childSleep => p.length
  | .levelTest | .createThread | .joinThread _ | .forkTest | .fork | .wait | .status _ | .afterAll
  | .returned => p.length + 1

/-- No process is further down than `numlevels` allows, and there are no more processes than
fit into a tree of that depth. -/
structure Bounded (numforks numlevels : Int) (s : Table Local) : Prop where
  nesting : ∀ p P c, s.proc p = some P → P.prog = some c → nesting p c ≤ max numlevels 0 + 1
  depth : ∀ p ∈ s.created, p.length ≤ max numlevels 0
  count : s.created.length ≤ ∑ j ∈ Finset.Icc 1 numlevels.toNat, numforks.toNat ^ j

theorem nesting_le (p : Pid) (c : Local) : nesting p c ≤ p.length + 1 := by
  rw [nesting]
  split <;> omega

/-! ### Where the recursion ends -/

theorem bounded_of_levels (n L : Nat) (s : Table Local) (h : (forktree n L).Reachable s) :
    Bounded n L s := by
  have inside : s.pids ⊆ fullTree n L := by
    intro p member
    obtain ⟨P, present⟩ := Option.isSome_iff_exists.mp ((mem_pids_iff h p).mp member)
    exact mem_fullTree_of h p P present
  constructor
  · intro p P c present _
    obtain ⟨_, -, shape⟩ := shape_of h p P present
    have depth := shape.depth
    have calls := nesting_le p c
    omega
  · intro p member
    have depth := ((mem_fullTree n L p).mp (inside (List.mem_cons_of_mem _ member))).1
    omega
  · have length := ((pids_nodup h).subperm inside).length_le
    rw [length_fullTree, Table.pids, List.length_cons] at length
    simp only [Int.toNat_natCast]
    omega

/-- If the loop is never entered, the first process is alone. -/
theorem created_of_no_forks {numforks : Int} (none_made : numforks ≤ 0) (numlevels : Int)
    (s : Table Local) (h : (forktree numforks numlevels).Reachable s) : s.created = [] := by
  rw [forktree] at h
  -- at every place the number of forks is at most `max numforks 0`
  have childless : ∀ p m, s.forks p = some m → m = 0 := by
    intro p m count
    obtain ⟨P, present, rfl⟩ := Option.map_eq_some_iff.mp count
    obtain ⟨c, prog⟩ := Option.isSome_iff_exists.mp (prog_isSome _ s h p P present)
    have counted := ((localInvariant numforks numlevels).reachable s h p P c present prog).counted
    rw [Counted] at counted
    split at counted <;> omega
  obtain ⟨P, present⟩ := first_present _ s h
  have count := s.forks_eq [] P present
  rw [childless [] _ count] at count
  exact created_eq _ s h 0 count fun p _ => childless p

theorem bounded_of_no_forks {numforks : Int} (none_made : numforks ≤ 0) (numlevels : Int)
    (s : Table Local) (h : (forktree numforks numlevels).Reachable s) :
    Bounded numforks numlevels s := by
  have alone := created_of_no_forks none_made numlevels s h
  constructor
  · intro p P c present _
    have top : p = [] := by
      by_contra inner
      have made : p ∈ s.created := (mem_created_iff h p).mpr ⟨inner, by rw [present]; rfl⟩
      rw [alone] at made
      cases made
    have calls := nesting_le p c
    rw [top, List.length_nil] at calls
    rw [top]
    omega
  · rw [alone]
    nofun
  · rw [alone]
    exact Nat.zero_le _

/-! ### Where it does not end -/

/-- Below level 0 the test never succeeds again: the first child of the first child, and so
on, is reached at every depth. -/
theorem reaches_depth {numforks numlevels : Int} (negative : numlevels < 0) (forks : 0 < numforks)
    (depth : Nat) :
    ∃ s P c, Reaches (next numforks numlevels) (fun _ => false) (.start numlevels) s
        (List.replicate depth 0) P c ∧
      c.pc = .levelTest ∧ c.numlevels = numlevels - depth ∧ c.forkno = 0 ∧ P.forks = 0 := by
  induction depth with
  | zero =>
    have first := (reaches_start (next numforks numlevels) (fun _ => false)
      (Local.start numlevels)).goto rfl
    exact ⟨_, _, _, first, rfl, by simp [Local.start, Local.print], rfl, rfl⟩
  | succ depth ih =>
    obtain ⟨s, P, c, atTest, pc, level, forkno, forksZero⟩ := ih
    -- the level is below 0 and goes down, so the test for 0 never succeeds
    have deep : c.numlevels ≠ 0 := by omega
    have enters : next numforks numlevels c = .goto { c with pc := .forkTest } := by
      simp only [next, pc, deep, if_false]
    have less : (c.forkno : Int) < numforks := by omega
    have loops : next numforks numlevels { c with pc := .forkTest } =
        .goto { c with pc := .fork } := by
      simp only [next, less, if_true]
    have forked := ((atTest.goto enters).goto loops).fork rfl
    -- the child is there, at its first statement
    have born := forked.other (Table.proc_set_self _ _ _) ⟨rfl, rfl⟩
    have called := (born.goto rfl).goto rfl
    have place : (((P.goto { c with pc := .forkTest }).goto { c with pc := .fork }).forks ::
        List.replicate depth 0) = List.replicate (depth + 1) 0 := by
      simp [Process.goto, forksZero, List.replicate_succ]
    rw [place] at called
    refine ⟨_, _, _, called, rfl, ?_, rfl, rfl⟩
    simp only [Local.print, level]
    omega

/-- **The recursion is bounded by `numlevels`** in every reachable state if and only if
`numlevels` is not negative or the loop is never entered. -/
theorem bounded_recursion_iff (numforks numlevels : Int) :
    (∀ s, (forktree numforks numlevels).Reachable s → Bounded numforks numlevels s) ↔
      0 ≤ numlevels ∨ numforks ≤ 0 := by
  constructor
  · intro claim
    by_contra runaway
    -- one child is enough to break the bound
    obtain ⟨s, P, c, atTest, pc, -⟩ := @reaches_depth numforks numlevels (by omega) (by omega) 1
    have calls := (claim s atTest.reachable).nesting _ P c atTest.present atTest.here.2
    simp only [nesting, pc, List.length_replicate] at calls
    omega
  · intro ends s h
    by_cases entered : 0 < numforks
    · obtain ⟨n, rfl⟩ := Int.eq_ofNat_of_zero_le entered.le
      obtain ⟨L, rfl⟩ := Int.eq_ofNat_of_zero_le (a := numlevels) (by omega)
      exact bounded_of_levels n L s h
    · exact bounded_of_no_forks (by omega) numlevels s h

/-- `forktree_and_pthread 1 -1`: the first child makes a second call of spawnforks, with `-2` levels
to go. -/
theorem not_bounded_recursion : ¬ ∀ s, (forktree 1 (-1)).Reachable s → Bounded 1 (-1) s := by
  intro claim
  have reached : (forktree 1 (-1)).Reachable _ :=
    ⟨_, List.replicate 4 (Act.run []) ++ List.replicate 2 (Act.run [0]), rfl, rfl⟩
  have calls := (claim _ reached).nesting [0] _ _ rfl rfl
  revert calls
  decide

end GenericTests.Forks.Forktree
