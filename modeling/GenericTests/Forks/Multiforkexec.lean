import GenericTests.Forks.SerialLoop
import GenericTests.Lib.Printf

/-!
# multiforkexec.c

The child executes the command of the argument list. If there is none, or if `execve`
fails, nothing ends the child: it comes to the end of the loop body and goes on forking
with its own `forkno`.
-/
namespace GenericTests.Forks.Multiforkexec

open GenericTests.Processes GenericTests.Transition GenericTests.CString GenericTests.Printf

/-- `numforks` and what is left of `argv` when the loop starts. -/
structure Arguments where
  numforks : Int
  argv : List (List Byte)

def arguments (argv : List (List Byte)) : Arguments :=
  match argv with
  | _ :: count :: rest => ⟨atoi count, count :: rest⟩
  | argv => ⟨5, argv⟩

def Arguments.argc (a : Arguments) : Nat := a.argv.length

inductive ChildPc where
  | argTest
  | execve
  | execFailed

def childNext (argc : Nat) (c : Local ChildPc) : ChildPc → Action (Local ChildPc)
  | .argTest =>
    if argc = 1 then .goto { c.print .forkTest .needCommand with forkno := c.forkno + 1 }
    else .goto { c with pc := .child .execve }
  | .execve => .execve { c with pc := .child .execFailed }
  | .execFailed =>
    .goto { c.print .forkTest (.failedToStart argc) with forkno := c.forkno + 1 }

def next (a : Arguments) : Local ChildPc → Action (Local ChildPc) :=
  serialLoop a.numforks .argTest (childNext a.argc)

def multiforkexec (a : Arguments) (exec : Pid → Bool) : System (Table (Local ChildPc)) Act :=
  family (next a) exec .start

/-- Every fork is made by the original process, and there are `numforks` of them when it
has returned. -/
structure OnlyOriginalForks (numforks : Int) (s : Table (Local ChildPc)) : Prop where
  byOriginal : ∀ q ∈ s.created, ∃ k, q = [k]
  atMost : (s.created.length : Int) ≤ max numforks 0
  total : ∀ P status, s.proc [] = some P → P.life = .ended (.exited status) →
    (s.created.length : Int) = max numforks 0

/-- Child `k` does not come back into the loop. -/
def Leaves (a : Arguments) (exec : Pid → Bool) (k : Nat) : Prop :=
  a.argc ≠ 1 ∧ exec [k] = true

section Childless

variable {a : Arguments} {exec : Pid → Bool}

/-- Where child `k` can be if it forks nobody: in its branch, in the command, or on its way
out after the last round. -/
inductive Place (a : Arguments) (exec : Pid → Bool) (k : Nat) : Option (Local ChildPc) → Prop
  | command : Place a exec k none
  | branch (c : Local ChildPc) (place : ChildPc) (pc : c.pc = .child place) (forkno : c.forkno = k)
      (failed : place = .execFailed → exec [k] = false) : Place a exec k (some c)
  | test (c : Local ChildPc) (pc : c.pc = .forkTest) (finished : a.numforks ≤ c.forkno) :
      Place a exec k (some c)
  | ret (c : Local ChildPc) (pc : c.pc = .ret) : Place a exec k (some c)

theorem place_goto {k : Nat} {c c' : Local ChildPc}
    (leaves : k + 1 < a.numforks → Leaves a exec k) (h : Place a exec k (some c))
    (does : next a c = .goto c') : Place a exec k (some c') := by
  rw [next, serialLoop] at does
  cases h with
  | branch c place pc forkno failed =>
    rw [pc] at does
    cases place with
    | argTest =>
      simp only [childNext] at does
      split at does
      next alone =>
        cases does
        refine .test _ rfl ?_
        by_contra more
        have left := leaves (by simp only [forkno] at more; omega)
        exact left.1 alone
      next =>
        cases does
        exact .branch _ .execve rfl forkno fun e => by cases e
    | execve => cases does
    | execFailed =>
      cases does
      refine .test _ rfl ?_
      by_contra more
      have left := leaves (by simp only [forkno] at more; omega)
      cases (failed rfl).symm.trans left.2
  | test c pc finished =>
    rw [pc] at does
    have no_more : ¬ (c.forkno : Int) < a.numforks := Int.not_lt.mpr finished
    simp only [no_more, if_false] at does
    cases does
    exact .ret _ rfl
  | ret c pc =>
    rw [pc] at does
    cases does

theorem place_alone {k : Nat} {c : Local ChildPc} (h : Place a exec k (some c)) :
    (next a c).alone = true := by
  rw [next, serialLoop]
  cases h with
  | branch c place pc forkno failed =>
    rw [pc]
    cases place with
    | argTest =>
      simp only [childNext]
      split
      · rfl
      · rfl
    | execve => rfl
    | execFailed => rfl
  | test c pc finished =>
    rw [pc]
    rfl
  | ret c pc =>
    rw [pc]
    rfl

theorem place_execFailed {k : Nat} {c c' : Local ChildPc} (h : Place a exec k (some c))
    (does : next a c = .execve c') (fails : exec [k] = false) : Place a exec k (some c') := by
  rw [next, serialLoop] at does
  cases h with
  | branch c place pc forkno failed =>
    rw [pc] at does
    cases place with
    | argTest =>
      simp only [childNext] at does
      split at does
      · cases does
      · cases does
    | execve =>
      cases does
      exact .branch _ .execFailed rfl forkno fun _ => fails
    | execFailed => cases does
  | test c pc finished =>
    rw [pc] at does
    cases does
  | ret c pc =>
    rw [pc] at does
    cases does

theorem place_moves {k : Nat} {K K' : Process (Local ChildPc)} {kids kids' : Kids (Local ChildPc)}
    (leaves : k + 1 < a.numforks → Leaves a exec k) (h : K.forks = 0 ∧ Place a exec k K.prog)
    (moves : Moves (next a) exec [k] K kids K' kids') :
    K'.forks = 0 ∧ Place a exec k K'.prog := by
  obtain ⟨childless, place⟩ := h
  have acts {c : Local ChildPc} (here : K.At c) : Place a exec k (some c) := here.2 ▸ place
  rcases moves.alone fun c here => place_alone (acts here) with moves | rfl | rfl
  · refine ⟨moves.forks.trans childless, ?_⟩
    cases moves with
    | goto c c' here does => exact place_goto leaves (acts here) does
    | execve c failed here does ok => exact .command
    | execFailed c failed here does fails => exact place_execFailed (acts here) does fails
    | noChild c failed target reported here does exhausted =>
      exact absurd does (Action.alone_not_waitpid (place_alone (acts here)))
    | exit c status here does => exact place
    | stop signal running => exact place
    | cont stopped => exact place
    | kill signal alive => exact place
    | finish status running other => exact place
  · exact ⟨childless, place⟩
  · exact ⟨childless, place⟩

/-- The invariant of the family if every child but the last leaves the loop. -/
def FamilyInv (a : Arguments) (exec : Pid → Bool) (p : Pid) (P : Process (Local ChildPc))
    (kids : Kids (Local ChildPc)) : Prop :=
  match p with
  | [] => ∃ c, ParentInv a.numforks P kids c
  | [k] => P.forks = 0 ∧ Place a exec k P.prog
  | _ :: _ :: _ => False

theorem familyInv (leaves : ∀ k : Nat, k + 1 < a.numforks → Leaves a exec k)
    (s : Table (Local ChildPc)) (h : (multiforkexec a exec).Reachable s) :
    s.Tree ∧ ∀ p P, s.proc p = some P → Context (FamilyInv a exec) p P (s.kids p) := by
  rw [multiforkexec] at h
  apply family_invariant .start (FamilyInv a exec) ?_ ?_ ?_ s h
  · exact ⟨.start, parentInv_start⟩
  · intro p P kids d child parent inv here does
    rcases p with _ | ⟨k, _ | ⟨j, p⟩⟩
    · obtain ⟨c, prog, phase, -⟩ := inv
      cases Option.some.inj (here.2.symm.trans prog)
      obtain ⟨rfl, -⟩ := phase_born phase does
      exact ⟨rfl, .branch _ .argTest rfl rfl fun e => by cases e⟩
    · have place : Place a exec k (some d) := here.2 ▸ inv.2
      exact absurd does (Action.alone_not_fork (place_alone place))
    · exact inv
  · intro p P kids P' kids' context moves
    rcases p with _ | ⟨k, _ | ⟨j, p⟩⟩
    · exact parentInv_moves context.inv context.fresh (fun k K kid => (context.kid k K kid).1) moves
    · exact place_moves (leaves k) context.inv moves
    · exact context.inv.elim

theorem onlyOriginalForks (leaves : ∀ k : Nat, k + 1 < a.numforks → Leaves a exec k)
    (s : Table (Local ChildPc)) (h : (multiforkexec a exec).Reachable s) :
    OnlyOriginalForks a.numforks s := by
  obtain ⟨tree, inv⟩ := familyInv leaves s h
  rw [multiforkexec] at h
  obtain ⟨R, root⟩ := first_present .start s h
  obtain ⟨c, prog, phase, returned⟩ := (inv [] R root).inv
  obtain ⟨j, -, -, -, bound, atEnd⟩ := phase_summary phase
  have created : s.created = (List.range R.forks).map (· :: []) := by
    apply created_eq .start s h R.forks (s.forks_eq [] R root)
    intro p inner m count
    obtain ⟨P, present, rfl⟩ := Option.map_eq_some_iff.mp count
    have known := (inv p P present).inv
    rcases p with _ | ⟨k, _ | ⟨i, p⟩⟩
    · exact absurd rfl inner
    · exact known.1
    · exact known.elim
  have length : s.created.length = R.forks := by rw [created, List.length_map, List.length_range]
  constructor
  · intro q member
    rw [created] at member
    obtain ⟨k, -, rfl⟩ := List.mem_map.mp member
    exact ⟨k, rfl⟩
  · rw [length]
    exact bound
  · intro P status present ended
    cases Option.some.inj (root.symm.trans present)
    have finished := atEnd (returned status ended).1
    rw [length, finished.2]
    exact finished.1

/-- A child that does not leave comes back to the test of the loop. -/
theorem reaches_test {k : Nat} (stays : ¬ Leaves a exec k) {s : Table (Local ChildPc)}
    {P : Process (Local ChildPc)} {cpid : Target} {vars : Vars} {out : List Line}
    (h : Reaches (next a) exec .start s [k] P ⟨.child .argTest, k, cpid, vars, out⟩) :
    ∃ s P c, Reaches (next a) exec .start s [k] P c ∧ c.pc = .forkTest ∧ c.forkno = k + 1 := by
  by_cases alone : a.argc = 1
  · have does : next a ⟨.child .argTest, k, cpid, vars, out⟩ =
        .goto ⟨.forkTest, k + 1, cpid, vars, out ++ [.needCommand]⟩ := by
      simp only [next, serialLoop, childNext, alone, if_true, Local.print]
    exact ⟨_, _, _, h.goto does, rfl, rfl⟩
  · have fails : exec [k] = false := by
      cases ok : exec [k] with
      | true => exact absurd ⟨alone, ok⟩ stays
      | false => rfl
    have does : next a ⟨.child .argTest, k, cpid, vars, out⟩ =
        .goto ⟨.child .execve, k, cpid, vars, out⟩ := by
      simp only [next, serialLoop, childNext, alone, if_false]
    exact ⟨_, _, _, ((h.goto does).execFailed rfl fails).goto rfl, rfl, rfl⟩

/-- **Only the original process forks** if and only if every child but the last one has a
command and succeeds in executing it. -/
theorem only_original_forks_iff (a : Arguments) (exec : Pid → Bool) :
    (∀ s, (multiforkexec a exec).Reachable s → OnlyOriginalForks a.numforks s) ↔
      ∀ k : Nat, k + 1 < a.numforks → a.argc ≠ 1 ∧ exec [k] = true := by
  constructor
  · intro only k more
    by_contra stays
    -- child `k` comes back and forks
    obtain ⟨s, P, ⟨pc, forkno, cpid, vars, out⟩, atFork, rfl, rfl, count⟩ :=
      reaches_fork a.numforks .argTest (childNext a.argc) exec k (by omega)
    have child := (atFork.fork rfl).other (q := [P.forks])
      (by rw [Table.proc_spawn, Table.proc_set_self]) ⟨rfl, rfl⟩
    rw [count] at child
    obtain ⟨t, Q, c, back, pc, round⟩ := reaches_test stays child
    have less : (c.forkno : Int) < a.numforks := by
      rw [round]
      exact_mod_cast more
    have does : next a c = .goto { c with pc := .fork } := by
      simp only [next, serialLoop, pc, less, if_true]
    have bad := (back.goto does).fork rfl
    have grandchild := (only _ bad.reachable).byOriginal _ (by
      rw [Table.created_spawn]
      exact List.mem_append_right _ (List.mem_singleton_self _))
    obtain ⟨i, same⟩ := grandchild
    cases same
  · intro leaves s h
    exact onlyOriginalForks leaves s h

end Childless

/-- `multiforkexec 2` without a command: the first child makes a process of its own. -/
theorem not_only_original_forks :
    ¬ ∀ (argv : List (List Byte)) (exec : Pid → Bool) (s : Table (Local ChildPc)),
      (multiforkexec (arguments argv) exec).Reachable s →
        OnlyOriginalForks (arguments argv).numforks s := by
  intro claim
  have two := claim [ascii "multiforkexec", ascii "2"] (fun _ => false) _
    ⟨_, List.replicate 3 (Act.run []) ++ List.replicate 3 (Act.run [0]), rfl, rfl⟩
  obtain ⟨k, grandchild⟩ := two.byOriginal [0, 0] (List.mem_of_elem_eq_true rfl)
  cases grandchild

end GenericTests.Forks.Multiforkexec
