import GenericTests.Forks.SerialLoop

/-!
# serialfork.c

Each child prints the four variables, changes its own copies of them and exits with its
number. The parent has collected a child before it forks the next one.
-/
namespace GenericTests.Forks.Serialfork

open GenericTests.Processes GenericTests.Transition

inductive ChildPc where
  | announce
  | values
  | assign
  | changed
  | exit

def childNext (c : Local ChildPc) : ChildPc → Action (Local ChildPc)
  | .announce => .goto (c.print (.child .values) (.child c.forkno))
  | .values => .goto (c.print (.child .assign) (.childValues c.vars))
  | .assign => .goto { c with pc := .child .changed, vars := childVars }
  | .changed => .goto (c.print (.child .exit) (.childChanged c.vars))
  | .exit => .exit c.forkno

def next (numforks : Int) : Local ChildPc → Action (Local ChildPc) :=
  serialLoop numforks .announce childNext

/-- The program executes no other one. -/
def serialfork (numforks : Int) : System (Table (Local ChildPc)) Act :=
  family (next numforks) (fun _ => false) .start

/-! ### The children -/

/-- Before the child's own assignments. -/
def ChildPc.untouched : ChildPc → Bool
  | .announce | .values | .assign => true
  | .changed | .exit => false

/-- Child `k` somewhere in its branch; it forks nobody. -/
structure ChildInv (k : Nat) (K : Process (Local ChildPc)) (c : Local ChildPc)
    (place : ChildPc) : Prop where
  prog : K.prog = some c
  forks : K.forks = 0
  pc : c.pc = .child place
  forkno : c.forkno = k
  vars : place.untouched = true → c.vars = varsOf k
  shown : ∀ v, .childValues v ∈ c.out → v = varsOf k
  exited : ∀ status, K.life = .ended (.exited status) → status = k % 256

theorem childInv_born (k : Nat) :
    ChildInv k (.born ⟨.child .announce, k, .any, varsOf k, []⟩)
      ⟨.child .announce, k, .any, varsOf k, []⟩ .announce :=
  ⟨rfl, rfl, rfl, rfl, fun _ => rfl, nofun, nofun⟩

theorem childInv_goto {k : Nat} {K : Process (Local ChildPc)} {c c' : Local ChildPc}
    {place : ChildPc} (h : ChildInv k K c place) (running : K.life = .running)
    (does : childNext c place = .goto c') : ∃ place', ChildInv k (K.goto c') c' place' := by
  have exited : ∀ status, (K.goto c').life = .ended (.exited status) → status = k % 256 :=
    fun status ended => by cases running.symm.trans ended
  cases place with
  | announce =>
    cases does
    exact ⟨.values, rfl, h.forks, rfl, h.forkno, fun _ => h.vars rfl,
      fun v member => h.shown v (by simpa [Local.print] using member), exited⟩
  | values =>
    cases does
    refine ⟨.assign, rfl, h.forks, rfl, h.forkno, fun _ => h.vars rfl, fun v member => ?_, exited⟩
    simp only [Local.print, List.mem_append, List.mem_singleton, Line.childValues.injEq] at member
    rcases member with old | rfl
    · exact h.shown v old
    · exact h.vars rfl
  | assign =>
    cases does
    exact ⟨.changed, rfl, h.forks, rfl, h.forkno, (by rintro ⟨⟩), h.shown, exited⟩
  | changed =>
    cases does
    exact ⟨.exit, rfl, h.forks, rfl, h.forkno, (by rintro ⟨⟩),
      fun v member => h.shown v (by simpa [Local.print] using member), exited⟩
  | exit => cases does

/-- A child never forks or waits. -/
theorem childInv_alone {numforks : Int} {k : Nat} {K : Process (Local ChildPc)}
    {c : Local ChildPc} {place : ChildPc} (h : ChildInv k K c place) :
    (next numforks c).alone = true := by
  rw [next, serialLoop, h.pc]
  cases place <;> rfl

theorem childInv_moves {numforks : Int} {k : Nat} {K K' : Process (Local ChildPc)}
    {kids kids' : Kids (Local ChildPc)} (h : ∃ c place, ChildInv k K c place)
    (moves : Moves (next numforks) (fun _ => false) [k] K kids K' kids') :
    ∃ c place, ChildInv k K' c place := by
  obtain ⟨c, place, inv⟩ := h
  have same {d : Local ChildPc} (here : K.At d) : d = c :=
    Option.some.inj (here.2.symm.trans inv.prog)
  have acts : next numforks c = childNext c place := by rw [next, serialLoop, inv.pc]
  -- changes of its life alone; only `exit` gives it an exit status
  have alone (K' : Process (Local ChildPc)) (prog : K'.prog = K.prog) (forks : K'.forks = K.forks)
      (exited : ∀ status, K'.life = .ended (.exited status) → status = k % 256) :
      ∃ c place, ChildInv k K' c place :=
    ⟨c, place, prog.trans inv.prog, forks.trans inv.forks, inv.pc, inv.forkno, inv.vars, inv.shown,
      exited⟩
  rcases moves.alone fun d here => same here ▸ childInv_alone inv with moves | rfl | rfl
  · cases moves with
    | goto d c' here does =>
      cases same here
      obtain ⟨place', inv'⟩ := childInv_goto inv here.1 (acts.symm.trans does)
      exact ⟨c', place', inv'⟩
    | execve d failed here does ok => cases ok
    | execFailed d failed here does fails =>
      cases same here
      rw [acts] at does
      cases place <;> cases does
    | exit d status here does =>
      cases same here
      rw [acts] at does
      cases place with
      | exit =>
        cases does
        refine alone (K.end _) rfl rfl fun status ended => ?_
        cases ended
        rw [inv.forkno]
        omega
      | announce | values | assign | changed => cases does
    | noChild d failed target reported here does exhausted =>
      cases same here
      exact absurd does (Action.alone_not_waitpid (childInv_alone inv))
    | stop signal running => exact alone (K.stop signal) rfl rfl fun _ e => by cases e
    | cont stopped => exact alone K.cont rfl rfl fun _ e => by cases e
    | kill signal alive => exact alone (K.end (.killed signal)) rfl rfl fun _ e => by cases e
    | finish status running other =>
      rw [inv.prog] at other
      cases other
  · exact alone K.reap rfl rfl inv.exited
  · exact ⟨c, place, inv⟩

/-! ### The family -/

def FamilyInv (numforks : Int) (p : Pid) (P : Process (Local ChildPc))
    (kids : Kids (Local ChildPc)) : Prop :=
  match p with
  | [] => ∃ c, ParentInv numforks P kids c
  | [k] => ∃ c place, ChildInv k P c place
  | _ :: _ :: _ => False

theorem familyInv (numforks : Int) (s : Table (Local ChildPc))
    (h : (serialfork numforks).Reachable s) :
    s.Tree ∧ ∀ p P, s.proc p = some P → Context (FamilyInv numforks) p P (s.kids p) := by
  rw [serialfork] at h
  apply family_invariant .start (FamilyInv numforks) ?_ ?_ ?_ s h
  · exact ⟨.start, parentInv_start⟩
  · intro p P kids d child parent inv here does
    rcases p with _ | ⟨k, _ | ⟨j, p⟩⟩
    · obtain ⟨c, prog, phase, -⟩ := inv
      cases Option.some.inj (here.2.symm.trans prog)
      obtain ⟨rfl, -⟩ := phase_born phase does
      exact ⟨_, _, childInv_born P.forks⟩
    · obtain ⟨c, place, inv⟩ := inv
      cases Option.some.inj (here.2.symm.trans inv.prog)
      exact absurd does (Action.alone_not_fork (childInv_alone inv))
    · exact inv
  · intro p P kids P' kids' context moves
    rcases p with _ | ⟨k, _ | ⟨j, p⟩⟩
    · exact parentInv_moves context.inv context.fresh (fun k K kid => (context.kid k K kid).1) moves
    · exact childInv_moves context.inv moves
    · exact context.inv.elim

/-- The child has been killed by a signal. -/
def killed (K : Option (Process (Local ChildPc))) : Bool :=
  match K with
  | some ⟨.ended (.killed _), _, _, _⟩ => true
  | _ => false

/-- main has returned. -/
def Returned (s : Table (Local ChildPc)) : Prop :=
  ∃ P status, s.proc [] = some P ∧ P.life = .ended (.exited status)

/-- `values` of the parent have none of the values the children assign. -/
def Vars.Isolated (v : Vars) : Prop :=
  ∀ x ∈ [v.localvar, v.staticvar, v.globalvar, v.heap], x ∉ [0x02, 0x12, 0x22, 0x32]

/-- Strictly serial children with memory of their own. -/
structure Serial (numforks : Int) (s : Table (Local ChildPc)) : Prop where
  oneAlive : ∀ p q P Q, p ≠ [] → q ≠ [] → s.proc p = some P → s.proc q = some Q →
    P.terminated = false → Q.terminated = false → p = q
  inOrder : ∀ k, (s.proc [k + 1]).isSome = true → ∃ K, s.proc [k] = some K ∧ K.terminated = true
  created : ∃ n, s.created = (List.range n).map (· :: []) ∧ (n : Int) ≤ max numforks 0 ∧
    (Returned s → (n : Int) = max numforks 0)
  exitLines : ∀ P c, s.proc [] = some P → P.prog = some c →
    ∃ j, c.out.filterMap Line.exitStatus =
        ((List.range j).filter fun k => !killed (s.proc [k])).map (· % 256) ∧
      (∀ k < j, ∃ K, s.proc [k] = some K ∧ K.terminated = true) ∧
      (Returned s → (j : Int) = max numforks 0)
  childValues : ∀ k K c v, s.proc [k] = some K → K.prog = some c → .childValues v ∈ c.out →
    v = if k = 0 then ⟨0x01, 0x11, 0x21, 0x31⟩ else ⟨0x03, 0x13, 0x23, 0x33⟩
  parentValues : ∀ P c line v, s.proc [] = some P → P.prog = some c → line ∈ c.out →
    line.values = some v → Vars.Isolated v

private theorem filterMap_eq_map_filter (f : Nat → Option Nat) (p : Nat → Bool) (g : Nat → Nat)
    (l : List Nat) (h : ∀ k ∈ l, f k = if p k then some (g k) else none) :
    l.filterMap f = (l.filter p).map g := by
  rw [List.filterMap_congr h]
  clear h
  induction l with
  | nil => rfl
  | cons k l ih => cases hp : p k <;> simp [hp, ih]

/-- Nothing but its own `exit` and a signal ends a child. -/
theorem exitStatusOf_child {k : Nat} {K : Process (Local ChildPc)} {c : Local ChildPc}
    {place : ChildPc} (sane : K.Sane) (inv : ChildInv k K c place) (reaped : K.reaped = true) :
    exitStatusOf (some K) = if !killed (some K) then some (k % 256) else none := by
  obtain ⟨life, report, forks, prog⟩ := K
  cases life with
  | running => cases reaped
  | stopped => cases reaped
  | ended status =>
    cases status with
    | exited status =>
      rw [inv.exited status rfl]
      rfl
    | killed signal => rfl
    | stopped signal => cases (sane.ended _ rfl).1
    | continued => cases (sane.ended _ rfl).1

theorem terminated_of_reaped {K : Process (Local ChildPc)} (h : K.reaped = true) :
    K.terminated = true := by
  rw [Process.reaped, Bool.and_eq_true] at h
  exact h.1

theorem isolated_of_parent (v : Vars) (h : v = initialVars ∨ v = parentVars) :
    Vars.Isolated v := by
  rcases h with rfl | rfl
  · unfold Vars.Isolated
    decide
  · unfold Vars.Isolated
    decide

/-- **Serial children with isolated memory**, in every reachable state. -/
theorem serial_children (numforks : Int) (s : Table (Local ChildPc))
    (h : (serialfork numforks).Reachable s) : Serial numforks s := by
  obtain ⟨tree, inv⟩ := familyInv numforks s h
  rw [serialfork] at h
  obtain ⟨R, root⟩ := first_present .start s h
  obtain ⟨c, prog, phase, returned⟩ := (inv [] R root).inv
  obtain ⟨j, collected, printed, last, bound, atEnd⟩ := phase_summary phase
  have counted := (inv [] R root).numbered
  -- there are no grandchildren
  have child : ∀ p P, p ≠ [] → s.proc p = some P →
      ∃ k, p = [k] ∧ k < R.forks ∧ ∃ c place, ChildInv k P c place := by
    intro p P inner present
    have known := (inv p P present).inv
    rcases p with _ | ⟨k, _ | ⟨i, p⟩⟩
    · exact absurd rfl inner
    · exact ⟨k, rfl, (counted k).mp (by simp [Table.kids, present]), known⟩
    · exact known.elim
  have done : Returned s → (j : Int) = max numforks 0 ∧ R.forks = j := by
    rintro ⟨P, status, present, ended⟩
    cases Option.some.inj (root.symm.trans present)
    exact atEnd (returned status ended).1
  have early : ∀ k < j, ∃ K, s.proc [k] = some K ∧ K.terminated = true := by
    intro k hk
    obtain ⟨K, kid, reaped⟩ := collected k hk
    exact ⟨K, kid, terminated_of_reaped reaped⟩
  have newest : ∀ p P, p ≠ [] → s.proc p = some P → P.terminated = false → p = [j] := by
    intro p P inner present alive
    obtain ⟨k, rfl, hk, -⟩ := child p P inner present
    have late : ¬ k < j := by
      intro hk
      obtain ⟨K, kid, ended⟩ := early k hk
      cases Option.some.inj (kid.symm.trans present)
      rw [alive] at ended
      cases ended
    have same : k = j := by omega
    rw [same]
  constructor
  · intro p q P Q hp hq presentP presentQ aliveP aliveQ
    rw [newest p P hp presentP aliveP, newest q Q hq presentQ aliveQ]
  · intro k present
    have later := (counted (k + 1)).mp present
    exact early k (by omega)
  · refine ⟨R.forks, ?_, bound, fun finished => by rw [(done finished).2]; exact (done finished).1⟩
    apply created_eq .start s h R.forks (s.forks_eq [] R root)
    intro p inner m count
    obtain ⟨P, present, rfl⟩ := Option.map_eq_some_iff.mp count
    obtain ⟨k, rfl, -, c, place, own⟩ := child p P inner present
    exact own.forks
  · intro P d present prog'
    cases Option.some.inj (root.symm.trans present)
    cases Option.some.inj (prog.symm.trans prog')
    refine ⟨j, ?_, early, fun finished => (done finished).1⟩
    rw [printed.exits]
    apply filterMap_eq_map_filter
    intro k member
    obtain ⟨K, kid, reaped⟩ := collected k (List.mem_range.mp member)
    obtain ⟨i, same, -, d, place, own⟩ := child [k] K (by simp) kid
    cases same
    have sane := (inv [k] K kid).sane
    have status := exitStatusOf_child sane own reaped
    rwa [← kid] at status
  · intro k K d v present prog' member
    obtain ⟨i, same, -, d', place, own⟩ := child [k] K (by simp) present
    cases same
    cases Option.some.inj (prog'.symm.trans own.prog)
    exact own.shown v member
  · intro P d line v present prog' member shown
    cases Option.some.inj (root.symm.trans present)
    cases Option.some.inj (prog.symm.trans prog')
    exact isolated_of_parent v (printed.values line member v shown)

/-- Two children: the first one is stopped, continued and exits, the second one is killed. -/
theorem serial_children_two :
    ∃ s P c, (serialfork 2).Reachable s ∧ s.proc [] = some P ∧ P.life = .ended (.exited 0) ∧
      P.prog = some c ∧ c.out.filterMap Line.exitStatus = [0] ∧ Serial 2 s := by
  have reached : (serialfork 2).Reachable _ :=
    ⟨_, List.replicate 4 (Act.run []) ++ [Act.run [0], Act.stop [0] 19, Act.report [] 0,
        Act.run [], Act.cont [0]] ++ List.replicate 4 (Act.run [0]) ++ [Act.report [] 0] ++
      List.replicate 7 (Act.run []) ++ [Act.kill [1] 9, Act.report [] 1] ++
      List.replicate 6 (Act.run []), rfl, rfl⟩
  exact ⟨_, _, _, reached, rfl, rfl, rfl, rfl, serial_children 2 _ reached⟩

end GenericTests.Forks.Serialfork
