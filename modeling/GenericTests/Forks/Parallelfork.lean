import GenericTests.Forks.SerialLoop

/-!
# parallelfork.c

The parent forks all children and then waits until `waitpid` has reported the end of the
last one it forked: of the others it knows nothing when it prints that all children have
exited.
-/
namespace GenericTests.Forks.Parallelfork

open GenericTests.Processes GenericTests.Transition

inductive Pc where
  | start
  | forkTest
  | fork
  | childAnnounce
  | childValues
  | childAssign
  | childChanged
  | childSleep
  | childExit
  | wait
  /-- `waitpid` has stored this status -/
  | status (status : Status)
  | parentAfter
  | parentAssign
  | parentChanged
  | ret

structure Local where
  pc : Pc
  forkno : Nat
  cpid : Target
  vars : Vars
  out : List Line

/-- Nobody can be waited for before the first fork, whatever is in `cpid`. -/
def Local.start : Local := ⟨.start, 0, .any, ⟨0, 0, 0, 0⟩, []⟩

def Local.print (c : Local) (pc : Pc) (line : Line) : Local :=
  { c with pc := pc, out := c.out ++ [line] }

def next (numforks : Int) (c : Local) : Action Local :=
  match c.pc with
  | .start => .goto
    { c with
      pc := .forkTest
      forkno := 0
      vars := initialVars
      out := c.out ++ [.willFork numforks, .initial initialVars] }
  | .forkTest => .goto { c with pc := if c.forkno < numforks then .fork else .wait }
  | .fork => .fork { c with pc := .childAnnounce, cpid := .any, out := [] } fun pid =>
      { c with pc := .forkTest, forkno := c.forkno + 1, cpid := .child pid }
  | .childAnnounce => .goto (c.print .childValues (.child c.forkno))
  | .childValues => .goto (c.print .childAssign (.childValues c.vars))
  | .childAssign => .goto { c with pc := .childChanged, vars := childVars }
  | .childChanged => .goto (c.print .childSleep (.childChanged c.vars))
  | .childSleep => .goto { c with pc := .childExit }
  | .childExit => .exit c.forkno
  | .wait => .waitpid c.cpid (fun status => { c with pc := .status status })
      { c with pc := .parentAfter }
  | .status status =>
    .goto (c.print (if status.final then .parentAfter else .wait) (statusLine status))
  | .parentAfter => .goto (c.print .parentAssign (.parentAfterAll c.vars))
  | .parentAssign => .goto { c with pc := .parentChanged, vars := parentVars }
  | .parentChanged => .goto (c.print .ret (.parentChanged c.vars))
  | .ret => .exit 0

/-- The program executes no other one. -/
def parallelfork (numforks : Int) : System (Table Local) Act :=
  family (next numforks) (fun _ => false) .start

/-- When main has printed `parent after all children exitted`, all children have
terminated. -/
def AllExited (numforks : Int) (s : Table Local) : Prop :=
  ∀ P c v, s.proc [] = some P → P.prog = some c → .parentAfterAll v ∈ c.out →
    ∀ k : Nat, k < numforks → ∃ K, s.proc [k] = some K ∧ K.terminated = true

/-! ### At most one child -/

/-- Behind the wait loop. -/
def Local.late (c : Local) : Bool :=
  match c.pc with
  | .status status => status.final
  | .parentAfter | .parentAssign | .parentChanged | .ret => true
  | _ => false

/-- The number of forks and the target of `waitpid` at each place. -/
def Counted (numforks : Int) (p : Pid) (n : Nat) (c : Local) : Prop :=
  match c.pc with
  | .start => n = 0
  | .forkTest => n = c.forkno ∧ n ≤ max numforks 0 ∧ (0 < n → c.cpid = .child (0 :: p))
  | .fork => n = c.forkno ∧ n < numforks
  | .childAnnounce | .childValues | .childAssign | .childChanged | .childSleep | .childExit => n = 0
  | .wait | .status _ | .parentAfter | .parentAssign | .parentChanged | .ret =>
    n = max numforks 0 ∧ (0 < n → c.cpid = .child (0 :: p))

theorem Counted.of_late {numforks : Int} {p : Pid} {n : Nat} {c : Local}
    (h : Counted numforks p n c) (late : c.late = true) : (n : Int) = max numforks 0 := by
  obtain ⟨pc, forkno, cpid, vars, out⟩ := c
  cases pc with
  | status status => exact h.1
  | parentAfter | parentAssign | parentChanged | ret => exact h.1
  | start | forkTest | fork | childAnnounce | childValues | childAssign | childChanged | childSleep
  | childExit | wait => cases late

structure ParentInv (numforks : Int) (p : Pid) (n : Nat) (c : Local) : Prop where
  counted : Counted numforks p n c
  line : ∀ v, .parentAfterAll v ∈ c.out → c.late = true

theorem ParentInv.print {numforks : Int} {p : Pid} {n : Nat} {c : Local}
    (h : ParentInv numforks p n c) (pc : Pc) (line : Line)
    (counted : Counted numforks p n (c.print pc line))
    (late : c.late = true → (c.print pc line).late = true)
    (new : ∀ v, .parentAfterAll v = line → (c.print pc line).late = true) :
    ParentInv numforks p n (c.print pc line) := by
  refine ⟨counted, fun v member => ?_⟩
  rcases List.mem_append.mp member with old | last
  · exact late (h.line v old)
  · exact new v (List.mem_singleton.mp last)

theorem localInvariant (numforks : Int) (one : numforks ≤ 1) :
    LocalInvariant (next numforks) .start (ParentInv numforks) := by
  constructor
  · exact ⟨rfl, nofun⟩
  · rintro p n ⟨pc, forkno, cpid, vars, out⟩ c' h does
    cases pc with
    | start =>
      have zero : n = 0 := h.counted
      subst zero
      cases does
      refine ⟨⟨rfl, by omega, nofun⟩, fun v member => ?_⟩
      have old : .parentAfterAll v ∈ out := by simpa using member
      cases h.line v old
    | forkTest =>
      obtain ⟨count, bound, cpid⟩ := h.counted
      cases does
      by_cases more : (forkno : Int) < numforks
      · simp only [more, if_true]
        exact ⟨⟨count, by simp only at count; omega⟩, h.line⟩
      · simp only [more, if_false]
        exact ⟨⟨by simp only at count; omega, cpid⟩, h.line⟩
    | childAnnounce =>
      cases does
      exact h.print _ _ h.counted nofun nofun
    | childValues =>
      cases does
      exact h.print _ _ h.counted nofun nofun
    | childAssign =>
      cases does
      exact ⟨h.counted, h.line⟩
    | childChanged =>
      cases does
      exact h.print _ _ h.counted nofun nofun
    | childSleep =>
      cases does
      exact ⟨h.counted, h.line⟩
    | status status =>
      cases does
      -- a report of a status is another line than the one in question
      have line : ∀ v, .parentAfterAll v ≠ statusLine status := by
        intro v
        cases status <;> nofun
      cases final : status.final with
      | true => exact h.print _ _ h.counted (fun _ => rfl) fun v same => absurd same (line v)
      | false =>
        refine h.print _ _ h.counted (fun late => ?_) fun v same => absurd same (line v)
        simp only [Local.late, final] at late
        cases late
    | parentAfter =>
      cases does
      exact h.print _ _ h.counted (fun _ => rfl) fun _ _ => rfl
    | parentAssign =>
      cases does
      exact ⟨h.counted, h.line⟩
    | parentChanged =>
      cases does
      exact h.print _ _ h.counted (fun _ => rfl) fun _ _ => rfl
    | fork | childExit | wait | ret => cases does
  · rintro p n ⟨pc, forkno, cpid, vars, out⟩ child parent h does
    cases pc <;> cases does
    obtain ⟨count, less⟩ := h.counted
    refine ⟨⟨rfl, nofun⟩, ⟨congrArg (· + 1) count, by omega, fun _ => ?_⟩, h.line⟩
    -- with at most one child, `cpid` is the only one there is
    have zero : n = 0 := by omega
    rw [zero]
  · rintro p n ⟨pc, forkno, cpid, vars, out⟩ failed h does
    cases pc <;> cases does
  · rintro p n ⟨pc, forkno, cpid, vars, out⟩ target reported failed h does
    cases pc <;> cases does
    have early : ∀ v, .parentAfterAll v ∉ out := fun v member => by cases h.line v member
    exact ⟨fun status => ⟨h.counted, fun v member => absurd member (early v)⟩, h.counted,
      fun _ _ => rfl⟩

theorem waitLoop (numforks : Int) : WaitLoop (next numforks) (ParentInv numforks) Local.late := by
  constructor
  · rintro p n ⟨pc, forkno, cpid, vars, out⟩ c' - does late
    left
    cases pc with
    | forkTest =>
      cases does
      by_cases more : (forkno : Int) < numforks <;> simp [Local.late, more] at late
    | status status =>
      cases does
      cases final : status.final with
      | true => simpa [Local.late] using final
      | false => simp [Local.late, Local.print, final] at late
    | parentAfter | parentAssign | parentChanged | ret => rfl
    | fork | childExit | wait => cases does
    | start | childAnnounce | childValues | childAssign | childChanged | childSleep =>
      cases does
      cases late
  · rintro ⟨pc, forkno, cpid, vars, out⟩ child parent does
    cases pc <;> cases does
    exact ⟨rfl, fun _ => rfl⟩
  · rintro ⟨pc, forkno, cpid, vars, out⟩ failed does
    cases pc <;> cases does
  · rintro ⟨pc, forkno, cpid, vars, out⟩ target reported failed does
    cases pc <;> cases does
    exact fun _ => rfl

theorem allExited_of_one (numforks : Int) (one : numforks ≤ 1) (s : Table Local)
    (h : (parallelfork numforks).Reachable s) : AllExited numforks s := by
  rw [parallelfork] at h
  intro P c v present prog printed k hk
  have known := terminated_of_late (waitLoop numforks) (localInvariant numforks one)
    (fun p n c h => ?_) (fun p n c target reported failed h does k hk => ?_) rfl s h [] P c present
    prog
  · have late := known.1.line v printed
    have count := known.1.counted.of_late late
    exact known.2 late k (by omega)
  · have counted := h.counted
    rw [Counted] at counted
    split at counted <;> omega
  · have counted := h.counted
    obtain ⟨pc, forkno, cpid, vars, out⟩ := c
    cases pc <;> cases does
    have all := counted.2 (by omega)
    simp only at all
    have zero : k = 0 := by
      have most := counted.1
      omega
    rw [all, zero]
    simp [Target.covers]

/-! ### More children -/

/-- While it forks, the parent waits for nobody, so all children may still be there. -/
theorem reaches_forkTest (numforks : Int) (j : Nat) (bound : j = 0 ∨ j ≤ numforks) :
    ∃ s P c, Reaches (next numforks) (fun _ => false) .start s [] P c ∧ c.pc = .forkTest ∧
      c.forkno = j ∧ P.forks = j ∧ (0 < j → c.cpid = .child [j - 1]) ∧ s.AllAlive [] j := by
  induction j with
  | zero =>
    have first := (reaches_start (next numforks) (fun _ => false) Local.start).goto rfl
    exact ⟨_, _, _, first, rfl, rfl, rfl, nofun, nofun⟩
  | succ j ih =>
    obtain ⟨s, P, c, atTest, pc, forkno, rfl, -, alive⟩ := ih (by omega)
    have less : (c.forkno : Int) < numforks := by omega
    have does : next numforks c = .goto { c with pc := .fork } := by
      simp only [next, pc, less, if_true]
    have forked := (atTest.goto does).fork rfl
    exact ⟨_, _, _, forked, rfl, congrArg (· + 1) forkno, rfl, fun _ => rfl,
      (alive.set_parent _).fork _ _⟩

/-- If the last child terminates first, the line is printed while the others are alive. -/
theorem not_allExited_of_more (numforks : Int) (more : 1 < numforks) :
    ∃ s, (parallelfork numforks).Reachable s ∧ ¬ AllExited numforks s := by
  obtain ⟨j, rfl⟩ : ∃ j : Nat, numforks = j + 2 := ⟨(numforks - 2).toNat, by omega⟩
  obtain ⟨s, P, c, atTest, pc, forkno, count, last, alive⟩ :=
    reaches_forkTest (j + 2) (j + 2) (.inr (by omega))
  have finished : ¬ (c.forkno : Int) < j + 2 := by omega
  have does : next (j + 2) c = .goto { c with pc := .wait } := by
    simp only [next, pc, finished, if_false]
  obtain ⟨K, kid, still⟩ := alive (j + 1) (by omega)
  obtain ⟨L, first, running⟩ := alive 0 (by omega)
  have told := (atTest.goto does).killed rfl (k := j + 1)
    ((s.proc_set_parent _ _ _).trans kid) still (by simp [last, Target.covers]) 9
  have printed := (told.goto rfl).goto rfl
  refine ⟨_, printed.reachable, fun claim => ?_⟩
  obtain ⟨M, there, ended⟩ := claim _ _ _ printed.present printed.here.2
    (List.mem_append_right _ (List.mem_singleton_self _)) 0 (by omega)
  -- child 0 is as it was
  rw [Table.proc_set_parent, Table.proc_set_parent, Table.proc_killed_ne _ _ _ _ _ _ _ (by omega),
    Table.proc_set_parent, first] at there
  cases there
  rw [running] at ended
  cases ended

theorem allExited_iff (numforks : Int) :
    (∀ s, (parallelfork numforks).Reachable s → AllExited numforks s) ↔ numforks ≤ 1 := by
  constructor
  · intro claim
    by_contra more
    obtain ⟨s, reachable, fails⟩ := not_allExited_of_more numforks (by omega)
    exact fails (claim s reachable)
  · intro one s h
    exact allExited_of_one numforks one s h

end GenericTests.Forks.Parallelfork
