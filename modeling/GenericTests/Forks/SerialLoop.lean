import GenericTests.Lib.ProcessTree

/-!
# serialfork.c and multiforkexec.c: the fork loop

The parent forks one child, waits until it has terminated, changes its four variables
and goes on. The two programs differ in what the child does, which is a parameter here:
`κ` are the places of the child's branch.
-/
namespace GenericTests.Forks

open GenericTests.Processes

/-- `localvar`, `staticvar`, `globalvar` and `heapptr[0]` -/
structure Vars where
  localvar : Nat
  staticvar : Nat
  globalvar : Nat
  heap : Nat
  deriving DecidableEq

def initialVars : Vars := ⟨0x01, 0x11, 0x21, 0x31⟩

def childVars : Vars := ⟨0x02, 0x12, 0x22, 0x32⟩

def parentVars : Vars := ⟨0x03, 0x13, 0x23, 0x33⟩

/-- The calls of `printf` in the fork programs with the values they get; the process and
user ids in the line of a child are left out. -/
inductive Line where
  | willFork (numforks : Int)
  | initial (values : Vars)
  | child (forkno : Nat)
  | childValues (values : Vars)
  | childChanged (values : Vars)
  | parentBefore (values : Vars)
  | parentAfter (values : Vars)
  | parentAfterAll (values : Vars)
  | parentChanged (values : Vars)
  | exited (status : Nat)
  | killed (signal : Nat)
  | stopped (signal : Nat)
  | continued
  /-- `Need name of command to exec as first argument` -/
  | needCommand
  /-- `Failed to start %s with %d args` -/
  | failedToStart (argc : Nat)
  | willForkOnLevels (numforks numlevels : Int)
  | forkedOnLevels (numforks numlevels : Int)
  /-- `Level %d, Child %d: ...` -/
  | level (numlevels : Int) (forkno : Nat)
  | joined (i : Nat)
  /-- `parent %d after all children exitted` -/
  | levelAfterAll (levno : Int)
  deriving DecidableEq

/-- The four branches after `waitpid`. -/
def statusLine : Status → Line
  | .exited status => .exited status
  | .killed signal => .killed signal
  | .stopped signal => .stopped signal
  | .continued => .continued

def Line.values : Line → Option Vars
  | .initial v | .childValues v | .childChanged v | .parentBefore v | .parentAfter v
  | .parentAfterAll v | .parentChanged v => some v
  | _ => none

def Line.exitStatus : Line → Option Nat
  | .exited status => some status
  | _ => none

inductive Pc (κ : Type) where
  | start
  | forkTest
  | fork
  | child (place : κ)
  | parentBefore
  | wait
  | waitFailed
  /-- `waitpid` has stored this status -/
  | status (status : Status)
  | parentAfter
  | parentAssign
  | parentChanged
  | ret

structure Local (κ : Type) where
  pc : Pc κ
  forkno : Nat
  cpid : Target
  vars : Vars
  /-- what this process has printed -/
  out : List Line

variable {κ : Type}

def Local.start : Local κ := ⟨.start, 0, .any, ⟨0, 0, 0, 0⟩, []⟩

def Local.print (c : Local κ) (pc : Pc κ) (line : Line) : Local κ :=
  { c with pc := pc, out := c.out ++ [line] }

/-- main, from the first `printf` on. In the child `cpid` is 0, which `waitpid` would take
for any child. -/
def serialLoop (numforks : Int) (childStart : κ) (childNext : Local κ → κ → Action (Local κ))
    (c : Local κ) : Action (Local κ) :=
  match c.pc with
  | .start => .goto
    { c with
      pc := .forkTest
      forkno := 0
      vars := initialVars
      out := c.out ++ [.willFork numforks, .initial initialVars] }
  | .forkTest => .goto { c with pc := if c.forkno < numforks then .fork else .ret }
  | .fork => .fork { c with pc := .child childStart, cpid := .any, out := [] } fun pid =>
      { c with pc := .parentBefore, cpid := .child pid }
  | .child k => childNext c k
  | .parentBefore => .goto (c.print .wait (.parentBefore c.vars))
  | .wait => .waitpid c.cpid (fun status => { c with pc := .status status })
      { c with pc := .waitFailed }
  | .waitFailed => .exit (-1)
  | .status status =>
    .goto (c.print (if status.final then .parentAfter else .wait) (statusLine status))
  | .parentAfter => .goto (c.print .parentAssign (.parentAfter c.vars))
  | .parentAssign => .goto { c with pc := .parentChanged, vars := parentVars }
  | .parentChanged =>
    .goto { c.print .forkTest (.parentChanged c.vars) with forkno := c.forkno + 1 }
  | .ret => .exit 0

/-! ### The invariant of the parent -/

/-- What the parent's variables hold while it deals with child `k`. -/
def varsOf (k : Nat) : Vars := if k = 0 then initialVars else parentVars

/-- The exit status of a process that has not been killed. -/
def exitStatusOf (K : Option (Process (Local κ))) : Option Nat :=
  match K with
  | some ⟨.ended (.exited status), _, _, _⟩ => some status
  | _ => none

/-- The first `j` children have terminated and `waitpid` has said so. -/
def Collected (kids : Kids (Local κ)) (j : Nat) : Prop :=
  ∀ k < j, ∃ K, kids k = some K ∧ K.reaped = true

/-- What the parent has printed about its first `j` children. -/
structure Printed (kids : Kids (Local κ)) (out : List Line) (j : Nat) : Prop where
  values : ∀ line ∈ out, ∀ v, line.values = some v → v = initialVars ∨ v = parentVars
  exits : out.filterMap Line.exitStatus = (List.range j).filterMap fun k => exitStatusOf (kids k)

/-- The parent waits for child `forkno`. -/
structure Waiting (forks : Nat) (kids : Kids (Local κ)) (c : Local κ) : Prop where
  forks : forks = c.forkno + 1
  cpid : c.cpid = .child [c.forkno]
  collected : Collected kids c.forkno
  uncollected : ∃ K, kids c.forkno = some K ∧ K.reaped = false

/-- The invariant at each place of the parent; `forks` is the number of its children. -/
def Phase (numforks : Int) (forks : Nat) (kids : Kids (Local κ)) (c : Local κ) : Prop :=
  match c.pc with
  | .start => forks = 0 ∧ c.out = []
  | .forkTest => forks = c.forkno ∧ Collected kids c.forkno ∧ Printed kids c.out c.forkno ∧
      c.vars = varsOf c.forkno ∧ (c.forkno = 0 ∨ c.forkno ≤ numforks)
  | .fork => forks = c.forkno ∧ Collected kids c.forkno ∧ Printed kids c.out c.forkno ∧
      c.vars = varsOf c.forkno ∧ c.forkno < numforks
  | .parentBefore | .wait => Waiting forks kids c ∧ Printed kids c.out c.forkno ∧
      c.vars = varsOf c.forkno ∧ c.forkno < numforks
  | .status status =>
    (if status.final then forks = c.forkno + 1 ∧ Collected kids (c.forkno + 1) ∧
        ∃ K, kids c.forkno = some K ∧ K.life = .ended status
      else Waiting forks kids c) ∧
    Printed kids c.out c.forkno ∧ c.vars = varsOf c.forkno ∧ c.forkno < numforks
  | .parentAfter | .parentAssign => forks = c.forkno + 1 ∧ Collected kids (c.forkno + 1) ∧
      Printed kids c.out (c.forkno + 1) ∧ c.vars = varsOf c.forkno ∧ c.forkno < numforks
  | .parentChanged => forks = c.forkno + 1 ∧ Collected kids (c.forkno + 1) ∧
      Printed kids c.out (c.forkno + 1) ∧ c.vars = parentVars ∧ c.forkno < numforks
  | .ret => forks = c.forkno ∧ Collected kids c.forkno ∧ Printed kids c.out c.forkno ∧
      (c.forkno : Int) = max numforks 0
  | .child _ | .waitFailed => False

theorem varsOf_parent (k : Nat) : varsOf k = initialVars ∨ varsOf k = parentVars := by
  unfold varsOf
  split
  · exact .inl rfl
  · exact .inr rfl

/-- A line that shows no exit status keeps the correspondence. -/
theorem Printed.line {kids : Kids (Local κ)} {out : List Line} {j : Nat}
    (h : Printed kids out j) (line : Line)
    (values : ∀ v, line.values = some v → v = initialVars ∨ v = parentVars)
    (exits : line.exitStatus = none) : Printed kids (out ++ [line]) j := by
  constructor
  · intro l member v shown
    rcases List.mem_append.mp member with old | new
    · exact h.values l old v shown
    · cases List.mem_singleton.mp new
      exact values v shown
  · rw [List.filterMap_append, h.exits]
    simp [exits]

/-- The line of a child that has terminated. -/
theorem Printed.status {kids : Kids (Local κ)} {out : List Line} {j : Nat}
    (h : Printed kids out j) (status : Status) (K : Process (Local κ)) (kid : kids j = some K)
    (ended : K.life = .ended status) : Printed kids (out ++ [statusLine status]) (j + 1) := by
  constructor
  · intro l member v shown
    rcases List.mem_append.mp member with old | new
    · exact h.values l old v shown
    · cases List.mem_singleton.mp new
      cases status <;> cases shown
  · have same : (statusLine status).exitStatus = exitStatusOf (kids j) := by
      rw [kid]
      cases K
      cases ended
      cases status <;> rfl
    rw [List.filterMap_append, h.exits, List.range_succ, List.filterMap_append]
    simp only [List.filterMap_cons, List.filterMap_nil, same]

theorem statusLine_passing (status : Status) (passing : status.final = false) :
    (statusLine status).exitStatus = none := by
  cases status with
  | exited status => cases passing
  | killed signal => cases passing
  | stopped signal => rfl
  | continued => rfl

theorem values_statusLine (status : Status) : (statusLine status).values = none := by
  cases status <;> rfl

/-- Children that have been collected do not change. -/
def Keeps (kids kids' : Kids (Local κ)) : Prop :=
  ∀ k K, kids k = some K → K.reaped = true → kids' k = some K

theorem Collected.keep {kids kids' : Kids (Local κ)} {j : Nat} (h : Collected kids j)
    (keeps : Keeps kids kids') : Collected kids' j := by
  intro k hk
  obtain ⟨K, kid, reaped⟩ := h k hk
  exact ⟨K, keeps k K kid reaped, reaped⟩

theorem Printed.keep {kids kids' : Kids (Local κ)} {out : List Line} {j : Nat}
    (h : Printed kids out j) (collected : Collected kids j) (keeps : Keeps kids kids') :
    Printed kids' out j := by
  refine ⟨h.values, ?_⟩
  rw [h.exits]
  apply List.filterMap_congr
  intro k member
  obtain ⟨K, kid, reaped⟩ := collected k (List.mem_range.mp member)
  rw [kid, keeps k K kid reaped]

theorem keeps_update (kids : Kids (Local κ)) (i : Nat) (new : Option (Process (Local κ)))
    (uncollected : ∀ K, kids i = some K → K.reaped = false) :
    Keeps kids (Function.update kids i new) := by
  intro k K kid reaped
  have other : k ≠ i := by
    rintro rfl
    rw [uncollected K kid] at reaped
    cases reaped
  rw [Function.update_of_ne other]
  exact kid

section Moves

variable {numforks : Int} {childStart : κ} {childNext : Local κ → κ → Action (Local κ)}

theorem phase_goto {forks : Nat} {kids : Kids (Local κ)} {c c' : Local κ}
    (h : Phase numforks forks kids c)
    (does : serialLoop numforks childStart childNext c = .goto c') :
    Phase numforks forks kids c' := by
  obtain ⟨pc, forkno, cpid, vars, out⟩ := c
  cases pc with
  | start =>
    obtain ⟨rfl, rfl⟩ := h
    cases does
    refine ⟨rfl, fun k hk => absurd hk (Nat.not_lt_zero k), ⟨?_, rfl⟩, rfl, .inl rfl⟩
    intro line member v shown
    simp only [List.nil_append, List.mem_cons, List.not_mem_nil, or_false] at member
    rcases member with rfl | rfl
    · cases shown
    · cases shown
      exact .inl rfl
  | forkTest =>
    obtain ⟨count, collected, printed, hv, bound⟩ := h
    cases does
    by_cases more : (forkno : Int) < numforks
    · simp only [Phase, more, if_true]
      exact ⟨count, collected, printed, hv, trivial⟩
    · -- the loop ends: at 0 if it was never entered, else at `numforks`
      simp only [Phase, more, if_false]
      refine ⟨count, collected, printed, ?_⟩
      rcases bound with zero | most
      · simp only at zero more
        omega
      · simp only at most more
        omega
  | fork => cases does
  | child place => cases h
  | parentBefore =>
    obtain ⟨waiting, printed, hv, bound⟩ := h
    cases does
    refine ⟨⟨waiting.forks, waiting.cpid, waiting.collected, waiting.uncollected⟩, ?_, hv, bound⟩
    apply printed.line _ ?_ rfl
    intro v shown
    cases shown
    exact hv ▸ varsOf_parent forkno
  | wait => cases does
  | waitFailed => cases h
  | status status =>
    obtain ⟨state, printed, hv, bound⟩ := h
    cases does
    cases final : status.final with
    | true =>
      rw [final, if_pos rfl] at state
      obtain ⟨count, collected, K, kid, ended⟩ := state
      exact ⟨count, collected, printed.status status K kid ended, hv, bound⟩
    | false =>
      -- stopped or continued: the line is printed, and the parent waits for the same child
      rw [final] at state
      have waiting : Waiting forks kids _ := state
      refine ⟨⟨waiting.forks, waiting.cpid, waiting.collected, waiting.uncollected⟩, ?_, hv, bound⟩
      apply printed.line _ ?_ (statusLine_passing status final)
      intro v shown
      rw [values_statusLine] at shown
      cases shown
  | parentAfter =>
    obtain ⟨count, collected, printed, hv, bound⟩ := h
    cases does
    refine ⟨count, collected, ?_, hv, bound⟩
    apply printed.line _ ?_ rfl
    intro v shown
    cases shown
    exact hv ▸ varsOf_parent forkno
  | parentAssign =>
    obtain ⟨count, collected, printed, -, bound⟩ := h
    cases does
    exact ⟨count, collected, printed, rfl, bound⟩
  | parentChanged =>
    obtain ⟨count, collected, printed, hv, bound⟩ := h
    cases does
    refine ⟨count, collected, ?_, hv, .inr ?_⟩
    · apply printed.line _ ?_ rfl
      intro v shown
      cases shown
      exact .inr hv
    · simp only at bound ⊢
      omega
  | ret => cases does

theorem phase_fork {forks : Nat} {kids : Kids (Local κ)} {c child : Local κ}
    {parent : Pid → Local κ} (h : Phase numforks forks kids c) (fresh : kids forks = none)
    (does : serialLoop numforks childStart childNext c = .fork child parent) :
    Phase numforks (forks + 1) (Function.update kids forks (some (.born child)))
      (parent [forks]) := by
  obtain ⟨pc, forkno, cpid, vars, out⟩ := c
  cases pc with
  | fork =>
    obtain ⟨rfl, collected, printed, hv, bound⟩ := h
    cases does
    have keeps (child : Local κ) := keeps_update kids forks (some (.born child)) fun K kid => by
      rw [fresh] at kid
      cases kid
    exact ⟨⟨rfl, rfl, collected.keep (keeps _), _, Function.update_self _ _ _, rfl⟩,
      printed.keep collected (keeps _), hv, bound⟩
  | child place => cases h
  | start | forkTest | parentBefore | wait | waitFailed | status _ | parentAfter | parentAssign
  | parentChanged | ret => cases does

/-- A newborn child has a copy of the parent's memory. -/
theorem phase_born {forks : Nat} {kids : Kids (Local κ)} {c child : Local κ}
    {parent : Pid → Local κ} (h : Phase numforks forks kids c)
    (does : serialLoop numforks childStart childNext c = .fork child parent) :
    child = ⟨.child childStart, forks, .any, varsOf forks, []⟩ ∧ forks < numforks := by
  obtain ⟨pc, forkno, cpid, vars, out⟩ := c
  cases pc with
  | fork =>
    obtain ⟨rfl, -, -, hv, bound⟩ := h
    cases does
    simp only at hv
    exact ⟨by rw [hv], bound⟩
  | child place => cases h
  | start | forkTest | parentBefore | wait | waitFailed | status _ | parentAfter | parentAssign
  | parentChanged | ret => cases does

theorem phase_report {forks k : Nat} {kids : Kids (Local κ)} {c failed : Local κ}
    {K : Process (Local κ)} {target : Target} {reported : Status → Local κ} {status : Status}
    (h : Phase numforks forks kids c)
    (does : serialLoop numforks childStart childNext c = .waitpid target reported failed)
    (kid : kids k = some K) (sane : K.Sane) (pending : K.report = some status)
    (covered : target.covers [k] = true) :
    Phase numforks forks (Function.update kids k (some K.reap)) (reported status) := by
  obtain ⟨pc, forkno, cpid, vars, out⟩ := c
  cases pc with
  | wait =>
    obtain ⟨⟨count, asked, collected, uncollected⟩, printed, hv, bound⟩ := h
    cases does
    -- it asked for child `forkno`, so that is the one reported
    have same : k = forkno := by
      simp only at asked
      rw [asked] at covered
      simpa [Target.covers] using covered
    subst same
    have keeps := keeps_update kids k (some K.reap) fun L other => by
      cases Option.some.inj (kid.symm.trans other)
      simp [Process.reaped, pending]
    refine ⟨?_, printed.keep collected keeps, hv, bound⟩
    have reaped := sane.reaped_reap status pending
    cases final : status.final with
    | true =>
      rw [if_pos rfl]
      refine ⟨count, ?_, K.reap, Function.update_self _ _ _, sane.reported status pending final⟩
      intro i hi
      by_cases last : i = k
      · subst last
        exact ⟨K.reap, Function.update_self _ _ _, reaped.trans final⟩
      · exact collected.keep keeps i (by simp only at hi ⊢; omega)
    | false =>
      rw [if_neg (by simp)]
      exact ⟨count, asked, collected.keep keeps, K.reap, Function.update_self _ _ _,
        reaped.trans final⟩
  | child place => cases h
  | start | forkTest | fork | parentBefore | waitFailed | status _ | parentAfter | parentAssign
  | parentChanged | ret => cases does

/-- The child that the parent waits for is there until it has been reported. -/
theorem phase_no_noChild {forks : Nat} {kids : Kids (Local κ)} {c failed : Local κ}
    {target : Target} {reported : Status → Local κ} (h : Phase numforks forks kids c)
    (does : serialLoop numforks childStart childNext c = .waitpid target reported failed) :
    ¬ Exhausted target [] kids forks := by
  obtain ⟨pc, forkno, cpid, vars, out⟩ := c
  cases pc with
  | wait =>
    obtain ⟨⟨count, asked, -, K, kid, unreaped⟩, -⟩ := h
    cases does
    intro exhausted
    simp only at count asked kid
    have reaped := exhausted forkno (by omega) (by rw [asked]; simp [Target.covers]) K kid
    rw [unreaped] at reaped
    cases reaped
  | child place => cases h
  | start | forkTest | fork | parentBefore | waitFailed | status _ | parentAfter | parentAssign
  | parentChanged | ret => cases does

theorem phase_exit {forks : Nat} {kids : Kids (Local κ)} {c : Local κ} {status : Int}
    (h : Phase numforks forks kids c)
    (does : serialLoop numforks childStart childNext c = .exit status) :
    c.pc = .ret ∧ status = 0 := by
  obtain ⟨pc, forkno, cpid, vars, out⟩ := c
  cases pc with
  | ret =>
    cases does
    exact ⟨rfl, rfl⟩
  | child place => cases h
  | waitFailed => cases h
  | start | forkTest | fork | parentBefore | wait | status _ | parentAfter | parentAssign
  | parentChanged => cases does

theorem phase_no_execve {forks : Nat} {kids : Kids (Local κ)} {c failed : Local κ}
    (h : Phase numforks forks kids c) :
    serialLoop numforks childStart childNext c ≠ .execve failed := by
  obtain ⟨pc, forkno, cpid, vars, out⟩ := c
  intro does
  cases pc with
  | child place => cases h
  | start | forkTest | fork | parentBefore | wait | waitFailed | status _ | parentAfter
  | parentAssign | parentChanged | ret => cases does

theorem phase_kid {forks k : Nat} {kids : Kids (Local κ)} {c : Local κ}
    {K K' : Process (Local κ)} (h : Phase numforks forks kids c) (kid : kids k = some K)
    (alive : K.terminated = false) (unreaped : K'.reaped = false) :
    Phase numforks forks (Function.update kids k (some K')) c := by
  -- only a child that is not collected yet can move, so what is collected stays
  have keeps := keeps_update kids k (some K') fun L other => by
    cases Option.some.inj (kid.symm.trans other)
    simp [Process.reaped, alive]
  have waits : Waiting forks kids c → Waiting forks (Function.update kids k (some K')) c := by
    rintro ⟨count, asked, collected, L, last, still⟩
    refine ⟨count, asked, collected.keep keeps, ?_⟩
    by_cases same : c.forkno = k
    · exact ⟨K', by rw [same]; exact Function.update_self _ _ _, unreaped⟩
    · exact ⟨L, by rw [Function.update_of_ne same]; exact last, still⟩
  obtain ⟨pc, forkno, cpid, vars, out⟩ := c
  cases pc with
  | start => exact h
  | forkTest | fork | parentAfter | parentAssign | parentChanged =>
    obtain ⟨count, collected, printed, hv, bound⟩ := h
    exact ⟨count, collected.keep keeps, printed.keep collected keeps, hv, bound⟩
  | ret =>
    obtain ⟨count, collected, printed, bound⟩ := h
    exact ⟨count, collected.keep keeps, printed.keep collected keeps, bound⟩
  | parentBefore | wait =>
    obtain ⟨waiting, printed, hv, bound⟩ := h
    exact ⟨waits waiting, printed.keep waiting.collected keeps, hv, bound⟩
  | status status =>
    obtain ⟨state, printed, hv, bound⟩ := h
    cases final : status.final with
    | true =>
      rw [final, if_pos rfl] at state
      obtain ⟨count, collected, L, last, ended⟩ := state
      refine ⟨?_, printed.keep (fun i hi => collected i (Nat.lt_succ_of_lt hi)) keeps, hv, bound⟩
      rw [final, if_pos rfl]
      obtain ⟨M, same, reaped⟩ := collected forkno (Nat.lt_succ_self forkno)
      cases Option.some.inj (last.symm.trans same)
      exact ⟨count, collected.keep keeps, L, keeps _ L last reaped, ended⟩
    | false =>
      rw [final] at state
      have waiting : Waiting forks kids _ := state
      refine ⟨?_, printed.keep waiting.collected keeps, hv, bound⟩
      rw [final]
      exact waits waiting
  | child place => cases h
  | waitFailed => cases h

/-- In every place, all children but the last one have been collected and printed. -/
theorem phase_summary {forks : Nat} {kids : Kids (Local κ)} {c : Local κ}
    (h : Phase numforks forks kids c) :
    ∃ j, Collected kids j ∧ Printed kids c.out j ∧ forks ≤ j + 1 ∧ (forks : Int) ≤ max numforks 0 ∧
      (c.pc = .ret → (j : Int) = max numforks 0 ∧ forks = j) := by
  obtain ⟨pc, forkno, cpid, vars, out⟩ := c
  cases pc with
  | start =>
    obtain ⟨rfl, empty⟩ := h
    simp only at empty
    subst empty
    exact ⟨0, fun k hk => absurd hk (Nat.not_lt_zero k), ⟨nofun, rfl⟩, by omega, by omega, nofun⟩
  | forkTest =>
    obtain ⟨rfl, collected, printed, -, bound⟩ := h
    simp only at bound
    exact ⟨forks, collected, printed, by omega, by omega, nofun⟩
  | fork =>
    obtain ⟨rfl, collected, printed, -, bound⟩ := h
    simp only at bound
    exact ⟨forks, collected, printed, by omega, by omega, nofun⟩
  | parentBefore | wait =>
    obtain ⟨⟨rfl, -, collected, -⟩, printed, -, bound⟩ := h
    exact ⟨_, collected, printed, by omega, by simp only at bound ⊢; omega, nofun⟩
  | status status =>
    obtain ⟨state, printed, -, bound⟩ := h
    -- whether the last child is among the collected ones depends on what was reported
    have both : forks = forkno + 1 ∧ Collected kids forkno := by
      cases final : status.final with
      | true =>
        rw [final, if_pos rfl] at state
        exact ⟨state.1, fun k hk => state.2.1 k (Nat.lt_succ_of_lt hk)⟩
      | false =>
        rw [final] at state
        have waiting : Waiting forks kids _ := state
        exact ⟨waiting.forks, waiting.collected⟩
    exact ⟨_, both.2, printed, by omega, by simp only at bound ⊢; omega, nofun⟩
  | parentAfter | parentAssign | parentChanged =>
    obtain ⟨rfl, collected, printed, -, bound⟩ := h
    exact ⟨_, collected, printed, by omega, by simp only at bound ⊢; omega, nofun⟩
  | ret =>
    obtain ⟨rfl, collected, printed, bound⟩ := h
    exact ⟨forks, collected, printed, by omega, Int.le_of_eq bound, fun _ => ⟨bound, rfl⟩⟩
  | child place => cases h
  | waitFailed => cases h

/-- The process runs the parent's side of the loop, and if it has returned it returned 0. -/
structure ParentInv (numforks : Int) (P : Process (Local κ)) (kids : Kids (Local κ))
    (c : Local κ) : Prop where
  prog : P.prog = some c
  phase : Phase numforks P.forks kids c
  returned : ∀ status, P.life = .ended (.exited status) → c.pc = .ret ∧ status = 0

theorem parentInv_start : ParentInv numforks (.born Local.start) (fun _ => none) (Local.start : Local κ) :=
  ⟨rfl, ⟨rfl, rfl⟩, nofun⟩

/-- The parent's side of the loop keeps its invariant whatever the children do. -/
theorem parentInv_moves {exec : Pid → Bool} {P P' : Process (Local κ)} {kids kids' : Kids (Local κ)}
    (h : ∃ c, ParentInv numforks P kids c) (fresh : kids P.forks = none)
    (sane : ∀ k K, kids k = some K → K.Sane)
    (moves : Moves (serialLoop numforks childStart childNext) exec [] P kids P' kids') :
    ∃ c, ParentInv numforks P' kids' c := by
  obtain ⟨c, prog, phase, returned⟩ := h
  have same {d : Local κ} (here : P.At d) : d = c := Option.some.inj (here.2.symm.trans prog)
  cases moves with
  | own P' moves =>
    cases moves with
    | goto d c' here does =>
      cases same here
      exact ⟨c', rfl, phase_goto phase does, fun status ended => by cases here.1.symm.trans ended⟩
    | execve d failed here does ok =>
      cases same here
      exact absurd does (phase_no_execve phase)
    | execFailed d failed here does fails =>
      cases same here
      exact absurd does (phase_no_execve phase)
    | exit d status here does =>
      cases same here
      obtain ⟨atRet, rfl⟩ := phase_exit phase does
      refine ⟨c, prog, phase, ?_⟩
      intro status ended
      cases ended
      exact ⟨atRet, rfl⟩
    | noChild d failed target reported here does exhausted =>
      -- the child it waits for has something to report
      cases same here
      exact absurd exhausted (phase_no_noChild phase does)
    | stop signal running => exact ⟨c, prog, phase, nofun⟩
    | cont stopped => exact ⟨c, prog, phase, nofun⟩
    | kill signal alive => exact ⟨c, prog, phase, nofun⟩
    | finish status running other =>
      rw [other] at prog
      cases prog
  | fork d child parent here does =>
    cases same here
    exact ⟨_, rfl, phase_fork phase fresh does, fun status ended => by
      cases here.1.symm.trans ended⟩
  | report k K d failed target reported status here does kid pending covered =>
    cases same here
    exact ⟨_, rfl, phase_report phase does kid (sane k K kid) pending covered,
      fun status ended => by cases here.1.symm.trans ended⟩
  | reaped => exact ⟨c, prog, phase, returned⟩
  | kid k K K' kid alive unreaped => exact ⟨c, prog, phase_kid phase kid alive unreaped, returned⟩

/-- The parent comes to every one of its forks: here signals kill the children before. -/
theorem reaches_fork (numforks : Int) (childStart : κ)
    (childNext : Local κ → κ → Action (Local κ)) (exec : Pid → Bool) (j : Nat)
    (more : j < numforks) :
    ∃ s P c, Reaches (serialLoop numforks childStart childNext) exec .start s [] P c ∧
      c.pc = .fork ∧ c.forkno = j ∧ P.forks = j := by
  -- from the test on, the way is the same in every round
  have test {s : Table (Local κ)} {P : Process (Local κ)} {c : Local κ}
      (h : Reaches (serialLoop numforks childStart childNext) exec .start s [] P c)
      (pc : c.pc = .forkTest) (more : c.forkno < numforks) :
      Reaches (serialLoop numforks childStart childNext) exec .start
        (s.set [] (P.goto { c with pc := .fork })) [] (P.goto { c with pc := .fork })
        { c with pc := .fork } := by
    apply h.goto
    rw [serialLoop, pc]
    simp only [more, if_true]
  induction j with
  | zero =>
    have first := (reaches_start (serialLoop numforks childStart childNext) exec Local.start).goto rfl
    exact ⟨_, _, _, test first rfl more, rfl, rfl, rfl⟩
  | succ j ih =>
    obtain ⟨s, P, ⟨pc, forkno, cpid, vars, out⟩, atFork, rfl, rfl, count⟩ := ih (by omega)
    have waits := (atFork.fork rfl).goto rfl
    have told := waits.killed rfl (k := P.forks)
      (by rw [Table.proc_set_parent, Table.proc_spawn, Table.proc_set_self]) rfl
      (by simp [Local.print, Target.covers]) 9
    have around := (((told.goto rfl).goto rfl).goto rfl).goto rfl
    exact ⟨_, _, _, test around rfl (by exact_mod_cast more), rfl, rfl, congrArg (· + 1) count⟩

end Moves

end GenericTests.Forks
