import GenericTests.Forks.Parallelfork

/-!
# forktree_and_pthread.c: the tree of processes

Each child calls `spawnforks` with one level less and forks its own children; at level 0
it creates threads instead. `waitchildren` returns after the first report of a
termination. The bodies of the threads are left out: a join may return at any time.
-/
namespace GenericTests.Forks.Forktree

open GenericTests.Processes GenericTests.Transition

def maxThreads : Nat := 20

inductive Pc where
  | start
  /-- the test `numlevels == 0` of spawnforks -/
  | levelTest
  | createThread
  | joinThread (i : Nat)
  | forkTest
  | fork
  | childAnnounce
  | childSleep
  | wait
  | status (status : Status)
  | afterAll
  /-- spawnforks returns -/
  | returned
  | mainEnd

structure Local where
  pc : Pc
  /-- `numlevels` of the running call of spawnforks -/
  numlevels : Int
  forkno : Nat
  /-- the number a child exits with; `none` if main called spawnforks -/
  caller : Option Nat
  threads : Nat
  out : List Line

def Local.start (numlevels : Int) : Local := ⟨.start, numlevels, 0, none, 0, []⟩

def Local.print (c : Local) (pc : Pc) (line : Line) : Local :=
  { c with pc := pc, out := c.out ++ [line] }

/-- `num_threads` of spawnthreads after the test against `MAXTHREADS`. -/
def numThreads (numforks : Int) : Int := if maxThreads < numforks then maxThreads else numforks

def next (numforks numlevels : Int) (c : Local) : Action Local :=
  match c.pc with
  | .start => .goto (c.print .levelTest (.willForkOnLevels numforks numlevels))
  | .levelTest => .goto { c with pc := if c.numlevels = 0 then .createThread else .forkTest }
  | .createThread =>
    .goto (if c.threads < numThreads numforks then { c with threads := c.threads + 1 }
      else { c with pc := .joinThread 0 })
  | .joinThread i =>
    .goto (if i < numThreads numforks then c.print (.joinThread (i + 1)) (.joined i)
      else { c with pc := .returned })
  | .forkTest => .goto { c with pc := if c.forkno < numforks then .fork else .wait }
  | .fork => .fork { c with pc := .childAnnounce, out := [] } fun _ =>
      { c with pc := .forkTest, forkno := c.forkno + 1 }
  | .childAnnounce => .goto (c.print .childSleep (.level c.numlevels c.forkno))
  | .childSleep => .goto
    { c with
      pc := .levelTest
      numlevels := c.numlevels - 1
      forkno := 0
      caller := some c.forkno }
  | .wait => .waitpid .any (fun status => { c with pc := .status status })
      { c with pc := .afterAll }
  | .status status =>
    .goto (c.print (if status.final then .afterAll else .wait) (statusLine status))
  | .afterAll => .goto (c.print .returned (.levelAfterAll c.numlevels))
  | .returned =>
    match c.caller with
    | some forkno => .exit forkno
    | none => .goto (c.print .mainEnd (.forkedOnLevels numforks numlevels))
  | .mainEnd => .exit 0

/-- The program executes no other one. -/
def forktree (numforks numlevels : Int) : System (Table Local) Act :=
  family (next numforks numlevels) (fun _ => false) (.start numlevels)

/-- When a process has printed `parent %d after all children exitted`, all children of its
call of spawnforks have terminated. -/
def AllExited (s : Table Local) : Prop :=
  ∀ p P c levno, s.proc p = some P → P.prog = some c → .levelAfterAll levno ∈ c.out →
    ∀ k < P.forks, ∃ K, s.proc (k :: p) = some K ∧ K.terminated = true

theorem next_fork {numforks numlevels : Int} {c child : Local} {parent : Pid → Local}
    (does : next numforks numlevels c = .fork child parent) :
    c.pc = .fork ∧ child = { c with pc := .childAnnounce, out := [] } ∧
      parent = fun _ => { c with pc := .forkTest, forkno := c.forkno + 1 } := by
  obtain ⟨pc, level, forkno, caller, threads, out⟩ := c
  cases pc with
  | fork =>
    cases does
    exact ⟨rfl, rfl, rfl⟩
  | returned => cases caller <;> cases does
  | start | levelTest | createThread | joinThread _ | forkTest | childAnnounce | childSleep | wait
  | status _ | afterAll | mainEnd => cases does

theorem next_waitpid {numforks numlevels : Int} {c failed : Local} {target : Target}
    {reported : Status → Local}
    (does : next numforks numlevels c = .waitpid target reported failed) :
    c.pc = .wait ∧ target = .any ∧ (reported = fun status => { c with pc := .status status }) ∧
      failed = { c with pc := .afterAll } := by
  obtain ⟨pc, level, forkno, caller, threads, out⟩ := c
  cases pc with
  | wait =>
    cases does
    exact ⟨rfl, rfl, rfl, rfl⟩
  | returned => cases caller <;> cases does
  | start | levelTest | createThread | joinThread _ | forkTest | fork | childAnnounce | childSleep
  | status _ | afterAll | mainEnd => cases does

theorem next_ne_execve {numforks numlevels : Int} {c failed : Local} :
    next numforks numlevels c ≠ .execve failed := by
  obtain ⟨pc, level, forkno, caller, threads, out⟩ := c
  intro does
  cases pc with
  | returned => cases caller <;> cases does
  | start | levelTest | createThread | joinThread _ | forkTest | fork | childAnnounce | childSleep
  | wait | status _ | afterAll | mainEnd => cases does

/-! ### At most one child -/

/-- Behind the wait loop, if there is one. -/
def Local.late (c : Local) : Bool :=
  match c.pc with
  | .status status => status.final
  | .afterAll | .returned | .mainEnd => true
  | _ => false

/-- The number of forks at each place. -/
def Counted (numforks : Int) (n : Nat) (c : Local) : Prop :=
  match c.pc with
  | .start | .levelTest => n = 0 ∧ c.forkno = 0
  | .createThread | .joinThread _ | .childAnnounce | .childSleep => n = 0
  | .forkTest => n = c.forkno ∧ n ≤ max numforks 0
  | .fork => n = c.forkno ∧ n < numforks
  | .wait | .status _ | .afterAll | .returned | .mainEnd => n ≤ max numforks 0

structure ProcessInv (numforks : Int) (n : Nat) (c : Local) : Prop where
  counted : Counted numforks n c
  line : ∀ levno, .levelAfterAll levno ∈ c.out → c.late = true

theorem ProcessInv.print {numforks : Int} {n : Nat} {c : Local} (h : ProcessInv numforks n c)
    (pc : Pc) (line : Line) (counted : Counted numforks n (c.print pc line))
    (late : c.late = true → (c.print pc line).late = true)
    (new : ∀ levno, .levelAfterAll levno = line → (c.print pc line).late = true) :
    ProcessInv numforks n (c.print pc line) := by
  refine ⟨counted, fun v member => ?_⟩
  rcases List.mem_append.mp member with old | last
  · exact late (h.line v old)
  · exact new v (List.mem_singleton.mp last)

theorem processInv_goto {numforks numlevels : Int} {n : Nat} {c c' : Local}
    (h : ProcessInv numforks n c) (does : next numforks numlevels c = .goto c') :
    ProcessInv numforks n c' := by
  obtain ⟨pc, level, forkno, caller, threads, out⟩ := c
  cases pc with
  | start =>
    cases does
    exact h.print _ _ h.counted nofun nofun
  | levelTest =>
    obtain ⟨rfl, rfl⟩ := h.counted
    cases does
    by_cases deepest : level = 0
    · simp only [deepest, if_true]
      exact ⟨rfl, h.line⟩
    · simp only [deepest, if_false]
      exact ⟨⟨rfl, by omega⟩, h.line⟩
  | createThread =>
    cases does
    split
    · exact ⟨h.counted, h.line⟩
    · exact ⟨h.counted, h.line⟩
  | joinThread i =>
    -- a process with threads has forked nobody
    have zero : n = 0 := h.counted
    subst zero
    cases does
    split
    · exact h.print _ _ rfl nofun nofun
    · refine ⟨?_, fun _ _ => rfl⟩
      simp only [Counted]
      omega
  | forkTest =>
    obtain ⟨count, bound⟩ := h.counted
    cases does
    by_cases more : (forkno : Int) < numforks
    · simp only [more, if_true]
      exact ⟨⟨count, by simp only at count; omega⟩, h.line⟩
    · simp only [more, if_false]
      exact ⟨bound, h.line⟩
  | childAnnounce =>
    cases does
    exact h.print _ _ h.counted nofun nofun
  | childSleep =>
    cases does
    exact ⟨⟨h.counted, rfl⟩, h.line⟩
  | status status =>
    cases does
    have line : ∀ levno, .levelAfterAll levno ≠ statusLine status := by
      intro v
      cases status <;> nofun
    cases final : status.final with
    | true => exact h.print _ _ h.counted (fun _ => rfl) fun v same => absurd same (line v)
    | false =>
      refine h.print _ _ h.counted (fun late => ?_) fun v same => absurd same (line v)
      simp only [Local.late, final] at late
      cases late
  | afterAll =>
    cases does
    exact h.print _ _ h.counted (fun _ => rfl) fun _ _ => rfl
  | returned =>
    cases caller with
    | some forkno => cases does
    | none =>
      cases does
      exact h.print _ _ h.counted (fun _ => rfl) fun _ _ => rfl
  | fork | wait | mainEnd => cases does

theorem localInvariant (numforks numlevels : Int) :
    LocalInvariant (next numforks numlevels) (.start numlevels) fun _ => ProcessInv numforks := by
  constructor
  · exact ⟨⟨rfl, rfl⟩, nofun⟩
  · exact fun p n c c' h does => processInv_goto h does
  · intro p n c child parent h does
    obtain ⟨pc, rfl, rfl⟩ := next_fork does
    have counted := h.counted
    rw [Counted, pc] at counted
    refine ⟨⟨rfl, nofun⟩, ⟨congrArg (· + 1) counted.1, by omega⟩, fun levno member => ?_⟩
    have late := h.line levno member
    rw [Local.late, pc] at late
    cases late
  · exact fun p n c failed h does => absurd does next_ne_execve
  · intro p n c target reported failed h does
    obtain ⟨pc, -, rfl, rfl⟩ := next_waitpid does
    have counted := h.counted
    rw [Counted, pc] at counted
    refine ⟨fun status => ⟨counted, fun levno member => ?_⟩, counted, fun _ _ => rfl⟩
    have late := h.line levno member
    rw [Local.late, pc] at late
    cases late

theorem waitLoop (numforks numlevels : Int) :
    WaitLoop (next numforks numlevels) (fun _ => ProcessInv numforks) Local.late := by
  constructor
  · rintro p n ⟨pc, level, forkno, caller, threads, out⟩ c' h does late
    cases pc with
    -- behind the joins there is no wait loop, but no child either
    | joinThread i => exact .inr h.counted
    | afterAll | returned | mainEnd => exact .inl rfl
    | status status =>
      cases does
      left
      cases final : status.final with
      | true => simpa [Local.late] using final
      | false => simp [Local.late, Local.print, final] at late
    | levelTest =>
      cases does
      by_cases deepest : level = 0 <;> simp [Local.late, deepest] at late
    | createThread =>
      cases does
      split at late
      · cases late
      · cases late
    | forkTest =>
      cases does
      by_cases more : (forkno : Int) < numforks <;> simp [Local.late, more] at late
    | start | childAnnounce | childSleep =>
      cases does
      cases late
    | fork | wait => cases does
  · intro c child parent does
    obtain ⟨pc, rfl, rfl⟩ := next_fork does
    exact ⟨rfl, fun _ => rfl⟩
  · exact fun c failed does => absurd does next_ne_execve
  · intro c target reported failed does
    obtain ⟨pc, -, rfl, -⟩ := next_waitpid does
    exact fun _ => rfl

theorem allExited_of_one (numforks numlevels : Int) (one : numforks ≤ 1) (s : Table Local)
    (h : (forktree numforks numlevels).Reachable s) : AllExited s := by
  rw [forktree] at h
  intro p P c levno present prog printed
  have known := terminated_of_late (waitLoop numforks numlevels) (localInvariant numforks numlevels)
    (fun p n c h => ?_) (fun p n c target reported failed h does k hk => ?_) rfl s h p P c present
    prog
  · exact known.2 (known.1.line levno printed)
  · have counted := h.counted
    rw [Counted] at counted
    split at counted <;> omega
  · obtain ⟨-, rfl, -⟩ := next_waitpid does
    rfl

/-! ### More children -/

/-- While it forks, a process waits for nobody, so all children may still be there. -/
theorem reaches_forkTest (numforks numlevels : Int) (deep : numlevels ≠ 0) (j : Nat)
    (bound : j = 0 ∨ j ≤ numforks) :
    ∃ s P c, Reaches (next numforks numlevels) (fun _ => false) (.start numlevels) s [] P c ∧
      c.pc = .forkTest ∧ c.forkno = j ∧ P.forks = j ∧ s.AllAlive [] j := by
  induction j with
  | zero =>
    have first := (reaches_start (next numforks numlevels) (fun _ => false)
      (Local.start numlevels)).goto rfl
    have does : next numforks numlevels ((Local.start numlevels).print .levelTest
        (.willForkOnLevels numforks numlevels)) = .goto { (Local.start numlevels).print .levelTest
        (.willForkOnLevels numforks numlevels) with pc := .forkTest } := by
      simp only [next, Local.print, Local.start, deep, if_false]
    exact ⟨_, _, _, first.goto does, rfl, rfl, rfl, nofun⟩
  | succ j ih =>
    obtain ⟨s, P, c, atTest, pc, forkno, rfl, alive⟩ := ih (by omega)
    have less : (c.forkno : Int) < numforks := by omega
    have does : next numforks numlevels c = .goto { c with pc := .fork } := by
      simp only [next, pc, less, if_true]
    have forked := (atTest.goto does).fork rfl
    exact ⟨_, _, _, forked, rfl, congrArg (· + 1) forkno, rfl, (alive.set_parent _).fork _ _⟩

/-- If one child terminates, the first process prints its line while the others are alive. -/
theorem not_allExited_of_more (numforks numlevels : Int) (deep : numlevels ≠ 0)
    (more : 1 < numforks) : ∃ s, (forktree numforks numlevels).Reachable s ∧ ¬ AllExited s := by
  obtain ⟨j, rfl⟩ : ∃ j : Nat, numforks = j + 2 := ⟨(numforks - 2).toNat, by omega⟩
  obtain ⟨s, P, c, atTest, pc, forkno, count, alive⟩ :=
    reaches_forkTest (j + 2) numlevels deep (j + 2) (.inr (by omega))
  have finished : ¬ (c.forkno : Int) < j + 2 := by omega
  have does : next (j + 2) numlevels c = .goto { c with pc := .wait } := by
    simp only [next, pc, finished, if_false]
  obtain ⟨K, kid, still⟩ := alive 0 (by omega)
  obtain ⟨L, second, running⟩ := alive 1 (by omega)
  have told := (atTest.goto does).killed rfl (k := 0) ((s.proc_set_parent _ _ _).trans kid) still
    rfl 9
  have printed := (told.goto rfl).goto rfl
  refine ⟨_, printed.reachable, fun claim => ?_⟩
  have two : 1 < P.forks := by omega
  obtain ⟨M, there, ended⟩ := claim [] _ _ _ printed.present printed.here.2
    (List.mem_append_right _ (List.mem_singleton_self _)) 1 two
  -- child 1 is as it was
  rw [Table.proc_set_parent, Table.proc_set_parent, Table.proc_killed_ne _ _ _ _ _ _ _ (by omega),
    Table.proc_set_parent, second] at there
  cases there
  rw [running] at ended
  cases ended

/-- **The line is true** of both programs, in all orders of events, if and only if at most
one child is forked. -/
theorem all_children_exited_iff (numforks numlevels : Int) (deep : 1 ≤ numlevels) :
    ((∀ s, (Parallelfork.parallelfork numforks).Reachable s →
      Parallelfork.AllExited numforks s) ↔ numforks ≤ 1) ∧
    ((∀ s, (forktree numforks numlevels).Reachable s → AllExited s) ↔ numforks ≤ 1) := by
  refine ⟨Parallelfork.allExited_iff numforks, ?_, ?_⟩
  · intro claim
    by_contra more
    obtain ⟨s, reachable, fails⟩ :=
      not_allExited_of_more numforks numlevels (by omega) (by omega)
    exact fails (claim s reachable)
  · intro one s h
    exact allExited_of_one numforks numlevels one s h

theorem all_children_exited_single :
    (∀ s, (Parallelfork.parallelfork 1).Reachable s → Parallelfork.AllExited 1 s) ∧
    ∀ s, (forktree 1 3).Reachable s → AllExited s := by
  have both := all_children_exited_iff 1 3 (by decide)
  exact ⟨both.1.mpr (by decide), both.2.mpr (by decide)⟩

/-- Two children, the second one exits at once: both parents print the line while the first
child is alive. -/
theorem not_all_children_exited :
    (¬ ∀ s, (Parallelfork.parallelfork 2).Reachable s → Parallelfork.AllExited 2 s) ∧
    ¬ ∀ s, (forktree 2 1).Reachable s → AllExited s := by
  constructor
  · intro claim
    have reached : (Parallelfork.parallelfork 2).Reachable _ :=
      ⟨_, List.replicate 6 (Act.run []) ++ List.replicate 6 (Act.run [1]) ++
        [Act.report [] 1, Act.run [], Act.run []], rfl, rfl⟩
    obtain ⟨K, present, ended⟩ := claim _ reached _ _ initialVars rfl rfl
      (List.mem_of_elem_eq_true rfl) 0 (by decide)
    cases present
    cases ended
  · intro claim
    have reached : (forktree 2 1).Reachable _ :=
      ⟨_, List.replicate 7 (Act.run []) ++ List.replicate 10 (Act.run [1]) ++
        [Act.report [] 1, Act.run [], Act.run []], rfl, rfl⟩
    obtain ⟨K, present, ended⟩ := claim _ reached [] _ _ 1 rfl rfl
      (List.mem_of_elem_eq_true rfl) 0 (by decide)
    cases present
    cases ended

end GenericTests.Forks.Forktree
