import GenericTests.Lib.Transition
import Mathlib.Logic.Function.Basic

/-!
# Families of processes

All processes run copies of one program. A process is named by the way to it: the first
one is `[]`, and the `k`-th child of `p` is `k :: p`. A process that has forked goes on
with its own copy of the program's state; processes learn of each other through
`waitpid` alone.
-/
namespace GenericTests.Processes

open GenericTests.Transition

variable {σ : Type}

/-- What `waitpid` with `WUNTRACED | WCONTINUED` reports. -/
inductive Status where
  | exited (status : Nat)
  | killed (signal : Nat)
  | stopped (signal : Nat)
  | continued
  deriving DecidableEq

/-- `WIFEXITED(status) || WIFSIGNALED(status)` -/
def Status.final : Status → Bool
  | .exited _ | .killed _ => true
  | .stopped _ | .continued => false

/-- The low eight bits of the argument of `exit` reach the parent. -/
def exitStatus (status : Int) : Status := .exited (status % 256).toNat

abbrev Pid := List Nat

/-- The first argument of `waitpid`. -/
inductive Target where
  | child (pid : Pid)
  | any

def Target.covers : Target → Pid → Bool
  | .child pid, p => decide (p = pid)
  | .any, _ => true

/-- What a process does next. A program is a function from its local states to actions. -/
inductive Action (σ : Type) where
  /-- a step that concerns the memory and the output of the process alone -/
  | goto (s : σ)
  | fork (child : σ) (parent : Pid → σ)
  | execve (failed : σ)
  | waitpid (target : Target) (reported : Status → σ) (noChild : σ)
  | exit (status : Int)

inductive Life where
  | running
  | stopped
  | ended (status : Status)
  deriving DecidableEq

structure Process (σ : Type) where
  life : Life
  /-- the last change of state, while no `waitpid` has returned it -/
  report : Option Status
  /-- the number of forks it has made -/
  forks : Nat
  /-- `none` after a successful `execve` -/
  prog : Option σ

def Process.born (c : σ) : Process σ := ⟨.running, none, 0, some c⟩

/-- It can execute its program at `c`. -/
def Process.At (P : Process σ) (c : σ) : Prop := P.life = .running ∧ P.prog = some c

def Process.goto (P : Process σ) (c : σ) : Process σ := { P with prog := some c }

def Process.forked (P : Process σ) (c : σ) : Process σ :=
  { P with forks := P.forks + 1, prog := some c }

def Process.end (P : Process σ) (status : Status) : Process σ :=
  { P with life := .ended status, report := some status }

def Process.stop (P : Process σ) (signal : Nat) : Process σ :=
  { P with life := .stopped, report := some (.stopped signal) }

def Process.cont (P : Process σ) : Process σ :=
  { P with life := .running, report := some .continued }

def Process.reap (P : Process σ) : Process σ := { P with report := none }

def Process.terminated (P : Process σ) : Bool :=
  match P.life with
  | .ended _ => true
  | .running | .stopped => false

/-- Nothing is left to report of a process that terminated. -/
def Process.reaped (P : Process σ) : Bool := P.terminated && P.report.isNone

structure Table (σ : Type) where
  proc : Pid → Option (Process σ)
  /-- the processes made by `fork`, in this order -/
  created : List Pid

def Table.set (s : Table σ) (p : Pid) (P : Process σ) : Table σ :=
  { s with proc := Function.update s.proc p (some P) }

def Table.spawn (s : Table σ) (p : Pid) (P : Process σ) : Table σ :=
  { s.set p P with created := s.created ++ [p] }

/-- The children of one process. -/
abbrev Kids (σ : Type) := Nat → Option (Process σ)

def Table.kids (s : Table σ) (p : Pid) : Kids σ := fun k => s.proc (k :: p)

inductive Act where
  | run (p : Pid)
  /-- `waitpid` of `p` returns the report of its child `k` -/
  | report (p : Pid) (k : Nat)
  /-- `waitpid` of `p` fails with `ECHILD` -/
  | noChild (p : Pid)
  | stop (p : Pid) (signal : Nat)
  | cont (p : Pid)
  | kill (p : Pid) (signal : Nat)
  /-- the program that `p` has executed ends -/
  | finish (p : Pid) (status : Int)

section Semantics

variable (next : σ → Action σ) (exec : Pid → Bool)

/-- `exec` tells which processes succeed in their `execve`. -/
def run (s : Table σ) (p : Pid) (P : Process σ) (c : σ) : Option (Table σ) :=
  match next c with
  | .goto c' => some (s.set p (P.goto c'))
  | .fork child parent =>
    let q := P.forks :: p
    some ((s.set p (P.forked (parent q))).spawn q (.born child))
  | .execve failed => some (s.set p { P with prog := if exec p then none else some failed })
  | .exit status => some (s.set p (P.end (exitStatus status)))
  | .waitpid _ _ _ => none

def report (s : Table σ) (p : Pid) (P : Process σ) (c : σ) (k : Nat) : Option (Table σ) :=
  match next c, s.proc (k :: p) with
  | .waitpid target reported _, some K =>
    match K.report with
    | some status =>
      if target.covers (k :: p) then
        some ((s.set p (P.goto (reported status))).set (k :: p) K.reap)
      else none
    | none => none
  | _, _ => none

def noChild (s : Table σ) (p : Pid) (P : Process σ) (c : σ) : Option (Table σ) :=
  match next c with
  | .waitpid target _ failed =>
    if (List.range P.forks).all fun k =>
        !target.covers (k :: p) || (s.kids p k).all Process.reaped then
      some (s.set p (P.goto failed))
    else none
  | _ => none

/-- The process `p` is at a statement of the program. -/
def withProgram (s : Table σ) (p : Pid) (f : Process σ → σ → Option (Table σ)) :
    Option (Table σ) :=
  match s.proc p with
  | some P =>
    match P.life, P.prog with
    | .running, some c => f P c
    | _, _ => none
  | none => none

/-- Something happens to `p` from outside. -/
def withProcess (s : Table σ) (p : Pid) (f : Process σ → Option (Process σ)) : Option (Table σ) :=
  match s.proc p with
  | some P => (f P).map (s.set p)
  | none => none

def step (s : Table σ) : Act → Option (Table σ)
  | .run p => withProgram s p (run next exec s p)
  | .report p k => withProgram s p fun P c => report next s p P c k
  | .noChild p => withProgram s p (noChild next s p)
  | .stop p signal =>
    withProcess s p fun P => if P.life = .running then some (P.stop signal) else none
  | .cont p => withProcess s p fun P => if P.life = .stopped then some P.cont else none
  | .kill p signal =>
    withProcess s p fun P => if P.terminated then none else some (P.end (.killed signal))
  | .finish p status =>
    withProcess s p fun P =>
      if P.life = .running ∧ P.prog.isNone then some (P.end (exitStatus status)) else none

def initial (start : σ) : Table σ := ⟨Function.update (fun _ => none) [] (some (.born start)), []⟩

/-- The family of a process that starts at `start`. -/
def family (start : σ) : System (Table σ) Act where
  init s := s = initial start
  step := step next exec

end Semantics

/-! ### Looking up a process -/

@[simp] theorem Table.proc_set_self (s : Table σ) (p : Pid) (P : Process σ) :
    (s.set p P).proc p = some P := by
  simp [Table.set]

theorem Table.proc_set_ne (s : Table σ) (p q : Pid) (P : Process σ) (h : q ≠ p) :
    (s.set p P).proc q = s.proc q := by
  simp [Table.set, h]

/-- Changing the parent does not change the child. -/
theorem Table.proc_set_parent (s : Table σ) (p : Pid) (k : Nat) (P : Process σ) :
    (s.set p P).proc (k :: p) = s.proc (k :: p) :=
  s.proc_set_ne p (k :: p) P (List.cons_ne_self k p)

@[simp] theorem Table.created_set (s : Table σ) (p : Pid) (P : Process σ) :
    (s.set p P).created = s.created := rfl

@[simp] theorem Table.proc_spawn (s : Table σ) (p : Pid) (P : Process σ) :
    (s.spawn p P).proc = (s.set p P).proc := rfl

@[simp] theorem Table.kids_spawn (s : Table σ) (p : Pid) (P : Process σ) :
    (s.spawn p P).kids = (s.set p P).kids := rfl

@[simp] theorem Table.created_spawn (s : Table σ) (p : Pid) (P : Process σ) :
    (s.spawn p P).created = s.created ++ [p] := rfl

theorem Table.kids_set_child (s : Table σ) (p : Pid) (k : Nat) (K : Process σ) :
    (s.set (k :: p) K).kids p = Function.update (s.kids p) k (some K) := by
  funext i
  by_cases e : i = k
  · subst e
    simp [Table.kids]
  · simp [Table.kids, Table.proc_set_ne, e]

/-- Only the parent of `p` sees a change of `p` among its children. -/
theorem Table.kids_set_other (s : Table σ) (p q : Pid) (P : Process σ) (h : ∀ k, p ≠ k :: q) :
    (s.set p P).kids q = s.kids q := by
  funext i
  exact s.proc_set_ne p (i :: q) P fun e => h i e.symm

theorem Table.kids_set_self (s : Table σ) (p : Pid) (P : Process σ) :
    (s.set p P).kids p = s.kids p :=
  s.kids_set_other p p P fun k e => List.cons_ne_self k p e.symm

/-! ### What one step does -/

section Steps

variable {next : σ → Action σ} {exec : Pid → Bool}

/-- No child that `target` covers can ever report anything again. -/
def Exhausted (target : Target) (p : Pid) (kids : Kids σ) (forks : Nat) : Prop :=
  ∀ k < forks, target.covers (k :: p) = true → ∀ K, kids k = some K → K.reaped = true

/-- The steps of a process that no other process takes part in. -/
inductive Own (next : σ → Action σ) (exec : Pid → Bool) (p : Pid) (kids : Kids σ)
    (P : Process σ) : Process σ → Prop
  | goto (c c' : σ) (here : P.At c) (does : next c = .goto c') : Own next exec p kids P (P.goto c')
  | execve (c failed : σ) (here : P.At c) (does : next c = .execve failed) (ok : exec p = true) :
      Own next exec p kids P { P with prog := none }
  | execFailed (c failed : σ) (here : P.At c) (does : next c = .execve failed)
      (fails : exec p = false) : Own next exec p kids P (P.goto failed)
  | exit (c : σ) (status : Int) (here : P.At c) (does : next c = .exit status) :
      Own next exec p kids P (P.end (exitStatus status))
  | noChild (c failed : σ) (target : Target) (reported : Status → σ) (here : P.At c)
      (does : next c = .waitpid target reported failed)
      (exhausted : Exhausted target p kids P.forks) : Own next exec p kids P (P.goto failed)
  | stop (signal : Nat) (running : P.life = .running) : Own next exec p kids P (P.stop signal)
  | cont (stopped : P.life = .stopped) : Own next exec p kids P P.cont
  | kill (signal : Nat) (alive : P.terminated = false) :
      Own next exec p kids P (P.end (.killed signal))
  | finish (status : Int) (running : P.life = .running) (other : P.prog = none) :
      Own next exec p kids P (P.end (exitStatus status))

inductive Effect (next : σ → Action σ) (exec : Pid → Bool) (s : Table σ) : Table σ → Prop
  | own (p : Pid) (P P' : Process σ) (present : s.proc p = some P)
      (moves : Own next exec p (s.kids p) P P') : Effect next exec s (s.set p P')
  | fork (p : Pid) (P : Process σ) (c child : σ) (parent : Pid → σ) (present : s.proc p = some P)
      (here : P.At c) (does : next c = .fork child parent) :
      Effect next exec s
        ((s.set p (P.forked (parent (P.forks :: p)))).spawn (P.forks :: p) (.born child))
  | report (p : Pid) (k : Nat) (P K : Process σ) (c failed : σ) (target : Target)
      (reported : Status → σ) (status : Status) (present : s.proc p = some P) (here : P.At c)
      (does : next c = .waitpid target reported failed) (kid : s.proc (k :: p) = some K)
      (pending : K.report = some status) (covered : target.covers (k :: p) = true) :
      Effect next exec s ((s.set p (P.goto (reported status))).set (k :: p) K.reap)

theorem withProgram_cases {s t : Table σ} {p : Pid} {f : Process σ → σ → Option (Table σ)}
    (h : withProgram s p f = some t) :
    ∃ P c, s.proc p = some P ∧ P.At c ∧ f P c = some t := by
  unfold withProgram at h
  split at h
  next P present =>
    split at h
    next c running prog => exact ⟨P, c, present, ⟨running, prog⟩, h⟩
    next => cases h
  next => cases h

theorem withProcess_cases {s t : Table σ} {p : Pid} {f : Process σ → Option (Process σ)}
    (h : withProcess s p f = some t) :
    ∃ P P', s.proc p = some P ∧ f P = some P' ∧ t = s.set p P' := by
  unfold withProcess at h
  split at h
  next P present =>
    obtain ⟨P', moved, rfl⟩ := Option.map_eq_some_iff.mp h
    exact ⟨P, P', present, moved, rfl⟩
  next => cases h

theorem run_cases {s t : Table σ} {p : Pid} {P : Process σ} {c : σ} (present : s.proc p = some P)
    (here : P.At c) (h : run next exec s p P c = some t) : Effect next exec s t := by
  unfold run at h
  split at h
  next c' does =>
    cases h
    exact .own p P _ present (.goto c c' here does)
  next child parent does =>
    cases h
    exact .fork p P c child parent present here does
  next failed does =>
    cases h
    cases ok : exec p with
    | true => exact .own p P _ present (.execve c failed here does ok)
    | false => exact .own p P _ present (.execFailed c failed here does ok)
  next status does =>
    cases h
    exact .own p P _ present (.exit c status here does)
  next => cases h

theorem report_cases {s t : Table σ} {p : Pid} {P : Process σ} {c : σ} {k : Nat}
    (present : s.proc p = some P) (here : P.At c) (h : report next s p P c k = some t) :
    Effect next exec s t := by
  unfold report at h
  split at h
  next target reported failed K does kid =>
    split at h
    next status pending =>
      split at h
      next covered =>
        cases h
        exact .report p k P K c failed target reported status present here does kid pending covered
      next => cases h
    next => cases h
  next => cases h

theorem noChild_cases {s t : Table σ} {p : Pid} {P : Process σ} {c : σ}
    (present : s.proc p = some P) (here : P.At c) (h : noChild next s p P c = some t) :
    Effect next exec s t := by
  unfold noChild at h
  split at h
  next target reported failed does =>
    split at h
    next none_left =>
      cases h
      have exhausted : Exhausted target p (s.kids p) P.forks := by
        intro k hk covered K kid
        have all := List.all_eq_true.mp none_left k (List.mem_range.mpr hk)
        simpa [covered, kid] using all
      exact .own p P _ present (.noChild c failed target reported here does exhausted)
    next => cases h
  next => cases h

theorem step_cases {s t : Table σ} {a : Act} (h : step next exec s a = some t) :
    Effect next exec s t := by
  cases a with
  | run p =>
    obtain ⟨P, c, present, here, moved⟩ := withProgram_cases h
    exact run_cases present here moved
  | report p k =>
    obtain ⟨P, c, present, here, moved⟩ := withProgram_cases h
    exact report_cases present here moved
  | noChild p =>
    obtain ⟨P, c, present, here, moved⟩ := withProgram_cases h
    exact noChild_cases present here moved
  | stop p signal =>
    obtain ⟨P, P', present, moved, rfl⟩ := withProcess_cases h
    split at moved
    next running =>
      cases moved
      exact .own p P _ present (.stop signal running)
    next => cases moved
  | cont p =>
    obtain ⟨P, P', present, moved, rfl⟩ := withProcess_cases h
    split at moved
    next stopped =>
      cases moved
      exact .own p P _ present (.cont stopped)
    next => cases moved
  | kill p signal =>
    obtain ⟨P, P', present, moved, rfl⟩ := withProcess_cases h
    split at moved
    next => cases moved
    next alive =>
      cases moved
      exact .own p P _ present (.kill signal (by simpa using alive))
  | finish p status =>
    obtain ⟨P, P', present, moved, rfl⟩ := withProcess_cases h
    split at moved
    next guard =>
      cases moved
      exact .own p P _ present (.finish status guard.1 (by simpa using guard.2))
    next => cases moved

/-- What one step can do to a process and to its children: it moves itself, its change of
state is reported to its parent, or a child that is still alive changes. -/
inductive Moves (next : σ → Action σ) (exec : Pid → Bool) (p : Pid) (P : Process σ)
    (kids : Kids σ) : Process σ → Kids σ → Prop
  | own (P' : Process σ) (moves : Own next exec p kids P P') : Moves next exec p P kids P' kids
  | fork (c child : σ) (parent : Pid → σ) (here : P.At c) (does : next c = .fork child parent) :
      Moves next exec p P kids (P.forked (parent (P.forks :: p)))
        (Function.update kids P.forks (some (.born child)))
  | report (k : Nat) (K : Process σ) (c failed : σ) (target : Target) (reported : Status → σ)
      (status : Status) (here : P.At c) (does : next c = .waitpid target reported failed)
      (kid : kids k = some K) (pending : K.report = some status)
      (covered : target.covers (k :: p) = true) :
      Moves next exec p P kids (P.goto (reported status)) (Function.update kids k (some K.reap))
  | reaped : Moves next exec p P kids P.reap kids
  | kid (k : Nat) (K K' : Process σ) (kid : kids k = some K) (alive : K.terminated = false)
      (unreaped : K'.reaped = false) :
      Moves next exec p P kids P (Function.update kids k (some K'))

theorem Own.alive {p : Pid} {kids : Kids σ} {P P' : Process σ} (h : Own next exec p kids P P') :
    P.terminated = false := by
  cases h with
  | goto c c' here does => simp [Process.terminated, here.1]
  | execve c failed here does ok => simp [Process.terminated, here.1]
  | execFailed c failed here does fails => simp [Process.terminated, here.1]
  | exit c status here does => simp [Process.terminated, here.1]
  | noChild c failed target reported here does exhausted => simp [Process.terminated, here.1]
  | stop signal running => simp [Process.terminated, running]
  | cont stopped => simp [Process.terminated, stopped]
  | kill signal alive => exact alive
  | finish status running other => simp [Process.terminated, running]

theorem Process.unreaped_of_running (P : Process σ) (running : P.life = .running) :
    P.reaped = false := by
  simp [Process.reaped, Process.terminated, running]

/-- A process that ends has something to report. -/
theorem Own.unreaped {p : Pid} {kids : Kids σ} {P P' : Process σ}
    (h : Own next exec p kids P P') : P'.reaped = false := by
  cases h with
  | goto c c' here does => exact Process.unreaped_of_running _ here.1
  | execve c failed here does ok => exact Process.unreaped_of_running _ here.1
  | execFailed c failed here does fails => exact Process.unreaped_of_running _ here.1
  | noChild c failed target reported here does exhausted => exact Process.unreaped_of_running _ here.1
  | cont stopped => exact Process.unreaped_of_running _ rfl
  | exit c status here does => exact Bool.and_false _
  | stop signal running => exact Bool.and_false _
  | kill signal alive => exact Bool.and_false _
  | finish status running other => exact Bool.and_false _

theorem Own.forks {p : Pid} {kids : Kids σ} {P P' : Process σ} (h : Own next exec p kids P P') :
    P'.forks = P.forks := by
  cases h <;> rfl

theorem Process.At.alive {P : Process σ} {c : σ} (h : P.At c) : P.terminated = false := by
  simp [Process.terminated, h.1]

/-- An action that concerns no child. -/
def Action.alone : Action σ → Bool
  | .goto _ | .execve _ | .exit _ => true
  | .fork _ _ | .waitpid _ _ _ => false

theorem Action.alone_not_fork {a : Action σ} {child : σ} {parent : Pid → σ}
    (h : a.alone = true) : a ≠ .fork child parent := by
  rintro rfl
  cases h

theorem Action.alone_not_waitpid {a : Action σ} {target : Target} {reported : Status → σ}
    {failed : σ} (h : a.alone = true) : a ≠ .waitpid target reported failed := by
  rintro rfl
  cases h

/-- A process whose actions concern no child moves itself, is reported to its parent, or
looks on. -/
theorem Moves.alone {p : Pid} {kids kids' : Kids σ} {P P' : Process σ}
    (h : Moves next exec p P kids P' kids') (alone : ∀ c, P.At c → (next c).alone = true) :
    Own next exec p kids P P' ∨ P' = P.reap ∨ P' = P := by
  cases h with
  | own P' moves => exact .inl moves
  | fork c child parent here does => exact absurd does (Action.alone_not_fork (alone c here))
  | report k K c failed target reported status here does kid pending covered =>
    exact absurd does (Action.alone_not_waitpid (alone c here))
  | reaped => exact .inr (.inl rfl)
  | kid k K K' kid alive unreaped => exact .inr (.inr rfl)

/-! ### Building runs -/

/-- A reachable state in which the process `p` is at the statement `c`. -/
structure Reaches (next : σ → Action σ) (exec : Pid → Bool) (start : σ) (s : Table σ) (p : Pid)
    (P : Process σ) (c : σ) : Prop where
  reachable : (family next exec start).Reachable s
  present : s.proc p = some P
  here : P.At c

theorem reaches_start (next : σ → Action σ) (exec : Pid → Bool) (start : σ) :
    Reaches next exec start (initial start) [] (.born start) start :=
  ⟨System.reachable_init _ _ rfl, by simp [initial], rfl, rfl⟩

variable {start : σ} {s : Table σ} {p : Pid} {P : Process σ} {c : σ}

theorem Reaches.run (h : Reaches next exec start s p P c) :
    (family next exec start).step s (.run p) = run next exec s p P c := by
  simp only [family, step, withProgram, h.present, h.here.1, h.here.2]

theorem Reaches.goto {c' : σ} (h : Reaches next exec start s p P c) (does : next c = .goto c') :
    Reaches next exec start (s.set p (P.goto c')) p (P.goto c') c' := by
  have moved := h.run
  rw [Processes.run, does] at moved
  exact ⟨h.reachable.step moved, s.proc_set_self p _, h.here.1, rfl⟩

theorem Reaches.execFailed {c' : σ} (h : Reaches next exec start s p P c)
    (does : next c = .execve c') (fails : exec p = false) :
    Reaches next exec start (s.set p (P.goto c')) p (P.goto c') c' := by
  have moved := h.run
  rw [Processes.run, does] at moved
  simp only [fails] at moved
  exact ⟨h.reachable.step moved, s.proc_set_self p _, h.here.1, rfl⟩

theorem Reaches.fork {child : σ} {parent : Pid → σ} (h : Reaches next exec start s p P c)
    (does : next c = .fork child parent) :
    Reaches next exec start
      ((s.set p (P.forked (parent (P.forks :: p)))).spawn (P.forks :: p) (.born child))
      p (P.forked (parent (P.forks :: p))) (parent (P.forks :: p)) := by
  have moved := h.run
  rw [Processes.run, does] at moved
  refine ⟨h.reachable.step moved, ?_, h.here.1, rfl⟩
  rw [Table.proc_spawn, Table.proc_set_ne _ _ _ _ (List.cons_ne_self _ _).symm,
    Table.proc_set_self]

/-- Of the children of `p`, the end of `k` and its report to `p` change `k` alone. -/
theorem Table.proc_killed_ne (s : Table σ) (p : Pid) (i k : Nat) (K K' P' : Process σ)
    (other : i ≠ k) :
    (((s.set (k :: p) K).set p P').set (k :: p) K').proc (i :: p) = s.proc (i :: p) := by
  have apart : i :: p ≠ k :: p := by simpa using other
  rw [Table.proc_set_ne _ _ _ _ apart, Table.proc_set_parent, Table.proc_set_ne _ _ _ _ apart]

/-- The first `n` children of `p` are there and alive. -/
def Table.AllAlive (s : Table σ) (p : Pid) (n : Nat) : Prop :=
  ∀ i < n, ∃ K, s.proc (i :: p) = some K ∧ K.terminated = false

theorem Table.AllAlive.set_parent {n : Nat} (h : s.AllAlive p n) (P' : Process σ) :
    (s.set p P').AllAlive p n := by
  intro i hi
  rw [Table.proc_set_parent]
  exact h i hi

/-- A fork adds a child and leaves the others as they are. -/
theorem Table.AllAlive.fork {n : Nat} (h : s.AllAlive p n) (P' : Process σ) (child : σ) :
    ((s.set p P').spawn (n :: p) (.born child)).AllAlive p (n + 1) := by
  intro i hi
  rw [Table.proc_spawn]
  by_cases new : i = n
  · subst new
    exact ⟨.born child, Table.proc_set_self _ _ _, rfl⟩
  · rw [Table.proc_set_ne _ _ _ _ (by simpa using new)]
    exact h.set_parent P' i (by omega)

theorem Reaches.other {q : Pid} {Q : Process σ} {d : σ} (h : Reaches next exec start s p P c)
    (present : s.proc q = some Q) (here : Q.At d) : Reaches next exec start s q Q d :=
  ⟨h.reachable, present, here⟩

theorem Reaches.report {failed : σ} {target : Target} {reported : Status → σ} {k : Nat}
    {K : Process σ} {status : Status} (h : Reaches next exec start s p P c)
    (does : next c = .waitpid target reported failed) (kid : s.proc (k :: p) = some K)
    (pending : K.report = some status) (covered : target.covers (k :: p) = true) :
    Reaches next exec start ((s.set p (P.goto (reported status))).set (k :: p) K.reap)
      p (P.goto (reported status)) (reported status) := by
  have told : (family next exec start).step s (.report p k) =
      some ((s.set p (P.goto (reported status))).set (k :: p) K.reap) := by
    simp only [family, step, withProgram, h.present, h.here.1, h.here.2, Processes.report, does, kid,
      pending, covered, if_true]
  refine ⟨h.reachable.step told, ?_, h.here.1, rfl⟩
  rw [Table.proc_set_ne _ _ _ _ (List.cons_ne_self k p).symm, Table.proc_set_self]

/-- A signal kills the child `k`, and the parent, which waits for it, is told so. -/
theorem Reaches.killed {failed : σ} {target : Target} {reported : Status → σ} {k : Nat}
    {K : Process σ} (h : Reaches next exec start s p P c)
    (does : next c = .waitpid target reported failed) (kid : s.proc (k :: p) = some K)
    (alive : K.terminated = false) (covered : target.covers (k :: p) = true) (signal : Nat) :
    Reaches next exec start
      (((s.set (k :: p) (K.end (.killed signal))).set p (P.goto (reported (.killed signal)))).set
        (k :: p) (K.end (.killed signal)).reap)
      p (P.goto (reported (.killed signal))) (reported (.killed signal)) := by
  have dies : (family next exec start).step s (.kill (k :: p) signal) =
      some (s.set (k :: p) (K.end (.killed signal))) := by
    simp [family, step, withProcess, kid, alive]
  have still := s.proc_set_ne (k :: p) p (K.end (.killed signal)) (List.cons_ne_self k p).symm
  have waits : Reaches next exec start (s.set (k :: p) (K.end (.killed signal))) p P c :=
    ⟨h.reachable.step dies, still.trans h.present, h.here⟩
  exact waits.report does (s.proc_set_self _ _) rfl covered

end Steps

end GenericTests.Processes
