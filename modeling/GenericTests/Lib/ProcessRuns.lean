import GenericTests.Lib.ProcessTree
import Mathlib.Algebra.BigOperators.Group.List.Basic
import Mathlib.Algebra.Ring.Nat

/-!
# Families of processes: runs without signals

Without signals a family can only come to rest when all its processes have exited: a process
waits for children, and the deepest process that has not ended has nobody left to wait for.
-/
namespace GenericTests.Processes

open GenericTests.Transition

variable {σ : Type} {next : σ → Action σ} {exec : Pid → Bool}

/-- A step of the processes themselves. -/
def Act.quiet : Act → Bool
  | .run _ | .report _ _ | .noChild _ => true
  | .stop _ _ | .cont _ | .kill _ _ | .finish _ _ => false

/-- No process is stopped, and none was killed. -/
def Table.Calm (s : Table σ) : Prop :=
  ∀ p P, s.proc p = some P → P.life = .running ∨ ∃ status, P.life = .ended (.exited status)

theorem calm_initial (start : σ) : (initial start).Calm := by
  intro p P present
  by_cases e : p = []
  · subst e
    cases (by simpa [initial] using present : Process.born start = P)
    exact .inl rfl
  · simp [initial, e] at present

theorem Table.Calm.set {s : Table σ} (h : s.Calm) (p : Pid) (P : Process σ)
    (life : P.life = .running ∨ ∃ status, P.life = .ended (.exited status)) : (s.set p P).Calm := by
  intro q Q present
  by_cases e : q = p
  · subst e
    rw [Table.proc_set_self] at present
    exact Option.some.inj present ▸ life
  · rw [Table.proc_set_ne _ _ _ _ e] at present
    exact h q Q present

theorem calm_step {s t : Table σ} {a : Act} (h : s.Calm) (quiet : a.quiet = true)
    (moved : step next exec s a = some t) : t.Calm := by
  cases a with
  | run p =>
    obtain ⟨P, c, present, here, ran⟩ := withProgram_cases moved
    unfold run at ran
    split at ran
    · cases ran
      exact h.set p _ (.inl here.1)
    · -- parent and child are both running after a fork
      cases ran
      exact (h.set p (P.forked _) (.inl here.1)).set _ (.born _) (.inl rfl)
    · cases ran
      exact h.set p _ (.inl here.1)
    · cases ran
      exact h.set p _ (.inr ⟨_, rfl⟩)
    · cases ran
  | report p k =>
    obtain ⟨P, c, present, here, told⟩ := withProgram_cases moved
    unfold report at told
    split at told
    next target reported failed K does kid =>
      split at told
      next status pending =>
        split at told
        · cases told
          exact (h.set p (P.goto _) (.inl here.1)).set (k :: p) K.reap (h _ K kid)
        · cases told
      · cases told
    · cases told
  | noChild p =>
    obtain ⟨P, c, present, here, failed⟩ := withProgram_cases moved
    unfold noChild at failed
    split at failed
    · split at failed
      · cases failed
        exact h.set p _ (.inl here.1)
      · cases failed
    · cases failed
  | stop p signal | cont p | kill p signal | finish p status => cases quiet

/-! ### Rest -/

section Rest

variable {s : Table σ} {depth : Nat}

theorem run_enabled {p : Pid} {P : Process σ} {c : σ} (present : s.proc p = some P) (here : P.At c)
    (noWait : ∀ target reported failed, next c ≠ .waitpid target reported failed) :
    ∃ a t, a.quiet = true ∧ step next exec s a = some t := by
  refine ⟨.run p, ?_⟩
  simp only [Act.quiet, step, withProgram, present, here.1, here.2, run, true_and]
  cases does : next c with
  | goto c' => exact ⟨_, rfl⟩
  | fork child parent => exact ⟨_, rfl⟩
  | execve failed => exact ⟨_, rfl⟩
  | exit status => exact ⟨_, rfl⟩
  | waitpid target reported failed => exact absurd does (noWait target reported failed)

/-- A `waitpid` whose children have all ended returns. -/
theorem wait_enabled {p : Pid} {P : Process σ} {c failed : σ} {target : Target}
    {reported : Status → σ} (present : s.proc p = some P) (here : P.At c)
    (does : next c = .waitpid target reported failed)
    (ended : ∀ k K, s.proc (k :: p) = some K → K.terminated = true) :
    ∃ a t, a.quiet = true ∧ step next exec s a = some t := by
  by_cases pending : ∃ k K status, s.proc (k :: p) = some K ∧ K.report = some status ∧
      target.covers (k :: p) = true
  · obtain ⟨k, K, status, kid, reports, covered⟩ := pending
    refine ⟨.report p k, (s.set p (P.goto (reported status))).set (k :: p) K.reap, rfl, ?_⟩
    simp only [step, withProgram, present, here.1, here.2, report, does, kid, reports, covered, if_true]
  · have none_left : ((List.range P.forks).all fun k =>
        !target.covers (k :: p) || (s.kids p k).all Process.reaped) = true := by
      rw [List.all_eq_true]
      intro k _
      cases covered : target.covers (k :: p) with
      | false => rfl
      | true =>
        cases kid : s.proc (k :: p) with
        | none => simp [Table.kids, kid]
        | some K =>
          have silent : K.report = none := by
            cases reports : K.report with
            | none => rfl
            | some status => exact absurd ⟨k, K, status, kid, reports, covered⟩ pending
          simp [Table.kids, kid, Process.reaped, ended k K kid, silent]
    refine ⟨.noChild p, s.set p (P.goto failed), rfl, ?_⟩
    simp only [step, withProgram, present, here.1, here.2, noChild, does, none_left, if_true]

/-- By induction on the levels below the process: it can move, or one of its children can. -/
theorem moves_below (calm : s.Calm) (own : ∀ p P, s.proc p = some P → P.prog.isSome = true)
    (bounded : ∀ p P, s.proc p = some P → p.length ≤ depth) (levels : Nat) (p : Pid)
    (P : Process σ) (present : s.proc p = some P) (alive : P.terminated = false)
    (below : depth - p.length = levels) :
    ∃ a t, a.quiet = true ∧ step next exec s a = some t := by
  induction levels using Nat.strongRecOn generalizing p P with
  | _ levels ih =>
    have running : P.life = .running := by
      rcases calm p P present with running | ⟨status, ended⟩
      · exact running
      · simp [Process.terminated, ended] at alive
    obtain ⟨c, prog⟩ := Option.isSome_iff_exists.mp (own p P present)
    by_cases waits : ∃ target reported failed, next c = .waitpid target reported failed
    · obtain ⟨target, reported, failed, does⟩ := waits
      by_cases child : ∃ k K, s.proc (k :: p) = some K ∧ K.terminated = false
      · obtain ⟨k, K, kid, still⟩ := child
        have deeper := bounded _ K kid
        rw [List.length_cons] at deeper
        exact ih (depth - (k :: p).length) (by rw [List.length_cons]; omega) (k :: p) K kid still rfl
      · refine wait_enabled present ⟨running, prog⟩ does fun k K kid => ?_
        by_contra still
        exact child ⟨k, K, kid, by simpa using still⟩
    · exact run_enabled present ⟨running, prog⟩ fun target reported failed does =>
        waits ⟨target, reported, failed, does⟩

/-- **Rest**: unless all processes have exited, one of them can take a step. -/
theorem exited_or_moves (calm : s.Calm) (own : ∀ p P, s.proc p = some P → P.prog.isSome = true)
    (bounded : ∀ p P, s.proc p = some P → p.length ≤ depth) :
    (∀ p P, s.proc p = some P → ∃ status, P.life = .ended (.exited status)) ∨
      ∃ a t, a.quiet = true ∧ step next exec s a = some t := by
  by_cases alive : ∃ p P, s.proc p = some P ∧ P.terminated = false
  · obtain ⟨p, P, present, still⟩ := alive
    exact .inr (moves_below calm own bounded _ p P present still rfl)
  · refine .inl fun p P present => ?_
    rcases calm p P present with running | exited
    · exact absurd ⟨p, P, present, by simp [Process.terminated, running]⟩ alive
    · exact exited

end Rest

/-! ### How processes end -/

/-- A process that has exited stands at an `exit` of its program. -/
theorem exited_at_exit (start : σ) (s : Table σ) (h : (family next exec start).Reachable s)
    (p : Pid) (P : Process σ) (present : s.proc p = some P) (status : Nat)
    (ended : P.life = .ended (.exited status)) :
    P.prog = none ∨ ∃ c code, P.prog = some c ∧ next c = .exit code := by
  refine ((family_invariant start (fun _ P _ => ∀ status, P.life = .ended (.exited status) →
    P.prog = none ∨ ∃ c code, P.prog = some c ∧ next c = .exit code) ?_ ?_ ?_ s h).2 p P
      present).inv status ended
  · intro status ended
    cases ended
  · intro p P kids c child parent _ here does status ended
    cases ended
  · intro p P kids P' kids' context moves status ended
    cases moves with
    | own P' moves =>
      cases moves with
      | exit c code here does => exact .inr ⟨c, code, here.2, does⟩
      | finish code running other => exact .inl other
      | goto c c' here does => cases here.1.symm.trans ended
      | execve c failed here does ok => exact .inl rfl
      | execFailed c failed here does fails => cases here.1.symm.trans ended
      | noChild c failed target reported here does exhausted =>
        cases here.1.symm.trans ended
      | stop signal running => cases ended
      | cont stopped => cases ended
      | kill signal alive => cases ended
    | fork c child parent here does => cases here.1.symm.trans ended
    | report k K c failed target reported status' here does kid pending covered =>
      cases here.1.symm.trans ended
    | reaped => exact context.inv status ended
    | kid k K K' kid alive unreaped => exact context.inv status ended

/-- Where no `execve` succeeds, every process runs the program. -/
theorem prog_isSome (start : σ) (s : Table σ) (h : (family next (fun _ => false) start).Reachable s)
    (p : Pid) (P : Process σ) (present : s.proc p = some P) : P.prog.isSome = true := by
  refine ((family_invariant start (fun _ P _ => P.prog.isSome = true) rfl ?_ ?_ s h).2 p P
    present).inv
  · exact fun p P kids c child parent _ here does => rfl
  · intro p P kids P' kids' context moves
    cases moves with
    | own P' moves =>
      cases moves with
      | goto c c' here does => rfl
      | execve c failed here does ok => cases ok
      | execFailed c failed here does fails => rfl
      | noChild c failed target reported here does exhausted => rfl
      | exit c code here does => exact context.inv
      | stop signal running => exact context.inv
      | cont stopped => exact context.inv
      | kill signal alive => exact context.inv
      | finish code running other => exact context.inv
    | fork c child parent here does => rfl
    | report k K c failed target reported status here does kid pending covered => rfl
    | reaped => exact context.inv
    | kid k K K' kid alive unreaped => exact context.inv

/-! ### Sums over the processes -/

/-- The sum of a weight over places, whether there is a process or not. -/
def potential (weight : Option (Process σ) → Nat) (places : List Pid) (s : Table σ) : Nat :=
  (places.map fun p => weight (s.proc p)).sum

theorem potential_set (weight : Option (Process σ) → Nat) (places : List Pid) (s : Table σ) (p : Pid)
    (P : Process σ) (once : places.Nodup) (member : p ∈ places) :
    potential weight places (s.set p P) + weight (s.proc p) =
      potential weight places s + weight (some P) := by
  induction places with
  | nil => cases member
  | cons q places ih =>
    obtain ⟨fresh, rest⟩ := List.nodup_cons.mp once
    rcases List.mem_cons.mp member with rfl | later
    · have same : ∀ r ∈ places, weight ((s.set p P).proc r) = weight (s.proc r) := by
        intro r hr
        have other : r ≠ p := fun e => fresh (e ▸ hr)
        rw [Table.proc_set_ne _ _ _ _ other]
      simp only [potential, List.map_cons, List.sum_cons, Table.proc_set_self,
        List.map_congr_left same]
      omega
    · have other : q ≠ p := fun e => fresh (e ▸ later)
      have sum := ih rest later
      simp only [potential, List.map_cons, List.sum_cons, Table.proc_set_ne _ _ _ _ other] at sum ⊢
      omega

theorem potential_set_lt (weight : Option (Process σ) → Nat) (places : List Pid) (s : Table σ)
    (p : Pid) (P : Process σ) (once : places.Nodup) (member : p ∈ places)
    (less : weight (some P) < weight (s.proc p)) :
    potential weight places (s.set p P) < potential weight places s := by
  have sum := potential_set weight places s p P once member
  omega

/-- A step of two processes. -/
theorem potential_set_set_lt (weight : Option (Process σ) → Nat) (places : List Pid) (s : Table σ)
    (p q : Pid) (P Q : Process σ) (once : places.Nodup) (first : p ∈ places) (second : q ∈ places)
    (other : q ≠ p)
    (less : weight (some P) + weight (some Q) < weight (s.proc p) + weight (s.proc q)) :
    potential weight places ((s.set p P).set q Q) < potential weight places s := by
  have one := potential_set weight places s p P once first
  have two := potential_set weight places (s.set p P) q Q once second
  rw [Table.proc_set_ne _ _ _ _ other] at two
  omega

end GenericTests.Processes
