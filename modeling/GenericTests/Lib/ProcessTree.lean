import GenericTests.Lib.Processes

/-!
# Families of processes: invariants

The processes form a tree, and a step concerns one process, its parent and at most one of
its children. So an invariant is a property of a process and its children, and it has to
be checked against the moves of that process and against moves of the children.
-/
namespace GenericTests.Processes

open GenericTests.Transition

variable {σ : Type} {next : σ → Action σ} {exec : Pid → Bool}

/-! ### The tree of processes -/

def Table.forks (s : Table σ) (p : Pid) : Option Nat := (s.proc p).map Process.forks

/-- The children of a process are numbered by its forks. -/
def Table.Tree (s : Table σ) : Prop :=
  ∀ p k, (s.forks (k :: p)).isSome = true ↔ ∃ n, s.forks p = some n ∧ k < n

theorem Table.forks_set (s : Table σ) (p : Pid) (P P' : Process σ) (present : s.proc p = some P)
    (same : P'.forks = P.forks) : (s.set p P').forks = s.forks := by
  funext q
  by_cases e : q = p
  · subst e
    simp [Table.forks, present, same]
  · simp [Table.forks, s.proc_set_ne p q P' e]

theorem Table.forks_report (s : Table σ) (p : Pid) (k : Nat) (P K : Process σ) (c : σ)
    (present : s.proc p = some P) (kid : s.proc (k :: p) = some K) :
    ((s.set p (P.goto c)).set (k :: p) K.reap).forks = s.forks := by
  rw [Table.forks_set _ (k :: p) K K.reap ((s.proc_set_parent p k _).trans kid) rfl,
    s.forks_set p P (P.goto c) present rfl]

theorem Table.forks_eq (s : Table σ) (p : Pid) (P : Process σ) (present : s.proc p = some P) :
    s.forks p = some P.forks := by
  simp [Table.forks, present]

theorem Table.Tree.fresh {s : Table σ} (h : s.Tree) (p : Pid) (P : Process σ)
    (present : s.proc p = some P) : s.proc (P.forks :: p) = none := by
  by_contra taken
  have := (h p P.forks).mp (by simpa [Table.forks, Option.isSome_iff_ne_none] using taken)
  simp [s.forks_eq p P present] at this

theorem Table.Tree.kids {s : Table σ} (h : s.Tree) (p : Pid) (P : Process σ)
    (present : s.proc p = some P) (k : Nat) : (s.kids p k).isSome = true ↔ k < P.forks := by
  have numbered := h p k
  rw [s.forks_eq p P present] at numbered
  simpa [Table.forks, Table.kids] using numbered

theorem tree_initial (start : σ) : (initial start).Tree := by
  intro p k
  by_cases e : p = []
  · subst e
    simp [initial, Table.forks, Process.born]
  · simp [initial, Table.forks, e]

theorem tree_fork {s : Table σ} (h : s.Tree) (p : Pid) (P : Process σ) (c child : σ)
    (present : s.proc p = some P) :
    ((s.set p (P.forked c)).set (P.forks :: p) (.born child)).Tree := by
  have absent := h.fresh p P present
  have self : p ≠ P.forks :: p := (List.cons_ne_self _ _).symm
  have counts : ∀ q, ((s.set p (P.forked c)).set (P.forks :: p) (.born child)).forks q =
      if q = P.forks :: p then some 0 else if q = p then some (P.forks + 1) else s.forks q := by
    intro q
    split
    next new => simp [new, Table.forks, Process.born]
    next old =>
      split
      next here => simp [here, Table.forks, Table.proc_set_ne, self, Process.forked]
      next other => simp [Table.forks, Table.proc_set_ne, old, other]
  intro q k
  rw [counts, counts]
  by_cases parent : q = p
  · subst parent
    have numbered := h q k
    rw [s.forks_eq q P present] at numbered
    by_cases new : k = P.forks
    · simp [new, self]
    · have less : k < P.forks + 1 ↔ k < P.forks := by omega
      simpa [new, self, less] using numbered
  · by_cases born : q = P.forks :: p
    · -- the new process has no children yet
      have none_yet := h q k
      have longer : k :: P.forks :: p ≠ p := fun e => by
        have := congrArg List.length e
        simp at this
        omega
      simp only [born, Table.forks, absent, Option.map_none] at none_yet ⊢
      simpa [longer] using none_yet
    · have numbered := h q k
      by_cases grand : k :: q = p
      · rw [grand, s.forks_eq p P present] at numbered
        simpa [parent, born, grand] using numbered
      · simpa [parent, born, grand] using numbered

theorem tree_step {s t : Table σ} (h : s.Tree) (e : Effect next exec s t) : t.Tree := by
  cases e with
  | own p P P' present moves =>
    unfold Table.Tree
    rw [s.forks_set p P P' present moves.forks]
    exact h
  | fork p P c child parent present here does => exact tree_fork h p P _ child present
  | report p k P K c failed target reported status present here does kid pending covered =>
    unfold Table.Tree
    rw [s.forks_report p k P K (reported status) present kid]
    exact h

/-! ### Invariants of single processes -/

/-- Reports and ends belong together. -/
structure Process.Sane (P : Process σ) : Prop where
  reported : ∀ status, P.report = some status → status.final = true → P.life = .ended status
  ended : ∀ status, P.life = .ended status →
    status.final = true ∧ (P.report = none ∨ P.report = some status)

theorem Process.Sane.terminated {P : Process σ} (h : P.Sane) (status : Status)
    (pending : P.report = some status) (final : status.final = true) : P.terminated = true := by
  simp [Process.terminated, h.reported status pending final]

theorem Process.sane_born (c : σ) : (Process.born c).Sane := ⟨nofun, nofun⟩

/-- A report of the end is the last one. -/
theorem Process.Sane.reaped_reap {P : Process σ} (h : P.Sane) (status : Status)
    (pending : P.report = some status) : P.reap.reaped = status.final := by
  cases final : status.final with
  | true =>
    have ended := h.terminated status pending final
    simpa [Process.reap, Process.reaped, Process.terminated] using ended
  | false =>
    cases life : P.life with
    | running => simp [Process.reap, Process.reaped, Process.terminated, life]
    | stopped => simp [Process.reap, Process.reaped, Process.terminated, life]
    | ended other =>
      obtain ⟨otherFinal, reported⟩ := h.ended other life
      simp only [pending, reduceCtorEq, Option.some.injEq, false_or] at reported
      rw [reported, otherFinal] at final
      cases final

private theorem sane_running {P : Process σ} (running : P.life = .running) (h : P.Sane)
    {P' : Process σ} (life : P'.life = P.life) (report : P'.report = P.report) : P'.Sane := by
  constructor
  · intro status pending final
    rw [life]
    exact h.reported status (report ▸ pending) final
  · intro status ended
    rw [life, running] at ended
    cases ended

private theorem sane_alive {P : Process σ} {status : Status} (alive : ∀ st, P.life ≠ .ended st)
    (pending : P.report = some status) (passing : status.final = false) : P.Sane := by
  constructor
  · intro status' pending' final
    cases Option.some.inj (pending.symm.trans pending')
    rw [passing] at final
    cases final
  · intro status' ended
    exact absurd ended (alive status')

private theorem sane_end (P : Process σ) (status : Status) (final : status.final = true) :
    (P.end status).Sane := by
  constructor
  · intro status' pending _
    cases pending
    rfl
  · intro status' ended
    cases ended
    exact ⟨final, .inr rfl⟩

theorem Own.sane {p : Pid} {kids : Kids σ} {P P' : Process σ} (h : Own next exec p kids P P')
    (sane : P.Sane) : P'.Sane := by
  cases h with
  | goto c c' here does => exact sane_running here.1 sane rfl rfl
  | execve c failed here does ok => exact sane_running here.1 sane rfl rfl
  | execFailed c failed here does fails => exact sane_running here.1 sane rfl rfl
  | noChild c failed target reported here does exhausted => exact sane_running here.1 sane rfl rfl
  | exit c status here does => exact sane_end P _ rfl
  | kill signal alive => exact sane_end P _ rfl
  | finish status running other => exact sane_end P _ rfl
  | stop signal running => exact sane_alive nofun rfl rfl
  | cont stopped => exact sane_alive nofun rfl rfl

theorem Moves.sane {p : Pid} {kids kids' : Kids σ} {P P' : Process σ}
    (h : Moves next exec p P kids P' kids') (sane : P.Sane) : P'.Sane := by
  cases h with
  | own P' moves => exact moves.sane sane
  | fork c child parent here does => exact sane_running here.1 sane rfl rfl
  | report k K c failed target reported status here does kid pending covered =>
    exact sane_running here.1 sane rfl rfl
  | reaped => exact ⟨nofun, fun status ended => ⟨(sane.ended status ended).1, .inl rfl⟩⟩
  | kid k K K' kid alive unreaped => exact sane

/-- How a step looks from a process that was there before. -/
theorem moves_of_effect {s t : Table σ} (tree : s.Tree) (e : Effect next exec s t) (q : Pid)
    (Q : Process σ) (present : s.proc q = some Q) :
    ∃ Q', t.proc q = some Q' ∧
      (Moves next exec q Q (s.kids q) Q' (t.kids q) ∨ Q' = Q ∧ t.kids q = s.kids q) := by
  -- a bystander sees a change of another process only if that is one of its children
  have bystander : ∀ (p : Pid) (P P' : Process σ), s.proc p = some P → P.terminated = false →
      P'.reaped = false → q ≠ p → Moves next exec q Q (s.kids q) Q ((s.set p P').kids q) ∨
        Q = Q ∧ (s.set p P').kids q = s.kids q := by
    intro p P P' hp alive unreaped other
    by_cases child : ∃ k, p = k :: q
    · obtain ⟨k, rfl⟩ := child
      left
      rw [s.kids_set_child]
      exact .kid k P P' hp alive unreaped
    · right
      exact ⟨rfl, s.kids_set_other p q P' fun k e => child ⟨k, e⟩⟩
  cases e with
  | own p P P' hp moves =>
    by_cases e : q = p
    · subst e
      cases Option.some.inj (present.symm.trans hp)
      exact ⟨P', s.proc_set_self q P', .inl (by rw [s.kids_set_self]; exact .own P' moves)⟩
    · exact ⟨Q, (s.proc_set_ne p q P' e).trans present,
        bystander p P P' hp moves.alive moves.unreaped e⟩
  | fork p P c child parent hp here does =>
    have new : q ≠ P.forks :: p := by
      rintro rfl
      rw [tree.fresh p P hp] at present
      cases present
    by_cases e : q = p
    · subst e
      cases Option.some.inj (present.symm.trans hp)
      refine ⟨Q.forked (parent (Q.forks :: q)), ?_, .inl ?_⟩
      · rw [Table.proc_spawn, Table.proc_set_ne _ _ _ _ new, Table.proc_set_self]
      · rw [Table.kids_spawn, Table.kids_set_child, Table.kids_set_self]
        exact .fork c child parent here does
    · refine ⟨Q, ?_, ?_⟩
      · rw [Table.proc_spawn, Table.proc_set_ne _ _ _ _ new, Table.proc_set_ne _ _ _ _ e]
        exact present
      · rw [Table.kids_spawn,
          Table.kids_set_other _ _ _ _ fun k hk => e (List.cons.inj hk).2.symm]
        exact bystander p P _ hp here.alive (Process.unreaped_of_running _ here.1) e
  | report p k P K c failed target reported status hp here does kid pending covered =>
    have self : p ≠ k :: p := (List.cons_ne_self k p).symm
    by_cases e : q = p
    · subst e
      cases Option.some.inj (present.symm.trans hp)
      refine ⟨Q.goto (reported status), ?_, .inl ?_⟩
      · rw [Table.proc_set_ne _ _ _ _ self, Table.proc_set_self]
      · rw [Table.kids_set_child, Table.kids_set_self]
        exact .report k K c failed target reported status here does kid pending covered
    · by_cases child : q = k :: p
      · subst child
        cases Option.some.inj (present.symm.trans kid)
        refine ⟨Q.reap, Table.proc_set_self _ _ _, .inl ?_⟩
        have longer : ∀ i, p ≠ i :: k :: p := fun i h => by
          have := congrArg List.length h
          simp at this
          omega
        rw [Table.kids_set_self, Table.kids_set_other _ _ _ _ longer]
        exact .reaped
      · refine ⟨Q, ?_, ?_⟩
        · rw [Table.proc_set_ne _ _ _ _ child, Table.proc_set_ne _ _ _ _ e]
          exact present
        · rw [Table.kids_set_other _ _ _ _ fun i hi => e (List.cons.inj hi).2.symm]
          exact bystander p P _ hp here.alive (Process.unreaped_of_running _ here.1) e

/-- A process that was not there before is the newborn child of one that was. -/
theorem birth_of_effect {s t : Table σ} (tree : s.Tree) (e : Effect next exec s t) (q : Pid)
    (Q : Process σ) (absent : s.proc q = none) (present : t.proc q = some Q) :
    ∃ p P c child parent, s.proc p = some P ∧ P.At c ∧ next c = .fork child parent ∧
      q = P.forks :: p ∧ Q = .born child ∧ t.kids q = fun _ => none := by
  -- a step that only changes processes that are there adds none
  have same : ∀ (u : Table σ) (p : Pid) (P P' : Process σ), u.proc q = none → u.proc p = some P →
      (u.set p P').proc q = none := by
    intro u p P P' hq hp
    rw [u.proc_set_ne p q P' fun e => by rw [← e, hq] at hp; cases hp]
    exact hq
  cases e with
  | own p P P' hp moves =>
    rw [same s p P P' absent hp] at present
    cases present
  | fork p P c child parent hp here does =>
    have still := same s p P (P.forked (parent (P.forks :: p))) absent hp
    by_cases new : q = P.forks :: p
    · subst new
      rw [Table.proc_spawn, Table.proc_set_self] at present
      refine ⟨p, P, c, child, parent, hp, here, does, rfl, (Option.some.inj present).symm, ?_⟩
      -- it has no children: they would have been children of an absent process
      funext k
      have after := (tree_fork tree p P (parent (P.forks :: p)) child hp).kids
        (P.forks :: p) (.born child) (Table.proc_set_self _ _ _) k
      simpa [Process.born] using after
    · rw [Table.proc_spawn, Table.proc_set_ne _ _ _ _ new, still] at present
      cases present
  | report p k P K c failed target reported status hp here does kid pending covered =>
    have still := same s p P (P.goto (reported status)) absent hp
    have kid' := (s.proc_set_parent p k (P.goto (reported status))).trans kid
    rw [same _ (k :: p) K K.reap still kid'] at present
    cases present

/-- What is known about a process and its children when one of them moves. -/
structure Context (J : Pid → Process σ → Kids σ → Prop) (p : Pid) (P : Process σ)
    (kids : Kids σ) : Prop where
  sane : P.Sane
  numbered : ∀ k, (kids k).isSome = true ↔ k < P.forks
  inv : J p P kids
  kid : ∀ k K, kids k = some K → K.Sane ∧ ∃ grandkids, J (k :: p) K grandkids

theorem Context.fresh {J : Pid → Process σ → Kids σ → Prop} {p : Pid} {P : Process σ}
    {kids : Kids σ} (h : Context J p P kids) : kids P.forks = none := by
  have absent := (h.numbered P.forks).not.mpr (Nat.lt_irrefl P.forks)
  simpa using absent

/-- What holds of the first process, of every newborn and across every move of one process
and its children, holds of all processes in every reachable state. -/
theorem family_invariant (start : σ) (J : Pid → Process σ → Kids σ → Prop)
    (first : J [] (.born start) fun _ => none)
    (birth : ∀ p P kids c child parent, J p P kids → P.At c → next c = .fork child parent →
      J (P.forks :: p) (.born child) fun _ => none)
    (moves : ∀ p P kids P' kids', Context J p P kids → Moves next exec p P kids P' kids' →
      J p P' kids')
    (s : Table σ) (h : (family next exec start).Reachable s) :
    s.Tree ∧ ∀ p P, s.proc p = some P → Context J p P (s.kids p) := by
  have all : s.Tree ∧ ∀ p P, s.proc p = some P → P.Sane ∧ J p P (s.kids p) := by
    apply (family next exec start).reachable_invariant
      (fun s => s.Tree ∧ ∀ p P, s.proc p = some P → P.Sane ∧ J p P (s.kids p)) ?_ ?_ s h
    · rintro s₀ rfl
      refine ⟨tree_initial start, ?_⟩
      intro p P present
      by_cases e : p = []
      · subst e
        cases (by simpa [initial] using present : Process.born start = P)
        have alone : (initial start).kids [] = fun _ => none := by
          funext k
          simp [initial, Table.kids]
        rw [alone]
        exact ⟨Process.sane_born start, first⟩
      · simp [initial, e] at present
    · rintro s a t ⟨tree, inv⟩ hs
      have effect := step_cases hs
      refine ⟨tree_step tree effect, ?_⟩
      intro q Q' present'
      -- a process of the new state was born in this step, or it has made a move
      cases present : s.proc q with
      | none =>
        obtain ⟨p, P, c, child, parent, hp, here, does, rfl, rfl, kids⟩ :=
          birth_of_effect tree effect q Q' present present'
        rw [kids]
        exact ⟨Process.sane_born child,
          birth p P (s.kids p) c child parent (inv p P hp).2 here does⟩
      | some Q =>
        obtain ⟨Q'', now, moved⟩ := moves_of_effect tree effect q Q present
        cases Option.some.inj (now.symm.trans present')
        have known := inv q Q present
        rcases moved with moved | ⟨rfl, kids⟩
        · refine ⟨moved.sane known.1, moves q Q (s.kids q) Q' (t.kids q) ?_ moved⟩
          refine ⟨known.1, tree.kids q Q present, known.2, ?_⟩
          intro k K kid
          exact ⟨(inv _ K kid).1, _, (inv _ K kid).2⟩
        · rw [kids]
          exact known
  refine ⟨all.1, ?_⟩
  intro p P present
  refine ⟨(all.2 p P present).1, all.1.kids p P present, (all.2 p P present).2, ?_⟩
  intro k K kid
  exact ⟨(all.2 _ K kid).1, _, (all.2 _ K kid).2⟩

/-! ### Invariants of the program -/

/-- What a program guarantees about its own state, the name of the process and the number
of its forks. -/
structure LocalInvariant (next : σ → Action σ) (start : σ) (B : Pid → Nat → σ → Prop) :
    Prop where
  first : B [] 0 start
  goto : ∀ p n c c', B p n c → next c = .goto c' → B p n c'
  fork : ∀ p n c child parent, B p n c → next c = .fork child parent →
    B (n :: p) 0 child ∧ B p (n + 1) (parent (n :: p))
  execve : ∀ p n c failed, B p n c → next c = .execve failed → B p n failed
  waitpid : ∀ p n c target reported failed, B p n c →
    next c = .waitpid target reported failed → (∀ status, B p n (reported status)) ∧ B p n failed

theorem LocalInvariant.moves {start : σ} {B : Pid → Nat → σ → Prop}
    (h : LocalInvariant next start B) {p : Pid} {P P' : Process σ} {kids kids' : Kids σ}
    (inv : ∀ c, P.prog = some c → B p P.forks c) (moves : Moves next exec p P kids P' kids') :
    ∀ c, P'.prog = some c → B p P'.forks c := by
  have same (P' : Process σ) (prog : P'.prog = P.prog) (forks : P'.forks = P.forks) :
      ∀ c, P'.prog = some c → B p P'.forks c := by
    rw [prog, forks]
    exact inv
  have moved (n : Nat) (c : σ) (holds : B p n c) (c' : σ) (here : some c = some c') : B p n c' :=
    Option.some.inj here ▸ holds
  cases moves with
  | own P' moves =>
    cases moves with
    | goto c c' here does => exact moved _ c' (h.goto p _ c c' (inv c here.2) does)
    | execve c failed here does ok => exact nofun
    | execFailed c failed here does fails =>
      exact moved _ failed (h.execve p _ c failed (inv c here.2) does)
    | exit c status here does => exact same _ rfl rfl
    | noChild c failed target reported here does exhausted =>
      exact moved _ failed (h.waitpid p _ c target reported failed (inv c here.2) does).2
    | stop signal running => exact same _ rfl rfl
    | cont stopped => exact same _ rfl rfl
    | kill signal alive => exact same _ rfl rfl
    | finish status running other => exact same _ rfl rfl
  | fork c child parent here does =>
    exact moved _ _ (h.fork p _ c child parent (inv c here.2) does).2
  | report k K c failed target reported status here does kid pending covered =>
    exact moved _ _ ((h.waitpid p _ c target reported failed (inv c here.2) does).1 status)
  | reaped => exact same _ rfl rfl
  | kid k K K' kid alive unreaped => exact inv

/-- A local invariant holds of every process in every reachable state. -/
theorem LocalInvariant.reachable {start : σ} {B : Pid → Nat → σ → Prop}
    (h : LocalInvariant next start B) (s : Table σ) (reached : (family next exec start).Reachable s)
    (p : Pid) (P : Process σ) (c : σ) (present : s.proc p = some P) (prog : P.prog = some c) :
    B p P.forks c := by
  refine ((family_invariant start (fun p P _ => ∀ c, P.prog = some c → B p P.forks c) ?_ ?_ ?_ s
    reached).2 p P present).inv c prog
  · intro c prog
    cases prog
    exact h.first
  · intro p P kids c child parent holds here does d prog
    cases prog
    exact (h.fork p _ c child parent (holds c here.2) does).1
  · intro p P kids P' kids' context moves
    exact h.moves context.inv moves

def AllTerminated (n : Nat) (kids : Kids σ) : Prop :=
  ∀ k < n, ∃ K, kids k = some K ∧ K.terminated = true

theorem AllTerminated.update {n k : Nat} {kids : Kids σ} {K K' : Process σ}
    (h : AllTerminated n kids) (kid : kids k = some K)
    (still : K.terminated = true → K'.terminated = true) :
    AllTerminated n (Function.update kids k (some K')) := by
  intro i hi
  obtain ⟨L, present, ended⟩ := h i hi
  by_cases e : i = k
  · subst e
    cases Option.some.inj (kid.symm.trans present)
    exact ⟨K', Function.update_self _ _ _, still ended⟩
  · exact ⟨L, by rw [Function.update_of_ne e]; exact present, ended⟩

/-- `late` marks the states behind the wait loop, which ends with the first report of a
termination; a process without children may come there in other ways. -/
structure WaitLoop (next : σ → Action σ) (B : Pid → Nat → σ → Prop) (late : σ → Bool) :
    Prop where
  goto : ∀ p n c c', B p n c → next c = .goto c' → late c' = true → late c = true ∨ n = 0
  fork : ∀ c child parent, next c = .fork child parent →
    late child = false ∧ ∀ pid, late (parent pid) = false
  execve : ∀ c failed, next c = .execve failed → late failed = false
  waitpid : ∀ c target reported failed, next c = .waitpid target reported failed →
    ∀ status, late (reported status) = status.final

section OneChild

variable {start : σ} {B : Pid → Nat → σ → Prop} {late : σ → Bool}

theorem late_moves (loop : WaitLoop next B late) (single : ∀ p n c, B p n c → n ≤ 1)
    (covers : ∀ p n c target reported failed, B p n c →
      next c = .waitpid target reported failed → ∀ k < n, target.covers (k :: p) = true)
    {p : Pid} {P P' : Process σ} {kids kids' : Kids σ}
    (numbered : ∀ k, (kids k).isSome = true ↔ k < P.forks)
    (sane : ∀ k K, kids k = some K → K.Sane)
    (holds : ∀ c, P.prog = some c → B p P.forks c ∧ (late c = true → AllTerminated P.forks kids))
    (moves : Moves next exec p P kids P' kids') :
    ∀ c, P'.prog = some c → late c = true → AllTerminated P'.forks kids' := by
  intro d prog isLate
  cases moves with
  | own P' moves =>
    cases moves with
    | goto c c' here does =>
      cases prog
      rcases loop.goto p _ c d (holds c here.2).1 does isLate with before | childless
      · exact (holds c here.2).2 before
      · intro k hk
        exact absurd (childless ▸ hk) (Nat.not_lt_zero k)
    | execve c failed here does ok => cases prog
    | execFailed c failed here does fails =>
      cases prog
      rw [loop.execve c d does] at isLate
      cases isLate
    | exit c status here does => exact (holds d prog).2 isLate
    | noChild c failed target reported here does exhausted =>
      -- all children are covered, so all have been reaped
      intro k hk
      obtain ⟨K, kid⟩ := Option.isSome_iff_exists.mp ((numbered k).mpr hk)
      have covered := covers p _ c target reported failed (holds c here.2).1 does k hk
      have reaped := exhausted k hk covered K kid
      rw [Process.reaped, Bool.and_eq_true] at reaped
      exact ⟨K, kid, reaped.1⟩
    | stop signal running => exact (holds d prog).2 isLate
    | cont stopped => exact (holds d prog).2 isLate
    | kill signal alive => exact (holds d prog).2 isLate
    | finish status running other => exact (holds d prog).2 isLate
  | fork c child parent here does =>
    cases prog
    rw [(loop.fork c child parent does).2] at isLate
    cases isLate
  | report k K c failed target reported status here does kid pending covered =>
    cases prog
    -- there is one child, and its termination has been reported
    rw [loop.waitpid c target reported failed does] at isLate
    intro i hi
    have one := single p _ c (holds c here.2).1
    have reported_kid := (numbered k).mp (by rw [kid]; rfl)
    have same : i = k := by
      simp only [Process.goto] at hi
      omega
    subst same
    exact ⟨K.reap, Function.update_self _ _ _, (sane i K kid).terminated status pending isLate⟩
  | reaped => exact (holds d prog).2 isLate
  | kid k K K' kid alive unreaped =>
    apply ((holds d prog).2 isLate).update kid
    intro ended
    rw [alive] at ended
    cases ended

/-- A program that waits for one termination and forks at most one child is right. -/
theorem terminated_of_late (loop : WaitLoop next B late) (inv : LocalInvariant next start B)
    (single : ∀ p n c, B p n c → n ≤ 1)
    (covers : ∀ p n c target reported failed, B p n c →
      next c = .waitpid target reported failed → ∀ k < n, target.covers (k :: p) = true)
    (early : late start = false) (s : Table σ) (h : (family next exec start).Reachable s) (p : Pid)
    (P : Process σ) (c : σ) (present : s.proc p = some P) (prog : P.prog = some c) :
    B p P.forks c ∧ (late c = true → AllTerminated P.forks (s.kids p)) := by
  refine ((family_invariant start (fun p P kids => ∀ c, P.prog = some c →
    B p P.forks c ∧ (late c = true → AllTerminated P.forks kids)) ?_ ?_ ?_ s h).2 p P present).inv
      c prog
  · intro c prog
    cases prog
    exact ⟨inv.first, fun isLate => by rw [early] at isLate; cases isLate⟩
  · intro p P kids c child parent holds here does d prog
    cases prog
    refine ⟨(inv.fork p _ c child parent (holds c here.2).1 does).1, fun isLate => ?_⟩
    rw [(loop.fork c child parent does).1] at isLate
    cases isLate
  · intro p P kids P' kids' context moves d prog
    exact ⟨inv.moves (fun c prog => (context.inv c prog).1) moves d prog,
      late_moves loop single covers context.numbered (fun k K kid => (context.kid k K kid).1)
        context.inv moves d prog⟩

end OneChild

/-! ### The processes created -/

/-- The children of `p` in the list of created processes. -/
def Table.madeBy (s : Table σ) (p : Pid) : List Pid := s.created.filter fun q => q.tail = p

structure Table.Recorded (s : Table σ) : Prop where
  first : (s.forks []).isSome = true
  present : ∀ q ∈ s.created, q ≠ [] ∧ (s.forks q).isSome = true
  children : ∀ p n, s.forks p = some n → s.madeBy p = (List.range n).map (· :: p)

theorem recorded_fork {s : Table σ} (tree : s.Tree) (h : s.Recorded) (p : Pid) (P : Process σ)
    (c child : σ) (present : s.proc p = some P) :
    ((s.set p (P.forked c)).spawn (P.forks :: p) (.born child)).Recorded := by
  have fresh := tree.fresh p P present
  constructor
  · have first := h.first
    rw [Table.forks, Table.proc_spawn, Table.proc_set_ne _ _ _ _ (by simp)]
    by_cases e : [] = p
    · subst e
      simp
    · simpa [Table.proc_set_ne _ _ _ _ e, Table.forks] using first
  · intro q member
    rw [Table.created_spawn, Table.created_set, List.mem_append, List.mem_singleton] at member
    rcases member with old | rfl
    · refine ⟨(h.present q old).1, ?_⟩
      have there := (h.present q old).2
      have other : q ≠ P.forks :: p := by
        rintro rfl
        simp [Table.forks, fresh] at there
      by_cases e : q = p
      · subst e
        simp [Table.forks, Table.proc_set_ne _ _ _ _ other]
      · simpa [Table.forks, Table.proc_set_ne _ _ _ _ other, Table.proc_set_ne _ _ _ _ e]
          using there
    · simp [Table.forks]
  · intro q n count
    rw [Table.madeBy, Table.created_spawn, Table.created_set, List.filter_append, ← Table.madeBy]
    by_cases e : q = p
    · subst e
      have more : P.forks + 1 = n := by
        simpa [Table.forks, Table.proc_set_ne _ _ _ _ (List.cons_ne_self P.forks q).symm,
          Process.forked] using count
      rw [h.children q P.forks (s.forks_eq q P present), ← more, List.range_succ]
      simp
    · have skipped : List.filter (fun r => decide (r.tail = q)) [P.forks :: p] = [] := by
        simpa using fun same : p = q => e same.symm
      rw [skipped, List.append_nil]
      by_cases new : q = P.forks :: p
      · -- no child of a process that was not there yet has been recorded
        subst new
        have zero : 0 = n := by simpa [Table.forks, Process.born] using count
        subst zero
        apply List.filter_eq_nil_iff.mpr
        intro r member parent
        obtain ⟨filled, there⟩ := h.present r member
        obtain ⟨k, rfl⟩ : ∃ k, r = k :: P.forks :: p :=
          ⟨r.head filled, by
            rw [← of_decide_eq_true parent]
            exact (List.cons_head_tail filled).symm⟩
        obtain ⟨m, had, -⟩ := (tree _ k).mp there
        simp [Table.forks, fresh] at had
      · apply h.children
        simpa [Table.forks, Table.proc_set_ne _ _ _ _ new, Table.proc_set_ne _ _ _ _ e] using count

theorem recorded_step {s t : Table σ} (tree : s.Tree) (h : s.Recorded)
    (e : Effect next exec s t) : t.Recorded := by
  -- apart from a fork, no step changes the counts or the list
  have keep : t.forks = s.forks → t.created = s.created → t.Recorded := by
    intro forks created
    constructor
    · rw [forks]
      exact h.first
    · rw [created, forks]
      exact h.present
    · intro p n count
      rw [Table.madeBy, created]
      exact h.children p n (forks ▸ count)
  cases e with
  | own p P P' present moves => exact keep (s.forks_set p P P' present moves.forks) rfl
  | fork p P c child parent present here does => exact recorded_fork tree h p P _ child present
  | report p k P K c failed target reported status present here does kid pending covered =>
    exact keep (s.forks_report p k P K (reported status) present kid) rfl

theorem recorded (start : σ) (s : Table σ) (h : (family next exec start).Reachable s) :
    s.Tree ∧ s.Recorded := by
  apply (family next exec start).reachable_invariant (fun s => s.Tree ∧ s.Recorded) ?_ ?_ s h
  · rintro s₀ rfl
    refine ⟨tree_initial start, by simp [initial, Table.forks], nofun, ?_⟩
    intro p n count
    by_cases e : p = []
    · subst e
      have zero : 0 = n := by simpa [initial, Table.forks, Process.born] using count
      rw [← zero]
      rfl
    · simp [initial, Table.forks, e] at count
  · rintro s a t ⟨tree, records⟩ hs
    exact ⟨tree_step tree (step_cases hs), recorded_step tree records (step_cases hs)⟩

theorem first_present (start : σ) (s : Table σ) (h : (family next exec start).Reachable s) :
    ∃ P, s.proc [] = some P := by
  simpa [Table.forks, Option.isSome_iff_exists] using (recorded start s h).2.first

/-- If no other process ever forks, all processes are children of the first one. -/
theorem created_eq (start : σ) (s : Table σ) (h : (family next exec start).Reachable s)
    (n : Nat) (count : s.forks [] = some n)
    (childless : ∀ p, p ≠ [] → ∀ m, s.forks p = some m → m = 0) :
    s.created = (List.range n).map (· :: []) := by
  obtain ⟨tree, records⟩ := recorded start s h
  rw [← records.children [] n count, Table.madeBy, eq_comm, List.filter_eq_self]
  intro q member
  obtain ⟨filled, there⟩ := records.present q member
  cases q with
  | nil => exact absurd rfl filled
  | cons k p =>
    obtain ⟨m, forks, less⟩ := (tree p k).mp there
    have top : p = [] := by
      by_contra inner
      have none_made := childless p inner m forks
      omega
    simp [top]

end GenericTests.Processes
