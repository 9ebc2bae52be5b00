import GenericTests.Forks.Forktree
import GenericTests.Lib.FullTree
import GenericTests.Lib.ProcessRuns

/-!
# forktree_and_pthread.c: the shape of the tree

Every child leaves the loop it was forked in with `exit`, so a process at depth `d` runs the
loop of its own call of spawnforks, with `numlevels - d` levels left, and no other.
-/
namespace GenericTests.Forks.Forktree

open GenericTests.Processes GenericTests.Transition

/-- Where a process at `p` stands and what it has done there, in a tree of `n` children and
`L` levels. -/
def Place (n L : Nat) (p : Pid) (forks : Nat) (c : Local) : Prop :=
  match c.pc with
  | .start | .levelTest =>
    c.numlevels = L - p.length ∧ forks = 0 ∧ c.forkno = 0 ∧ c.threads = 0
  | .createThread => p.length = L ∧ forks = 0 ∧ c.threads ≤ min n maxThreads
  | .joinThread _ => p.length = L ∧ forks = 0 ∧ c.threads = min n maxThreads
  | .forkTest =>
    c.numlevels = L - p.length ∧ p.length < L ∧ c.forkno = forks ∧ forks ≤ n ∧ c.threads = 0
  | .fork =>
    c.numlevels = L - p.length ∧ p.length < L ∧ c.forkno = forks ∧ forks < n ∧ c.threads = 0
  -- still in the parent's loop, and about to leave it
  | .childAnnounce | .childSleep =>
    c.numlevels = L - p.length + 1 ∧ p.head? = some c.forkno ∧ forks = 0 ∧ c.threads = 0
  | .wait | .status _ | .afterAll => p.length < L ∧ forks = n ∧ c.threads = 0
  | .returned | .mainEnd =>
    p.length = L ∧ forks = 0 ∧ c.threads = min n maxThreads ∨
      p.length < L ∧ forks = n ∧ c.threads = 0

def Local.announced (c : Local) : Bool :=
  match c.pc with
  | .childAnnounce => false
  | _ => true

/-- The lines of a process name its own place and no other. -/
def NamesItself (L : Nat) (p : Pid) (announced : Bool) (out : List Line) : Prop :=
  ∀ (level : Int) (k : Nat), .level level k ∈ out ↔
    announced = true ∧ p.head? = some k ∧ level = L - p.length + 1

structure Shape (n L : Nat) (p : Pid) (forks : Nat) (c : Local) : Prop where
  depth : p.length ≤ L
  entries : ∀ k ∈ p, k < n
  place : Place n L p forks c
  lines : NamesItself L p c.announced c.out

theorem numThreads_natCast (n : Nat) : numThreads n = (min n maxThreads : Nat) := by
  rw [numThreads]
  split <;> omega

theorem NamesItself.append {L : Nat} {p : Pid} {out : List Line} {line : Line}
    (h : NamesItself L p true out) (other : ∀ level k, line ≠ .level level k) :
    NamesItself L p true (out ++ [line]) := by
  intro level k
  rw [List.mem_append, List.mem_singleton, h level k]
  exact or_iff_left fun same => other level k same.symm

theorem NamesItself.announce {L : Nat} {p : Pid} {out : List Line} {level : Int} {k : Nat}
    (h : NamesItself L p false out) (own : level = L - p.length + 1) (number : p.head? = some k) :
    NamesItself L p true (out ++ [.level level k]) := by
  intro level' k'
  have nothing : .level level' k' ∉ out := fun member => by cases ((h level' k').mp member).1
  rw [List.mem_append, List.mem_singleton, or_iff_right nothing, number, own]
  constructor
  · intro same
    cases same
    exact ⟨rfl, rfl, rfl⟩
  · rintro ⟨-, number', rfl⟩
    cases number'
    rfl

theorem statusLine_ne_level (status : Status) (level : Int) (k : Nat) :
    statusLine status ≠ .level level k := by
  intro same
  cases status <;> cases same

section Shape

variable {n L : Nat} {p : Pid} {forks : Nat}

theorem shape_goto {c c' : Local} (h : Shape n L p forks c) (does : next n L c = .goto c') :
    Shape n L p forks c' := by
  have depth := h.depth
  have place := h.place
  have lines := h.lines
  obtain ⟨pc, level, forkno, caller, threads, out⟩ := c
  cases pc with
  | start =>
    cases does
    exact ⟨depth, h.entries, place, lines.append nofun⟩
  | levelTest =>
    obtain ⟨own, none_yet, first, no_threads⟩ := place
    simp only at own first no_threads
    cases does
    by_cases deepest : level = 0
    · simp only [deepest, if_true]
      exact ⟨depth, h.entries, ⟨by omega, none_yet, by simp only; omega⟩, lines⟩
    · simp only [deepest, if_false]
      exact ⟨depth, h.entries, ⟨own, by omega, by simp only; omega, by omega, no_threads⟩, lines⟩
  | createThread =>
    obtain ⟨bottom, none_yet, count⟩ := place
    simp only at count
    cases does
    rw [numThreads_natCast]
    split
    next more =>
      exact ⟨depth, h.entries, ⟨bottom, none_yet, by simp only at more ⊢; omega⟩, lines⟩
    next enough =>
      exact ⟨depth, h.entries, ⟨bottom, none_yet, by simp only at enough ⊢; omega⟩, lines⟩
  | joinThread i =>
    cases does
    split
    · exact ⟨depth, h.entries, place, lines.append nofun⟩
    · exact ⟨depth, h.entries, .inl place, lines⟩
  | forkTest =>
    obtain ⟨own, inner, count, bound, no_threads⟩ := place
    simp only at count
    cases does
    by_cases more : (forkno : Int) < n
    · simp only [more, if_true]
      exact ⟨depth, h.entries, ⟨own, inner, count, by omega, no_threads⟩, lines⟩
    · simp only [more, if_false]
      exact ⟨depth, h.entries, ⟨inner, by omega, no_threads⟩, lines⟩
  | childAnnounce =>
    cases does
    exact ⟨depth, h.entries, place, lines.announce place.1 place.2.1⟩
  | childSleep =>
    -- the call that it makes now is its own: one level less, no forks yet
    obtain ⟨own, number, none_yet, no_threads⟩ := place
    simp only at own
    cases does
    exact ⟨depth, h.entries, ⟨by simp only; omega, none_yet, rfl, no_threads⟩, lines⟩
  | status status =>
    cases does
    have more : NamesItself L p true (out ++ [statusLine status]) :=
      lines.append (statusLine_ne_level status)
    cases final : status.final with
    | true => exact ⟨depth, h.entries, place, more⟩
    | false => exact ⟨depth, h.entries, place, more⟩
  | afterAll =>
    cases does
    exact ⟨depth, h.entries, .inr place, lines.append nofun⟩
  | returned =>
    cases caller with
    | some forkno => cases does
    | none =>
      cases does
      exact ⟨depth, h.entries, place, lines.append nofun⟩
  | fork | wait | mainEnd => cases does

theorem shape_invariant (n L : Nat) : LocalInvariant (next n L) (.start L) (Shape n L) := by
  constructor
  · exact ⟨Nat.zero_le _, nofun, ⟨by simp [Local.start], rfl, rfl, rfl⟩, fun level k => by simp [Local.start]⟩
  · exact fun p forks c c' h does => shape_goto h does
  · intro p forks c child parent h does
    obtain ⟨pc, rfl, rfl⟩ := next_fork does
    have place := h.place
    rw [Place, pc] at place
    obtain ⟨own, inner, count, bound, no_threads⟩ := place
    have lines := h.lines
    rw [Local.announced, pc] at lines
    constructor
    · refine ⟨inner, List.forall_mem_cons.mpr ⟨bound, h.entries⟩, ⟨?_, ?_, rfl, no_threads⟩, ?_⟩
      · rw [List.length_cons]
        simp only
        omega
      · exact congrArg some count.symm
      · exact fun level k => by simp [Local.announced]
    · exact ⟨h.depth, h.entries, ⟨own, inner, congrArg (· + 1) count, bound, no_threads⟩, lines⟩
  · exact fun p forks c failed h does => absurd does next_ne_execve
  · intro p forks c target reported failed h does
    obtain ⟨pc, -, rfl, rfl⟩ := next_waitpid does
    have place := h.place
    rw [Place, pc] at place
    have lines := h.lines
    rw [Local.announced, pc] at lines
    exact ⟨fun status => ⟨h.depth, h.entries, place, lines⟩, h.depth, h.entries, place, lines⟩

end Shape

/-! ### The steps that are left -/

/-- More than the steps a process still takes; what its children do is not in it. -/
def rank (n : Nat) (c : Local) : Nat :=
  match c.pc with
  | .mainEnd => 3
  | .returned => 4
  | .afterAll => 5
  | .status status => if status.final then 6 else 8
  | .wait => 7
  | .fork => 7 + 2 * (n - c.forkno)
  | .forkTest => 8 + 2 * (n - c.forkno)
  | .joinThread i => 5 + (min n maxThreads - i)
  | .createThread => 6 + min n maxThreads + (min n maxThreads - c.threads)
  | .levelTest => 9 + 2 * n + 2 * min n maxThreads
  | .start | .childSleep => 10 + 2 * n + 2 * min n maxThreads
  | .childAnnounce => 11 + 2 * n + 2 * min n maxThreads

/-- A report that is not delivered is worth two steps, as it may send the parent around its
wait loop; a process that is not there yet is worth more than its first rank. -/
def weight (n : Nat) : Option (Process Local) → Nat
  | none => 12 + 2 * n + 2 * min n maxThreads
  | some P =>
    (if P.report.isSome then 2 else 0) +
      match P.life, P.prog with
      | .running, some c => rank n c
      | _, _ => 0

theorem weight_at {n : Nat} {P : Process Local} {c : Local} (here : P.At c) :
    weight n (some P) = (if P.report.isSome then 2 else 0) + rank n c := by
  rw [weight, here.1, here.2]

theorem weight_goto {n : Nat} {P : Process Local} (running : P.life = .running) (c : Local) :
    weight n (some (P.goto c)) = (if P.report.isSome then 2 else 0) + rank n c :=
  weight_at (P := P.goto c) ⟨running, rfl⟩

theorem rank_goto {n L : Nat} {c c' : Local} (does : next n L c = .goto c') : rank n c' < rank n c := by
  obtain ⟨pc, level, forkno, caller, threads, out⟩ := c
  cases pc with
  | start | childAnnounce | childSleep | afterAll =>
    cases does
    simp only [rank, Local.print]
    omega
  | levelTest =>
    cases does
    by_cases deepest : level = 0
    · simp only [deepest, if_true, rank]
      omega
    · simp only [deepest, if_false, rank]
      omega
  | createThread =>
    cases does
    rw [numThreads_natCast]
    split
    next more =>
      simp only [rank] at more ⊢
      omega
    next enough =>
      simp only [rank]
      omega
  | joinThread i =>
    cases does
    rw [numThreads_natCast]
    split
    next more =>
      simp only [rank, Local.print]
      omega
    next =>
      simp only [rank]
      omega
  | forkTest =>
    cases does
    by_cases more : (forkno : Int) < n
    · simp only [more, if_true, rank]
      omega
    · simp only [more, if_false, rank]
      omega
  | status status =>
    cases does
    cases final : status.final with
    | true => simp [rank, Local.print, final]
    | false => simp [rank, Local.print, final]
  | returned =>
    cases caller with
    | some forkno => cases does
    | none =>
      cases does
      simp [rank, Local.print]
  | fork | wait | mainEnd => cases does

theorem next_exit {n L : Int} {c : Local} {code : Int} (does : next n L c = .exit code) :
    c.pc = .returned ∨ c.pc = .mainEnd := by
  obtain ⟨pc, level, forkno, caller, threads, out⟩ := c
  cases pc with
  | returned => exact .inl rfl
  | mainEnd => exact .inr rfl
  | start | levelTest | createThread | joinThread _ | forkTest | fork | childAnnounce | childSleep
  | wait | status _ | afterAll => cases does

theorem weight_own {n L : Nat} {s : Table Local} {p : Pid} {P P' : Process Local}
    (moves : Own (next n L) (fun _ => false) p (s.kids p) P P') (running : P.life = .running)
    (prog : P.prog.isSome = true)
    (calm : P'.life = .running ∨ ∃ status, P'.life = .ended (.exited status)) :
    weight n (some P') < weight n (some P) := by
  cases moves with
  | goto c c' here does =>
    rw [weight_at here, weight_goto here.1]
    exact Nat.add_lt_add_left (rank_goto does) _
  | execve c failed here does ok => cases ok
  | execFailed c failed here does fails => exact absurd does next_ne_execve
  | exit c code here does =>
    rw [weight_at here]
    have last : 3 ≤ rank n c := by
      rcases next_exit does with pc | pc
      · simp [rank, pc]
      · simp [rank, pc]
    simp only [weight, Process.end, Option.isSome_some, if_true]
    omega
  | noChild c failed target reported here does exhausted =>
    obtain ⟨pc, -, -, rfl⟩ := next_waitpid does
    have less : rank n { c with pc := .afterAll } < rank n c := by simp [rank, pc]
    rw [weight_at here, weight_goto here.1]
    exact Nat.add_lt_add_left less _
  -- signals are left out of the runs in question
  | stop signal _ =>
    rcases calm with runs | ⟨status, exited⟩
    · cases runs
    · cases exited
  | cont stopped =>
    rw [running] at stopped
    cases stopped
  | kill signal alive =>
    rcases calm with runs | ⟨status, exited⟩
    · cases runs
    · cases exited
  | finish code _ other =>
    rw [other] at prog
    cases prog

/-- A fork costs the parent a round of its loop, and the child is there from then on. -/
theorem weight_fork {n : Nat} {P : Process Local} {c : Local} (here : P.At c) (pc : c.pc = .fork)
    (more : c.forkno < n) :
    weight n (some (P.forked { c with pc := .forkTest, forkno := c.forkno + 1 })) +
        weight n (some (.born { c with pc := .childAnnounce, out := [] })) <
      weight n (some P) + weight n none := by
  have parent : weight n (some (P.forked { c with pc := .forkTest, forkno := c.forkno + 1 })) =
      (if P.report.isSome then 2 else 0) + (8 + 2 * (n - (c.forkno + 1))) :=
    weight_at (P := P.forked _) ⟨here.1, rfl⟩
  have child : weight n (some (.born { c with pc := .childAnnounce, out := [] })) =
      11 + 2 * n + 2 * min n maxThreads := Nat.zero_add _
  have before : rank n c = 7 + 2 * (n - c.forkno) := by simp only [rank, pc]
  rw [parent, child, weight_at here, before, weight]
  omega

theorem weight_report {n : Nat} {P K : Process Local} {c : Local} {status status' : Status}
    (here : P.At c) (pc : c.pc = .wait) (pending : K.report = some status') :
    weight n (some (P.goto { c with pc := .status status })) + weight n (some K.reap) <
      weight n (some P) + weight n (some K) := by
  have delivered : weight n (some K) = weight n (some K.reap) + 2 := by
    simp [weight, pending, Process.reap, Nat.add_comm]
  have around : rank n { c with pc := .status status } ≤ rank n c + 1 := by
    simp only [rank, pc]
    split <;> omega
  rw [weight_goto here.1, weight_at here, delivered]
  omega

section Runs

variable {n L : Nat} {s t : Table Local}

theorem shape_of (h : (forktree n L).Reachable s) (p : Pid) (P : Process Local)
    (present : s.proc p = some P) : ∃ c, P.prog = some c ∧ Shape n L p P.forks c := by
  obtain ⟨c, prog⟩ := Option.isSome_iff_exists.mp (prog_isSome _ s h p P present)
  exact ⟨c, prog, (shape_invariant n L).reachable s h p P c present prog⟩

theorem mem_fullTree_of (h : (forktree n L).Reachable s) (p : Pid) (P : Process Local)
    (present : s.proc p = some P) : p ∈ fullTree n L := by
  obtain ⟨c, -, shape⟩ := shape_of h p P present
  exact (mem_fullTree n L p).mpr ⟨shape.depth, shape.entries⟩

/-- Every step that is no signal lowers the sum of the weights. -/
theorem potential_lowers (h : (forktree n L).Reachable s) (calm : s.Calm) {a : Act}
    (quiet : a.quiet = true) (moved : (forktree n L).step s a = some t) :
    potential (weight n) (fullTree n L) t < potential (weight n) (fullTree n L) s := by
  have after := calm_step calm quiet moved
  have once := nodup_fullTree n L
  cases step_cases moved with
  | own p P P' present moves =>
    have running : P.life = .running := by
      rcases calm p P present with running | ⟨status, exited⟩
      · exact running
      · have alive := moves.alive
        simp [Process.terminated, exited] at alive
    apply potential_set_lt _ _ _ _ _ once (mem_fullTree_of h p P present)
    rw [present]
    exact weight_own moves running (prog_isSome _ s h p P present)
      (after p P' (Table.proc_set_self _ _ _))
  | fork p P c child parent present here does =>
    obtain ⟨c', prog, shape⟩ := shape_of h p P present
    cases Option.some.inj (prog.symm.trans here.2)
    obtain ⟨pc, rfl, rfl⟩ := next_fork does
    have place := shape.place
    rw [Place, pc] at place
    obtain ⟨-, inner, count, bound, -⟩ := place
    -- the new process is paid for by the weight of its empty place
    have child : P.forks :: p ∈ fullTree n L :=
      (mem_fullTree n L _).mpr ⟨inner, List.forall_mem_cons.mpr ⟨bound, shape.entries⟩⟩
    apply potential_set_set_lt _ _ _ _ _ _ _ once (mem_fullTree_of h p P present) child
      (List.cons_ne_self _ _)
    rw [present, (recorded _ s h).1.fresh p P present]
    exact weight_fork here pc (by omega)
  | report p k P K c failed target reported status present here does kid pending covered =>
    obtain ⟨pc, -, rfl, -⟩ := next_waitpid does
    apply potential_set_set_lt _ _ _ _ _ _ _ once (mem_fullTree_of h p P present)
      (mem_fullTree_of h _ K kid) (List.cons_ne_self _ _)
    rw [present, kid]
    exact weight_report here pc pending

/-! ### When all processes have exited -/

/-- Every process has called `exit`. -/
def Finished (s : Table Local) : Prop :=
  ∀ p P, s.proc p = some P → ∃ status, P.life = .ended (.exited status)

def localOf (s : Table Local) (p : Pid) : Option Local := (s.proc p).bind Process.prog

/-- The threads a process has created. -/
def threadsOf (s : Table Local) (p : Pid) : Nat := ((localOf s p).map Local.threads).getD 0

/-- The process has printed `Level level, Child k`. -/
def printsLevel (s : Table Local) (level : Int) (k : Nat) (p : Pid) : Bool :=
  (localOf s p).any fun c => decide (.level level k ∈ c.out)

theorem finished_at (h : (forktree n L).Reachable s) (finished : Finished s) (p : Pid)
    (P : Process Local) (present : s.proc p = some P) :
    ∃ c, localOf s p = some c ∧ Shape n L p P.forks c ∧ (c.pc = .returned ∨ c.pc = .mainEnd) := by
  obtain ⟨c, prog, shape⟩ := shape_of h p P present
  obtain ⟨status, exited⟩ := finished p P present
  refine ⟨c, by rw [localOf, present, Option.bind_some, prog], shape, ?_⟩
  rcases exited_at_exit _ s h p P present status exited with other | ⟨c', code, same, does⟩
  · rw [prog] at other
    cases other
  · cases Option.some.inj (prog.symm.trans same)
    exact next_exit does

/-- What a process has done when it exits. -/
theorem finished_place (h : (forktree n L).Reachable s) (finished : Finished s) (p : Pid)
    (P : Process Local) (present : s.proc p = some P) :
    p.length = L ∧ P.forks = 0 ∧ threadsOf s p = min n maxThreads ∨
      p.length < L ∧ P.forks = n ∧ threadsOf s p = 0 := by
  obtain ⟨c, here, shape, pc⟩ := finished_at h finished p P present
  have place := shape.place
  rw [threadsOf, here]
  rw [Place] at place
  rcases pc with pc | pc
  · rw [pc] at place
    exact place
  · rw [pc] at place
    exact place

theorem finished_lines (h : (forktree n L).Reachable s) (finished : Finished s) (p : Pid)
    (P : Process Local) (present : s.proc p = some P) (level : Int) (k : Nat) :
    printsLevel s level k p = true ↔ p.head? = some k ∧ level = L - p.length + 1 := by
  obtain ⟨c, here, shape, pc⟩ := finished_at h finished p P present
  have announced : c.announced = true := by
    rcases pc with pc | pc
    · rw [Local.announced, pc]
    · rw [Local.announced, pc]
  have lines := shape.lines level k
  rw [announced] at lines
  rw [printsLevel, here, Option.any_some, decide_eq_true_iff, lines]
  exact and_iff_right rfl

/-- By induction on the depth: the whole tree is there. -/
theorem finished_full (h : (forktree n L).Reachable s) (finished : Finished s) (q : Pid) :
    (s.proc q).isSome = true ↔ q.length ≤ L ∧ ∀ k ∈ q, k < n := by
  constructor
  · intro there
    obtain ⟨Q, present⟩ := Option.isSome_iff_exists.mp there
    obtain ⟨c, -, shape⟩ := shape_of h q Q present
    exact ⟨shape.depth, shape.entries⟩
  · rintro ⟨depth, entries⟩
    induction q with
    | nil =>
      obtain ⟨P, present⟩ := first_present _ s h
      rw [present]
      rfl
    | cons k p ih =>
      rw [List.length_cons] at depth
      obtain ⟨bound, rest⟩ := List.forall_mem_cons.mp entries
      obtain ⟨P, present⟩ := Option.isSome_iff_exists.mp (ih (by omega) rest)
      have forks : P.forks = n := by
        rcases finished_place h finished p P present with ⟨bottom, -⟩ | ⟨-, all, -⟩
        · omega
        · exact all
      exact ((recorded _ s h).1.kids p P present k).mpr (by omega)

theorem finished_count (h : (forktree n L).Reachable s) (finished : Finished s) :
    s.created.length = ∑ j ∈ Finset.Icc 1 L, n ^ j := by
  have names := (pids_perm h n L (finished_full h finished)).length_eq
  rw [length_fullTree, Table.pids, List.length_cons] at names
  omega

theorem finished_threads (h : (forktree n L).Reachable s) (finished : Finished s) :
    (s.pids.map (threadsOf s)).sum = n ^ L * min n maxThreads := by
  have names := pids_perm h n L (finished_full h finished)
  have there : ∀ p ∈ fullTree n L, ∃ P, s.proc p = some P := fun p member =>
    Option.isSome_iff_exists.mp ((finished_full h finished p).mpr ((mem_fullTree n L p).mp member))
  rw [(names.map (threadsOf s)).sum_eq]
  apply sum_fullTree
  · intro p member bottom
    obtain ⟨P, present⟩ := there p member
    rcases finished_place h finished p P present with ⟨-, -, all⟩ | ⟨inner, -⟩
    · exact all
    · omega
  · intro p member inner
    obtain ⟨P, present⟩ := there p member
    rcases finished_place h finished p P present with ⟨bottom, -⟩ | ⟨-, -, none⟩
    · omega
    · exact none

theorem finished_printed (h : (forktree n L).Reachable s) (finished : Finished s) (j k : Nat)
    (first : 1 ≤ j) (last : j ≤ L) (bound : k < n) :
    (s.pids.filter (printsLevel s j k)).length = n ^ (L - j) := by
  -- the processes that print the line are the children number k of one generation
  have names : (s.pids.filter (printsLevel s j k)).Perm ((generation n (L - j)).map (k :: ·)) := by
    have once : ((generation n (L - j)).map (k :: ·)).Nodup :=
      (nodup_generation n (L - j)).map fun p q same => (List.cons.inj same).2
    rw [List.perm_ext_iff_of_nodup ((pids_nodup h).filter _) once]
    intro p
    rw [List.mem_filter, mem_pids_iff h, finished_full h finished, List.mem_map]
    constructor
    · rintro ⟨place, prints⟩
      obtain ⟨P, present⟩ := Option.isSome_iff_exists.mp ((finished_full h finished p).mpr place)
      obtain ⟨head, level⟩ := (finished_lines h finished p P present j k).mp prints
      cases p with
      | nil => cases head
      | cons k' q =>
        cases head
        rw [List.length_cons] at level
        have entries := (List.forall_mem_cons.mp place.2).2
        exact ⟨q, (mem_generation n (L - j) q).mpr ⟨by omega, entries⟩, rfl⟩
    · rintro ⟨q, member, rfl⟩
      obtain ⟨length, entries⟩ := (mem_generation n (L - j) q).mp member
      have place : (k :: q).length ≤ L ∧ ∀ i ∈ k :: q, i < n :=
        ⟨by rw [List.length_cons]; omega, List.forall_mem_cons.mpr ⟨bound, entries⟩⟩
      obtain ⟨P, present⟩ := Option.isSome_iff_exists.mp ((finished_full h finished _).mpr place)
      refine ⟨place, (finished_lines h finished _ P present j k).mpr ⟨rfl, ?_⟩⟩
      rw [List.length_cons]
      omega
  rw [names.length_eq, List.length_map, length_generation]

end Runs

/-- **Shape of the tree**: once all processes have exited, there were `n + n² + ... + n^L` forks
and `n^L * min n 20` threads, and each child line was printed by `n^(L-j)` processes; a process
in the fork loop is in that of its own level. Without signals every run ends, and only with all
processes exited. -/
theorem tree_shape (n L : Nat) :
    (∀ s, (forktree n L).Reachable s → Finished s →
      s.created.length = ∑ j ∈ Finset.Icc 1 L, n ^ j ∧
      (s.pids.map (threadsOf s)).sum = n ^ L * min n maxThreads ∧
      ∀ j k : Nat, 1 ≤ j → j ≤ L → k < n →
        (s.pids.filter (printsLevel s j k)).length = n ^ (L - j)) ∧
    (∀ s p P c, (forktree n L).Reachable s → s.proc p = some P → P.prog = some c →
      c.pc = .forkTest ∨ c.pc = .fork → c.numlevels = L - p.length ∧ c.forkno = P.forks) ∧
    ∃ bound, ∀ s as, (forktree n L).run (initial (.start L)) as = some s →
      (∀ a ∈ as, a.quiet = true) → as.length ≤ bound ∧
        (Finished s ∨ ∃ a t, a.quiet = true ∧ (forktree n L).step s a = some t) := by
  refine ⟨fun s h finished => ⟨finished_count h finished, finished_threads h finished,
    finished_printed h finished⟩, fun s p P c h present prog loop => ?_,
    potential (weight n) (fullTree n L) (initial (.start L)), fun s as ran quiet => ?_⟩
  · have place := ((shape_invariant n L).reachable s h p P c present prog).place
    rw [Place] at place
    rcases loop with pc | pc
    · rw [pc] at place
      exact ⟨place.1, place.2.2.1⟩
    · rw [pc] at place
      exact ⟨place.1, place.2.2.1⟩
  · -- the sum of the weights at the start bounds the run, and a state at rest is finished
    have start : (forktree n L).Reachable (initial (.start L)) ∧ (initial (Local.start L)).Calm :=
      ⟨System.reachable_init _ _ rfl, calm_initial _⟩
    obtain ⟨⟨h, calm⟩, bound⟩ := (forktree n L).length_le_of_lowers
      (fun s => (forktree n L).Reachable s ∧ s.Calm) Act.quiet (potential (weight n) (fullTree n L))
      (fun s a t known kind moved => ⟨⟨known.1.step moved, calm_step known.2 kind moved⟩,
        potential_lowers known.1 known.2 kind moved⟩) _ s as start quiet ran
    have depth : ∀ p P, s.proc p = some P → p.length ≤ L := fun p P present =>
      ((mem_fullTree n L p).mp (mem_fullTree_of h p P present)).1
    exact ⟨by omega, exited_or_moves calm (prog_isSome _ s h) depth⟩

/-- One child on one level, which creates one thread. -/
theorem tree_shape_single :
    ∃ s, (forktree (1 : Nat) (1 : Nat)).Reachable s ∧ Finished s ∧ s.created.length = 1 ∧
      (s.pids.map (threadsOf s)).sum = 1 ∧ (s.pids.filter (printsLevel s 1 0)).length = 1 := by
  obtain ⟨s, ran, pids, first, child⟩ : ∃ s, (forktree (1 : Nat) (1 : Nat)).run (initial (.start 1))
      (List.replicate 5 (Act.run []) ++ List.replicate 8 (Act.run [0]) ++ [Act.report [] 0] ++
        List.replicate 4 (Act.run [])) = some s ∧ s.pids = [[], [0]] ∧
      (s.proc []).map Process.life = some (.ended (.exited 0)) ∧
      (s.proc [0]).map Process.life = some (.ended (.exited 0)) := ⟨_, rfl, rfl, rfl, rfl⟩
  have reached : (forktree (1 : Nat) (1 : Nat)).Reachable s := ⟨_, _, rfl, ran⟩
  have finished : Finished s := by
    intro p P present
    have member := (mem_pids_iff reached p).mpr (by rw [present]; rfl)
    rw [pids, List.mem_pair] at member
    rcases member with rfl | rfl
    · rw [present] at first
      exact ⟨0, Option.some.inj first⟩
    · rw [present] at child
      exact ⟨0, Option.some.inj child⟩
  obtain ⟨created, threads, lines⟩ := (tree_shape 1 1).1 s reached finished
  exact ⟨s, reached, finished, created, threads, lines 1 0 (by decide) (by decide) (by decide)⟩

end GenericTests.Forks.Forktree
