import GenericTests.Controlthreads.Processes

/-!
# The FIFO outlives its users, unless the child removes it

A process removes the FIFO after joining all its threads, and the first process makes
its threads only when the child is gone. So the only `unlink` that can come before an
open call is the child's, and it comes before the first process's open calls.
-/
namespace GenericTests.Controlthreads

open GenericTests.Transition

/-- Between makethreads and the end of `main`. -/
def Pc.threaded : Pc → Bool
  | .create _ | .join _ | .waitDemon | .unlink | .ret => true
  | _ => false

/-- `main` before it has forked the child. -/
def Pc.early : Pc → Bool
  | .access | .mkfifo | .forkDemon | .forkWait => true
  | _ => false

/-- `main` has made sure that the FIFO is there. -/
def Pc.made : Pc → Bool
  | .forkDemon | .forkWait | .waitChild => true
  | x => x.threaded

def Pc.afterUnlink : Pc → Bool
  | .ret => true
  | x => x.terminated

/-- How many threads have been joined. -/
def Pc.joined : Pc → Nat
  | .join i => i
  | .waitDemon | .unlink | .ret => defs.length
  | _ => 0

theorem Pc.of_terminated {x : Pc} (h : x.terminated = true) :
    x.early = false ∧ x.threaded = false ∧ x.made = false ∧ x.afterUnlink = true ∧ x.joined = 0 ∧
      x ≠ .absent := by
  cases x with
  | exited | killed => simp [early, threaded, made, afterUnlink, terminated, joined]
  | _ => cases h

theorem Pc.of_early {x : Pc} (h : x.early = true) :
    x.threaded = false ∧ x.terminated = false ∧ x.afterUnlink = false ∧ x.joined = 0 := by
  cases x with
  | access | mkfifo | forkDemon | forkWait => simp [threaded, terminated, afterUnlink, joined]
  | _ => cases h

theorem Pc.of_threaded {x : Pc} (h : x.threaded = true) :
    x.early = false ∧ x.made = true ∧ x.alive = true := by
  cases x with
  | create | join | waitDemon | unlink | ret => simp [early, made, threaded, alive]
  | _ => cases h

theorem Pc.of_alive {x : Pc} (h : x.alive = true) : x ≠ .absent ∧ x.terminated = false := by
  cases x with
  | absent | exited | killed => cases h
  | _ => simp [terminated]

theorem Pc.eq_ret {x : Pc} (alive : x.alive = true) (h : x.afterUnlink = true) : x = .ret := by
  cases x with
  | ret => rfl
  | exited | killed => cases alive
  | _ => cases h

structure Lifetime (past : List Act) (s : State) : Prop where
  -- the demon never leaves fork_demon
  demon : s.pc .demon = .absent ∨ s.pc .demon = .read ∨ (s.pc .demon).terminated = true
  demonThreads : ∀ f, s.thread .demon f = .absent
  early : (s.pc .main).early = true → s.pc .child = .absent
  -- makethreads starts in the first process after the waitpid loop
  waited : (s.pc .main).threaded = true → (s.pc .child).terminated = true
  threads : ∀ p f, s.thread p f ≠ .absent →
    (s.pc p).threaded = true ∨ (s.pc p).terminated = true
  joined : ∀ p i f, defs[i]? = some f → i < (s.pc p).joined → s.thread p f = .joined
  unlinked : ∀ q, Act.unlink q ∈ past → (s.pc q).afterUnlink = true
  unlinkedMain : Act.unlink .main ∈ past → (s.pc .child).terminated = true
  unlinkedDemon : Act.unlink .demon ∉ past
  -- from mkfifo on the FIFO disappears by unlink only
  fifo : (s.pc .main).made = true ∨ s.pc .child ≠ .absent →
    (s.fifo = true ↔ ∀ q, Act.unlink q ∉ past)
theorem lifetime_init (s : State) (h : program.init s) : Lifetime [] s := by
  obtain ⟨pc, thread⟩ := h
  have main : s.pc .main = .access := by simp [pc]
  have demon : s.pc .demon = .absent := by simp [pc]
  have child : s.pc .child = .absent := by simp [pc]
  refine ⟨.inl demon, fun f => by rw [thread], fun _ => child, ?_, ?_, ?_, ?_, ?_, ?_, ?_⟩
  · intro h
    rw [main] at h
    cases h
  · intro p f h
    rw [thread] at h
    exact absurd rfl h
  · intro p i f _ h
    cases p <;> simp [main, demon, child, Pc.joined] at h
  · intro q h
    cases h
  · intro h
    cases h
  · intro h
    cases h
  · rintro (h | h)
    · rw [main] at h
      cases h
    · exact absurd child h

/-! ### Kinds of steps -/

section Steps

variable {past : List Act} {s : State} {a : Act}

private theorem mem_concat_of_not_unlink (past : List Act) (ha : ∀ q, a ≠ .unlink q) (q : Proc) :
    Act.unlink q ∈ past ++ [a] ↔ Act.unlink q ∈ past := by
  have other : Act.unlink q ≠ a := fun h => ha q h.symm
  simp [other]

/-- A process ends, by itself or by a signal. -/
theorem Lifetime.terminate (inv : Lifetime past s) (ha : ∀ q, a ≠ .unlink q) (p : Proc) (x : Pc)
    (alive : (s.pc p).alive = true) (hx : x.terminated = true) :
    Lifetime (past ++ [a]) (s.goto p x) := by
  obtain ⟨notEarly, notThreaded, notMade, after, joined, -⟩ := Pc.of_terminated hx
  have present := (Pc.of_alive alive).1
  have mem := mem_concat_of_not_unlink past ha
  refine ⟨?_, inv.demonThreads, ?_, ?_, ?_, ?_, ?_, ?_,
    fun h => inv.unlinkedDemon ((mem .demon).mp h), ?_⟩
  · cases p with
    | demon => exact .inr (.inr (by simpa using hx))
    | main | child => simpa [State.goto, Function.update] using inv.demon
  · cases p with
    | main => simp [notEarly]
    | demon => simpa [State.goto, Function.update] using inv.early
    | child =>
      intro h
      exact absurd (inv.early (by simpa [State.goto, Function.update] using h)) present
  · cases p with
    | main => simp [notThreaded]
    | demon => simpa [State.goto, Function.update] using inv.waited
    | child => simp [hx]
  · intro q f h
    by_cases same : q = p
    · subst same
      exact .inr (by simpa using hx)
    · rw [goto_pc_other s p q x same]
      exact inv.threads q f h
  · intro q i f found h
    by_cases same : q = p
    · subst same
      rw [goto_pc_self, joined] at h
      omega
    · rw [goto_pc_other s p q x same] at h
      exact inv.joined q i f found h
  · intro q h
    by_cases same : q = p
    · subst same
      simpa using after
    · rw [goto_pc_other s p q x same]
      exact inv.unlinked q ((mem q).mp h)
  · intro h
    cases p with
    | child => simp [hx]
    | main | demon =>
      simpa [State.goto, Function.update] using inv.unlinkedMain ((mem .main).mp h)
  · -- the FIFO outlives a process that ends without its unlink
    simp only [mem]
    intro h
    apply inv.fifo
    cases p with
    | main => exact .inr (by simpa [notMade, State.goto, Function.update] using h)
    | demon => simpa [State.goto, Function.update] using h
    | child => exact .inr present

/-- A thread moves; no thread is created or joined. -/
theorem Lifetime.thread_step (inv : Lifetime past s) (ha : ∀ q, a ≠ .unlink q) (p : Proc)
    (f : ThreadFunc) (x : Thread) (there : s.thread p f ≠ .absent)
    (notJoined : s.thread p f ≠ .joined) : Lifetime (past ++ [a]) (s.setThread p f x) := by
  have mem := mem_concat_of_not_unlink past ha
  refine ⟨inv.demon, ?_, inv.early, inv.waited, ?_, ?_, ?_, ?_,
    fun h => inv.unlinkedDemon ((mem .demon).mp h), ?_⟩
  · intro g
    have other : ¬ (Proc.demon = p ∧ g = f) := by
      rintro ⟨rfl, rfl⟩
      exact there (inv.demonThreads g)
    rw [setThread_other s p .demon f g x other]
    exact inv.demonThreads g
  · intro q g h
    by_cases same : q = p ∧ g = f
    · obtain ⟨rfl, rfl⟩ := same
      exact inv.threads q g there
    · rw [setThread_other s p q f g x same] at h
      exact inv.threads q g h
  · intro q i g found h
    have before := inv.joined q i g found h
    by_cases same : q = p ∧ g = f
    · obtain ⟨rfl, rfl⟩ := same
      exact absurd before notJoined
    · rw [setThread_other s p q f g x same]
      exact before
  · exact fun q h => inv.unlinked q ((mem q).mp h)
  · exact fun h => inv.unlinkedMain ((mem .main).mp h)
  · simp only [mem]
    exact inv.fifo

/-- A process moves on inside makethreads or behind it. -/
theorem Lifetime.advance {t : State} (inv : Lifetime past s) (ha : ∀ q, a ≠ .unlink q) (p : Proc)
    (y : Pc) (notDemon : p ≠ .demon) (alive : (s.pc p).alive = true) (notRet : s.pc p ≠ .ret)
    (main : p = .main → (s.pc .main).made = true ∧ (s.pc .child).terminated = true)
    (hy : y.threaded = true) (pc : t.pc = Function.update s.pc p y) (fifo : t.fifo = s.fifo)
    (others : ∀ q f, q ≠ p → t.thread q f = s.thread q f)
    (joined : ∀ i f, defs[i]? = some f → i < y.joined → t.thread p f = .joined) :
    Lifetime (past ++ [a]) t := by
  have here : t.pc p = y := by rw [pc, Function.update_self]
  have there : ∀ q, q ≠ p → t.pc q = s.pc q := fun q h => by rw [pc, Function.update_of_ne h]
  have mem := mem_concat_of_not_unlink past ha
  have shape := Pc.of_threaded hy
  have present := Pc.of_alive alive
  -- A process that has removed the FIFO is at its return and moves no further here.
  have notUnlinked : Act.unlink p ∉ past := fun h => notRet (Pc.eq_ret alive (inv.unlinked p h))
  refine ⟨?_, fun f => (others .demon f (Ne.symm notDemon)).trans (inv.demonThreads f), ?_, ?_, ?_,
    ?_, ?_, ?_, fun h => inv.unlinkedDemon ((mem .demon).mp h), ?_⟩
  · rw [there .demon (Ne.symm notDemon)]
    exact inv.demon
  · intro h
    cases p with
    | main =>
      rw [here, shape.1] at h
      cases h
    | demon => exact absurd rfl notDemon
    | child =>
      rw [there .main (by decide)] at h
      exact absurd (inv.early h) present.1
  · intro h
    cases p with
    | main =>
      rw [there .child (by decide)]
      exact (main rfl).2
    | demon => exact absurd rfl notDemon
    | child =>
      rw [there .main (by decide)] at h
      rw [inv.waited h] at present
      cases present.2
  · intro q f h
    by_cases same : q = p
    · subst same
      exact .inl (here ▸ hy)
    · rw [there q same]
      exact inv.threads q f (others q f same ▸ h)
  · intro q i f found h
    by_cases same : q = p
    · subst same
      rw [here] at h
      exact joined i f found h
    · rw [there q same] at h
      rw [others q f same]
      exact inv.joined q i f found h
  · intro q h
    have before := (mem q).mp h
    by_cases same : q = p
    · subst same
      exact absurd before notUnlinked
    · rw [there q same]
      exact inv.unlinked q before
  · intro h
    have before := (mem .main).mp h
    have ended := inv.unlinkedMain before
    cases p with
    | main => exact absurd before notUnlinked
    | demon => exact absurd rfl notDemon
    | child =>
      rw [ended] at present
      cases present.2
  · intro _
    simp only [mem, fifo]
    apply inv.fifo
    cases p with
    | main => exact .inl (main rfl).1
    | demon => exact absurd rfl notDemon
    | child => exact .inr present.1

/-- Nothing happens to the processes. -/
private theorem Lifetime.stay (inv : Lifetime past s) (ha : ∀ q, a ≠ .unlink q) :
    Lifetime (past ++ [a]) s := by
  have mem := mem_concat_of_not_unlink past ha
  refine ⟨inv.demon, inv.demonThreads, inv.early, inv.waited, inv.threads, inv.joined,
    fun q h => inv.unlinked q ((mem q).mp h), fun h => inv.unlinkedMain ((mem .main).mp h),
    fun h => inv.unlinkedDemon ((mem .demon).mp h), ?_⟩
  simp only [mem]
  exact inv.fifo

/-- While `main` is early nothing was removed. -/
private theorem Lifetime.no_unlink (inv : Lifetime past s) (early : (s.pc .main).early = true)
    (q : Proc) : Act.unlink q ∉ past := by
  intro h
  have after := inv.unlinked q h
  cases q with
  | main =>
    rw [(Pc.of_early early).2.2.1] at after
    cases after
  | child =>
    rw [inv.early early] at after
    cases after
  | demon => exact inv.unlinkedDemon h

/-- `main` moves towards its forks; in `t` there may be a new demon or child. -/
private theorem Lifetime.fork {t : State} (inv : Lifetime past s) (ha : ∀ q, a ≠ .unlink q)
    (early : (s.pc .main).early = true)
    (main : (t.pc .main).early = true ∧ t.pc .child = .absent ∨
      t.pc .main = .waitChild ∧ t.pc .child = .read)
    (demon : t.pc .demon = s.pc .demon ∨ t.pc .demon = .read)
    (made : t.pc .main = .mkfifo ∨ t.fifo = true)
    (thread : t.thread = s.thread) : Lifetime (past ++ [a]) t := by
  have mem := mem_concat_of_not_unlink past ha
  have none := inv.no_unlink early
  have absent := inv.early early
  have mainShape : (t.pc .main).threaded = false ∧ (t.pc .main).joined = 0 := by
    rcases main with ⟨h, -⟩ | ⟨h, -⟩
    · obtain ⟨threaded, -, -, joined⟩ := Pc.of_early h
      exact ⟨threaded, joined⟩
    · simp [h, Pc.threaded, Pc.joined]
  have childShape : (t.pc .child).joined = 0 := by
    rcases main with ⟨-, h⟩ | ⟨-, h⟩ <;> simp [h, Pc.joined]
  have demonShape : t.pc .demon = .absent ∨ t.pc .demon = .read ∨
      (t.pc .demon).terminated = true := by
    rcases demon with h | h
    · rw [h]
      exact inv.demon
    · exact .inr (.inl h)
  -- No process has come to makethreads.
  have threadless : ∀ p f, t.thread p f = .absent := by
    intro p f
    rw [thread]
    by_contra there
    cases p with
    | demon => exact there (inv.demonThreads f)
    | main =>
      obtain ⟨notThreaded, notTerminated, -⟩ := Pc.of_early early
      have := inv.threads .main f there
      simp [notThreaded, notTerminated] at this
    | child =>
      have := inv.threads .child f there
      simp [absent, Pc.threaded, Pc.terminated] at this
  refine ⟨demonShape, threadless .demon, ?_, ?_, ?_, ?_, ?_, ?_,
    fun h => inv.unlinkedDemon ((mem .demon).mp h), ?_⟩
  · intro h
    rcases main with ⟨-, child⟩ | ⟨wait, -⟩
    · exact child
    · rw [wait] at h
      cases h
  · intro h
    rw [mainShape.1] at h
    cases h
  · intro p f there
    exact absurd (threadless p f) there
  · intro p i f _ h
    have zero : (t.pc p).joined = 0 := by
      cases p with
      | main => exact mainShape.2
      | child => exact childShape
      | demon =>
        rcases demonShape with h | h | h
        · simp [h, Pc.joined]
        · simp [h, Pc.joined]
        · exact (Pc.of_terminated h).2.2.2.2.1
    omega
  · intro q h
    exact absurd ((mem q).mp h) (none q)
  · intro h
    exact absurd ((mem .main).mp h) (none .main)
  · intro users
    simp only [mem]
    refine ⟨fun _ => none, fun _ => made.resolve_left ?_⟩
    intro mkfifo
    rcases main with ⟨-, child⟩ | ⟨wait, -⟩
    · rcases users with h | h
      · rw [mkfifo] at h
        cases h
      · exact h child
    · rw [mkfifo] at wait
      cases wait

private theorem Lifetime.ne_demon (inv : Lifetime past s) {p : Proc}
    (threaded : (s.pc p).threaded = true) : p ≠ .demon := by
  rintro rfl
  rcases inv.demon with h | h | h
  · rw [h] at threaded
    cases threaded
  · rw [h] at threaded
    cases threaded
  · rw [(Pc.of_terminated h).2.1] at threaded
    cases threaded

private theorem Lifetime.main_of_threaded (inv : Lifetime past s) {p : Proc}
    (threaded : (s.pc p).threaded = true) (h : p = .main) :
    (s.pc .main).made = true ∧ (s.pc .child).terminated = true := by
  subst h
  exact ⟨(Pc.of_threaded threaded).2.1, inv.waited threaded⟩

/-- A process that is in makethreads or behind it, and not yet at its return, moves on. -/
private theorem Lifetime.proceed {t : State} (inv : Lifetime past s) (ha : ∀ q, a ≠ .unlink q)
    (p : Proc) (y : Pc) (threaded : (s.pc p).threaded = true) (notRet : s.pc p ≠ .ret)
    (hy : y.threaded = true) (pc : t.pc = Function.update s.pc p y) (fifo : t.fifo = s.fifo)
    (others : ∀ q f, q ≠ p → t.thread q f = s.thread q f)
    (joined : ∀ i f, defs[i]? = some f → i < y.joined → t.thread p f = .joined) :
    Lifetime (past ++ [a]) t :=
  inv.advance ha p y (inv.ne_demon threaded) (Pc.of_threaded threaded).2.2 notRet
    (inv.main_of_threaded threaded) hy pc fifo others joined

/-- A process removes the FIFO, with all its threads joined. -/
theorem Lifetime.unlink_step (inv : Lifetime past s) (p : Proc) (pc : s.pc p = .unlink) :
    Lifetime (past ++ [.unlink p]) ({ s with fifo := false }.goto p .ret) := by
  have threaded : (s.pc p).threaded = true := by rw [pc]; rfl
  have notDemon := inv.ne_demon threaded
  have there : ∀ q, q ≠ p → ({ s with fifo := false }.goto p .ret).pc q = s.pc q :=
    fun q h => goto_pc_other _ p q .ret h
  have mem : ∀ q, Act.unlink q ∈ past ++ [.unlink p] ↔ Act.unlink q ∈ past ∨ q = p := by simp
  -- the first process comes here after the child has ended
  have childEnded : p = .main →
      (({ s with fifo := false }.goto p .ret).pc .child).terminated = true := by
    rintro rfl
    rw [there .child (by decide)]
    exact inv.waited threaded
  refine ⟨?_, inv.demonThreads, ?_, ?_, ?_, ?_, ?_, ?_, ?_, ?_⟩
  · rw [there .demon (Ne.symm notDemon)]
    exact inv.demon
  · intro h
    cases p with
    | main =>
      rw [goto_pc_self] at h
      cases h
    | demon => exact absurd rfl notDemon
    | child =>
      rw [there .main (by decide)] at h
      have absent := inv.early h
      rw [absent] at pc
      cases pc
  · intro h
    cases p with
    | main => exact childEnded rfl
    | demon => exact absurd rfl notDemon
    | child =>
      rw [there .main (by decide)] at h
      have ended := inv.waited h
      rw [pc] at ended
      cases ended
  · intro q f h
    by_cases same : q = p
    · subst same
      exact .inl (by rw [goto_pc_self]; rfl)
    · rw [there q same]
      exact inv.threads q f h
  · intro q i f found h
    by_cases same : q = p
    · subst same
      rw [goto_pc_self] at h
      exact inv.joined q i f found (by rw [pc]; exact h)
    · rw [there q same] at h
      exact inv.joined q i f found h
  · intro q h
    by_cases same : q = p
    · subst same
      rw [goto_pc_self]
      rfl
    · rw [there q same]
      exact inv.unlinked q (((mem q).mp h).resolve_right same)
  · intro h
    cases p with
    | main => exact childEnded rfl
    | demon => exact absurd rfl notDemon
    | child =>
      have ended := inv.unlinkedMain (((mem .main).mp h).resolve_right (by decide))
      rw [pc] at ended
      cases ended
  · intro h
    rcases (mem .demon).mp h with before | here
    · exact inv.unlinkedDemon before
    · exact notDemon here.symm
  · intro _
    constructor
    · intro present
      cases present
    · intro none
      exact absurd ((mem p).mpr (.inr rfl)) (none p)

end Steps

/-- makethreads: a step of its two loops. -/
private theorem lifetime_create (past : List Act) (s t : State) (p : Proc) (ok : Bool)
    (inv : Lifetime past s) (hs : step s (.create p ok) = some t) :
    Lifetime (past ++ [.create p ok]) t := by
  simp only [step] at hs
  split at hs
  next i pc =>
    have threaded : (s.pc p).threaded = true := by rw [pc]; rfl
    have notRet : s.pc p ≠ .ret := by rw [pc]; simp
    split at hs
    next f found =>
      split at hs
      next =>
        cases Option.some.inj hs
        refine inv.proceed (by simp) p (.create (i + 1)) threaded notRet rfl rfl rfl ?_ ?_
        · intro q g h
          exact setThread_other s p q f g _ fun same => h same.1
        · intro j g _ h
          cases h
      next =>
        cases Option.some.inj hs
        exact inv.terminate (by simp) p _ (Pc.of_threaded threaded).2.2 rfl
    next =>
      cases Option.some.inj hs
      refine inv.proceed (by simp) p (.join 0) threaded notRet rfl rfl rfl (fun _ _ _ => rfl) ?_
      intro j g _ h
      cases h
  next => cases hs

private theorem lifetime_join (past : List Act) (s t : State) (p : Proc)
    (inv : Lifetime past s) (hs : step s (.join p) = some t) :
    Lifetime (past ++ [.join p]) t := by
  simp only [step] at hs
  split at hs
  next i pc =>
    have threaded : (s.pc p).threaded = true := by rw [pc]; rfl
    have notRet : s.pc p ≠ .ret := by rw [pc]; simp
    have before : ∀ j g, defs[j]? = some g → j < i → s.thread p g = .joined :=
      fun j g found h => inv.joined p j g found (by rw [pc]; exact h)
    split at hs
    next f found =>
      split at hs
      next exitval ended =>
        cases Option.some.inj hs
        refine inv.proceed (by simp) p (.join (i + 1)) threaded notRet rfl rfl rfl ?_ ?_
        · intro q g h
          exact setThread_other s p q f g _ fun same => h same.1
        · intro j g found' h
          -- the thread just joined, or one before it in the table
          by_cases same : g = f
          · subst same
            exact setThread_self s p g .joined
          · have apart : ¬ (p = p ∧ g = f) := fun e => same e.2
            refine (setThread_other s p p f g .joined apart).trans (before j g found' ?_)
            have h : j < i + 1 := h
            have ne : j ≠ i := by
              rintro rfl
              exact same (Option.some.inj (found'.symm.trans found))
            omega
      next =>
        cases Option.some.inj hs
        exact inv.terminate (by simp) p _ (Pc.of_threaded threaded).2.2 rfl
      next => cases hs
    next past_end =>
      cases Option.some.inj hs
      refine inv.proceed (by simp) p .waitDemon threaded notRet rfl rfl rfl (fun _ _ _ => rfl) ?_
      intro j g found h
      have length := List.getElem?_eq_none_iff.mp past_end
      exact before j g found (by have h : j < defs.length := h; omega)
  next => cases hs

theorem lifetime_step (past : List Act) (s : State) (a : Act) (t : State) (inv : Lifetime past s)
    (hs : step s a = some t) : Lifetime (past ++ [a]) t := by
  cases a with
  | create p ok => exact lifetime_create past s t p ok inv hs
  | join p => exact lifetime_join past s t p inv hs
  | access =>
    simp only [step] at hs
    split at hs
    next pc =>
      cases Option.some.inj hs
      have early : (s.pc .main).early = true := by rw [pc]; rfl
      have absent := inv.early early
      refine inv.fork (by simp) early (.inl ⟨?_, ?_⟩) (.inl (goto_pc_other _ _ _ _ (by decide))) ?_ rfl
      · rw [goto_pc_self]
        split <;> rfl
      · rw [goto_pc_other _ _ _ _ (by decide)]
        exact absent
      · rw [goto_pc_self]
        cases h : s.fifo with
        | true => exact .inr h
        | false => exact .inl rfl
    next => cases hs
  | mkfifo ok =>
    simp only [step] at hs
    split at hs
    next pc =>
      have early : (s.pc .main).early = true := by rw [pc]; rfl
      split at hs
      next =>
        cases Option.some.inj hs
        refine inv.fork (by simp) early (.inl ⟨?_, ?_⟩) (.inl (goto_pc_other _ _ _ _ (by decide)))
          (.inr rfl) rfl
        · rw [goto_pc_self]
          rfl
        · rw [goto_pc_other _ _ _ _ (by decide)]
          exact inv.early early
      next =>
        cases Option.some.inj hs
        exact inv.terminate (by simp) .main _ (by rw [pc]; rfl) rfl
    next => cases hs
  | forkDemon =>
    simp only [step] at hs
    split at hs
    next pc =>
      cases Option.some.inj hs
      have early : (s.pc .main).early = true := by rw [pc]; rfl
      have absent := inv.early early
      -- main is past mkfifo and nobody was there to remove what it made
      have there := (inv.fifo (.inl (by rw [pc]; rfl))).mpr (inv.no_unlink early)
      refine inv.fork (by simp) early (.inl ⟨?_, ?_⟩) (.inr ?_) (.inr there) rfl
      · rw [goto_pc_self]
        rfl
      · rw [goto_pc_other _ _ _ _ (by decide), goto_pc_other _ _ _ _ (by decide)]
        exact absent
      · rw [goto_pc_other _ _ _ _ (by decide), goto_pc_self]
    next => cases hs
  | forkWait =>
    simp only [step] at hs
    split at hs
    next pc =>
      cases Option.some.inj hs
      have early : (s.pc .main).early = true := by rw [pc]; rfl
      have there := (inv.fifo (.inl (by rw [pc]; rfl))).mpr (inv.no_unlink early)
      refine inv.fork (by simp) early (.inr ⟨goto_pc_self _ _ _, ?_⟩) (.inl ?_) (.inr there) rfl
      · rw [goto_pc_other _ _ _ _ (by decide), goto_pc_self]
      · rw [goto_pc_other _ _ _ _ (by decide), goto_pc_other _ _ _ _ (by decide)]
    next => cases hs
  | demonRead bytesread inchar =>
    simp only [step] at hs
    split at hs
    next pc =>
      split at hs
      next =>
        cases Option.some.inj hs
        exact inv.terminate (by simp) .demon _ (by rw [pc]; rfl) rfl
      next => exact Option.some.inj hs ▸ inv.stay (by simp)
    next => cases hs
  | childRead bytesread =>
    simp only [step] at hs
    split at hs
    next pc =>
      split at hs
      next =>
        -- the child comes back into main and is the first to make threads
        cases Option.some.inj hs
        refine inv.advance (by simp) .child (.create 0) (by decide) (by rw [pc]; rfl)
          (by rw [pc]; simp) (fun h => by cases h) rfl rfl rfl (fun _ _ _ => rfl) ?_
        intro i f _ h
        cases h
      next => exact Option.some.inj hs ▸ inv.stay (by simp)
    next => cases hs
  | waitChild result =>
    simp only [step] at hs
    split at hs
    next pc =>
      cases result with
      | error =>
        cases Option.some.inj hs
        exact inv.terminate (by simp) .main _ (by rw [pc]; rfl) rfl
      | stoppedOrContinued => exact Option.some.inj hs ▸ inv.stay (by simp)
      | terminated =>
        dsimp only at hs
        split at hs
        next ended =>
          cases Option.some.inj hs
          refine inv.advance (by simp) .main (.create 0) (by decide) (by rw [pc]; rfl)
            (by rw [pc]; simp) (fun _ => ⟨by rw [pc]; rfl, ended⟩) rfl rfl rfl (fun _ _ _ => rfl) ?_
          intro i f _ h
          cases h
        next => cases hs
    next => cases hs
  | waitDemon p stopped =>
    simp only [step] at hs
    split at hs
    next guard =>
      cases Option.some.inj hs
      have pc := guard.1
      refine inv.proceed (by simp) p .unlink (by rw [pc]; rfl) (by rw [pc]; simp) rfl rfl rfl
        (fun _ _ _ => rfl) ?_
      intro i f found h
      exact inv.joined p i f found (by rw [pc]; exact h)
    next => cases hs
  | unlink p =>
    simp only [step] at hs
    split at hs
    next pc => exact Option.some.inj hs ▸ inv.unlink_step p pc
    next => cases hs
  | ret p =>
    simp only [step] at hs
    split at hs
    next pc => exact Option.some.inj hs ▸ inv.terminate (by simp) p _ (by rw [pc]; rfl) rfl
    next => cases hs
  | openPipe p f ok =>
    simp only [step] at hs
    split at hs
    next guard =>
      exact Option.some.inj hs ▸
        inv.thread_step (by simp) p f _ (by simp [guard.2]) (by simp [guard.2])
    next => cases hs
  | threadExit p f exitval =>
    simp only [step] at hs
    split at hs
    next guard =>
      exact Option.some.inj hs ▸
        inv.thread_step (by simp) p f _ (by simp [guard.2]) (by simp [guard.2])
    next => cases hs
  | kill p =>
    simp only [step] at hs
    split at hs
    next alive => exact Option.some.inj hs ▸ inv.terminate (by simp) p _ alive rfl
    next => cases hs

theorem lifetime_of_run (s t : State) (past : List Act) (init : program.init s)
    (ran : program.run s past = some t) : Lifetime past t :=
  program.run_history Lifetime lifetime_step s t past (lifetime_init s init) ran

/-- **FIFO lifetime**: when a pipe thread calls `open`, the FIFO is there and nobody has
removed it if and only if the child of fork_and_wait has not. -/
theorem open_finds_fifo_iff (s₀ s t : State) (past : List Act) (p : Proc) (f : ThreadFunc)
    (ok : Bool) (init : program.init s₀) (ran : program.run s₀ past = some s)
    (opens : program.step s (.openPipe p f ok) = some t) :
    (s.fifo = true ∧ ∀ q, Act.unlink q ∉ past) ↔ Act.unlink .child ∉ past := by
  have inv := lifetime_of_run s₀ s past init ran
  have guard : (s.pc p).alive = true ∧ s.thread p f = .atOpen := by
    by_contra no
    simp [program, step, no] at opens
  obtain ⟨alive, atOpen⟩ := guard
  have threaded : (s.pc p).threaded = true := by
    rcases inv.threads p f (by simp [atOpen]) with h | h
    · exact h
    · rw [(Pc.of_alive alive).2] at h
      cases h
  -- with all threads joined nobody is left to call `open`
  have notYet : Act.unlink p ∉ past := by
    intro h
    have ret := Pc.eq_ret alive (inv.unlinked p h)
    obtain ⟨i, bound, found⟩ : ∃ i, i < defs.length ∧ defs[i]? = some f := by
      cases f <;> decide
    have joined := inv.joined p i f found (by rw [ret]; exact bound)
    rw [atOpen] at joined
    cases joined
  have users : (s.pc .main).made = true ∨ s.pc .child ≠ .absent := by
    cases p with
    | main => exact .inl (Pc.of_threaded threaded).2.1
    | child => exact .inr (Pc.of_alive alive).1
    | demon => exact absurd atOpen (by rw [inv.demonThreads f]; decide)
  -- The first process removes the FIFO after the child is gone.
  have notMain : Act.unlink .main ∉ past := by
    cases p with
    | main => exact notYet
    | demon => exact absurd atOpen (by rw [inv.demonThreads f]; decide)
    | child =>
      intro h
      have ended := inv.unlinkedMain h
      rw [(Pc.of_alive alive).2] at ended
      cases ended
  rw [inv.fifo users, and_self]
  constructor
  · exact fun none => none .child
  · intro child q
    cases q with
    | main => exact notMain
    | demon => exact inv.unlinkedDemon
    | child => exact child

/-- `main` finds the FIFO. -/
def fifoPresent : State where
  fifo := true
  pc := Function.update (fun _ => .absent) .main .access
  thread := fun _ _ => .absent

def forks : List Act := [.access, .forkDemon, .forkWait]

/-- The child gets its byte, runs all its threads and comes to the end of `main`. -/
def childReturns : List Act :=
  .childRead 1 :: List.replicate 8 (.create .child true) ++
    [.openPipe .child .pipewriter true, .openPipe .child .pipereader true] ++
    defs.map (fun f => .threadExit .child f 1) ++ List.replicate 8 (.join .child) ++
    [.waitDemon .child false, .unlink .child, .ret .child]

/-- `main` goes on as far as the creation of pipewriter. -/
def mainThreads : List Act := .waitChild .terminated :: List.replicate 5 (.create .main true)

theorem open_finds_fifo_after_kill :
    ∃ s t, program.run fifoPresent (forks ++ [.kill .child] ++ mainThreads) = some s ∧
      program.step s (.openPipe .main .pipewriter true) = some t ∧ s.fifo = true := by
  have run : ∃ s t, program.run fifoPresent (forks ++ [.kill .child] ++ mainThreads) = some s ∧
      program.step s (.openPipe .main .pipewriter true) = some t := ⟨_, _, rfl, rfl⟩
  obtain ⟨s, t, ran, opens⟩ := run
  have init : program.init fifoPresent := ⟨rfl, rfl⟩
  refine ⟨s, t, ran, opens, ?_⟩
  refine ((open_finds_fifo_iff fifoPresent s t _ _ _ _ init ran opens).mpr ?_).1
  simp [forks, mainThreads, List.replicate]

/-- The child has removed the FIFO before the first process's pipewriter calls `open`. -/
theorem open_finds_no_fifo :
    ∃ s t, program.init fifoPresent ∧
      program.run fifoPresent (forks ++ childReturns ++ mainThreads) = some s ∧
      program.step s (.openPipe .main .pipewriter true) = some t ∧ s.fifo = false ∧
      Act.unlink .child ∈ forks ++ childReturns ++ mainThreads :=
  ⟨_, _, ⟨rfl, rfl⟩, rfl, rfl, rfl, by simp [childReturns]⟩

end GenericTests.Controlthreads
