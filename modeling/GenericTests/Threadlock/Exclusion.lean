import GenericTests.Lib.Synchronisation
import GenericTests.Threadlock.Model

/-!
# threadlockfail.c: mutual exclusion

The futex word is the name of the holder, so the code refines the abstract lock as
long as no thread is named 0.
-/
namespace GenericTests.Threadlock

open GenericTests.Transition GenericTests.Synchronisation

variable {T : Type} [DecidableEq T]

/-- Between the successful compare-exchange and the store of 0. -/
def Pc.holding : Pc → Bool
  | .linkNode | .linkHead | .critical => true
  | .outside | .compareExchange | .reset | .wait | .wake => false

/-- The value of `lock.futex` for a given holder. -/
def ownerWord (tid : T → BitVec 64) : Option T → Word
  | none => 0
  | some t => truncated (tid t)

structure Represents (tid : T → BitVec 64) (s : State T) (holder : Option T) : Prop where
  sane : Sane s
  holds : ∀ t, (s.pc t).holding = true ↔ holder = some t
  futex : s.futex = ownerWord tid holder

omit [DecidableEq T] in
theorem represents_initial (tid : T → BitVec 64) : Represents tid initial none :=
  ⟨sane_initial, fun _ => ⟨nofun, nofun⟩, rfl⟩

/-- Moving one thread between places of the same kind changes no holder. -/
private theorem holding_goto (s : State T) (t u : T) (p : Pc)
    (same : p.holding = (s.pc t).holding) : ((s.goto t p).pc u).holding = (s.pc u).holding := by
  by_cases e : u = t
  · subst e
    simpa using same
  · simp [e]

private theorem Represents.keep {tid : T → BitVec 64} {s t : State T} {holder : Option T}
    (rep : Represents tid s holder) (sane : Sane t)
    (same : ∀ u, (t.pc u).holding = (s.pc u).holding) (futex : t.futex = s.futex) :
    ∃ acts holder', (Mutex.lock T).run holder acts = some holder' ∧ Represents tid t holder' :=
  ⟨[], holder, rfl, sane, fun u => by rw [same u]; exact rep.holds u, futex.trans rep.futex⟩

theorem represents_step {tid : T → BitVec 64} (nonzero : ∀ t, truncated (tid t) ≠ 0)
    {s t : State T} {a : Act T} {holder : Option T} (rep : Represents tid s holder)
    (h : Moves tid s a t) :
    ∃ acts holder', (Mutex.lock T).run holder acts = some holder' ∧ Represents tid t holder' := by
  have sane := sane_step rep.sane h
  cases h with
  | acquired u pc equal =>
    -- a compare-exchange succeeds on the word 0 only, and 0 names no holder
    have zero : s.futex = 0 := equal.trans (rep.sane.expected u (.inl pc))
    have free : holder = none := by
      cases holder with
      | none => rfl
      | some v => exact absurd (rep.futex.symm.trans zero) (nonzero v)
    subst free
    refine ⟨[.acquire u], some u, rfl, sane, fun v => ?_, rfl⟩
    have others := rep.holds v
    by_cases e : v = u
    · subst e
      simp [Pc.holding]
    · have e' : u ≠ v := fun h => e h.symm
      simpa [e, e'] using others
  | store u pc =>
    -- only the holder reaches the store
    have mine : holder = some u := (rep.holds u).mp (by rw [pc]; rfl)
    subst mine
    refine ⟨[.release u], none, ?_, sane, fun v => ?_, rfl⟩
    · simp [System.run, Mutex.lock, Mutex.step]
    · have others := rep.holds v
      by_cases e : v = u
      · subst e
        simp [Pc.holding]
      · have e' : u ≠ v := fun h => e h.symm
        simpa [e, e'] using others
  | call u pc => exact rep.keep sane (fun v => holding_goto _ u v _ (by simp [pc, Pc.holding])) rfl
  | refused u spurious pc =>
    exact rep.keep sane (fun v => holding_goto _ u v _ (by simp [pc, Pc.holding])) rfl
  | reset u pc => exact rep.keep sane (fun v => holding_goto _ u v _ (by simp [pc, Pc.holding])) rfl
  | sleep u pc awake equal => exact rep.keep sane (fun v => rfl) rfl
  | retry u pc awake differs =>
    exact rep.keep sane (fun v => holding_goto s u v _ (by simp [pc, Pc.holding])) rfl
  | returned u pc =>
    exact rep.keep sane (fun v => holding_goto _ u v _ (by simp [pc, Pc.holding])) rfl
  | linkNode u pc | linkHead u pc =>
    exact rep.keep sane (fun v => holding_goto s u v _ (by simp [pc, Pc.holding])) rfl
  | wakeNone u pc empty =>
    exact rep.keep sane (fun v => holding_goto s u v _ (by simp [pc, Pc.holding])) rfl
  | wakeOne u w pc member =>
    have asleep := rep.sane.sleepers w member
    -- the waker is awake, so two different threads move
    have other : u ≠ w := by
      rintro rfl
      rw [pc] at asleep
      cases asleep
    refine rep.keep sane (fun v => ?_) rfl
    rw [holding_goto _ u v _ (by simp [other, pc, Pc.holding]),
      holding_goto _ w v _ (by simp [asleep, Pc.holding])]

/-- The futex lock is a lock. -/
theorem refines_lock (tid : T → BitVec 64) (nonzero : ∀ t, truncated (tid t) ≠ 0) :
    Refines (system tid) (Mutex.lock T) (Represents tid) where
  init _ h := ⟨none, rfl, h ▸ represents_initial tid⟩
  step _ _ _ _ rep hs := represents_step nonzero rep (step_cases hs)

/-- **Mutual exclusion**: if no thread's truncated id is 0, then in every reachable state
at most one thread is between its successful compare-exchange and its store of 0, the
word is 0 exactly when there is none, and it is the truncated id of that thread
otherwise. -/
theorem mutual_exclusion (tid : T → BitVec 64) (nonzero : ∀ t, truncated (tid t) ≠ 0)
    (s : State T) (h : (system tid).Reachable s) :
    (∀ t u, (s.pc t).holding = true → (s.pc u).holding = true → t = u) ∧
    (s.futex = 0 ↔ ∀ t, (s.pc t).holding = false) ∧
    (∀ t, (s.pc t).holding = true → s.futex = truncated (tid t)) := by
  obtain ⟨holder, -, rep⟩ := (refines_lock tid nonzero).reachable s h
  have owner : ∀ t, (s.pc t).holding = true → s.futex = truncated (tid t) := by
    intro t ht
    rw [rep.futex, (rep.holds t).mp ht]
    rfl
  refine ⟨?_, ⟨?_, ?_⟩, owner⟩
  · intro t u ht hu
    exact Option.some.inj (((rep.holds t).mp ht).symm.trans ((rep.holds u).mp hu))
  · intro zero t
    cases ht : (s.pc t).holding with
    | false => rfl
    | true => exact absurd ((owner t ht).symm.trans zero) (nonzero t)
  · intro free
    -- the abstract holder, if there were one, would hold here too
    cases holder with
    | none => exact rep.futex
    | some t =>
      have ht := (rep.holds t).mpr rfl
      rw [free t] at ht
      cases ht

/-- Thread `true` holds the lock while thread `false` is in its loop. -/
theorem mutual_exclusion_contended :
    ∃ s : State Bool, (system fun t => if t then 7 else 9).Reachable s ∧
      (s.pc true).holding = true ∧ s.pc false = .reset ∧ s.futex = 7 := by
  have reached : (system fun t : Bool => if t then 7 else 9).Reachable _ :=
    ⟨initial, [.call true, .call false, .compareExchange true false, .compareExchange false false],
      rfl, rfl⟩
  exact ⟨_, reached, rfl, rfl,
    (mutual_exclusion _ (by decide) _ reached).2.2 true rfl⟩

end GenericTests.Threadlock
