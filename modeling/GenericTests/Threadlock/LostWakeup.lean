import GenericTests.Threadlock.Exclusion

/-!
# threadlockfail.c: lost wake-ups

`lock_acquire` resets `expected` to 0 before it passes it to `futex_wait`, so a thread
goes to sleep exactly when the lock is free. Whether somebody is left to wake it
depends on what the other threads do at that moment, and on nothing else.
-/
namespace GenericTests.Threadlock

open GenericTests.Transition

variable {T : Type}

/-- Inside `lock_acquire`. -/
def Pc.acquiring : Pc → Bool
  | .compareExchange | .reset | .wait | .linkNode | .linkHead => true
  | .outside | .critical | .wake => false

/-- The lock is free and nobody will ever wake the threads that want it. -/
structure Stuck (s : State T) : Prop where
  free : s.futex = 0
  idle : ∀ t, (s.pc t).holding = false ∧ s.pc t ≠ .wake
  wanted : ∃ t, (s.pc t).acquiring = true
  asleep : ∀ t, (s.pc t).acquiring = true → t ∈ s.sleepers

/-- The thread still has to do something that unblocks others: it holds the lock, it
is between its store and its wake, or it is awake in `lock_acquire`. -/
def State.Active (s : State T) (t : T) : Prop :=
  (s.pc t).holding = true ∨ s.pc t = .wake ∨ (s.pc t).acquiring = true ∧ t ∉ s.sleepers

/-- A thread that calls `futex_wait` on the free lock leaves another active thread. -/
def WaitsAttended (s : State T) : Act T → Prop
  | .futexWait t => s.futex = 0 → ∃ u, u ≠ t ∧ s.Active u
  | _ => True

theorem not_stuck_of_active (s : State T) (t : T) (h : s.Active t) : ¬ Stuck s := by
  intro stuck
  rcases h with holds | wakes | ⟨wants, awake⟩
  · rw [(stuck.idle t).1] at holds
    cases holds
  · exact (stuck.idle t).2 wakes
  · exact awake (stuck.asleep t wants)

variable [DecidableEq T]

/-- The only step into a stuck state is an unattended `futex_wait`. -/
theorem stuck_step_iff {tid : T → BitVec 64} {s t : State T} {a : Act T} (sane : Sane s)
    (h : Moves tid s a t) : ¬ Stuck t ↔ WaitsAttended s a := by
  have sane' := sane_step sane h
  -- apart from `sleep`, the thread that moved (or was woken) is active afterwards
  have active (u : T) (hu : t.Active u) (trivially : WaitsAttended s a) :
      ¬ Stuck t ↔ WaitsAttended s a :=
    ⟨fun _ => trivially, fun _ => not_stuck_of_active t u hu⟩
  have awakeAt (u : T) (hu : (t.pc u).acquiring = true) (hw : t.pc u ≠ .wait) : t.Active u :=
    .inr (.inr ⟨hu, fun member => hw (sane'.sleepers u member)⟩)
  cases h with
  | call u pc => exact active u (awakeAt u (by simp [Pc.acquiring]) (by simp)) trivial
  | acquired u pc equal => exact active u (.inl (by simp [Pc.holding])) trivial
  | refused u spurious pc => exact active u (awakeAt u (by simp [Pc.acquiring]) (by simp)) trivial
  | reset u pc =>
    refine active u (.inr (.inr ⟨by simp [Pc.acquiring], fun member => ?_⟩)) trivial
    have asleep := sane.sleepers u member
    rw [pc] at asleep
    cases asleep
  | sleep u pc awake equal =>
    have zero : s.futex = 0 := equal.trans (sane.expected u (.inr pc))
    constructor
    · intro fine _
      -- Without another active thread the state after the call would be stuck.
      by_contra none
      apply fine
      have alone : ∀ v, v ≠ u → ¬ s.Active v := fun v hv hA => none ⟨v, hv, hA⟩
      have passive : ∀ v, ((s.pc v).holding = false ∧ s.pc v ≠ .wake) ∧
          ((s.pc v).acquiring = true → v = u ∨ v ∈ s.sleepers) := by
        intro v
        by_cases e : v = u
        · subst e
          exact ⟨by simp [pc, Pc.holding], fun _ => .inl rfl⟩
        · have inactive := alone v e
          simp only [State.Active, not_or, not_and, not_not, Bool.not_eq_true] at inactive
          exact ⟨⟨inactive.1, inactive.2.1⟩, fun wants => .inr (inactive.2.2 wants)⟩
      refine ⟨zero, fun v => (passive v).1, ⟨u, by rw [pc]; rfl⟩, fun v wants => ?_⟩
      rcases (passive v).2 wants with rfl | member
      · simp
      · simp [member]
    · intro attended
      obtain ⟨v, other, hA⟩ := attended zero
      apply not_stuck_of_active _ v
      rcases hA with holds | wakes | ⟨wants, up⟩
      · exact .inl holds
      · exact .inr (.inl wakes)
      · exact .inr (.inr ⟨wants, by simp [up, other]⟩)
  | retry u pc awake differs =>
    -- the word is not 0, so the condition asks for nothing
    refine active u (awakeAt u (by simp [Pc.acquiring]) (by simp)) fun zero => ?_
    exact absurd (zero.trans (sane.expected u (.inr pc)).symm) differs
  | returned u pc => exact active u (awakeAt u (by simp [Pc.acquiring]) (by simp)) trivial
  | linkNode u pc | linkHead u pc => exact active u (.inl (by simp [Pc.holding])) trivial
  | store u pc => exact active u (.inr (.inl (by simp))) trivial
  | wakeNone u pc empty =>
    -- here nobody need be active, but nobody sleeps either
    refine ⟨fun _ => trivial, fun _ stuck => ?_⟩
    obtain ⟨v, wants⟩ := stuck.wanted
    have member := stuck.asleep v wants
    simp [empty] at member
  | wakeOne u v pc member =>
    have asleep := sane.sleepers v member
    have other : v ≠ u := by
      rintro rfl
      rw [pc] at asleep
      cases asleep
    exact active v (awakeAt v (by simp [other, Pc.acquiring]) (by simp [other])) trivial

/-- **When no wake-up is lost**: a run passes through no stuck state exactly when every
`futex_wait` it makes on the free lock leaves another active thread. -/
theorem no_lost_wakeup_iff (tid : T → BitVec 64) (acts : List (Act T)) :
    (system tid).Always (fun s => ¬ Stuck s) initial acts ↔
      (system tid).StepsMeet WaitsAttended initial acts := by
  apply (system tid).always_iff_stepsMeet Sane _ _ ?_ ?_ initial acts sane_initial ?_
  · intro s a t sane _ hs
    exact sane_step sane (step_cases hs)
  · intro s a t sane _ hs
    exact stuck_step_iff sane (step_cases hs)
  · intro stuck
    obtain ⟨t, wants⟩ := stuck.wanted
    cases wants

/-- Thread `false` fails its compare-exchange while `true` holds the lock, and reaches
`futex_wait` after `true` has released it and found nobody to wake. -/
theorem lost_wakeup :
    ¬ ∀ s : State Bool, (system fun t => if t then 7 else 9).Reachable s → ¬ Stuck s := by
  intro claim
  refine claim _ ⟨initial, [.call true, .compareExchange true false, .link true, .link true,
    .call false, .compareExchange false false, .store true, .futexWake true none, .reset false,
    .futexWait false], rfl, rfl⟩ ?_
  exact ⟨rfl, by decide, ⟨false, rfl⟩, by decide⟩

end GenericTests.Threadlock
