import GenericTests.Lib.Transition
import Mathlib.Logic.Function.Basic
import Mathlib.Data.List.Nodup

/-!
# threadlockfail.c: lock_acquire and lock_release

Any number of threads call `lock_acquire` and `lock_release` in turn. One step is one
atomic operation on `lock.futex`, one system call or one assignment of a local. The
two plain stores that link the lock into the robust list are steps of the holder; the
memory they change is modelled in `Threadlock.OwnerDeath`.
-/
namespace GenericTests.Threadlock

open GenericTests.Transition

/-- The type of `lock.futex`, `int`. -/
abbrev Word := BitVec 32

/-- `(int)tid` -/
def truncated (tid : BitVec 64) : Word := tid.setWidth 32

/-- The statement a thread executes next. -/
inductive Pc where
  | outside
  | compareExchange
  | reset
  | wait
  | linkNode
  | linkHead
  | critical
  | wake
  deriving DecidableEq

variable {T : Type}

structure State (T : Type) where
  futex : Word
  pc : T → Pc
  /-- each thread's local `expected` -/
  expected : T → Word
  /-- the threads asleep in `FUTEX_WAIT` on `lock.futex` -/
  sleepers : List T

inductive Act (T : Type) where
  | call (t : T)
  /-- `spurious`: a weak compare-exchange may fail although the values are equal -/
  | compareExchange (t : T) (spurious : Bool)
  | reset (t : T)
  | futexWait (t : T)
  /-- `futex_wait` returns for any other reason -/
  | futexReturn (t : T)
  | link (t : T)
  | store (t : T)
  | futexWake (t : T) (woken : Option T)

section Step

variable [DecidableEq T]

def State.goto (s : State T) (t : T) (p : Pc) : State T :=
  { s with pc := Function.update s.pc t p }

def State.expect (s : State T) (t : T) (v : Word) : State T :=
  { s with expected := Function.update s.expected t v }

def step (tid : T → BitVec 64) (s : State T) : Act T → Option (State T)
  -- lock_acquire: int expected = 0
  | .call t =>
    if s.pc t = .outside then some ((s.expect t 0).goto t .compareExchange) else none
  | .compareExchange t spurious =>
    if s.pc t = .compareExchange then
      if s.futex = s.expected t ∧ spurious = false then
        some ({ s with futex := truncated (tid t) }.goto t .linkNode)
      -- a failed exchange leaves the value it saw in expected
      else some ((s.expect t s.futex).goto t .reset)
    else none
  | .reset t => if s.pc t = .reset then some ((s.expect t 0).goto t .wait) else none
  | .futexWait t =>
    -- the kernel compares and enqueues in one step; EAGAIN when the values differ
    if s.pc t = .wait ∧ t ∉ s.sleepers then
      if s.futex = s.expected t then some { s with sleepers := s.sleepers ++ [t] }
      else some (s.goto t .compareExchange)
    else none
  | .futexReturn t =>
    if s.pc t = .wait then
      some ({ s with sleepers := s.sleepers.erase t }.goto t .compareExchange)
    else none
  | .link t =>
    -- lock.list.next = ... and robust_head.list.next = ...
    match s.pc t with
    | .linkNode => some (s.goto t .linkHead)
    | .linkHead => some (s.goto t .critical)
    | _ => none
  -- lock_release
  | .store t => if s.pc t = .critical then some ({ s with futex := 0 }.goto t .wake) else none
  -- FUTEX_WAKE with n = 1 wakes some sleeper unless there is none
  | .futexWake t none =>
    if s.pc t = .wake ∧ s.sleepers = [] then some (s.goto t .outside) else none
  | .futexWake t (some u) =>
    if s.pc t = .wake ∧ u ∈ s.sleepers then
      some (({ s with sleepers := s.sleepers.erase u }.goto u .compareExchange).goto t .outside)
    else none

/-- `static struct robust_futex lock = { .futex = 0 }`, before any call. -/
def initial : State T where
  futex := 0
  pc _ := .outside
  expected _ := 0
  sleepers := []

def system (tid : T → BitVec 64) : System (State T) (Act T) where
  init s := s = initial
  step := step tid

/-! ### What a step can do -/

inductive Moves (tid : T → BitVec 64) (s : State T) : Act T → State T → Prop where
  | call (t : T) : s.pc t = .outside →
      Moves tid s (.call t) ((s.expect t 0).goto t .compareExchange)
  | acquired (t : T) : s.pc t = .compareExchange → s.futex = s.expected t →
      Moves tid s (.compareExchange t false)
        ({ s with futex := truncated (tid t) }.goto t .linkNode)
  | refused (t : T) (spurious : Bool) : s.pc t = .compareExchange →
      Moves tid s (.compareExchange t spurious) ((s.expect t s.futex).goto t .reset)
  | reset (t : T) : s.pc t = .reset → Moves tid s (.reset t) ((s.expect t 0).goto t .wait)
  | sleep (t : T) : s.pc t = .wait → t ∉ s.sleepers → s.futex = s.expected t →
      Moves tid s (.futexWait t) { s with sleepers := s.sleepers ++ [t] }
  | retry (t : T) : s.pc t = .wait → t ∉ s.sleepers → s.futex ≠ s.expected t →
      Moves tid s (.futexWait t) (s.goto t .compareExchange)
  | returned (t : T) : s.pc t = .wait →
      Moves tid s (.futexReturn t)
        ({ s with sleepers := s.sleepers.erase t }.goto t .compareExchange)
  | linkNode (t : T) : s.pc t = .linkNode → Moves tid s (.link t) (s.goto t .linkHead)
  | linkHead (t : T) : s.pc t = .linkHead → Moves tid s (.link t) (s.goto t .critical)
  | store (t : T) : s.pc t = .critical →
      Moves tid s (.store t) ({ s with futex := 0 }.goto t .wake)
  | wakeNone (t : T) : s.pc t = .wake → s.sleepers = [] →
      Moves tid s (.futexWake t none) (s.goto t .outside)
  | wakeOne (t u : T) : s.pc t = .wake → u ∈ s.sleepers →
      Moves tid s (.futexWake t (some u))
        (({ s with sleepers := s.sleepers.erase u }.goto u .compareExchange).goto t .outside)

theorem step_cases {tid : T → BitVec 64} {s t : State T} {a : Act T}
    (hs : step tid s a = some t) : Moves tid s a t := by
  cases a with
  | call u =>
    simp only [step] at hs
    split at hs
    next pc => exact Option.some.inj hs ▸ .call u pc
    next => cases hs
  | compareExchange u spurious =>
    simp only [step] at hs
    split at hs
    next pc =>
      split at hs
      next equal =>
        obtain ⟨equal, rfl⟩ := equal
        exact Option.some.inj hs ▸ .acquired u pc equal
      next => exact Option.some.inj hs ▸ .refused u spurious pc
    next => cases hs
  | reset u =>
    simp only [step] at hs
    split at hs
    next pc => exact Option.some.inj hs ▸ .reset u pc
    next => cases hs
  | futexWait u =>
    simp only [step] at hs
    split at hs
    next ready =>
      split at hs
      next equal => exact Option.some.inj hs ▸ .sleep u ready.1 ready.2 equal
      next differs => exact Option.some.inj hs ▸ .retry u ready.1 ready.2 differs
    next => cases hs
  | futexReturn u =>
    simp only [step] at hs
    split at hs
    next pc => exact Option.some.inj hs ▸ .returned u pc
    next => cases hs
  | link u =>
    simp only [step] at hs
    -- both stores share one label; the program counter tells which it is
    split at hs
    next pc => exact Option.some.inj hs ▸ .linkNode u pc
    next pc => exact Option.some.inj hs ▸ .linkHead u pc
    next => cases hs
  | store u =>
    simp only [step] at hs
    split at hs
    next pc => exact Option.some.inj hs ▸ .store u pc
    next => cases hs
  | futexWake u woken =>
    cases woken with
    | none =>
      simp only [step] at hs
      split at hs
      next ready => exact Option.some.inj hs ▸ .wakeNone u ready.1 ready.2
      next => cases hs
    | some v =>
      simp only [step] at hs
      split at hs
      next ready => exact Option.some.inj hs ▸ .wakeOne u v ready.1 ready.2
      next => cases hs

/-! ### Locals and sleepers -/

/-- `expected` is 0 at every compare-exchange and at every `futex_wait`, and only
threads inside `futex_wait` are asleep. -/
structure Sane (s : State T) : Prop where
  expected : ∀ t, s.pc t = .compareExchange ∨ s.pc t = .wait → s.expected t = 0
  sleepers : ∀ t ∈ s.sleepers, s.pc t = .wait
  nodup : s.sleepers.Nodup

omit [DecidableEq T] in
theorem sane_initial : Sane (initial : State T) :=
  ⟨fun _ _ => rfl, fun _ h => absurd h List.not_mem_nil, List.nodup_nil⟩

@[simp] theorem goto_pc (s : State T) (t u : T) (p : Pc) :
    (s.goto t p).pc u = if u = t then p else s.pc u := Function.update_apply s.pc t p u

@[simp] theorem expect_expected (s : State T) (t u : T) (v : Word) :
    (s.expect t v).expected u = if u = t then v else s.expected u :=
  Function.update_apply s.expected t v u

@[simp] theorem goto_expected (s : State T) (t : T) (p : Pc) :
    (s.goto t p).expected = s.expected := rfl

@[simp] theorem goto_sleepers (s : State T) (t : T) (p : Pc) :
    (s.goto t p).sleepers = s.sleepers := rfl

@[simp] theorem goto_futex (s : State T) (t : T) (p : Pc) : (s.goto t p).futex = s.futex := rfl

@[simp] theorem expect_pc (s : State T) (t : T) (v : Word) : (s.expect t v).pc = s.pc := rfl

@[simp] theorem expect_sleepers (s : State T) (t : T) (v : Word) :
    (s.expect t v).sleepers = s.sleepers := rfl

@[simp] theorem expect_futex (s : State T) (t : T) (v : Word) :
    (s.expect t v).futex = s.futex := rfl

/-- Moving an awake thread to a place where `expected` is 0 or not read. -/
private theorem Sane.goto {s : State T} (sane : Sane s) (t : T) (p : Pc) (awake : t ∉ s.sleepers)
    (zero : p = .compareExchange ∨ p = .wait → s.expected t = 0) : Sane (s.goto t p) := by
  refine ⟨fun u hu => ?_, fun u hu => ?_, sane.nodup⟩
  · by_cases e : u = t
    · subst e
      exact zero (by simpa using hu)
    · exact sane.expected u (by simpa [e] using hu)
  · have other : u ≠ t := fun e => awake (e ▸ hu)
    simpa [other] using sane.sleepers u hu

private theorem Sane.expect {s : State T} (sane : Sane s) (t : T) (v : Word)
    (unread : s.pc t ≠ .compareExchange ∧ s.pc t ≠ .wait) : Sane (s.expect t v) := by
  refine ⟨fun u hu => ?_, sane.sleepers, sane.nodup⟩
  have other : u ≠ t := by
    rintro rfl
    exact hu.elim unread.1 unread.2
  simpa [other] using sane.expected u hu

private theorem Sane.erase {s : State T} (sane : Sane s) (t : T) :
    Sane { s with sleepers := s.sleepers.erase t } :=
  ⟨sane.expected, fun u hu => sane.sleepers u (List.mem_of_mem_erase hu), sane.nodup.erase t⟩

omit [DecidableEq T] in
private theorem Sane.awake {s : State T} (sane : Sane s) (t : T) (h : s.pc t ≠ .wait) :
    t ∉ s.sleepers := fun member => h (sane.sleepers t member)

theorem sane_step {tid : T → BitVec 64} {s t : State T} {a : Act T} (sane : Sane s)
    (h : Moves tid s a t) : Sane t := by
  cases h with
  | call u pc =>
    apply (sane.expect u 0 (by simp [pc])).goto u _ (sane.awake u (by simp [pc]))
    intro _
    simp
  | acquired u pc equal =>
    have changed : Sane { s with futex := truncated (tid u) } :=
      ⟨sane.expected, sane.sleepers, sane.nodup⟩
    exact changed.goto u _ (sane.awake u (by simp [pc])) (by simp)
  | refused u spurious pc =>
    -- `expected` is not 0 here, but the thread leaves the compare-exchange in the same step
    refine ⟨fun v hv => ?_, fun v hv => ?_, sane.nodup⟩
    · by_cases e : v = u
      · subst e
        simp at hv
      · simpa [e] using sane.expected v (by simpa [e] using hv)
    · have other : v ≠ u := fun e => sane.awake u (by simp [pc]) (e ▸ hv)
      simpa [other] using sane.sleepers v hv
  | reset u pc =>
    apply (sane.expect u 0 (by simp [pc])).goto u _ (sane.awake u (by simp [pc]))
    intro _
    simp
  | sleep u pc awake equal =>
    refine ⟨sane.expected, fun v hv => ?_, ?_⟩
    · rcases List.mem_append.mp hv with old | new
      · exact sane.sleepers v old
      · exact List.mem_singleton.mp new ▸ pc
    · exact sane.nodup.append (List.nodup_singleton u) (by simpa using awake)
  | retry u pc awake differs =>
    exact sane.goto u _ awake fun _ => sane.expected u (.inr pc)
  | returned u pc =>
    exact (sane.erase u).goto u _ (fun member => (sane.nodup.mem_erase_iff.mp member).1 rfl)
      fun _ => sane.expected u (.inr pc)
  | linkNode u pc | linkHead u pc => exact sane.goto u _ (sane.awake u (by simp [pc])) (by simp)
  | store u pc =>
    have changed : Sane { s with futex := 0 } := ⟨sane.expected, sane.sleepers, sane.nodup⟩
    exact changed.goto u _ (sane.awake u (by simp [pc])) (by simp)
  | wakeNone u pc empty => exact sane.goto u _ (sane.awake u (by simp [pc])) (by simp)
  | wakeOne u v pc member =>
    -- first the woken thread, then the one that woke it
    have woken : Sane ({ s with sleepers := s.sleepers.erase v }.goto v .compareExchange) :=
      (sane.erase v).goto v _ (fun again => (sane.nodup.mem_erase_iff.mp again).1 rfl)
        fun _ => sane.expected v (.inr (sane.sleepers v member))
    refine woken.goto u _ (fun again => ?_) (by simp)
    exact sane.awake u (by simp [pc]) (List.mem_of_mem_erase again)

end Step

end GenericTests.Threadlock
