import GenericTests.Lib.Transition

/-!
# What a hand-off and a lock are for

Two abstract systems. `OneSlot` passes messages through a single slot that is
filled only when empty and emptied only when full. `Mutex` has at most one holder.
-/
namespace GenericTests.Synchronisation

open GenericTests.Transition

/-! ### One-slot channel -/

namespace OneSlot

variable {μ : Type}

structure State (μ : Type) where
  sent : List μ
  slot : Option μ
  received : List μ

inductive Act (μ : Type) where
  | put (m : μ)
  | take

def empty : State μ := ⟨[], none, []⟩

def step (s : State μ) : Act μ → Option (State μ)
  | .put m =>
    match s.slot with
    | none => some ⟨s.sent ++ [m], some m, s.received⟩
    | some _ => none
  | .take =>
    match s.slot with
    | none => none
    | some m => some ⟨s.sent, none, s.received ++ [m]⟩

def channel (μ : Type) : System (State μ) (Act μ) where
  init s := s = empty
  step := step

end OneSlot

/-! ### Lock -/

namespace Mutex

variable {T : Type} [DecidableEq T]

inductive Act (T : Type) where
  | acquire (t : T)
  | release (t : T)

def step (holder : Option T) : Act T → Option (Option T)
  | .acquire t => if holder = none then some (some t) else none
  | .release t => if holder = some t then some none else none

/-- The state is the holder. -/
def lock (T : Type) [DecidableEq T] : System (Option T) (Act T) where
  init holder := holder = none
  step := step

end Mutex

end GenericTests.Synchronisation
