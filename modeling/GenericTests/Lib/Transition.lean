import Mathlib.Algebra.BigOperators.Group.Finset.Piecewise
import Mathlib.Data.List.Basic

/-!
# Transition systems under a scheduler

Every label carries all the choices of the environment (who moves, how many bytes
a call returns, which sleeper is woken), so one label leads to at most one state
and a run is a list of labels. `none` means that the step is not enabled.
-/
namespace GenericTests.Transition

variable {σ α τ β : Type}

structure System (σ α : Type) where
  init : σ → Prop
  step : σ → α → Option σ

namespace System

def run (S : System σ α) : σ → List α → Option σ
  | s, [] => some s
  | s, a :: as => (S.step s a).bind fun t => S.run t as

def Reachable (S : System σ α) (s : σ) : Prop :=
  ∃ s₀ as, S.init s₀ ∧ S.run s₀ as = some s

def Enabled (S : System σ α) (s : σ) : Prop := ∃ a t, S.step s a = some t

/-- `P` holds in every state the run passes through. -/
def Always (S : System σ α) (P : σ → Prop) : σ → List α → Prop
  | s, [] => P s
  | s, a :: as => P s ∧ ∀ t, S.step s a = some t → S.Always P t as

/-- Every step the run takes meets `C`, a condition on the state before the step. -/
def StepsMeet (S : System σ α) (C : σ → α → Prop) : σ → List α → Prop
  | _, [] => True
  | s, a :: as => ∀ t, S.step s a = some t → C s a ∧ S.StepsMeet C t as

variable (S : System σ α)

/-! ### Runs -/

theorem run_cons_eq_some (s u : σ) (a : α) (as : List α) :
    S.run s (a :: as) = some u ↔ ∃ t, S.step s a = some t ∧ S.run t as = some u := by
  simp only [run, Option.bind_eq_some_iff]

theorem run_append (s : σ) (as bs : List α) :
    S.run s (as ++ bs) = (S.run s as).bind fun t => S.run t bs := by
  induction as generalizing s with
  | nil => rfl
  | cons a as ih =>
    simp only [List.cons_append, run]
    cases S.step s a with
    | none => rfl
    | some t => exact ih t

theorem run_concat_eq_some (s u : σ) (as : List α) (a : α) :
    S.run s (as ++ [a]) = some u ↔ ∃ t, S.run s as = some t ∧ S.step t a = some u := by
  simp only [run_append, run, Option.bind_eq_some_iff, Option.some.injEq, exists_eq_right]

theorem reachable_init (s : σ) (h : S.init s) : S.Reachable s := ⟨s, [], h, rfl⟩

theorem Reachable.step {S : System σ α} {s t : σ} {a : α} (h : S.Reachable s)
    (hs : S.step s a = some t) : S.Reachable t := by
  obtain ⟨s₀, as, hi, hr⟩ := h
  exact ⟨s₀, as ++ [a], hi, (S.run_concat_eq_some s₀ t as a).mpr ⟨s, hr, hs⟩⟩

/-! ### Invariants -/

/-- What one step preserves, a whole run preserves. -/
theorem run_invariant (P : σ → Prop)
    (step : ∀ s a t, P s → S.step s a = some t → P t)
    (s u : σ) (as : List α) (initial : P s) (returned : S.run s as = some u) : P u := by
  induction as generalizing s with
  | nil => exact Option.some.inj returned ▸ initial
  | cons a as ih =>
    obtain ⟨t, hs, hr⟩ := (S.run_cons_eq_some s u a as).mp returned
    exact ih t (step s a t initial hs) hr

theorem reachable_invariant (P : σ → Prop) (initial : ∀ s, S.init s → P s)
    (step : ∀ s a t, P s → S.step s a = some t → P t)
    (s : σ) (h : S.Reachable s) : P s := by
  obtain ⟨s₀, as, hi, hr⟩ := h
  exact S.run_invariant P step s₀ s as (initial s₀ hi) hr

/-- An invariant may speak about the labels of the run so far. -/
theorem run_history (P : List α → σ → Prop)
    (step : ∀ past s a t, P past s → S.step s a = some t → P (past ++ [a]) t)
    (s u : σ) (as : List α) (initial : P [] s) (returned : S.run s as = some u) : P as u := by
  -- The induction consumes the run from the front while the past grows at its end.
  have extend : ∀ past s, P past s → S.run s as = some u → P (past ++ as) u := by
    clear initial returned s
    induction as with
    | nil =>
      intro past s h hr
      cases Option.some.inj hr
      simpa using h
    | cons a as ih =>
      intro past s h hr
      obtain ⟨t, hs, ht⟩ := (S.run_cons_eq_some s u a as).mp hr
      have rest := ih (past ++ [a]) t (step past s a t h hs) ht
      rwa [List.append_assoc, List.singleton_append] at rest
  exact extend [] s initial returned

/-- What the steps that meet `C` preserve, a run of such steps preserves. -/
theorem stepsMeet_invariant (P : σ → Prop) (C : σ → α → Prop)
    (step : ∀ s a t, P s → C s a → S.step s a = some t → P t)
    (s u : σ) (as : List α) (initial : P s) (meets : S.StepsMeet C s as)
    (returned : S.run s as = some u) : P u := by
  induction as generalizing s with
  | nil => exact Option.some.inj returned ▸ initial
  | cons a as ih =>
    obtain ⟨t, hs, hr⟩ := (S.run_cons_eq_some s u a as).mp returned
    obtain ⟨first, later⟩ := meets t hs
    exact ih t (step s a t initial first hs) later hr

/-- If, under `I`, a step from a good state is good exactly when it meets `C`, and such
steps keep `I`, then a run stays good exactly when all its steps meet `C`. -/
theorem always_iff_stepsMeet (I P : σ → Prop) (C : σ → α → Prop)
    (inv : ∀ s a t, I s → C s a → S.step s a = some t → I t)
    (exact_step : ∀ s a t, I s → P s → S.step s a = some t → (P t ↔ C s a))
    (s : σ) (as : List α) (hI : I s) (hP : P s) :
    S.Always P s as ↔ S.StepsMeet C s as := by
  induction as generalizing s with
  | nil => exact ⟨fun _ => trivial, fun _ => hP⟩
  | cons a as ih =>
    constructor
    · rintro ⟨-, always⟩ t hs
      -- the rest of the run starts in t, so t itself is good
      have good : P t := by
        have rest := always t hs
        cases as with
        | nil => exact rest
        | cons b bs => exact rest.1
      have meets := (exact_step s a t hI hP hs).mp good
      exact ⟨meets, (ih t (inv s a t hI meets hs) good).mp (always t hs)⟩
    · intro meets
      refine ⟨hP, fun t hs => ?_⟩
      have good := (exact_step s a t hI hP hs).mpr (meets t hs).1
      exact (ih t (inv s a t hI (meets t hs).1 hs) good).mpr (meets t hs).2

/-- If every step of a kind lowers a measure, no run of such steps is longer than the measure. -/
theorem length_le_of_lowers (I : σ → Prop) (kind : α → Bool) (measure : σ → Nat)
    (lowers : ∀ s a t, I s → kind a = true → S.step s a = some t → I t ∧ measure t < measure s)
    (s u : σ) (as : List α) (initial : I s) (kinds : ∀ a ∈ as, kind a = true)
    (returned : S.run s as = some u) : I u ∧ as.length + measure u ≤ measure s := by
  induction as generalizing s with
  | nil =>
    cases Option.some.inj returned
    exact ⟨initial, by simp⟩
  | cons a as ih =>
    obtain ⟨t, hs, hr⟩ := (S.run_cons_eq_some s u a as).mp returned
    obtain ⟨first, rest⟩ := List.forall_mem_cons.mp kinds
    obtain ⟨holds, less⟩ := lowers s a t initial first hs
    obtain ⟨last, bound⟩ := ih t holds rest hr
    refine ⟨last, ?_⟩
    rw [List.length_cons]
    omega

end System

/-! ### Measures that add up the parties -/

/-- One of the parties changes. -/
theorem sum_update_add {ι : Type} [DecidableEq ι] (parties : Finset ι) (size : σ → Nat) (f : ι → σ)
    {i : ι} (member : i ∈ parties) (x : σ) :
    ∑ j ∈ parties, size (Function.update f i x j) + size (f i) =
      ∑ j ∈ parties, size (f j) + size x := by
  have inside (j : ι) : size (Function.update f i x j) =
      Function.update (fun j => size (f j)) i (size x) j :=
    Function.apply_update (fun _ => size) f i x j
  simp only [inside]
  rw [Finset.sum_update_of_mem member, Finset.sdiff_singleton_eq_erase,
    ← Finset.add_sum_erase parties (fun j => size (f j)) member]
  omega

theorem sum_update_lt {ι : Type} [Fintype ι] [DecidableEq ι] (size : σ → Nat) (f : ι → σ) (i : ι)
    (x : σ) (less : size x < size (f i)) :
    ∑ j, size (Function.update f i x j) < ∑ j, size (f j) := by
  have sum := sum_update_add Finset.univ size f (Finset.mem_univ i) x
  omega

/-! ### Refinement -/

/-- `R` relates every concrete step to a (possibly empty) abstract run. -/
structure Refines (C : System σ α) (A : System τ β) (R : σ → τ → Prop) : Prop where
  init : ∀ s, C.init s → ∃ t, A.init t ∧ R s t
  step : ∀ s t a s', R s t → C.step s a = some s' → ∃ bs t', A.run t bs = some t' ∧ R s' t'

/-- Every reachable concrete state stands for a reachable abstract one. -/
theorem Refines.reachable {C : System σ α} {A : System τ β} {R : σ → τ → Prop}
    (h : Refines C A R) (s : σ) (hs : C.Reachable s) : ∃ t, A.Reachable t ∧ R s t := by
  -- The existence of a related reachable state is itself an invariant.
  apply C.reachable_invariant (fun s => ∃ t, A.Reachable t ∧ R s t) ?_ ?_ s hs
  · intro s₀ hi
    obtain ⟨t, ht, hR⟩ := h.init s₀ hi
    exact ⟨t, A.reachable_init t ht, hR⟩
  · rintro s₁ a s₂ ⟨t, ⟨t₀, bs, hi, hr⟩, hR⟩ hstep
    obtain ⟨cs, t', hrun, hR'⟩ := h.step s₁ t a s₂ hR hstep
    refine ⟨t', ⟨t₀, bs ++ cs, hi, ?_⟩, hR'⟩
    rw [A.run_append, hr]
    exact hrun

end GenericTests.Transition
