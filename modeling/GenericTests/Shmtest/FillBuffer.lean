import GenericTests.Shmtest.Model
import Mathlib.Logic.Function.Iterate

/-!
# shmtest.c: successive calls of fill_buffer

The letter of a call is the static `ch` of the call before. Its range is checked after the
buffer has been filled and before the increment, so the character behind `Z` is written
once before it is replaced.
-/
namespace GenericTests.Shmtest

open GenericTests.CString

/-- What the calls with these sizes leave in their buffers. -/
def fillCalls : Byte → List Nat → List Filled
  | _, [] => []
  | ch, size :: sizes => fillBuffer size ch :: fillCalls (fillBuffer size ch).ch sizes

def isLetter (c : Byte) : Bool :=
  decide (65 ≤ c ∧ c ≤ 90) || decide (97 ≤ c ∧ c ≤ 122)

/-- `size - 1` copies of one letter, a NUL, and their number as the result. -/
structure FillsLetter (size : Nat) (filled : Filled) : Prop where
  bytes : ∃ c, isLetter c = true ∧ filled.bytes = List.replicate (size - 1) c ++ [0]
  count : filled.filledCount = size - 1

/-- Every call of a run that starts with the program does so. -/
def AllFillLetters (sizes : List Nat) : Prop :=
  ∀ (k size : Nat) (filled : Filled), sizes[k]? = some size →
    (fillCalls 65 sizes)[k]? = some filled → FillsLetter size filled

/-! ### The static variable -/

/-- `ch` after a call that found it as `ch`; the size plays no role. -/
def nextCh (ch : Byte) : Byte := (fillBuffer 1 ch).ch

theorem ch_fillBuffer (size : Nat) (ch : Byte) : (fillBuffer size ch).ch = nextCh ch := rfl

theorem fillCalls_getElem? (ch : Byte) (sizes : List Nat) (k : Nat) :
    (fillCalls ch sizes)[k]? = sizes[k]?.map fun size => fillBuffer size (nextCh^[k] ch) := by
  induction sizes generalizing ch k with
  | nil => rfl
  | cons size sizes ih =>
    cases k with
    | zero => rfl
    | succ k =>
      rw [fillCalls, List.getElem?_cons_succ, List.getElem?_cons_succ, ih, ch_fillBuffer,
        Function.iterate_succ_apply]

/-- From the second call on the characters run from `B` to the one behind `Z`. -/
theorem nextCh_cycle : ∀ r < 26, nextCh (UInt8.ofNat (66 + r)) = UInt8.ofNat (66 + (r + 1) % 26) := by
  decide

theorem iterate_nextCh (k : Nat) : nextCh^[k + 1] 65 = UInt8.ofNat (66 + k % 26) := by
  induction k with
  | zero => rfl
  | succ k ih =>
    rw [Function.iterate_succ_apply', ih, nextCh_cycle (k % 26) (Nat.mod_lt _ (by decide)),
      Nat.mod_add_mod]

theorem isLetter_cycle : ∀ r < 26, isLetter (UInt8.ofNat (66 + r)) = true ↔ r ≠ 25 := by
  decide

theorem isLetter_ch_iff (k : Nat) : isLetter (nextCh^[k] 65) = true ↔ (0 < k → ¬ 26 ∣ k) := by
  cases k with
  | zero => exact ⟨fun _ positive => absurd positive (Nat.lt_irrefl 0), fun _ => by decide⟩
  | succ k =>
    rw [iterate_nextCh, isLetter_cycle (k % 26) (Nat.mod_lt _ (by decide))]
    omega

theorem ch_ne_zero (k : Nat) : nextCh^[k] 65 ≠ 0 := by
  have cycle : ∀ r < 26, UInt8.ofNat (66 + r) ≠ 0 := by decide
  cases k with
  | zero => decide
  | succ k =>
    rw [iterate_nextCh]
    exact cycle (k % 26) (Nat.mod_lt _ (by decide))

/-! ### The calls -/

theorem filledCount_fillBuffer (size : Nat) (ch : Byte) (nonzero : ch ≠ 0) :
    (fillBuffer size ch).filledCount = size - 1 := by
  have noNul : (0 : Byte) ∉ List.replicate (size - 1) ch := by
    intro member
    exact nonzero (List.eq_of_mem_replicate member).symm
  simp only [fillBuffer]
  rw [cstr_append_nul _ [] noNul, List.length_replicate]

/-- A call fills with a letter exactly if `ch` is one or nothing is written before the NUL. -/
theorem fillsLetter_iff (size : Nat) (ch : Byte) (nonzero : ch ≠ 0) (positive : 1 ≤ size) :
    FillsLetter size (fillBuffer size ch) ↔ (isLetter ch = true ∨ size = 1) := by
  constructor
  · rintro ⟨⟨c, letter, same⟩, -⟩
    by_cases one : size = 1
    · exact .inr one
    · left
      have replicated := List.append_cancel_right same
      have copies : size - 1 ≠ 0 := by omega
      rw [(List.replicate_inj.mp replicated).2.resolve_left copies]
      exact letter
  · intro h
    refine ⟨?_, filledCount_fillBuffer size ch nonzero⟩
    rcases h with letter | rfl
    · exact ⟨ch, letter, rfl⟩
    · exact ⟨65, by decide, rfl⟩

/-- **fill_buffer over whole runs**: every call fills its buffer with a letter if and only
if every 26th call after the first has size 1. -/
theorem fills_letters_iff (sizes : List Nat) (positive : ∀ size ∈ sizes, 1 ≤ size) :
    AllFillLetters sizes ↔
      ∀ k size : Nat, sizes[k]? = some size → 0 < k → 26 ∣ k → size = 1 := by
  have call (k size : Nat) (here : sizes[k]? = some size) :
      (fillCalls 65 sizes)[k]? = some (fillBuffer size (nextCh^[k] 65)) := by
    rw [fillCalls_getElem?, here]
    rfl
  have each (k size : Nat) (here : sizes[k]? = some size) :
      FillsLetter size (fillBuffer size (nextCh^[k] 65)) ↔ (0 < k → 26 ∣ k → size = 1) := by
    rw [fillsLetter_iff size _ (ch_ne_zero k) (positive size (List.mem_of_getElem? here)),
      isLetter_ch_iff]
    by_cases one : size = 1
    · simp [one]
    · simp [one]
  constructor
  · intro letters k size here
    exact (each k size here).mp (letters k size _ here (call k size here))
  · intro short k size filled here done
    cases Option.some.inj ((call k size here).symm.trans done)
    exact (each k size here).mpr (short k size here)

/-- The calls of main. -/
theorem fills_letters_main :
    (∀ size ∈ List.replicate doIters bufSize, 1 ≤ size) ∧
      AllFillLetters (List.replicate doIters bufSize) := by
  have positive : ∀ size ∈ List.replicate doIters bufSize, 1 ≤ size := by decide
  refine ⟨positive, (fills_letters_iff _ positive).mpr ?_⟩
  intro k size here positive divides
  have bound := (List.getElem?_eq_some_iff.mp here).1
  simp only [List.length_replicate, doIters] at bound
  omega

/-- The 27th call writes `[`. -/
theorem not_fills_letters :
    ¬ ∀ sizes : List Nat, (∀ size ∈ sizes, 1 ≤ size) → AllFillLetters sizes := by
  intro claim
  have last : (fillCalls 65 (List.replicate 27 2))[26]? = some (fillBuffer 2 91) := by
    rw [fillCalls_getElem?, iterate_nextCh 25]
    rfl
  obtain ⟨c, letter, same⟩ := (claim (List.replicate 27 2) (by decide) 26 2 _ rfl last).bytes
  cases List.head_eq_of_cons_eq same
  exact absurd letter (by decide)

end GenericTests.Shmtest
