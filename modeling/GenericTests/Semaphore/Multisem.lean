import GenericTests.Semaphore.Model
import Mathlib.Algebra.BigOperators.Group.List.Basic
import Mathlib.Algebra.Ring.Int.Defs

/-!
# semaphore.c: multisem_op

The array `sb` has one entry for each semaphore of the range, but the loop uses the number
of the semaphore as the index. The kernel applies the entries it is given one after the
other, and all of them or none.
-/
namespace GenericTests.Semaphore

/-- `SEM_UNDO` -/
def semUndo : BitVec 16 := 0x1000

/-- `IPC_NOWAIT` -/
def ipcNowait : BitVec 16 := 0x0800

structure Sembuf where
  /-- an `unsigned short` -/
  semNum : BitVec 16
  /-- a `short` -/
  semOp : BitVec 16
  semFlg : BitVec 16

/-- The stack from the start of `sb` on, and the indices the loop has written. -/
structure Sops where
  sb : Nat → Sembuf
  written : List Nat

/-- The body of the `for` loop; the two numbers are converted to 16 bits. -/
def setSop (op : Int) (s : Sops) (semnum : Nat) : Sops where
  sb := Function.update s.sb semnum
    ⟨BitVec.ofNat 16 semnum, BitVec.ofInt 16 op, semUndo ||| ipcNowait⟩
  written := s.written ++ [semnum]

/-- The `for` loop; `stack` is what the memory held before. -/
def fillSops (lowsemnum highsemnum : Nat) (op : Int) (stack : Nat → Sembuf) : Sops :=
  (List.range' lowsemnum (highsemnum - lowsemnum)).foldl (setSop op) ⟨stack, []⟩

/-- The array that is handed to `semop`. -/
def sopsArray (lowsemnum highsemnum : Nat) (op : Int) (stack : Nat → Sembuf) : List Sembuf :=
  (List.range (highsemnum - lowsemnum)).map (fillSops lowsemnum highsemnum op stack).sb

section Kernel

variable {nsems : Nat}

/-- One entry; `none` if the call fails or sleeps at it. -/
def applySop (sems : Fin nsems → Nat) (sop : Sembuf) : Option (Fin nsems → Nat) :=
  -- EFBIG
  if h : sop.semNum.toNat < nsems then
    let value : Int := sems ⟨sop.semNum.toNat, h⟩ + sop.semOp.toInt
    if sop.semOp.toInt = 0 then (if sems ⟨sop.semNum.toNat, h⟩ = 0 then some sems else none)
    -- EAGAIN or a sleep, ERANGE
    else if value < 0 ∨ (semvmx : Int) < value then none
    else some (Function.update sems ⟨sop.semNum.toNat, h⟩ value.toNat)
  else none

def applySops : (Fin nsems → Nat) → List Sembuf → Option (Fin nsems → Nat)
  | sems, [] => some sems
  | sems, sop :: sops => (applySop sems sop).bind fun sems => applySops sems sops

/-- `SEMOPM` -/
def semopm : Nat := 500

/-- `semop` with an array. The limits on what `SEM_UNDO` may collect only make more calls
fail. -/
def semopArray (sems : Fin nsems → Nat) (sops : List Sembuf) : Option (Fin nsems → Nat) :=
  -- EINVAL, E2BIG
  if sops = [] ∨ semopm < sops.length then none else applySops sems sops

/-- multisem_op; `none` if `semop` does not succeed. -/
def multisemOp (sems : Fin nsems → Nat) (lowsemnum highsemnum : Nat) (op : Int)
    (stack : Nat → Sembuf) : Option (Fin nsems → Nat) :=
  semopArray sems (sopsArray lowsemnum highsemnum op stack)

end Kernel

/-- A call stays within its array, hands over the entries of its range and, if it
succeeds, changes the semaphores of its range alone. -/
structure ActsOnRange (lowsemnum highsemnum : Nat) (op : Int) : Prop where
  inBounds : ∀ stack, ∀ k ∈ (fillSops lowsemnum highsemnum op stack).written,
    k < highsemnum - lowsemnum
  entries : ∀ stack, ∀ k < highsemnum - lowsemnum,
    k ∈ (fillSops lowsemnum highsemnum op stack).written ∧
    ∃ sop, (sopsArray lowsemnum highsemnum op stack)[k]? = some sop ∧
      sop.semNum.toNat = lowsemnum + k ∧ sop.semOp.toInt = op ∧ sop.semFlg = semUndo ||| ipcNowait
  changes : ∀ stack, ∀ nsems, ∀ sems sems' : Fin nsems → Nat,
    multisemOp sems lowsemnum highsemnum op stack = some sems' → ∀ i : Fin nsems,
      (sems' i : Int) = sems i + if lowsemnum ≤ i ∧ i < highsemnum then op else 0

/-! ### The loop -/

/-- By induction over the rounds: the indices written are those of the range, and their
entries are the last ones written. -/
theorem foldl_setSop (op : Int) (first count : Nat) (stack : Nat → Sembuf) :
    ((List.range' first count).foldl (setSop op) ⟨stack, []⟩).written = List.range' first count ∧
    ∀ k, ((List.range' first count).foldl (setSop op) ⟨stack, []⟩).sb k =
      if first ≤ k ∧ k < first + count then
        ⟨BitVec.ofNat 16 k, BitVec.ofInt 16 op, semUndo ||| ipcNowait⟩
      else stack k := by
  induction count with
  | zero =>
    refine ⟨rfl, fun k => ?_⟩
    rw [if_neg (by omega)]
    rfl
  | succ count ih =>
    obtain ⟨written, entry⟩ := ih
    rw [List.range'_1_concat, List.foldl_concat]
    refine ⟨by rw [setSop, written], fun k => ?_⟩
    simp only [setSop]
    by_cases last : k = first + count
    · subst last
      rw [Function.update_self, if_pos (by omega)]
    · rw [Function.update_of_ne last, entry k]
      have same : (first ≤ k ∧ k < first + count) ↔ (first ≤ k ∧ k < first + (count + 1)) := by omega
      simp only [same]

theorem mem_written (lowsemnum highsemnum : Nat) (op : Int) (stack : Nat → Sembuf) (k : Nat) :
    k ∈ (fillSops lowsemnum highsemnum op stack).written ↔ lowsemnum ≤ k ∧ k < highsemnum := by
  rw [fillSops, (foldl_setSop op _ _ stack).1, List.mem_range'_1]
  omega

/-- With ranges that start at 0 the index is the number of the semaphore. -/
theorem sopsArray_of_zero (highsemnum : Nat) (op : Int) (stack : Nat → Sembuf) :
    sopsArray 0 highsemnum op stack = (List.range highsemnum).map fun k =>
      ⟨BitVec.ofNat 16 k, BitVec.ofInt 16 op, semUndo ||| ipcNowait⟩ := by
  rw [sopsArray, Nat.sub_zero]
  apply List.map_congr_left
  intro k member
  have less := List.mem_range.mp member
  rw [fillSops, (foldl_setSop op _ _ stack).2, if_pos (by omega)]

/-! ### The kernel -/

/-- What the entries for semaphore `i` add up to. -/
def total (sops : List Sembuf) (i : Nat) : Int :=
  ((sops.filter fun sop => sop.semNum.toNat = i).map fun sop => sop.semOp.toInt).sum

section Semop

variable {nsems : Nat} {sems sems' : Fin nsems → Nat}

theorem applySop_changes {sop : Sembuf} (h : applySop sems sop = some sems') (i : Fin nsems) :
    (sems' i : Int) = sems i + if sop.semNum.toNat = i then sop.semOp.toInt else 0 := by
  simp only [applySop] at h
  split at h
  next bound =>
    split at h
    next zero =>
      split at h
      · cases h
        simp [zero]
      · cases h
    next nonzero =>
      split at h
      · cases h
      next fits =>
        cases h
        by_cases here : sop.semNum.toNat = i
        · have same : (⟨sop.semNum.toNat, bound⟩ : Fin nsems) = i := Fin.ext here
          rw [same, Function.update_self, if_pos here]
          rw [same] at fits
          omega
        · have other : i ≠ ⟨sop.semNum.toNat, bound⟩ := fun e => here (congrArg Fin.val e).symm
          rw [Function.update_of_ne other, if_neg here, Int.add_zero]
  next => cases h

/-- By induction over the entries. -/
theorem applySops_changes {sops : List Sembuf} (h : applySops sems sops = some sems')
    (i : Fin nsems) : (sems' i : Int) = sems i + total sops i := by
  induction sops generalizing sems with
  | nil =>
    cases h
    simp [total]
  | cons sop sops ih =>
    obtain ⟨next, first, rest⟩ := Option.bind_eq_some_iff.mp h
    rw [ih rest, applySop_changes first i, Int.add_assoc]
    by_cases here : sop.semNum.toNat = i
    · simp [total, here]
    · simp [total, here]

theorem total_range (op : Int) (fits : (BitVec.ofInt 16 op).toInt = op) (n i : Nat)
    (small : n ≤ 65536) :
    total ((List.range n).map fun k =>
        ⟨BitVec.ofNat 16 k, BitVec.ofInt 16 op, semUndo ||| ipcNowait⟩) i =
      if i < n then op else 0 := by
  induction n with
  | zero => rfl
  | succ n ih =>
    have number : (BitVec.ofNat 16 n).toNat = n := by
      rw [BitVec.toNat_ofNat]
      omega
    have before := ih (by omega)
    simp only [total] at before
    simp only [total, List.range_succ, List.map_append, List.filter_append, List.sum_append, before,
      List.map_singleton, List.filter_singleton, number]
    by_cases last : n = i
    · simp [last, fits]
    · have same : i < n ↔ i < n + 1 := by omega
      simp [last, same]

end Semop

/-! ### The range -/

theorem toInt_short_iff (op : Int) :
    (BitVec.ofInt 16 op).toInt = op ↔ -32768 ≤ op ∧ op ≤ 32767 := by
  rw [BitVec.toInt_ofInt, Int.bmod]
  split <;> omega

/-- **multisem_op**: a call does what it should if and only if its range is empty, or it
starts at 0, its numbers fit an `unsigned short` and `op` fits a `short`. -/
theorem actsOnRange_iff (lowsemnum highsemnum : Nat) (op : Int) (ordered : lowsemnum ≤ highsemnum) :
    ActsOnRange lowsemnum highsemnum op ↔
      lowsemnum = highsemnum ∨
        lowsemnum = 0 ∧ highsemnum ≤ 65536 ∧ -32768 ≤ op ∧ op ≤ 32767 := by
  constructor
  · intro acts
    by_cases empty : lowsemnum = highsemnum
    · exact .inl empty
    · -- the last round writes at the index `highsemnum - 1`
      have stack : Nat → Sembuf := fun _ => ⟨0, 0, 0⟩
      have last := acts.inBounds stack (highsemnum - 1) ((mem_written _ _ op stack _).mpr (by omega))
      have zero : lowsemnum = 0 := by omega
      subst zero
      obtain ⟨-, sop, here, number, value, -⟩ := acts.entries stack (highsemnum - 1) (by omega)
      rw [sopsArray_of_zero, List.getElem?_map, List.getElem?_range (by omega)] at here
      cases here
      have small := (BitVec.ofNat 16 (highsemnum - 1)).isLt
      exact .inr ⟨rfl, by omega, (toInt_short_iff op).mp value⟩
  · rintro (rfl | ⟨rfl, small, short⟩)
    · have nothing (stack : Nat → Sembuf) : sopsArray lowsemnum lowsemnum op stack = [] := by
        simp [sopsArray]
      constructor
      · intro stack k member
        have := (mem_written _ _ op stack k).mp member
        omega
      · intro stack k bound
        omega
      · intro stack nsems sems sems' h
        rw [multisemOp, nothing, semopArray, if_pos (.inl rfl)] at h
        cases h
    · have fits := (toInt_short_iff op).mpr short
      constructor
      · intro stack k member
        have := (mem_written _ _ op stack k).mp member
        omega
      · intro stack k bound
        refine ⟨(mem_written _ _ op stack k).mpr (by omega),
          ⟨BitVec.ofNat 16 k, BitVec.ofInt 16 op, semUndo ||| ipcNowait⟩, ?_, ?_, fits, rfl⟩
        · rw [sopsArray_of_zero, List.getElem?_map, List.getElem?_range (by omega)]
          rfl
        · rw [BitVec.toNat_ofNat]
          omega
      · intro stack nsems sems sems' h i
        rw [multisemOp, sopsArray_of_zero, semopArray] at h
        split at h
        · cases h
        · rw [applySops_changes h i, total_range op fits highsemnum i small]
          simp

theorem actsOnRange_first_two : 0 ≤ 2 ∧ ActsOnRange 0 2 1 :=
  ⟨by decide, (actsOnRange_iff 0 2 1 (by decide)).mpr (.inr (by decide))⟩

/-- The semaphores before main's call. -/
def sixSems : Fin 6 → Nat := fun i => if i.val = 0 then 1 else 0

/-- The call of main writes two entries behind its array of four, and if the first two
entries happen to name semaphores 0 and 1, these are the ones that change. -/
theorem main_call_not_on_range :
    ¬ (∀ (lowsemnum highsemnum : Nat) (op : Int), lowsemnum ≤ highsemnum →
      ActsOnRange lowsemnum highsemnum op) ∧
    ∃ stack sems', multisemOp sixSems 2 6 1 stack = some sems' ∧
      (List.ofFn sems' = [2, 1, 1, 1, 0, 0]) := by
  constructor
  · intro claim
    have last := (claim 2 6 1 (by decide)).inBounds (fun _ => ⟨0, 0, 0⟩) 5
      ((mem_written 2 6 1 _ 5).mpr (by decide))
    exact absurd last (by decide)
  · exact ⟨fun k => ⟨BitVec.ofNat 16 k, 1, 0⟩, _, rfl, by decide⟩

end GenericTests.Semaphore
