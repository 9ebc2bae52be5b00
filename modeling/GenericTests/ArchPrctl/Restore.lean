import Mathlib.Data.Option.Basic

/-!
# arch_prctl.c: setting and restoring the segment bases

main reads the base of a segment, sets it to a test value, reads it back, and sets and
reads it again; each of the ten calls may fail. The probes after the two sections assert
nothing and do not name GS or FS.
-/
namespace GenericTests.ArchPrctl

/-- `unsigned long` -/
abbrev Word := BitVec 64

def testVal : Word := 0xdeadbeef

/-- What `orig_val` and `out_val` hold while no call has written to them. -/
def sentinel : Word := 0xfeedface

inductive Segment where
  | gs
  | fs

inductive Line where
  /-- `orig  -> %s = 0x%lx` -/
  | orig (name : Segment) (origVal : Word)
  /-- print_result, without `errno` -/
  | get (ok : Bool)
  | set (ok : Bool)
  | reset (ok : Bool)
  | checkSet (outVal : Word)
  | checkRestored (name : Segment) (outVal : Word)

/-- Which calls of a section succeed, in their order. -/
structure Calls where
  getOrig : Bool
  setTest : Bool
  getTest : Bool
  setOrig : Bool
  getRestored : Bool

/-- `syscall(SYS_arch_prctl, getcmd, &out)`: the value of `out` after the call. -/
def archGet (ok : Bool) (base out : Word) : Word := if ok then base else out

/-- `syscall(SYS_arch_prctl, setcmd, val)`: the base after the call. -/
def archSet (ok : Bool) (base val : Word) : Word := if ok then val else base

/-- The base after the section; `none` if an assertion fails. -/
def gsSection (calls : Calls) (base : Word) : Option (Word × List Line) :=
  let origVal := archGet calls.getOrig base sentinel
  let base₁ := archSet calls.setTest base testVal
  let outVal₁ := archGet calls.getTest base₁ sentinel
  if outVal₁ = testVal then
    let base₂ := archSet calls.setOrig base₁ origVal
    let outVal₂ := archGet calls.getRestored base₂ sentinel
    if outVal₂ = origVal then
      some (base₂, List.flatten [
        [if calls.getOrig then .orig .gs origVal else .get false, .set calls.setTest,
          .get calls.getTest],
        if calls.getTest then [.checkSet outVal₁] else [],
        [.reset calls.setOrig, .get calls.getRestored],
        if calls.getRestored then [.checkRestored .gs outVal₂] else []])
    else none
  else none

/-- Here `out_val` is not reset between the calls. -/
def fsSection (calls : Calls) (base : Word) : Option (Word × List Line) :=
  let origVal := archGet calls.getOrig base sentinel
  let base₁ := archSet calls.setTest base testVal
  let outVal₁ := archGet calls.getTest base₁ sentinel
  if outVal₁ = testVal then
    let base₂ := archSet calls.setOrig base₁ origVal
    let outVal₂ := archGet calls.getRestored base₂ outVal₁
    if outVal₂ = origVal then
      some (base₂, [if calls.getOrig then .orig .fs origVal else .get false])
    else none
  else none

structure Outcome where
  gs : Word
  fs : Word
  lines : List Line

def main (gsCalls fsCalls : Calls) (gs fs : Word) : Option Outcome :=
  match gsSection gsCalls gs with
  | some (gs', gsLines) =>
    match fsSection fsCalls fs with
    | some (fs', fsLines) => some ⟨gs', fs', gsLines ++ fsLines⟩
    | none => none
  | none => none

/-! ### Which runs pass the assertions -/

/-- The first assertion: the base is the test value, and the call that reads it succeeds. -/
def TestPasses (calls : Calls) (base : Word) : Prop :=
  (calls.setTest = true ∨ base = testVal) ∧ calls.getTest = true

def GsPasses (calls : Calls) (base : Word) : Prop :=
  TestPasses calls base ∧
    match calls.getOrig, calls.getRestored with
    | true, true => calls.setOrig = true ∨ base = testVal
    -- both words hold the sentinel
    | true, false => base = sentinel
    | false, true => calls.setOrig = true
    | false, false => True

def FsPasses (calls : Calls) (base : Word) : Prop :=
  TestPasses calls base ∧
    match calls.getOrig, calls.getRestored with
    | true, true => calls.setOrig = true ∨ base = testVal
    -- `out_val` still holds the test value
    | true, false => base = testVal
    | false, true => calls.setOrig = true
    | false, false => False

/-- `orig_val` holds the original base when it is set again, or nothing is set and the
base was the test value from the start. -/
def Kept (calls : Calls) (base : Word) : Prop :=
  if calls.setOrig then calls.getOrig = true ∨ base = sentinel else base = testVal

theorem sentinel_ne_testVal : sentinel ≠ testVal := by decide

theorem testPasses_iff (calls : Calls) (base : Word) :
    archGet calls.getTest (archSet calls.setTest base testVal) sentinel = testVal ↔
      TestPasses calls base := by
  obtain ⟨getOrig, setTest, getTest, setOrig, getRestored⟩ := calls
  cases getTest with
  | false => simp [archGet, TestPasses, sentinel_ne_testVal]
  | true => cases setTest <;> simp [archGet, archSet, TestPasses]

/-- Behind the first assertion the base is the test value. -/
theorem TestPasses.base {calls : Calls} {base : Word} (h : TestPasses calls base) :
    archSet calls.setTest base testVal = testVal := by
  rcases h.1 with set | same
  · rw [archSet, if_pos set]
  · rw [archSet, same, ite_self]

theorem kept_iff (calls : Calls) (base : Word) :
    archSet calls.setOrig testVal (archGet calls.getOrig base sentinel) = base ↔
      Kept calls base := by
  obtain ⟨getOrig, setTest, getTest, setOrig, getRestored⟩ := calls
  cases setOrig with
  | false => simp [archSet, Kept, eq_comm]
  | true => cases getOrig <;> simp [archSet, archGet, Kept, eq_comm]

theorem gsPasses_iff (calls : Calls) (base : Word) :
    archGet calls.getTest (archSet calls.setTest base testVal) sentinel = testVal ∧
      archGet calls.getRestored (archSet calls.setOrig (archSet calls.setTest base testVal)
        (archGet calls.getOrig base sentinel)) sentinel = archGet calls.getOrig base sentinel ↔
      GsPasses calls base := by
  rw [testPasses_iff, GsPasses]
  apply and_congr_right
  intro test
  rw [test.base]
  cases calls.getOrig <;> cases calls.getRestored <;> cases calls.setOrig <;>
    simp [archGet, archSet, eq_comm, sentinel_ne_testVal]

theorem fsPasses_iff (calls : Calls) (base : Word) :
    archGet calls.getTest (archSet calls.setTest base testVal) sentinel = testVal ∧
      archGet calls.getRestored (archSet calls.setOrig (archSet calls.setTest base testVal)
        (archGet calls.getOrig base sentinel))
        (archGet calls.getTest (archSet calls.setTest base testVal) sentinel) =
          archGet calls.getOrig base sentinel ↔
      FsPasses calls base := by
  rw [testPasses_iff, FsPasses]
  apply and_congr_right
  intro test
  -- unlike in the GS section, the last get starts from the test value
  rw [(testPasses_iff calls base).mpr test, test.base]
  cases calls.getOrig <;> cases calls.getRestored <;> cases calls.setOrig <;>
    simp [archGet, archSet, eq_comm, sentinel_ne_testVal]

/-- What a section returns, if `Passes` is the condition for its two assertions. -/
structure Spec (returned : Option (Word × List Line)) (Passes : Prop) (calls : Calls)
    (base : Word) : Prop where
  passes : Passes → ∃ after lines, returned = some (after, lines) ∧ (after = base ↔ Kept calls base)
  fails : ¬ Passes → returned = none

theorem spec_of_asserts {calls : Calls} {base after : Word} {lines : List Line}
    {first second Passes : Prop} [Decidable first] [Decidable second]
    (both : first ∧ second ↔ Passes) (kept : first → (after = base ↔ Kept calls base)) :
    Spec (if first then if second then some (after, lines) else none else none) Passes calls
      base := by
  constructor
  · intro passes
    obtain ⟨one, two⟩ := both.mpr passes
    rw [if_pos one, if_pos two]
    exact ⟨after, lines, rfl, kept one⟩
  · intro fails
    split
    next one => exact if_neg fun two => fails (both.mp ⟨one, two⟩)
    next => rfl

theorem kept_of_test {calls : Calls} {base : Word}
    (read : archGet calls.getTest (archSet calls.setTest base testVal) sentinel = testVal) :
    archSet calls.setOrig (archSet calls.setTest base testVal)
      (archGet calls.getOrig base sentinel) = base ↔ Kept calls base := by
  rw [((testPasses_iff calls base).mp read).base]
  exact kept_iff calls base

theorem gsSection_spec (calls : Calls) (base : Word) :
    Spec (gsSection calls base) (GsPasses calls base) calls base :=
  spec_of_asserts (gsPasses_iff calls base) kept_of_test

theorem fsSection_spec (calls : Calls) (base : Word) :
    Spec (fsSection calls base) (FsPasses calls base) calls base :=
  spec_of_asserts (fsPasses_iff calls base) kept_of_test

/-- **Both bases are restored** by every run that passes the assertions, if and only if such a
run has read the original base before it sets it again, in both sections; or the value it
sets, or leaves, happens to be the original one. -/
theorem restores_bases_iff (gsCalls fsCalls : Calls) (gs fs : Word) :
    (∀ after, main gsCalls fsCalls gs fs = some after → after.gs = gs ∧ after.fs = fs) ↔
      (GsPasses gsCalls gs → FsPasses fsCalls fs → Kept gsCalls gs ∧ Kept fsCalls fs) := by
  have gsSpec := gsSection_spec gsCalls gs
  have fsSpec := fsSection_spec fsCalls fs
  -- a section that passes ends with a base that is the original one exactly if it is kept
  constructor
  · intro claim gsPasses fsPasses
    obtain ⟨gs', gsLines, gsRuns, gsKept⟩ := gsSpec.passes gsPasses
    obtain ⟨fs', fsLines, fsRuns, fsKept⟩ := fsSpec.passes fsPasses
    have same := claim ⟨gs', fs', gsLines ++ fsLines⟩ (by rw [main, gsRuns, fsRuns])
    exact ⟨gsKept.mp same.1, fsKept.mp same.2⟩
  · intro kept after runs
    by_cases gsPasses : GsPasses gsCalls gs
    · obtain ⟨gs', gsLines, gsRuns, gsKept⟩ := gsSpec.passes gsPasses
      by_cases fsPasses : FsPasses fsCalls fs
      · obtain ⟨fs', fsLines, fsRuns, fsKept⟩ := fsSpec.passes fsPasses
        rw [main, gsRuns, fsRuns] at runs
        cases runs
        obtain ⟨inGs, inFs⟩ := kept gsPasses fsPasses
        exact ⟨gsKept.mpr inGs, fsKept.mpr inFs⟩
      · rw [main, gsRuns, fsSpec.fails fsPasses] at runs
        cases runs
    · rw [main, gsSpec.fails gsPasses] at runs
      cases runs

/-- The first call of the GS section fails and all others succeed: the sentinel is set as the
original base, and the last assertion compares the sentinel with itself. -/
theorem not_restores_bases :
    ¬ ∀ after, main ⟨false, true, true, true, true⟩ ⟨true, true, true, true, true⟩ 0
        0x7f0000000740 = some after → after.gs = 0 ∧ after.fs = 0x7f0000000740 := by
  intro claim
  have restored := (claim _ rfl).1
  revert restored
  decide

end GenericTests.ArchPrctl
