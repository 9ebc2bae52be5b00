import GenericTests.Clock.DisplayClock

/-!
# clock.c: the id of the dynamic clock

main opens `/dev/ptp0`, makes a clock id of the descriptor and shows that clock. The kernel
takes ids from 0 on as its own clocks and finds the descriptor in the others.
-/
namespace GenericTests.Clock

open GenericTests.CString

/-- `clockid_t` -/
abbrev ClockId := BitVec 32

/-- `FD_TO_CLOCKID(fd)` -/
def fdToClockid (fd : BitVec 32) : ClockId := ((~~~fd) <<< 3) ||| 3#32

/-- The kernel's way back, with an arithmetic shift. -/
def clockidToFd (id : ClockId) : BitVec 32 := ~~~(id.sshiftRight 3)

/-- What `open` returns: -1, or a descriptor below `2 ^ 28`. -/
structure OpenResult where
  fd : BitVec 32
  range : fd.toInt = -1 ∨ 0 ≤ fd.toInt ∧ fd.toInt < 268435456

def ptpName : List Byte := ascii "/dev/ptp0"

/-- The calls of displayClock in main, with the result of the open. -/
def shownClocks (fd : BitVec 32) : List (ClockId × List Byte) :=
  [(0, ascii "CLOCK_REALTIME"), (11, ascii "CLOCK_TAI"), (1, ascii "CLOCK_MONOTONIC"),
    (7, ascii "CLOCK_BOOTTIME"), (fdToClockid fd, ptpName)]

/-- displayClock ends the program when a call fails. -/
def showAll (showRes : Bool) (gettime getres : ClockId → Option Timespec) :
    List (ClockId × List Byte) → Display
  | [] => ⟨[], true⟩
  | (id, name) :: rest =>
    let shown := displayClock name showRes (gettime id) (getres id)
    if shown.returns then
      let others := showAll showRes gettime getres rest
      ⟨shown.stdout ++ others.stdout, others.returns⟩
    else shown

/-- main; the result of the open is used as it is. -/
def main (argc : Nat) (opened : OpenResult) (gettime getres : ClockId → Option Timespec) : Display :=
  showAll (1 < argc) gettime getres (shownClocks opened.fd)

/-- The id stands for the open file and for nothing else. -/
structure Dynamic (fd : BitVec 32) (id : ClockId) : Prop where
  negative : id.toInt < 0
  low : id &&& 7#32 = 3#32
  decodes : clockidToFd id = fd
  apart : ∀ other : OpenResult, other.fd ≠ fd → fdToClockid other.fd ≠ id

/-! ### Arithmetic of the encoding -/

theorem toNat_and_seven (x : BitVec 32) : (x &&& 7#32).toNat = x.toNat % 8 := by
  rw [BitVec.toNat_and]
  exact Nat.and_two_pow_sub_one_eq_mod x.toNat 3

theorem toNat_shiftLeft_three (x : BitVec 32) : (x <<< 3).toNat = x.toNat * 8 % 4294967296 := by
  rw [BitVec.toNat_shiftLeft, Nat.shiftLeft_eq]

/-- The shift leaves room for the low bits. -/
theorem shiftLeft_or_three (x : BitVec 32) : x <<< 3 ||| 3#32 = x <<< 3 + 3#32 := by
  have low : x <<< 3 &&& 7#32 = 0#32 := by
    apply BitVec.eq_of_toNat_eq
    rw [toNat_and_seven, toNat_shiftLeft_three]
    simp only [BitVec.toNat_ofNat]
    omega
  have three : 3#32 = 7#32 &&& 3#32 := by decide
  apply (BitVec.add_eq_or_of_and_eq_zero _ _ _).symm
  rw [three, ← BitVec.and_assoc, low, BitVec.zero_and]

theorem toNat_fdToClockid (fd : BitVec 32) :
    (fdToClockid fd).toNat = (4294967295 - fd.toNat) * 8 % 4294967296 + 3 := by
  rw [fdToClockid, shiftLeft_or_three, BitVec.toNat_add, toNat_shiftLeft_three, BitVec.toNat_not]
  simp only [BitVec.toNat_ofNat]
  omega

theorem toInt_fdToClockid (opened : OpenResult) :
    (fdToClockid opened.fd).toInt = -8 * opened.fd.toInt - 5 := by
  have range := opened.range
  have bound := opened.fd.isLt
  rw [BitVec.toInt_eq_toNat_cond] at range
  rw [BitVec.toInt_eq_toNat_cond, BitVec.toInt_eq_toNat_cond, toNat_fdToClockid]
  omega

theorem fdToClockid_low (fd : BitVec 32) : fdToClockid fd &&& 7#32 = 3#32 := by
  apply BitVec.eq_of_toNat_eq
  rw [toNat_and_seven, toNat_fdToClockid]
  simp only [BitVec.toNat_ofNat]
  omega

theorem clockidToFd_fdToClockid (opened : OpenResult) :
    clockidToFd (fdToClockid opened.fd) = opened.fd := by
  apply BitVec.eq_of_toInt_eq
  have shifted : ((fdToClockid opened.fd).sshiftRight 3).toInt = -opened.fd.toInt - 1 := by
    rw [BitVec.toInt_sshiftRight, toInt_fdToClockid, Int.shiftRight_eq_div_pow]
    omega
  have bound := ((fdToClockid opened.fd).sshiftRight 3).isLt
  rw [BitVec.toInt_eq_toNat_cond] at shifted
  rw [clockidToFd, BitVec.toInt_eq_toNat_cond, BitVec.toNat_not]
  omega

theorem fdToClockid_injective (opened other : OpenResult)
    (same : fdToClockid other.fd = fdToClockid opened.fd) : other.fd = opened.fd := by
  rw [← clockidToFd_fdToClockid other, same, clockidToFd_fdToClockid]

theorem mem_shownClocks_ptp (fd : BitVec 32) (id : ClockId) :
    (id, ptpName) ∈ shownClocks fd ↔ id = fdToClockid fd := by
  have others : ptpName ≠ ascii "CLOCK_REALTIME" ∧ ptpName ≠ ascii "CLOCK_TAI" ∧
      ptpName ≠ ascii "CLOCK_MONOTONIC" ∧ ptpName ≠ ascii "CLOCK_BOOTTIME" := by decide
  simp [shownClocks, others]

/-- **The clock shown as `/dev/ptp0` is the dynamic clock** of the opened file if and only if
the file was opened. -/
theorem dynamic_clock_iff (opened : OpenResult) :
    (∀ id, (id, ptpName) ∈ shownClocks opened.fd → Dynamic opened.fd id) ↔
      0 ≤ opened.fd.toInt := by
  have encoded := toInt_fdToClockid opened
  simp only [mem_shownClocks_ptp, forall_eq]
  constructor
  · intro claim
    have negative := claim.negative
    omega
  · intro success
    refine ⟨by omega, fdToClockid_low _, clockidToFd_fdToClockid opened, fun other apart same => ?_⟩
    exact apart (fdToClockid_injective opened other same)

/-- The open fails: the id is 3, the CPU time of the thread. -/
theorem not_dynamic_clock :
    ¬ ∀ opened : OpenResult, ∀ id, (id, ptpName) ∈ shownClocks opened.fd →
        Dynamic opened.fd id := by
  intro claim
  have shown : (3#32, ptpName) ∈ shownClocks (-1) := by decide
  have negative := (claim ⟨-1, .inl (by decide)⟩ 3#32 shown).negative
  revert negative
  decide

end GenericTests.Clock
