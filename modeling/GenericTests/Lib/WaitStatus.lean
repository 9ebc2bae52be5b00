import GenericTests.Lib.Processes
import Mathlib.Data.Nat.Bitwise

/-!
# The status word of waitpid

The kernel packs what happened to a child into an `int`, and the macros of `<sys/wait.h>`
take it apart again. A signal number that fills the seven bits it has is read as the mark
of a stopped child.
-/
namespace GenericTests.WaitStatus

open GenericTests.Processes

abbrev Word := BitVec 32

/-! ### The macros -/

/-- `WTERMSIG(status)` -/
def wtermsig (w : Word) : Nat := (w &&& 0x7f#32).toNat

/-- `WEXITSTATUS(status)` -/
def wexitstatus (w : Word) : Nat := ((w &&& 0xff00#32) >>> 8).toNat

/-- `WSTOPSIG(status)` -/
def wstopsig (w : Word) : Nat := wexitstatus w

/-- `WIFEXITED(status)` -/
def wifexited (w : Word) : Bool := decide (wtermsig w = 0)

/-- `WIFSIGNALED(status)`: `((signed char) ((status & 0x7f) + 1) >> 1) > 0` -/
def wifsignaled (w : Word) : Bool :=
  decide (0 < (((w &&& 0x7f#32) + 1#32).setWidth 8).toInt >>> (1 : Nat))

/-- `WIFSTOPPED(status)` -/
def wifstopped (w : Word) : Bool := decide (w &&& 0xff#32 = 0x7f#32)

/-- `WIFCONTINUED(status)` -/
def wifcontinued (w : Word) : Bool := decide (w = 0xffff#32)

/-- The chain of tests behind `waitpid`. -/
def decode (w : Word) : Option Status :=
  if wifexited w then some (.exited (wexitstatus w))
  else if wifsignaled w then some (.killed (wtermsig w))
  else if wifstopped w then some (.stopped (wstopsig w))
  else if wifcontinued w then some .continued
  else none

/-- `WIFEXITED(status) || WIFSIGNALED(status)`, which ends the loops around `waitpid` -/
def ends (w : Word) : Bool := wifexited w || wifsignaled w

/-! ### The kernel -/

/-- `(code & 0xff) << 8` -/
def exitWord (code : Word) : Word := (code &&& 0xff#32) <<< 8

def encode (core : Bool) : Status → Word
  | .exited status => exitWord (BitVec.ofNat 32 status)
  -- the eighth bit tells of a core dump
  | .killed signal => BitVec.ofNat 32 signal ||| if core then 0x80#32 else 0#32
  | .stopped signal => BitVec.ofNat 32 signal <<< 8 ||| 0x7f#32
  | .continued => 0xffff#32

/-- Exit statuses have eight bits; there are signals up to 127 on some machines. -/
def InRange : Status → Prop
  | .exited status => status < 256
  | .killed signal | .stopped signal => 1 ≤ signal ∧ signal ≤ 127
  | .continued => True

/-- What can happen to a child. -/
structure Report where
  status : Status
  inRange : InRange status
  /-- a core was dumped -/
  core : Bool

def Report.word (r : Report) : Word := encode r.core r.status

/-! ### Arithmetic of the words -/

theorem wtermsig_eq (w : Word) : wtermsig w = w.toNat % 128 := by
  rw [wtermsig, BitVec.toNat_and]
  exact Nat.and_two_pow_sub_one_eq_mod w.toNat 7

theorem toNat_and_byte (w : Word) : (w &&& 0xff#32).toNat = w.toNat % 256 := by
  rw [BitVec.toNat_and]
  exact Nat.and_two_pow_sub_one_eq_mod w.toNat 8

theorem wexitstatus_eq (w : Word) : wexitstatus w = w.toNat / 256 % 256 := by
  have mask : 0xff00#32 >>> 8 = 0xff#32 := by decide
  rw [wexitstatus, BitVec.ushiftRight_and_distrib, mask, toNat_and_byte, BitVec.toNat_ushiftRight,
    Nat.shiftRight_eq_div_pow]

theorem wifexited_iff (w : Word) : wifexited w = true ↔ w.toNat % 128 = 0 := by
  rw [wifexited, wtermsig_eq, decide_eq_true_eq]

theorem wifsignaled_iff (w : Word) :
    wifsignaled w = true ↔ w.toNat % 128 ≠ 0 ∧ w.toNat % 128 ≠ 127 := by
  have low : (w &&& 0x7f#32).toNat = w.toNat % 128 := wtermsig_eq w
  have byte : (((w &&& 0x7f#32) + 1#32).setWidth 8).toNat = w.toNat % 128 + 1 := by
    rw [BitVec.toNat_setWidth, BitVec.toNat_add, low]
    simp only [BitVec.toNat_ofNat]
    omega
  rw [wifsignaled, decide_eq_true_eq, BitVec.toInt_eq_toNat_cond, byte, Int.shiftRight_eq_div_pow]
  split <;> omega

theorem wifstopped_iff (w : Word) : wifstopped w = true ↔ w.toNat % 256 = 127 := by
  rw [wifstopped, decide_eq_true_eq, ← BitVec.toNat_inj, toNat_and_byte]
  rfl

theorem wifcontinued_iff (w : Word) : wifcontinued w = true ↔ w.toNat = 65535 := by
  rw [wifcontinued, decide_eq_true_eq, ← BitVec.toNat_inj]
  rfl

theorem toNat_exitWord (code : Word) : (exitWord code).toNat = code.toNat % 256 * 256 := by
  rw [exitWord, BitVec.toNat_shiftLeft, Nat.shiftLeft_eq, toNat_and_byte]
  omega

theorem toNat_killed (core : Bool) (signal : Nat) (h : signal ≤ 127) :
    (encode core (.killed signal)).toNat = signal + if core then 128 else 0 := by
  have bits : signal < 2 ^ 7 := by omega
  simp only [encode, BitVec.toNat_or, BitVec.toNat_ofNat]
  rw [Nat.mod_eq_of_lt (by omega)]
  cases core with
  | false => exact Nat.or_zero signal
  | true =>
    have sum := Nat.two_pow_add_eq_or_of_lt bits 1
    rw [Nat.lor_comm] at sum
    exact sum.symm.trans (Nat.add_comm _ _)

theorem toNat_stopped (core : Bool) (signal : Nat) (h : signal ≤ 127) :
    (encode core (.stopped signal)).toNat = signal * 256 + 127 := by
  have bits : 127 < 2 ^ 8 := by decide
  have sum := Nat.two_pow_add_eq_or_of_lt bits signal
  simp only [encode, BitVec.toNat_or, BitVec.toNat_shiftLeft, BitVec.toNat_ofNat, Nat.shiftLeft_eq]
  rw [Nat.mod_eq_of_lt (a := signal) (by omega), Nat.mod_eq_of_lt (a := signal * _) (by omega),
    Nat.mul_comm]
  exact sum.symm

/-! ### Taking a word apart -/

/-- The tests by the low bits of the word; each excludes the others. -/
theorem decode_eq (w : Word) : decode w =
    if w.toNat % 128 = 0 then some (.exited (w.toNat / 256 % 256))
    else if w.toNat % 128 ≠ 127 then some (.killed (w.toNat % 128))
    else if w.toNat % 256 = 127 then some (.stopped (w.toNat / 256 % 256))
    else if w.toNat = 65535 then some .continued
    else none := by
  by_cases exited : w.toNat % 128 = 0
  · rw [decode, if_pos ((wifexited_iff w).mpr exited), if_pos exited, wexitstatus_eq]
  rw [decode, if_neg (by rwa [wifexited_iff]), if_neg exited]
  by_cases signaled : w.toNat % 128 ≠ 127
  · rw [if_pos ((wifsignaled_iff w).mpr ⟨exited, signaled⟩), if_pos signaled, wtermsig_eq]
  rw [if_neg (by rw [wifsignaled_iff]; exact fun h => signaled h.2), if_neg signaled]
  by_cases stopped : w.toNat % 256 = 127
  · rw [if_pos ((wifstopped_iff w).mpr stopped), if_pos stopped, wstopsig, wexitstatus_eq]
  rw [if_neg (by rwa [wifstopped_iff]), if_neg stopped]
  by_cases continued : w.toNat = 65535
  · rw [if_pos ((wifcontinued_iff w).mpr continued), if_pos continued]
  · rw [if_neg (by rwa [wifcontinued_iff]), if_neg continued]

/-- **Round trip**: what the kernel has packed comes out again, unless a child was killed by
the last signal. -/
theorem decode_encode (core : Bool) (status : Status) (inRange : InRange status)
    (other : status ≠ .killed 127) : decode (encode core status) = some status := by
  cases status with
  | exited status =>
    have small : status < 256 := inRange
    have value : (encode core (.exited status)).toNat = status * 256 := by
      rw [encode, toNat_exitWord, BitVec.toNat_ofNat]
      omega
    rw [decode_eq, value, if_pos (by omega)]
    congr 2
    omega
  | killed signal =>
    obtain ⟨least, most⟩ := inRange
    have short : signal ≠ 127 := fun e => other (by rw [e])
    have low : (signal + if core = true then 128 else 0) % 128 = signal := by split <;> omega
    rw [decode_eq, toNat_killed core signal most, low, if_neg (by omega), if_pos short]
  | stopped signal =>
    obtain ⟨least, most⟩ := inRange
    rw [decode_eq, toNat_stopped core signal most, if_neg (by omega), if_neg (by omega),
      if_pos (by omega)]
    congr 2
    omega
  | continued => simp [decode_eq, encode]

/-- The status of a process that calls `exit`. -/
theorem exitWord_eq (core : Bool) (code : Word) :
    exitWord code = encode core (exitStatus code.toInt) := by
  apply BitVec.eq_of_toNat_eq
  have bound := code.isLt
  simp only [exitStatus, encode, toNat_exitWord, BitVec.toNat_ofNat, BitVec.toInt_eq_toNat_cond]
  split <;> omega

end GenericTests.WaitStatus
