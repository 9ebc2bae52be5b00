import GenericTests.Lib.Memory

/-!
# timeclock64.c: struct timespec64 and the kernel's layout

The kernel keeps the nanoseconds in eight bytes, the program in a `long`. Where a `long`
has four bytes, the struct has them first and its padding behind; in big-endian order
the kernel's significant bytes are the other four.
-/
namespace GenericTests.Timeclock64

open GenericTests.CString GenericTests.Memory

/-- The targets of arch-makefiles. -/
inductive Target where
  | aarch64
  | arm
  | mips
  | ppc
  | x86_64
  deriving DecidableEq

namespace Target

/-- `sizeof(long)` -/
def longSize : Target → Nat
  | .aarch64 | .x86_64 => 8
  | .arm | .mips | .ppc => 4

def order : Target → ByteOrder
  | .aarch64 | .arm | .x86_64 => .little
  | .mips | .ppc => .big

/-- The padding of `struct timespec64`, which is aligned for its `long long`. -/
def paddingSize (target : Target) : Nat := 8 - target.longSize

end Target

/-- A time as the two fields tell it. -/
@[ext] structure Time where
  sec : Int
  nsec : Int
  deriving DecidableEq

/-- Times the kernel gives out. -/
structure Time.Valid (t : Time) : Prop where
  lower : -9223372036854775808 ≤ t.sec
  upper : t.sec ≤ 9223372036854775807
  nonneg : 0 ≤ t.nsec
  billion : t.nsec < 1000000000

section Layout

variable (target : Target)

/-! ### The kernel -/

def kernelBytes (t : Time) : List Byte :=
  encodeInt target.order 8 t.sec ++ encodeInt target.order 8 t.nsec

/-- Of a 32-bit caller the kernel takes the low 32 bits of the nanoseconds. -/
def kernelRead (bytes : List Byte) : Time where
  sec := decodeInt target.order (bytes.take 8)
  nsec := if target.longSize = 4 then (decode target.order ((bytes.drop 8).take 8) % 4294967296 : Nat)
    else decodeInt target.order ((bytes.drop 8).take 8)

/-! ### The program -/

/-- The fields of a `struct timespec64` in memory. -/
def readTimespec64 (bytes : List Byte) : Time where
  sec := decodeInt target.order (bytes.take 8)
  nsec := decodeInt target.order ((bytes.drop 8).take target.longSize)

/-- A `struct timespec64` in memory. -/
def timespec64 (t : Time) (padding : List Byte) : List Byte :=
  encodeInt target.order 8 t.sec ++ (encodeInt target.order target.longSize t.nsec ++ padding)

/-- clock_gettime64 into `ts`, the fields of `ts` into `setts`, clock_settime64 from
`setts`. -/
def settime (stored : List Byte) (padding : List Byte) : Time :=
  let ts := readTimespec64 target stored
  let setts := timespec64 target ⟨ts.sec, ts.nsec⟩ padding
  kernelRead target setts

/-- The program and the kernel mean the same by the same bytes. -/
structure Agrees (t : Time) : Prop where
  reads : readTimespec64 target (kernelBytes target t) = t
  writes : ∀ padding, padding.length = target.paddingSize →
    kernelRead target (timespec64 target t padding) = t
  copies : ∀ padding, padding.length = target.paddingSize →
    settime target (kernelBytes target t) padding = t

/-! ### Seconds -/

theorem decodeInt_sec (t : Time) (valid : t.Valid) :
    decodeInt target.order (encodeInt target.order 8 t.sec) = t.sec := by
  have lower := valid.lower
  have upper := valid.upper
  exact decodeInt_encodeInt target.order 8 t.sec (by omega) (by omega)

theorem sec_readTimespec64 (t : Time) (valid : t.Valid) :
    (readTimespec64 target (kernelBytes target t)).sec = t.sec := by
  rw [readTimespec64, kernelBytes]
  dsimp only
  rw [List.take_left' (length_encodeInt ..), decodeInt_sec target t valid]

theorem sec_kernelRead (t : Time) (valid : t.Valid) (padding : List Byte) :
    (kernelRead target (timespec64 target t padding)).sec = t.sec := by
  rw [kernelRead, timespec64]
  dsimp only
  rw [List.take_left' (length_encodeInt ..), decodeInt_sec target t valid]

/-! ### Nanoseconds -/

/-- What the program and the kernel see of the nanoseconds. -/
theorem nsec_readTimespec64 (t : Time) :
    (readTimespec64 target (kernelBytes target t)).nsec =
      decodeInt target.order ((encodeInt target.order 8 t.nsec).take target.longSize) := by
  rw [readTimespec64, kernelBytes]
  dsimp only
  rw [List.drop_left' (length_encodeInt ..)]

theorem drop_timespec64 (t : Time) (padding : List Byte)
    (length : padding.length = target.paddingSize) :
    ((timespec64 target t padding).drop 8).take 8 =
      encodeInt target.order target.longSize t.nsec ++ padding := by
  rw [timespec64, List.drop_left' (length_encodeInt ..)]
  apply List.take_of_length_le
  rw [List.length_append, length_encodeInt, length, Target.paddingSize]
  cases target <;> decide

end Layout

/-- The nanoseconds as an unsigned number of four or eight bytes. -/
theorem encodeInt_nsec (order : ByteOrder) (n : Nat) (t : Time) (valid : t.Valid) (wide : 4 ≤ n) :
    encodeInt order n t.nsec = encode order n t.nsec.toNat := by
  have large : (256 : Int) ^ 4 ≤ 256 ^ n := by
    exact_mod_cast Nat.pow_le_pow_right (by decide) wide
  have nonneg := valid.nonneg
  have billion := valid.billion
  rw [encodeInt, Int.emod_eq_of_lt nonneg (by omega)]

/-- Eight bytes on both sides: there is no padding. -/
theorem agrees_wide (target : Target) (wide : target.longSize = 8) (t : Time) (valid : t.Valid) :
    (readTimespec64 target (kernelBytes target t)).nsec = t.nsec ∧
    ∀ padding, padding.length = target.paddingSize →
      (kernelRead target (timespec64 target t padding)).nsec = t.nsec := by
  have nonneg := valid.nonneg
  have billion := valid.billion
  have decoded : decodeInt target.order (encodeInt target.order 8 t.nsec) = t.nsec :=
    decodeInt_encodeInt target.order 8 t.nsec (by omega) (by omega)
  constructor
  · rw [nsec_readTimespec64, wide, List.take_of_length_le (by rw [length_encodeInt]), decoded]
  · intro padding length
    have none : padding = [] := by
      rw [Target.paddingSize, wide] at length
      exact List.eq_nil_of_length_eq_zero length
    have narrow : ¬ target.longSize = 4 := by omega
    rw [kernelRead]
    dsimp only
    rw [if_neg narrow, drop_timespec64 target t padding length, none, wide, List.append_nil, decoded]

/-- Little-endian: the significant bytes come first on both sides. -/
theorem agrees_little (target : Target) (narrow : target.longSize = 4)
    (little : target.order = .little) (t : Time) (valid : t.Valid) :
    (readTimespec64 target (kernelBytes target t)).nsec = t.nsec ∧
    ∀ padding, padding.length = target.paddingSize →
      (kernelRead target (timespec64 target t padding)).nsec = t.nsec := by
  have nonneg := valid.nonneg
  have billion := valid.billion
  constructor
  · have low : (encodeInt .little 8 t.nsec).take 4 = encodeInt .little 4 t.nsec := by
      rw [encodeInt_nsec .little 8 t valid (by decide), encodeInt_nsec .little 4 t valid (by decide)]
      have split := encodeLittle_add 4 4 t.nsec.toNat
      rw [encode, encode, split]
      exact List.take_left' (length_encodeLittle 4 _)
    rw [nsec_readTimespec64, narrow, little, low]
    exact decodeInt_encodeInt .little 4 t.nsec (by omega) (by omega)
  · intro padding length
    rw [kernelRead]
    dsimp only
    rw [if_pos narrow, drop_timespec64 target t padding length, narrow, little,
      encodeInt_nsec .little 4 t valid (by decide), decode, decodeLittle_append, encode,
      decodeLittle_encodeLittle 4 _ (by omega), length_encodeLittle]
    omega

/-- Big-endian: what the kernel takes for the nanoseconds is the padding. -/
theorem kernelRead_big (target : Target) (narrow : target.longSize = 4)
    (big : target.order = .big) (t : Time) (padding : List Byte)
    (length : padding.length = target.paddingSize) :
    (kernelRead target (timespec64 target t padding)).nsec = decode .big padding := by
  have four : padding.length = 4 := by
    rw [length, Target.paddingSize, narrow]
  have bound := decodeLittle_lt padding.reverse
  rw [List.length_reverse, four] at bound
  rw [kernelRead]
  dsimp only
  rw [if_pos narrow, drop_timespec64 target t padding length, big, decode, List.reverse_append,
    decodeLittle_append, List.length_reverse, four, decode]
  omega

/-- **Layout of a time**: the program and the kernel agree on a target if and only if it is
not a 32-bit big-endian one. -/
theorem agrees_iff (target : Target) (t : Time) (valid : t.Valid) :
    Agrees target t ↔ ¬ (target.longSize = 4 ∧ target.order = .big) := by
  constructor
  · rintro agrees ⟨narrow, big⟩
    have nonneg := valid.nonneg
    have billion := valid.billion
    -- a padding that reads as one nanosecond more
    have length : (encode .big 4 (t.nsec.toNat + 1)).length = target.paddingSize := by
      rw [length_encode, Target.paddingSize, narrow]
    have read := kernelRead_big target narrow big t _ length
    rw [agrees.writes _ length, decode_encode .big 4 _ (by omega)] at read
    omega
  · intro notBig
    have halves : (readTimespec64 target (kernelBytes target t)).nsec = t.nsec ∧
        ∀ padding, padding.length = target.paddingSize →
          (kernelRead target (timespec64 target t padding)).nsec = t.nsec := by
      by_cases wide : target.longSize = 8
      · exact agrees_wide target wide t valid
      · have narrow : target.longSize = 4 := by cases target <;> first | rfl | exact absurd rfl wide
        have little : target.order = .little := by
          cases order : target.order with
          | little => rfl
          | big => exact absurd ⟨narrow, order⟩ notBig
        exact agrees_little target narrow little t valid
    have reads : readTimespec64 target (kernelBytes target t) = t :=
      Time.ext (sec_readTimespec64 target t valid) halves.1
    have writes : ∀ padding, padding.length = target.paddingSize →
        kernelRead target (timespec64 target t padding) = t := by
      intro padding length
      exact Time.ext (sec_kernelRead target t valid padding) (halves.2 padding length)
    refine ⟨reads, writes, ?_⟩
    intro padding length
    rw [settime, reads]
    exact writes padding length

/-- One nanosecond past midnight of January 1, 1970 on MIPS: the program reads none. -/
theorem not_agrees_mips :
    ¬ ∀ (target : Target) (t : Time), t.Valid → Agrees target t := by
  intro claim
  have reads := (claim .mips ⟨0, 1⟩ ⟨by decide, by decide, by decide, by decide⟩).reads
  exact absurd (congrArg Time.nsec reads) (by decide)

theorem agrees_arm : Agrees .arm ⟨1750000000, 999999999⟩ :=
  (agrees_iff .arm _ ⟨by decide, by decide, by decide, by decide⟩).mpr (by decide)

end GenericTests.Timeclock64
