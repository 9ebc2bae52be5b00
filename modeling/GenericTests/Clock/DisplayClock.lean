import GenericTests.Lib.Printf

/-!
# clock.c: displayClock

Three of the printed fields are converted to `int`. Hours and minutes are reduced before
the conversion, the seconds after it.
-/
namespace GenericTests.Clock

open GenericTests.CString GenericTests.Printf

/-- `SECS_IN_DAY` -/
def secsInDay : Int := 24 * 60 * 60

/-- A value of a signed 64-bit type: `time_t`, `long` or `intmax_t`. -/
structure Long where
  val : Int
  lower : -9223372036854775808 ≤ val
  upper : val ≤ 9223372036854775807

structure Timespec where
  tvSec : Long
  tvNsec : Long

/-- The conversion `(int)`: the low 32 bits, in two's complement. -/
def toCInt (n : Int) : Int := (BitVec.ofInt 32 n).toInt

def days (ts : Timespec) : Int := ts.tvSec.val.tdiv secsInDay

/-- `(int) (ts.tv_sec % SECS_IN_DAY) / 3600` -/
def hours (ts : Timespec) : Int := (toCInt (ts.tvSec.val.tmod secsInDay)).tdiv 3600

/-- `(int) (ts.tv_sec % 3600) / 60` -/
def minutes (ts : Timespec) : Int := (toCInt (ts.tvSec.val.tmod 3600)).tdiv 60

/-- `(int) ts.tv_sec % 60`, where the cast binds more tightly than `%`. -/
def seconds (ts : Timespec) : Int := (toCInt ts.tvSec.val).tmod 60

/-- The conversion `%08lx`. -/
def longHex (n : Long) : List Byte := zeroPaddedHex 8 (BitVec.ofInt 64 n.val).toNat

def timeLine (name : List Byte) (ts : Timespec) : List Byte :=
  padRight 15 name ++ ascii ": [" ++ longHex ts.tvSec ++ ascii "," ++ longHex ts.tvNsec ++ ascii "] " ++
    padLeft 10 (decimal ts.tvSec.val) ++ ascii "." ++ zeroPadded 3 (ts.tvNsec.val.tdiv 1000000) ++
    ascii " (" ++
    (if days ts > 0 then decimal (days ts) ++ ascii " days + " else []) ++
    padLeft 2 (decimal (hours ts)) ++ ascii "h " ++ padLeft 2 (decimal (minutes ts)) ++ ascii "m " ++
    padLeft 2 (decimal (seconds ts)) ++ ascii "s" ++ ascii ")\n"

def resolutionLine (ts : Timespec) : List Byte :=
  ascii "     resolution: " ++ padLeft 10 (decimal ts.tvSec.val) ++ ascii "." ++
    zeroPadded 9 ts.tvNsec.val ++ ascii "\n"

/-- What displayClock prints, and whether it returns. -/
structure Display where
  stdout : List (List Byte)
  returns : Bool

/-- displayClock; `time` and `res` are what `clock_gettime` and `clock_getres` store, and
`none` is their failure. -/
def displayClock (name : List Byte) (showRes : Bool) (time res : Option Timespec) : Display :=
  match time with
  | none => ⟨[], false⟩
  | some ts =>
    match res with
    | none => ⟨[timeLine name ts], false⟩
    | some ts' => ⟨[timeLine name ts] ++ if showRes then [resolutionLine ts'] else [], true⟩

/-- The days that are shown; a missing field counts as 0. -/
def shownDays (ts : Timespec) : Int := if days ts > 0 then days ts else 0

/-- The fields are the decomposition of the time. -/
structure Decomposes (ts : Timespec) : Prop where
  total : 86400 * shownDays ts + 3600 * hours ts + 60 * minutes ts + seconds ts = ts.tvSec.val
  hours : 0 ≤ hours ts ∧ hours ts < 24
  minutes : 0 ≤ minutes ts ∧ minutes ts < 60
  seconds : 0 ≤ seconds ts ∧ seconds ts < 60

/-! ### The three conversions -/

theorem toCInt_eq (n : Int) :
    toCInt n = if n % 4294967296 < 2147483648 then n % 4294967296
      else n % 4294967296 - 4294967296 := by
  rw [toCInt, BitVec.toInt_ofInt, Int.bmod]
  rfl

theorem toCInt_of_small (n : Int) (nonneg : 0 ≤ n) (small : n < 2147483648) : toCInt n = n := by
  rw [toCInt_eq]
  split
  · omega
  · omega

theorem hours_eq (ts : Timespec) (nonneg : 0 ≤ ts.tvSec.val) :
    hours ts = ts.tvSec.val % 86400 / 3600 := by
  have day : secsInDay = 86400 := rfl
  rw [hours, day, Int.tmod_eq_emod_of_nonneg nonneg, toCInt_of_small _ (by omega) (by omega),
    Int.tdiv_eq_ediv_of_nonneg (by omega)]

theorem minutes_eq (ts : Timespec) (nonneg : 0 ≤ ts.tvSec.val) :
    minutes ts = ts.tvSec.val % 3600 / 60 := by
  rw [minutes, Int.tmod_eq_emod_of_nonneg nonneg, toCInt_of_small _ (by omega) (by omega),
    Int.tdiv_eq_ediv_of_nonneg (by omega)]

theorem shownDays_eq (ts : Timespec) (nonneg : 0 ≤ ts.tvSec.val) :
    shownDays ts = ts.tvSec.val / 86400 := by
  rw [shownDays, days, secsInDay, Int.tdiv_eq_ediv_of_nonneg nonneg]
  split
  · rfl
  · omega

/-- The remainder takes its sign from the converted value. -/
theorem seconds_eq (ts : Timespec) :
    seconds ts = if 0 ≤ toCInt ts.tvSec.val then toCInt ts.tvSec.val % 60
      else -(-toCInt ts.tvSec.val % 60) := by
  rw [seconds]
  split
  next nonneg => exact Int.tmod_eq_emod_of_nonneg nonneg
  next negative =>
    have flipped := Int.neg_tmod (-toCInt ts.tvSec.val) 60
    rw [Int.neg_neg] at flipped
    rw [flipped, Int.tmod_eq_emod_of_nonneg (by omega)]

/-- Everything but the seconds is right for every time. -/
theorem decomposes_iff_seconds (ts : Timespec) (nonneg : 0 ≤ ts.tvSec.val) :
    Decomposes ts ↔ seconds ts = ts.tvSec.val % 60 := by
  have h := hours_eq ts nonneg
  have m := minutes_eq ts nonneg
  have d := shownDays_eq ts nonneg
  constructor
  · intro whole
    have total := whole.total
    rw [h, m, d] at total
    omega
  · intro s
    refine ⟨?_, ?_, ?_, ?_⟩
    · rw [h, m, d, s]
      omega
    · rw [h]
      omega
    · rw [m]
      omega
    · rw [s]
      omega

/-- 2^32 leaves 16 when divided by 60, so only a multiple of 15 * 2^32 drops out. -/
private theorem multiple_drops (q x : Int) : (4294967296 * q + x) % 60 = x % 60 ↔ q % 15 = 0 := by
  have sixteen : (4294967296 * q + x) % 60 = (16 * q + x) % 60 := by omega
  rw [sixteen]
  omega

/-- The lower half of the 32-bit values: the conversion keeps `r`. -/
private theorem low_half (q r : Int) (nonneg : 0 ≤ r) (low : r < 2147483648) :
    r % 60 = (4294967296 * q + r) % 60 ↔
      4294967296 * (q % 15) + r < 2147483648 ∨
        62277025792 ≤ 4294967296 * (q % 15) + r ∧ (4294967296 * q + r) % 60 = 0 := by
  rw [eq_comm, multiple_drops]
  have wrap : 0 ≤ q % 15 ∧ q % 15 < 15 := by omega
  generalize q % 15 = j at wrap
  constructor
  · intro zero
    left
    omega
  · rintro (h | ⟨h, -⟩)
    · omega
    · omega

/-- The upper half: the conversion gives `r - 2^32`, whose remainder is not positive. -/
private theorem high_half (q r : Int) (high : 2147483648 ≤ r) (bound : r < 4294967296) :
    -(-(r - 4294967296) % 60) = (4294967296 * q + r) % 60 ↔
      4294967296 * (q % 15) + r < 2147483648 ∨
        62277025792 ≤ 4294967296 * (q % 15) + r ∧ (4294967296 * q + r) % 60 = 0 := by
  have drops := multiple_drops (q + 1) (r - 4294967296)
  have shifted : 4294967296 * (q + 1) + (r - 4294967296) = 4294967296 * q + r := by omega
  have last : (q + 1) % 15 = 0 ↔ q % 15 = 14 := by omega
  have wrap : 0 ≤ q % 15 ∧ q % 15 < 15 := by omega
  rw [shifted, last] at drops
  have range : 0 ≤ (4294967296 * q + r) % 60 := by omega
  generalize q % 15 = j at drops wrap
  generalize (4294967296 * q + r) % 60 = x at drops range
  constructor
  · intro same
    have zero : x = 0 := by omega
    have : j = 14 := drops.mp (by omega)
    exact .inr ⟨by omega, zero⟩
  · rintro (h | ⟨h, zero⟩)
    · omega
    · have same := drops.mpr (by omega)
      omega

/-- **Decomposition of a time**: the fields add up to the time if and only if it is less
than 2^31 behind a multiple of 15 * 2^32, or a multiple of 60 that is at most 2^31 before
one. -/
theorem decomposes_iff (ts : Timespec) (nonneg : 0 ≤ ts.tvSec.val) :
    Decomposes ts ↔ ts.tvSec.val % 64424509440 < 2147483648 ∨
      62277025792 ≤ ts.tvSec.val % 64424509440 ∧ ts.tvSec.val % 60 = 0 := by
  rw [decomposes_iff_seconds ts nonneg, seconds_eq, toCInt_eq]
  generalize ts.tvSec.val = t
  obtain ⟨q, hq⟩ : ∃ q, q = t / 4294967296 := ⟨_, rfl⟩
  obtain ⟨r, hr⟩ : ∃ r, r = t % 4294967296 := ⟨_, rfl⟩
  have bounds : 0 ≤ r ∧ r < 4294967296 := by omega
  have split_t : t = 4294967296 * q + r := by omega
  have within : t % 64424509440 = 4294967296 * (q % 15) + r := by omega
  rw [within, ← hr, split_t]
  by_cases low : r < 2147483648
  · rw [if_pos low, if_pos bounds.1]
    exact low_half q r bounds.1 low
  · rw [if_neg low, if_neg (by omega)]
    exact high_half q r (by omega) bounds.2

/-- 2^31: the converted value is negative, and 8 seconds are shown as -8. -/
theorem not_decomposes_past_int :
    ¬ ∀ ts : Timespec, 0 ≤ ts.tvSec.val → Decomposes ts := by
  intro claim
  have total := (claim ⟨⟨2147483648, by decide, by decide⟩, ⟨0, by decide, by decide⟩⟩ (by decide)).total
  exact absurd total (by decide)

/-- A time of the year 2025. -/
theorem decomposes_today : Decomposes ⟨⟨1750000000, by decide, by decide⟩, ⟨0, by decide, by decide⟩⟩ :=
  (decomposes_iff _ (by decide)).mpr (.inl (by decide))

end GenericTests.Clock
