import Mathlib.Data.List.Basic
import Mathlib.Data.List.TakeWhile

/-!
# Bytes, C strings and character arrays

A `Buffer n` is a C array `char b[n]`; writing never goes past its end. What `%s`
shows of an array is the bytes before its first NUL.
-/
namespace GenericTests.CString

abbrev Byte := UInt8

/-- A value of the C type `int`. -/
structure CInt where
  val : Int
  lower : -2147483648 ≤ val
  upper : val ≤ 2147483647

def byteOf (c : Char) : Byte := c.toNat.toUInt8

def ascii (s : String) : List Byte := s.toList.map byteOf

/-- The conversion `%d`. -/
def decimal (n : Int) : List Byte :=
  (if n < 0 then ascii "-" else []) ++ (Nat.toDigits 10 n.natAbs).map byteOf

/-- The conversion `%x`. -/
def hexadecimal (n : Nat) : List Byte := (Nat.toDigits 16 n).map byteOf

/-- The string that starts at a byte: everything before the first NUL. -/
def cstr (bytes : List Byte) : List Byte := bytes.takeWhile (fun b => decide (b ≠ 0))

structure Buffer (n : Nat) where
  bytes : List Byte
  length_eq : bytes.length = n

namespace Buffer

variable {n : Nat}

/-- An array filled with zeros. -/
def zeros (n : Nat) : Buffer n := ⟨List.replicate n 0, List.length_replicate⟩

/-- Overwrite the start of the array and leave the rest as it was. -/
def write (b : Buffer n) (src : List Byte) : Buffer n where
  bytes := (src ++ b.bytes.drop src.length).take n
  length_eq := by
    have := b.length_eq
    simp only [List.length_take, List.length_append, List.length_drop]
    omega

/-- `snprintf(b, n, ...)`: at most `n - 1` bytes of the text and a NUL. -/
def snprintf (b : Buffer n) (text : List Byte) : Buffer n := b.write (text.take (n - 1) ++ [0])

/-- What `printf("%s", b)` shows. -/
def text (b : Buffer n) : List Byte := cstr b.bytes

end Buffer

/-! ### Decimal numbers -/

private theorem digit_byte (c : Char) (h : c.isDigit = true) : 48 ≤ byteOf c ∧ byteOf c ≤ 57 := by
  have bounds : 48 ≤ c.toNat ∧ c.toNat ≤ 57 := by
    simp only [Char.isDigit, Bool.and_eq_true, decide_eq_true_eq] at h
    exact ⟨by simpa [UInt32.le_iff_toNat_le] using h.1, by simpa [UInt32.le_iff_toNat_le] using h.2⟩
  -- a code point below 256 is its own byte
  have value : (byteOf c).toNat = c.toNat := by
    simp only [byteOf, Nat.toUInt8, UInt8.toNat_ofNat']
    omega
  simp only [UInt8.le_iff_toNat_le, value]
  exact bounds

/-- `%d` writes a minus sign and digits, nothing else. -/
theorem mem_decimal (n : Int) (b : Byte) (h : b ∈ decimal n) : b = 45 ∨ 48 ≤ b ∧ b ≤ 57 := by
  simp only [decimal, List.mem_append, List.mem_map] at h
  rcases h with sign | ⟨c, hc, rfl⟩
  · left
    split at sign
    · simpa [ascii, byteOf] using sign
    · simp at sign
  · right
    exact digit_byte c (Nat.isDigit_of_mem_toDigits (by decide) (by decide) hc)

theorem length_decimal_le (n : Int) (h : n.natAbs < 10000000000) : (decimal n).length ≤ 11 := by
  have digits : (Nat.toDigits 10 n.natAbs).length ≤ 10 :=
    (Nat.length_toDigits_le_iff (by decide) (by decide)).mpr h
  simp only [decimal, List.length_append, List.length_map]
  split
  · simp only [ascii, List.length_map]
    have : "-".toList.length = 1 := by decide
    omega
  · simp only [List.length_nil]
    omega

/-! ### Strings in arrays -/

theorem cstr_append (text rest : List Byte) (h : (0 : Byte) ∉ text) :
    cstr (text ++ rest) = text ++ cstr rest := by
  apply List.takeWhile_append_of_pos
  intro b hb
  have nonzero : b ≠ 0 := fun e => h (e ▸ hb)
  simpa using nonzero

theorem cstr_append_nul (text rest : List Byte) (h : (0 : Byte) ∉ text) :
    cstr (text ++ 0 :: rest) = text := by
  rw [cstr_append text _ h]
  simp [cstr]

theorem nul_not_mem_cstr (bytes : List Byte) : (0 : Byte) ∉ cstr bytes := by
  intro member
  have nonzero := List.mem_takeWhile_imp member
  simp at nonzero

theorem cstr_of_no_nul (text : List Byte) (h : (0 : Byte) ∉ text) : cstr text = text := by
  have whole := cstr_append text [] h
  rw [List.append_nil] at whole
  exact whole.trans (List.append_nil text)

/-- No string starts at a NUL or at the end of the memory. -/
theorem cstr_eq_nil_iff (bytes : List Byte) : cstr bytes = [] ↔ ∀ b, bytes.head? = some b → b = 0 := by
  cases bytes with
  | nil => simp [cstr]
  | cons b bytes => simp [cstr, List.takeWhile_cons]

/-- A text is shown exactly if it has no NUL and nothing visible follows it. -/
theorem cstr_append_eq_iff (text rest : List Byte) :
    cstr (text ++ rest) = text ↔ (0 : Byte) ∉ text ∧ cstr rest = [] := by
  constructor
  · intro same
    have noNul : (0 : Byte) ∉ text := by
      intro member
      rw [← same] at member
      exact nul_not_mem_cstr _ member
    rw [cstr_append text rest noNul] at same
    exact ⟨noNul, List.append_right_eq_self.mp same⟩
  · rintro ⟨noNul, nothing⟩
    rw [cstr_append text rest noNul, nothing, List.append_nil]

/-- A NUL bounds the string before it. -/
theorem length_cstr_le (bytes : List Byte) (i : Nat) (h : bytes[i]? = some 0) :
    (cstr bytes).length ≤ i := by
  induction bytes generalizing i with
  | nil => cases h
  | cons b bytes ih =>
    rw [cstr, List.takeWhile_cons]
    split
    next nonzero =>
      cases i with
      -- the byte at 0 is NUL and not NUL
      | zero => simp_all
      | succ i => exact Nat.succ_le_succ (ih i h)
    next => exact Nat.zero_le i

/-- A string that stops before the end of the memory stops at a NUL. -/
theorem nul_behind_cstr (bytes : List Byte) (h : (cstr bytes).length < bytes.length) :
    bytes[(cstr bytes).length]? = some 0 := by
  induction bytes with
  | nil => cases h
  | cons b bytes ih =>
    by_cases nul : b = 0
    · subst nul
      rfl
    · have cons : cstr (b :: bytes) = b :: cstr bytes := by simp [cstr, nul]
      rw [cons, List.length_cons] at h ⊢
      rw [List.getElem?_cons_succ]
      exact ih (by simpa using h)

theorem head?_of_cstr (bytes text : List Byte) (b : Byte) (h : cstr bytes = b :: text) :
    bytes.head? = some b := by
  cases bytes with
  | nil => cases h
  | cons c bytes =>
    rw [cstr, List.takeWhile_cons] at h
    split at h
    · exact congrArg List.head? h
    · cases h

theorem Buffer.bytes_write {n : Nat} (b : Buffer n) (src : List Byte) (h : src.length ≤ n) :
    (b.write src).bytes = src ++ b.bytes.drop src.length := by
  have := b.length_eq
  simp only [write]
  apply List.take_of_length_le
  simp only [List.length_append, List.length_drop]
  omega

/-- A text that fits is shown back exactly, whatever the array held before. -/
theorem Buffer.text_snprintf {n : Nat} (b : Buffer n) (text : List Byte)
    (noNul : (0 : Byte) ∉ text) (fits : text.length < n) : (b.snprintf text).text = text := by
  -- Nothing is cut off, and the NUL hides what the array held after it.
  have whole : text.take (n - 1) = text := List.take_of_length_le (by omega)
  have room : (text ++ [0]).length ≤ n := by simp only [List.length_append, List.length_singleton]; omega
  simp only [Buffer.text, snprintf, whole, bytes_write b _ room, List.append_assoc, List.singleton_append]
  exact cstr_append_nul text _ noNul

end GenericTests.CString
