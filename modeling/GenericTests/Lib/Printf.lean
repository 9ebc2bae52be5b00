import GenericTests.Lib.CString
import Mathlib.Algebra.Ring.Nat

/-!
# Numbers in text

The conversions of `printf` that have a field width, and the reading of unsigned decimal
numbers. Leading zeros do not change what is read.
-/
namespace GenericTests.Printf

open GenericTests.CString

/-- A field of at least `width` bytes, filled with blanks on the left. -/
def padLeft (width : Nat) (text : List Byte) : List Byte :=
  List.replicate (width - text.length) 32 ++ text

/-- A field of at least `width` bytes, filled with blanks on the right. -/
def padRight (width : Nat) (text : List Byte) : List Byte :=
  text ++ List.replicate (width - text.length) 32

def sign (n : Int) : List Byte := if n < 0 then ascii "-" else []

def digits (n : Nat) : List Byte := (Nat.toDigits 10 n).map byteOf

/-- The conversion `%0*d`: the zeros stand between the sign and the digits. -/
def zeroPadded (width : Nat) (n : Int) : List Byte :=
  sign n ++ (List.replicate (width - (sign n).length - (digits n.natAbs).length) 48 ++
    digits n.natAbs)

/-- The conversion `%0*x`. -/
def zeroPaddedHex (width n : Nat) : List Byte :=
  List.replicate (width - (hexadecimal n).length) 48 ++ hexadecimal n

def isDigit (b : Byte) : Bool := decide (48 ≤ b) && decide (b ≤ 57)

def value (text : List Byte) : Nat := text.foldl (fun v b => 10 * v + (b.toNat - 48)) 0

/-- The number at the start of a text, and what stands behind it. -/
def number (text : List Byte) : Option (Nat × List Byte) :=
  if (text.takeWhile isDigit).isEmpty then none
  else some (value (text.takeWhile isDigit), text.dropWhile isDigit)

/-- White space in the C locale. -/
def isSpace (b : Byte) : Bool := decide (b = 32) || decide (9 ≤ b) && decide (b ≤ 13)

/-- `atoi`: white space, a sign and digits; whatever follows is ignored. -/
def atoi (text : List Byte) : Int :=
  match text.dropWhile isSpace with
  | 45 :: rest => -value (rest.takeWhile isDigit)
  | 43 :: rest => value (rest.takeWhile isDigit)
  | rest => value (rest.takeWhile isDigit)

/-! ### Digits -/

theorem length_digits_le_iff (n k : Nat) (h : 0 < k) : (digits n).length ≤ k ↔ n < 10 ^ k := by
  rw [digits, List.length_map]
  exact Nat.length_toDigits_le_iff (by decide) h

theorem digits_ne_nil (n : Nat) : digits n ≠ [] := by
  simp [digits]

private theorem toNat_byteOf (c : Char) (h : c.isDigit = true) : (byteOf c).toNat = c.toNat := by
  have bound : c.toNat ≤ 57 := by
    simp only [Char.isDigit, Bool.and_eq_true, decide_eq_true_eq] at h
    simpa [UInt32.le_iff_toNat_le] using h.2
  simp only [byteOf, Nat.toUInt8, UInt8.toNat_ofNat']
  omega

theorem isDigit_of_mem_digits (n : Nat) (b : Byte) (h : b ∈ digits n) : isDigit b = true := by
  obtain ⟨c, hc, rfl⟩ := List.mem_map.mp h
  have digit := Nat.isDigit_of_mem_toDigits (by decide) (by decide) hc
  have same := toNat_byteOf c digit
  simp only [Char.isDigit, Bool.and_eq_true, decide_eq_true_eq] at digit
  have bounds : 48 ≤ c.toNat ∧ c.toNat ≤ 57 :=
    ⟨by simpa [UInt32.le_iff_toNat_le] using digit.1, by simpa [UInt32.le_iff_toNat_le] using digit.2⟩
  simp only [isDigit, Bool.and_eq_true, decide_eq_true_eq, UInt8.le_iff_toNat_le, same]
  exact bounds

/-- The digits of a number read back as the number, also behind zeros. -/
theorem value_digits (k n : Nat) : value (List.replicate k 48 ++ digits n) = n := by
  have zeros : List.replicate k (48 : Byte) = (List.replicate k '0').map byteOf := by
    rw [List.map_replicate]
    rfl
  have chars : ∀ cs : List Char, (∀ c ∈ cs, c.isDigit = true) → ∀ v,
      (cs.map byteOf).foldl (fun v b => 10 * v + (b.toNat - 48)) v = Nat.ofDigitChars 10 cs v := by
    intro cs
    induction cs with
    | nil => simp
    | cons c cs ih =>
      intro all v
      have here := toNat_byteOf c (all c List.mem_cons_self)
      rw [List.map_cons, List.foldl_cons, here, Nat.ofDigitChars_cons]
      exact ih (fun d hd => all d (List.mem_cons_of_mem c hd)) _
  rw [value, zeros, digits, ← List.map_append, chars, Nat.ofDigitChars_append,
    Nat.ofDigitChars_replicate_zero, Nat.mul_zero, Nat.ofDigitChars_ten_toDigits]
  intro c hc
  rcases List.mem_append.mp hc with h | h
  · rw [List.eq_of_mem_replicate h]
    rfl
  · exact Nat.isDigit_of_mem_toDigits (by decide) (by decide) h

/-! ### Reading a number -/

/-- A run of digits is read up to the first byte that is none. -/
theorem number_append (text rest : List Byte) (some_digit : text ≠ [])
    (all : ∀ b ∈ text, isDigit b = true) (stop : ∀ b, rest.head? = some b → isDigit b = false) :
    number (text ++ rest) = some (value text, rest) := by
  have takeRest : rest.takeWhile isDigit = [] ∧ rest.dropWhile isDigit = rest := by
    cases rest with
    | nil => exact ⟨rfl, rfl⟩
    | cons b rest =>
      have no := stop b rfl
      exact ⟨List.takeWhile_cons_of_neg (by simp [no]), List.dropWhile_cons_of_neg (by simp [no])⟩
  have take : (text ++ rest).takeWhile isDigit = text := by
    rw [List.takeWhile_append_of_pos all, takeRest.1, List.append_nil]
  have drop : (text ++ rest).dropWhile isDigit = rest := by
    rw [List.dropWhile_append_of_pos all, takeRest.2]
  have full : text.isEmpty = false := by simpa using some_digit
  simp only [number, take, drop, full, Bool.false_eq_true, if_false]

theorem number_of_not_digit (text : List Byte)
    (stop : ∀ b, text.head? = some b → isDigit b = false) : number text = none := by
  cases text with
  | nil => rfl
  | cons b text =>
    have no := stop b rfl
    simp [number, no]

end GenericTests.Printf
