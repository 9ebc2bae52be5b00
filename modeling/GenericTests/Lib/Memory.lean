import GenericTests.Lib.CString
import Mathlib.Data.Nat.Digits.Defs

/-!
# Byte-addressed memory

Unsigned integers of `n` bytes in either byte order, and the two laws that programs
rest on: a load returns what was stored there, and a store elsewhere does not matter.
-/
namespace GenericTests.Memory

open GenericTests.CString

inductive ByteOrder where
  | little
  | big
  deriving DecidableEq

def encodeLittle : Nat → Nat → List Byte
  | 0, _ => []
  | n + 1, v => UInt8.ofNat (v % 256) :: encodeLittle n (v / 256)

/-- The low `n` bytes of `v`. -/
def encode (order : ByteOrder) (n v : Nat) : List Byte :=
  match order with
  | .little => encodeLittle n v
  | .big => (encodeLittle n v).reverse

def decodeLittle (bytes : List Byte) : Nat := Nat.ofDigits 256 (bytes.map UInt8.toNat)

def decode (order : ByteOrder) (bytes : List Byte) : Nat :=
  match order with
  | .little => decodeLittle bytes
  | .big => decodeLittle bytes.reverse

abbrev Mem := Nat → Byte

namespace Mem

def bytes (m : Mem) (a n : Nat) : List Byte := (List.range n).map fun k => m (a + k)

def write (m : Mem) (a : Nat) (src : List Byte) : Mem :=
  -- past the end of src, getD falls back to the old byte
  fun x => if a ≤ x then src.getD (x - a) (m x) else m x

def load (m : Mem) (order : ByteOrder) (a n : Nat) : Nat := decode order (m.bytes a n)

def store (m : Mem) (order : ByteOrder) (a n v : Nat) : Mem := m.write a (encode order n v)

end Mem

/-! ### Integers -/

@[simp] theorem length_encodeLittle (n v : Nat) : (encodeLittle n v).length = n := by
  induction n generalizing v with
  | zero => rfl
  | succ n ih => simp only [encodeLittle, List.length_cons, ih]

@[simp] theorem length_encode (order : ByteOrder) (n v : Nat) : (encode order n v).length = n := by
  cases order <;> simp [encode]

theorem decodeLittle_encodeLittle (n v : Nat) (h : v < 256 ^ n) :
    decodeLittle (encodeLittle n v) = v := by
  -- v loses its low byte in every step, so the induction is for all v
  induction n generalizing v with
  | zero =>
    have : v = 0 := by simpa using h
    subst this
    rfl
  | succ n ih =>
    have quotient : v / 256 < 256 ^ n := Nat.div_lt_of_lt_mul (by rwa [Nat.pow_succ, Nat.mul_comm] at h)
    have rest := ih (v / 256) quotient
    simp only [decodeLittle] at rest
    simp only [decodeLittle, encodeLittle, List.map_cons, Nat.ofDigits_cons, rest]
    have digit : (UInt8.ofNat (v % 256)).toNat = v % 256 := by
      simp only [UInt8.toNat_ofNat', Nat.reducePow, Nat.mod_mod]
    rw [digit]
    omega

theorem decode_encode (order : ByteOrder) (n v : Nat) (h : v < 256 ^ n) :
    decode order (encode order n v) = v := by
  cases order with
  | little => exact decodeLittle_encodeLittle n v h
  | big => simpa only [decode, encode, List.reverse_reverse] using decodeLittle_encodeLittle n v h

theorem decodeLittle_append (low high : List Byte) :
    decodeLittle (low ++ high) = decodeLittle low + 256 ^ low.length * decodeLittle high := by
  rw [decodeLittle, List.map_append, Nat.ofDigits_append, List.length_map]
  rfl

theorem decodeLittle_lt (bytes : List Byte) : decodeLittle bytes < 256 ^ bytes.length := by
  have digits : ∀ x ∈ bytes.map UInt8.toNat, x < 256 := by
    intro x hx
    obtain ⟨b, -, rfl⟩ := List.mem_map.mp hx
    exact b.toNat_lt
  simpa [decodeLittle] using Nat.ofDigits_lt_base_pow_length (by decide) digits

/-- The low bytes of a wider integer are the narrower one, the high bytes its quotient. -/
theorem encodeLittle_add (n k v : Nat) :
    encodeLittle (n + k) v = encodeLittle n v ++ encodeLittle k (v / 256 ^ n) := by
  induction n generalizing v with
  | zero => simp [encodeLittle]
  | succ n ih =>
    have shift : v / 256 / 256 ^ n = v / 256 ^ (n + 1) := by
      rw [Nat.div_div_eq_div_mul, Nat.pow_succ, Nat.mul_comm 256]
    rw [Nat.add_right_comm, encodeLittle, ih, shift]
    rfl

/-! ### Signed integers -/

/-- The two's complement of `v` in `n` bytes. -/
def encodeInt (order : ByteOrder) (n : Nat) (v : Int) : List Byte :=
  encode order n (v % 256 ^ n).toNat

def decodeInt (order : ByteOrder) (bytes : List Byte) : Int :=
  if 2 * decode order bytes < 256 ^ bytes.length then decode order bytes
  else decode order bytes - 256 ^ bytes.length

@[simp] theorem length_encodeInt (order : ByteOrder) (n : Nat) (v : Int) :
    (encodeInt order n v).length = n := length_encode order n _

theorem decodeInt_encodeInt (order : ByteOrder) (n : Nat) (v : Int)
    (lower : -(256 ^ n : Int) ≤ 2 * v) (upper : 2 * v < 256 ^ n) :
    decodeInt order (encodeInt order n v) = v := by
  have positive : (0 : Int) < 256 ^ n := Int.pow_pos (by decide)
  have cast : ((256 ^ n : Nat) : Int) = 256 ^ n := by simp
  have bound : (v % 256 ^ n).toNat < 256 ^ n := by
    have := Int.emod_lt_of_pos v positive
    omega
  rw [decodeInt, length_encodeInt, encodeInt, decode_encode order n _ bound]
  have wrapped : ((v % 256 ^ n).toNat : Int) = v % 256 ^ n :=
    Int.toNat_of_nonneg (Int.emod_nonneg v (by omega))
  by_cases nonneg : 0 ≤ v
  · have same : v % 256 ^ n = v := Int.emod_eq_of_lt nonneg (by omega)
    rw [same] at wrapped ⊢
    rw [if_pos (by omega), wrapped]
  · have up : v % 256 ^ n = v + 256 ^ n := by
      rw [← Int.add_emod_right, Int.emod_eq_of_lt (by omega) (by omega)]
    rw [up] at wrapped ⊢
    rw [if_neg (by omega), wrapped]
    omega

/-! ### Loads and stores -/

namespace Mem

theorem write_inside (m : Mem) (a k : Nat) (src : List Byte) (h : k < src.length) :
    m.write a src (a + k) = src[k] := by
  simp [write, h]

theorem write_outside (m : Mem) (a x : Nat) (src : List Byte) (h : x < a ∨ a + src.length ≤ x) :
    m.write a src x = m x := by
  unfold write
  split
  next le =>
    have past : src.length ≤ x - a := by omega
    simp [past]
  next => rfl

theorem bytes_write_self (m : Mem) (a : Nat) (src : List Byte) :
    (m.write a src).bytes a src.length = src := by
  apply List.ext_getElem
  · simp [bytes]
  · intro k _ hk
    simp only [bytes, List.getElem_map, List.getElem_range]
    exact write_inside m a k src hk

theorem bytes_write_disjoint (m : Mem) (a b n : Nat) (src : List Byte)
    (h : a + n ≤ b ∨ b + src.length ≤ a) : (m.write b src).bytes a n = m.bytes a n := by
  apply List.map_congr_left
  intro k hk
  have := List.mem_range.mp hk
  exact write_outside m b (a + k) src (by omega)

@[simp] theorem length_bytes (m : Mem) (a n : Nat) : (m.bytes a n).length = n := by
  rw [bytes, List.length_map, List.length_range]

theorem bytes_add (m : Mem) (a k n : Nat) : m.bytes a (k + n) = m.bytes a k ++ m.bytes (a + k) n := by
  rw [bytes, List.range_add, List.map_append, List.map_map]
  congr 1
  apply List.map_congr_left
  intro i _
  rw [Function.comp_apply, Nat.add_assoc]

theorem take_bytes (m : Mem) (a k n : Nat) : (m.bytes a n).take k = m.bytes a (min k n) := by
  rw [bytes, ← List.map_take, List.take_range, bytes]

theorem load_store_self (m : Mem) (order : ByteOrder) (a n v : Nat) (h : v < 256 ^ n) :
    (m.store order a n v).load order a n = v := by
  have stored := bytes_write_self m a (encode order n v)
  rw [length_encode] at stored
  rw [load, store, stored, decode_encode order n v h]

theorem load_store_disjoint (m : Mem) (order : ByteOrder) (a n b k v : Nat)
    (h : a + n ≤ b ∨ b + k ≤ a) : (m.store order b k v).load order a n = m.load order a n := by
  rw [load, store, bytes_write_disjoint m a b n _ (by rwa [length_encode]), load]

end Mem

end GenericTests.Memory
