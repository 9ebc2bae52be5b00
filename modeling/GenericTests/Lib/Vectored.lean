import GenericTests.Lib.Memory
import Mathlib.Algebra.BigOperators.Group.List.Basic
import Mathlib.Data.List.GetD

/-!
# Vectored input and output

A gathering write sends its segments as one sequence of bytes, and a scattering read fills
its segments in order with what arrived. The two sides need not split the bytes at the same
places.
-/
namespace GenericTests.Vectored

open GenericTests.CString GenericTests.Memory

/-- `struct iovec` -/
structure Iovec where
  base : Nat
  len : Nat

/-- No byte is in both segments. -/
def Iovec.Disjoint (v w : Iovec) : Prop := v.base + v.len ≤ w.base ∨ w.base + w.len ≤ v.base

/-- What a gathering write delivers. -/
def gather (segments : List (List Byte)) : List Byte := segments.flatten

def room (iov : List Iovec) : Nat := (iov.map Iovec.len).sum

/-- The memory after a scattering read. -/
def scatter (m : Mem) : List Iovec → List Byte → Mem
  | [], _ => m
  | v :: iov, payload => scatter (m.write v.base (payload.take v.len)) iov (payload.drop v.len)

/-- What a scattering read returns. -/
def scattered (iov : List Iovec) (payload : List Byte) : Nat := min payload.length (room iov)

/-- Each segment with the part of the payload it gets. -/
def parts : List Iovec → List Byte → List (Iovec × List Byte)
  | [], _ => []
  | v :: iov, payload => (v, payload.take v.len) :: parts iov (payload.drop v.len)

/-- The segment that is given by a string and its `strlen`. -/
def stringSegment (text : List Byte) : List Byte := cstr (text ++ [0])

/-- The conversion `%.*s` of `n` bytes at `a`. -/
def atMost (m : Mem) (a n : Nat) : List Byte := cstr (m.bytes a n)

/-- `strlen` of a string that ends in the `size` bytes at `a`. -/
def strlen (m : Mem) (a size : Nat) : Nat := (cstr (m.bytes a size)).length

theorem room_cons (v : Iovec) (iov : List Iovec) : room (v :: iov) = v.len + room iov := by
  rw [room, List.map_cons, List.sum_cons, room]

theorem stringSegment_eq (text : List Byte) (h : (0 : Byte) ∉ text) : stringSegment text = text :=
  cstr_append_nul text [] h

theorem scattered_eq (iov : List Iovec) (payload : List Byte) (h : payload.length ≤ room iov) :
    scattered iov payload = payload.length := Nat.min_eq_left h

/-! ### Parts -/

theorem flatMap_parts (iov : List Iovec) (payload : List Byte) :
    (parts iov payload).flatMap Prod.snd = payload.take (room iov) := by
  induction iov generalizing payload with
  | nil => simp [parts, room]
  | cons v iov ih => rw [parts, List.flatMap_cons, ih, room_cons, List.take_add]

theorem mem_parts (iov : List Iovec) (payload : List Byte) (p : Iovec × List Byte)
    (member : p ∈ parts iov payload) :
    p.1 ∈ iov ∧ p.2.length ≤ p.1.len ∧ ∀ b ∈ p.2, b ∈ payload := by
  induction iov generalizing payload with
  | nil => cases member
  | cons v iov ih =>
    rcases List.mem_cons.mp member with rfl | later
    · exact ⟨List.mem_cons_self, List.length_take_le _ _, fun b => List.mem_of_mem_take⟩
    · obtain ⟨segment, bound, inside⟩ := ih _ later
      exact ⟨List.mem_cons_of_mem v segment, bound, fun b here => List.mem_of_mem_drop (inside b here)⟩

/-- Pieces with something behind them make the same text only if nothing is behind them. -/
theorem flatMap_append_eq_iff {α β : Type} (pieces : List α) (piece behind : α → List β) :
    pieces.flatMap (fun p => piece p ++ behind p) = pieces.flatMap piece ↔
      ∀ p ∈ pieces, behind p = [] := by
  constructor
  · intro same
    have lengths := congrArg List.length same
    rw [List.length_flatMap, List.length_flatMap] at lengths
    simp only [List.length_append, List.sum_map_add, Nat.add_eq_left] at lengths
    rw [← List.length_flatMap, List.length_eq_zero_iff] at lengths
    exact List.flatMap_eq_nil_iff.mp lengths
  · intro nothing
    apply List.flatMap_congr
    intro p member
    rw [nothing p member, List.append_nil]

/-! ### Bytes of the memory -/

/-- What `strlen` measures is the string. -/
theorem atMost_strlen (m : Mem) (a size : Nat) : atMost m a (strlen m a size) = atMost m a size := by
  have isPrefix : cstr (m.bytes a size) <+: m.bytes a size := List.takeWhile_prefix _
  have bound := isPrefix.length_le
  rw [Mem.length_bytes] at bound
  have front : m.bytes a (strlen m a size) = cstr (m.bytes a size) := by
    have taken := m.take_bytes a (strlen m a size) size
    rw [strlen, Nat.min_eq_left bound] at taken
    exact taken.symm.trans (List.prefix_iff_eq_take.mp isPrefix).symm
  rw [atMost, front, cstr_of_no_nul _ (nul_not_mem_cstr _), atMost]

/-- Writing in front of an area leaves the rest of it as it was. -/
theorem bytes_write_front (m : Mem) (a n : Nat) (src : List Byte) (h : src.length ≤ n) :
    (m.write a src).bytes a n = src ++ m.bytes (a + src.length) (n - src.length) := by
  have whole : n = src.length + (n - src.length) := by omega
  rw [whole, Mem.bytes_add, m.bytes_write_self a src,
    m.bytes_write_disjoint (a + src.length) a _ src (.inr (Nat.le_refl _)), ← whole]

theorem scatter_outside (m : Mem) (iov : List Iovec) (payload : List Byte) (x : Nat)
    (outside : ∀ v ∈ iov, x < v.base ∨ v.base + v.len ≤ x) : scatter m iov payload x = m x := by
  induction iov generalizing m payload with
  | nil => rfl
  | cons v iov ih =>
    obtain ⟨here, later⟩ := List.forall_mem_cons.mp outside
    have part : (payload.take v.len).length ≤ v.len := List.length_take_le _ _
    rw [scatter, ih _ _ later]
    exact m.write_outside v.base x _ (by omega)

theorem bytes_scatter_outside (m : Mem) (iov : List Iovec) (payload : List Byte) (a n : Nat)
    (outside : ∀ v ∈ iov, Iovec.Disjoint ⟨a, n⟩ v) :
    (scatter m iov payload).bytes a n = m.bytes a n := by
  apply List.map_congr_left
  intro k member
  have bound := List.mem_range.mp member
  apply scatter_outside
  intro v hv
  rcases outside v hv with before | behind
  · exact .inl (by simp only at before; omega)
  · exact .inr (by simp only at behind; omega)

/-- Every segment holds its part of the payload, and behind it what it held before. -/
theorem segments_scatter (m : Mem) (iov : List Iovec) (payload : List Byte)
    (disjoint : iov.Pairwise Iovec.Disjoint) :
    iov.map (fun v => (scatter m iov payload).bytes v.base v.len) =
      (parts iov payload).map fun p =>
        p.2 ++ m.bytes (p.1.base + p.2.length) (p.1.len - p.2.length) := by
  induction iov generalizing m payload with
  | nil => rfl
  | cons v iov ih =>
    obtain ⟨apart, rest⟩ := List.pairwise_cons.mp disjoint
    have part : (payload.take v.len).length ≤ v.len := List.length_take_le _ _
    rw [List.map_cons, parts, List.map_cons, scatter, bytes_scatter_outside _ _ _ _ _ apart,
      bytes_write_front m v.base v.len _ part, ih _ _ rest]
    congr 1
    -- what the first segment got is in none of the later ones
    apply List.map_congr_left
    intro p member
    obtain ⟨segment, bound, -⟩ := mem_parts iov _ p member
    have away := apart p.1 segment
    simp only [Iovec.Disjoint] at away
    rw [Mem.bytes_write_disjoint m _ v.base _ _ (by omega)]

/-- The segments, each shown with its whole length, show the payload exactly if each that the
payload does not fill has a NUL behind its part. -/
theorem shown_segments_iff (m : Mem) (iov : List Iovec) (payload : List Byte)
    (disjoint : iov.Pairwise Iovec.Disjoint) (noNul : (0 : Byte) ∉ payload)
    (fits : payload.length ≤ room iov) :
    iov.flatMap (fun v => atMost (scatter m iov payload) v.base v.len) = payload ↔
      ∀ p ∈ parts iov payload, p.2.length < p.1.len → m (p.1.base + p.2.length) = 0 := by
  have shown : iov.flatMap (fun v => atMost (scatter m iov payload) v.base v.len) =
      (parts iov payload).flatMap fun p =>
        p.2 ++ cstr (m.bytes (p.1.base + p.2.length) (p.1.len - p.2.length)) := by
    have segments := congrArg (List.flatMap cstr) (segments_scatter m iov payload disjoint)
    rw [List.flatMap_map, List.flatMap_map] at segments
    refine segments.trans (List.flatMap_congr fun p member => cstr_append _ _ fun nul => ?_)
    exact noNul ((mem_parts iov payload p member).2.2 0 nul)
  have whole := flatMap_parts iov payload
  rw [List.take_of_length_le fits] at whole
  rw [shown]
  nth_rewrite 2 [← whole]
  rw [flatMap_append_eq_iff]
  refine forall₂_congr fun p member => ?_
  rw [cstr_eq_nil_iff, Mem.bytes, List.head?_map]
  cases left : p.1.len - p.2.length with
  | zero =>
    refine ⟨fun _ more => by omega, fun _ b here => ?_⟩
    cases here
  | succ k =>
    have first : (List.range (k + 1)).head? = some 0 := by simp [List.head?_range]
    have more : p.2.length < p.1.len := by omega
    simp [first, more]

end GenericTests.Vectored
