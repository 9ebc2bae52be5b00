import GenericTests.Lib.Printf

/-!
# mkuidns.c: the lines for uid_map and gid_map

The parent prints the line with a field of at least six digits and writes eleven bytes
of it. The kernel reads three unsigned numbers.
-/
namespace GenericTests.Mkuidns

open GenericTests.CString GenericTests.Printf

/-- The size of `bigenoughbuf`. -/
def bufSize : Nat := 2000

/-- What `sprintf(bigenoughbuf, "0 %06d 1\n", id)` writes before its NUL. The id is
unsigned, and `%d` reads it as an `int`. -/
def idMapLine (id : BitVec 32) : List Byte :=
  ascii "0 " ++ (zeroPadded 6 id.toInt ++ ascii " 1\n")

/-- The bytes of `write(fd, bigenoughbuf, 11)`. -/
def idMapBytes (bigenoughbuf : Buffer bufSize) (id : BitVec 32) : List Byte :=
  (bigenoughbuf.write (idMapLine id ++ [0])).bytes.take 11

/-! ### The kernel's reader -/

def isBlank (b : Byte) : Bool := decide (b = 32) || decide (b = 9)

/-- At least one blank. -/
def blanks (text : List Byte) : Option (List Byte) :=
  if (text.takeWhile isBlank).isEmpty then none else some (text.dropWhile isBlank)

/-- Three numbers, then nothing or a newline. -/
def parseIdMap (text : List Byte) : Option (Nat × Nat × Nat) :=
  (number text).bind fun (first, text) =>
  (blanks text).bind fun text =>
  (number text).bind fun (lower, text) =>
  (blanks text).bind fun text =>
  (number text).bind fun (count, text) =>
    if text = [] ∨ text = [10] then some (first, lower, count) else none

/-! ### The eleven bytes -/

theorem length_zeroPadded (width : Nat) (n : Int) :
    (zeroPadded width n).length = max width ((sign n).length + (digits n.natAbs).length) := by
  simp only [zeroPadded, List.length_append, List.length_replicate]
  omega

theorem length_sign_le (n : Int) : (sign n).length ≤ 1 := by
  have one : (ascii "-").length = 1 := by decide
  rw [sign]
  split
  · omega
  · exact Nat.zero_le 1

theorem idMapBytes_eq (bigenoughbuf : Buffer bufSize) (id : BitVec 32) :
    idMapBytes bigenoughbuf id = ascii "0 " ++ (zeroPadded 6 id.toInt ++ ascii " 1\n").take 9 := by
  have texts : (ascii "0 ").length = 2 ∧ (ascii " 1\n").length = 3 := by decide
  have width := length_zeroPadded 6 id.toInt
  have signs := length_sign_le id.toInt
  have digitCount : (digits id.toInt.natAbs).length ≤ 10 := by
    have := id.toInt_lt
    have := id.le_toInt
    exact (length_digits_le_iff _ 10 (by decide)).mpr (by omega)
  have line : (idMapLine id).length = 2 + ((zeroPadded 6 id.toInt).length + 3) := by
    simp only [idMapLine, List.length_append, texts]
  have fits : (idMapLine id ++ [0]).length ≤ bufSize := by
    simp only [List.length_append, List.length_singleton, bufSize]
    omega
  rw [idMapBytes, bigenoughbuf.bytes_write _ fits, List.append_assoc,
    List.take_append_of_le_length (by omega), idMapLine, List.take_append, texts.1]
  rw [List.take_of_length_le (by omega)]

/-! ### What the kernel makes of them -/

private theorem blanks_one (text : List Byte) (h : ∀ b, text.head? = some b → isBlank b = false) :
    blanks (32 :: text) = some text := by
  have stop : text.dropWhile isBlank = text := by
    cases text with
    | nil => rfl
    | cons b text => simp [h b rfl]
  have blank : isBlank 32 = true := by decide
  simp [blanks, blank, stop]

/-- After "0 " the reader is at the second number. -/
private theorem parse_zero (text : List Byte) (h : ∀ b, text.head? = some b → isBlank b = false) :
    parseIdMap (ascii "0 " ++ text) =
      (number text).bind fun (lower, text) =>
      (blanks text).bind fun text =>
      (number text).bind fun (count, text) =>
        if text = [] ∨ text = [10] then some (0, lower, count) else none := by
  have split : ascii "0 " ++ text = [48] ++ 32 :: text := by
    have : ascii "0 " = [48, 32] := by decide
    simp [this]
  have first : number (ascii "0 " ++ text) = some (0, 32 :: text) := by
    rw [split, number_append [48] (32 :: text) (by simp)]
    · rfl
    · intro b hb
      cases List.mem_singleton.mp hb
      decide
    · intro b hb
      cases hb
      decide
  rw [parseIdMap, first, Option.bind_some]
  simp only [blanks_one text h, Option.bind_some]

private theorem isBlank_of_isDigit (b : Byte) (h : isDigit b = true) : isBlank b = false := by
  simp only [isDigit, Bool.and_eq_true, decide_eq_true_eq] at h
  simp only [isBlank, Bool.or_eq_false_iff, decide_eq_false_iff_not]
  constructor
  · rintro rfl
    exact absurd h.1 (by decide)
  · rintro rfl
    exact absurd h.1 (by decide)

/-- A field of digits that ends in " 1", with or without the newline. -/
private theorem parse_whole (field tail : List Byte) (some_digit : field ≠ [])
    (all : ∀ b ∈ field, isDigit b = true) (tail_eq : tail = [32, 49] ∨ tail = [32, 49, 10]) :
    parseIdMap (ascii "0 " ++ (field ++ tail)) = some (0, value field, 1) := by
  obtain ⟨b, field, rfl⟩ := List.exists_cons_of_ne_nil some_digit
  have notBlank := isBlank_of_isDigit b (all b List.mem_cons_self)
  rw [parse_zero _ (fun c hc => by cases hc; exact notBlank)]
  rcases tail_eq with rfl | rfl
  · rw [number_append (b :: field) _ some_digit all (fun c hc => by cases hc; decide)]
    rfl
  · rw [number_append (b :: field) _ some_digit all (fun c hc => by cases hc; decide)]
    rfl

/-- Without " 1" behind it the field is refused. -/
private theorem parse_cut (field tail : List Byte) (some_digit : field ≠ [])
    (all : ∀ b ∈ field, isDigit b = true) (tail_eq : tail = [] ∨ tail = [32]) :
    parseIdMap (ascii "0 " ++ (field ++ tail)) = none := by
  obtain ⟨b, field, rfl⟩ := List.exists_cons_of_ne_nil some_digit
  have notBlank := isBlank_of_isDigit b (all b List.mem_cons_self)
  rw [parse_zero _ (fun c hc => by cases hc; exact notBlank)]
  rcases tail_eq with rfl | rfl
  · rw [number_append (b :: field) _ some_digit all (fun c hc => by cases hc)]
    rfl
  · rw [number_append (b :: field) _ some_digit all (fun c hc => by cases hc; decide)]
    rfl

/-- A minus sign is no digit. -/
private theorem parse_minus (text : List Byte) : parseIdMap (ascii "0 " ++ (45 :: text)) = none := by
  rw [parse_zero _ (fun c hc => by cases hc; decide),
    number_of_not_digit _ (fun c hc => by cases hc; decide)]
  rfl

private theorem zeroPadded_of_nonneg (n : Nat) :
    zeroPadded 6 (n : Int) = List.replicate (6 - (digits n).length) 48 ++ digits n := by
  have plain : sign (n : Int) = [] := if_neg (by omega)
  simp [zeroPadded, plain]

private theorem isDigit_of_mem_padded (k n : Nat) (b : Byte)
    (h : b ∈ List.replicate k 48 ++ digits n) : isDigit b = true := by
  rcases List.mem_append.mp h with h | h
  · rw [List.eq_of_mem_replicate h]
    decide
  · exact isDigit_of_mem_digits n b h

/-- **Id maps**: the kernel reads the caller's id back if and only if it has at most
seven digits. -/
theorem parseIdMap_eq_id_iff (bigenoughbuf : Buffer bufSize) (id : BitVec 32) :
    parseIdMap (idMapBytes bigenoughbuf id) = some (0, id.toNat, 1) ↔ id.toNat < 10000000 := by
  rw [idMapBytes_eq]
  have tail : ascii " 1\n" = [32, 49, 10] := by decide
  rw [tail]
  by_cases negative : id.toInt < 0
  · -- from 2^31 on the id is printed with a minus sign
    have minus : sign id.toInt = [45] := (if_pos negative).trans (by decide)
    have large : ¬ id.toNat < 10000000 := by
      have := BitVec.toInt_neg_iff.mp negative
      omega
    simp only [zeroPadded, minus, List.cons_append, List.nil_append, List.take_succ_cons, parse_minus,
      large, iff_false]
    nofun
  · have positive : id.toInt = (id.toNat : Int) := by
      rw [BitVec.toInt_eq_toNat_cond]
      rw [BitVec.toInt_neg_iff] at negative
      exact if_pos (by omega)
    rw [positive, zeroPadded_of_nonneg]
    generalize hfield : List.replicate (6 - (digits id.toNat).length) 48 ++ digits id.toNat = field
    have all : ∀ b ∈ field, isDigit b = true := by
      rw [← hfield]
      exact isDigit_of_mem_padded _ _
    have some_digit : field ≠ [] := by
      rw [← hfield]
      simp [digits_ne_nil]
    have read : value field = id.toNat := by
      rw [← hfield]
      exact value_digits _ _
    have length : field.length = max 6 (digits id.toNat).length := by
      rw [← hfield, List.length_append, List.length_replicate]
      omega
    have seven := length_digits_le_iff id.toNat 7 (by decide)
    rw [List.take_append]
    by_cases short : id.toNat < 10000000
    · -- six digits leave room for " 1\n", seven for " 1"
      rw [List.take_of_length_le (by omega)]
      have behind : ([32, 49, 10] : List Byte).take (9 - field.length) = [32, 49] ∨
          ([32, 49, 10] : List Byte).take (9 - field.length) = [32, 49, 10] := by
        have six_or_seven : field.length = 6 ∨ field.length = 7 := by omega
        rcases six_or_seven with six | seven
        · exact .inr (by rw [six]; rfl)
        · exact .inl (by rw [seven]; rfl)
      rw [parse_whole field _ some_digit all behind, read]
      exact ⟨fun _ => short, fun _ => rfl⟩
    · have behind : ([32, 49, 10] : List Byte).take (9 - field.length) = [] ∨
          ([32, 49, 10] : List Byte).take (9 - field.length) = [32] := by
        have eight_or_more : field.length = 8 ∨ 9 ≤ field.length := by omega
        rcases eight_or_more with eight | more
        · exact .inr (by rw [eight]; rfl)
        · exact .inl (by rw [Nat.sub_eq_zero_of_le more]; rfl)
      have cut := parse_cut (field.take 9) _ (by simp [some_digit])
        (fun b hb => all b (List.mem_of_mem_take hb)) behind
      rw [cut]
      exact ⟨nofun, fun h => absurd h short⟩

/-- The smallest id with eight digits: the third number is cut off. -/
theorem parseIdMap_eight_digits :
    ¬ ∀ (bigenoughbuf : Buffer bufSize) (id : BitVec 32), id.toNat ≤ 4294967294 →
      parseIdMap (idMapBytes bigenoughbuf id) = some (0, id.toNat, 1) := by
  intro claim
  have read := claim (.zeros bufSize) 10000000 (by decide)
  rw [idMapBytes_eq] at read
  exact absurd read (by decide)

end GenericTests.Mkuidns
