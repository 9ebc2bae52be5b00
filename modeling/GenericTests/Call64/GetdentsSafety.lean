import GenericTests.Call64.Getdents

/-!
# call64.c: the walk over an arbitrary buffer

The walk trusts the kernel: it checks neither `d_reclen` nor that a record ends before
`nread`. It is safe on those buffers that are a chain of records.
-/
namespace GenericTests.Call64

open GenericTests.CString GenericTests.Memory

section Walk

variable (order : ByteOrder)

/-- The states at the start of the loop body, in the first `fuel` rounds. -/
def visits (mem : List Byte) (nread : Nat) : Nat → Walk → List Walk
  | 0, _ => []
  | fuel + 1, w => if w.bpos < nread then w :: visits mem nread fuel (visit order mem w) else []

/-- The addresses `n` bytes from `a` on. -/
def addresses (a n : Nat) : List Nat := (List.range n).map (a + ·)

/-- The bytes of `dbuf` that the loop body reads: three fields of the header and the name
with its NUL. -/
def accesses (mem : List Byte) (bpos : Nat) : List Nat :=
  addresses (bpos + dNameField) ((stringAt mem (bpos + dNameField)).length + 1) ++
    addresses (bpos + dInoField) 8 ++ addresses (bpos + dOffField) 8 ++
    addresses (bpos + dReclenField) 2

/-- The loop from `w` on ends, and it reads nothing but the first `nread` bytes. -/
structure SafeFrom (mem : List Byte) (nread : Nat) (w : Walk) : Prop where
  terminates : ∃ fuel, (walk order mem nread fuel w).isSome = true
  inside : ∀ fuel, ∀ v ∈ visits order mem nread fuel w, ∀ a ∈ accesses mem v.bpos, a < nread

def Safe (mem : List Byte) (nread : Nat) : Prop :=
  SafeFrom order mem nread ⟨0, [returnedLine nread]⟩

/-- A chain of records: each has room for its header and for a name with its NUL, and the
next one starts behind it. The last one may claim to be longer than what is left. -/
inductive Records : List Byte → Prop
  | nil : Records []
  | record (bytes : List Byte) (name : 0 ∈ bytes.drop dNameField)
      (reclen : 0 < load order bytes dReclenField 2)
      (rest : Records (bytes.drop (load order bytes dReclenField 2))) : Records bytes

end Walk

/-! ### One round -/

theorem mem_addresses (a n x : Nat) : x ∈ addresses a n ↔ a ≤ x ∧ x < a + n := by
  simp only [addresses, List.mem_map, List.mem_range]
  constructor
  · rintro ⟨k, bound, rfl⟩
    omega
  · rintro ⟨lower, upper⟩
    exact ⟨x - a, by omega, by omega⟩

section Round

variable {mem : List Byte} {nread : Nat}

/-- The body reads within the first `nread` bytes exactly if it finds the NUL of the name
there. -/
theorem accesses_inside_iff {bpos : Nat} (covered : nread ≤ mem.length) :
    (∀ a ∈ accesses mem bpos, a < nread) ↔ 0 ∈ ((mem.take nread).drop bpos).drop dNameField := by
  rw [List.drop_drop]
  constructor
  · intro inside
    have last := inside (bpos + dNameField + (stringAt mem (bpos + dNameField)).length) (by
      simp only [accesses, List.mem_append, mem_addresses]
      omega)
    have bound : (stringAt mem (bpos + dNameField)).length < (mem.drop (bpos + dNameField)).length := by
      rw [List.length_drop]
      omega
    have nul := nul_behind_cstr (mem.drop (bpos + dNameField)) bound
    rw [List.getElem?_drop] at nul
    apply List.mem_of_getElem? (i := (stringAt mem (bpos + dNameField)).length)
    rw [List.getElem?_drop, List.getElem?_take_of_lt last]
    exact nul
  · intro found a member
    obtain ⟨i, nul⟩ := List.mem_iff_getElem?.mp found
    rw [List.getElem?_drop] at nul
    have bound : bpos + dNameField + i < nread := by
      have := (List.getElem?_eq_some_iff.mp nul).1
      rw [List.length_take] at this
      omega
    rw [List.getElem?_take_of_lt bound, ← List.getElem?_drop] at nul
    have short := length_cstr_le (mem.drop (bpos + dNameField)) i nul
    simp only [accesses, List.mem_append, mem_addresses, stringAt, dNameField, dInoField, dOffField,
      dReclenField] at member short bound
    omega

theorem load_take_drop (order : ByteOrder) (bpos a n : Nat) (bound : bpos + a + n ≤ nread) :
    load order ((mem.take nread).drop bpos) a n = load order mem (bpos + a) n := by
  have enough : n ≤ nread - (bpos + a) := by omega
  rw [load, load, List.drop_drop, List.drop_take, List.take_take, Nat.min_eq_left enough]

theorem header_inside {bpos : Nat} (found : 0 ∈ ((mem.take nread).drop bpos).drop dNameField) :
    bpos + dNameField < nread := by
  have nonempty := List.length_pos_of_mem found
  simp only [List.length_drop, List.length_take] at nonempty
  omega

/-- The walk goes on behind the record, by the length the record claims. -/
theorem bpos_visit (order : ByteOrder) (w : Walk)
    (found : 0 ∈ ((mem.take nread).drop w.bpos).drop dNameField) :
    (visit order mem w).bpos =
      w.bpos + load order ((mem.take nread).drop w.bpos) dReclenField 2 := by
  have header := header_inside found
  simp only [dNameField] at header
  rw [load_take_drop order w.bpos dReclenField 2 (by simp only [dReclenField]; omega)]
  rfl

end Round

/-! ### The whole walk -/

section Safety

variable {order : ByteOrder} {mem : List Byte} {nread : Nat}

theorem SafeFrom.visit {w : Walk} (h : SafeFrom order mem nread w) (more : w.bpos < nread) :
    SafeFrom order mem nread (visit order mem w) := by
  constructor
  · obtain ⟨fuel, ends⟩ := h.terminates
    cases fuel with
    | zero => cases ends
    | succ fuel =>
      rw [walk, if_pos more] at ends
      exact ⟨fuel, ends⟩
  · intro fuel v member
    apply h.inside (fuel + 1) v
    rw [visits, if_pos more]
    exact List.mem_cons_of_mem _ member

/-- By induction over the rounds the walk makes. -/
theorem records_of_safeFrom (covered : nread ≤ mem.length) (w : Walk)
    (safe : SafeFrom order mem nread w) : Records order ((mem.take nread).drop w.bpos) := by
  obtain ⟨fuel, ends⟩ := safe.terminates
  induction fuel generalizing w with
  | zero => cases ends
  | succ fuel ih =>
    by_cases more : w.bpos < nread
    · have found := (accesses_inside_iff covered).mp (safe.inside 1 w (by
        rw [visits, if_pos more]
        exact List.mem_cons_self))
      rw [walk, if_pos more] at ends
      have rest := ih (visit order mem w) (safe.visit more) ends
      have next := bpos_visit order w found
      by_cases positive : 0 < load order ((mem.take nread).drop w.bpos) dReclenField 2
      · refine .record _ found positive ?_
        rw [List.drop_drop, ← next]
        exact rest
      · -- the walk would be where it was, one round nearer to its end
        have same : (visit order mem w).bpos = w.bpos := by omega
        rwa [same] at rest
    · have nothing : (mem.take nread).drop w.bpos = [] := by
        apply List.drop_eq_nil_of_le
        rw [List.length_take]
        omega
      rw [nothing]
      exact .nil

theorem safeFrom_of_end {w : Walk} (finished : ¬ w.bpos < nread) : SafeFrom order mem nread w := by
  constructor
  · exact ⟨1, by rw [walk, if_neg finished]; rfl⟩
  · intro fuel v member
    cases fuel with
    | zero => cases member
    | succ fuel =>
      rw [visits, if_neg finished] at member
      cases member

theorem safeFrom_of_visit {w : Walk} (inside : ∀ a ∈ accesses mem w.bpos, a < nread)
    (safe : SafeFrom order mem nread (visit order mem w)) : SafeFrom order mem nread w := by
  by_cases more : w.bpos < nread
  · constructor
    · obtain ⟨fuel, ends⟩ := safe.terminates
      exact ⟨fuel + 1, by rw [walk, if_pos more]; exact ends⟩
    · intro fuel v member
      cases fuel with
      | zero => cases member
      | succ fuel =>
        rw [visits, if_pos more, List.mem_cons] at member
        rcases member with rfl | later
        · exact inside
        · exact safe.inside fuel v later
  · exact safeFrom_of_end more

/-- By induction over the records of the chain. -/
theorem safeFrom_of_records (covered : nread ≤ mem.length) (bytes : List Byte)
    (chain : Records order bytes) (w : Walk) (here : (mem.take nread).drop w.bpos = bytes) :
    SafeFrom order mem nread w := by
  induction chain generalizing w with
  | nil =>
    apply safeFrom_of_end
    have length := congrArg List.length here
    simp only [List.length_drop, List.length_take, List.length_nil] at length
    omega
  | record bytes name reclen rest ih =>
    rw [← here] at name
    apply safeFrom_of_visit ((accesses_inside_iff covered).mpr name)
    apply ih
    rw [bpos_visit order w name, ← List.drop_drop, here]

end Safety

/-- **Safety of the walk**: it ends and reads nothing but the first `nread` bytes if and
only if these are a chain of records. -/
theorem safe_iff_records (order : ByteOrder) (dbuf : Buffer dbufSize) (behind : List Byte)
    (nread : Nat) (bound : nread ≤ dbufSize) :
    Safe order (dbuf.bytes ++ behind) nread ↔ Records order (dbuf.bytes.take nread) := by
  have size := dbuf.length_eq
  have covered : nread ≤ (dbuf.bytes ++ behind).length := by
    rw [List.length_append]
    omega
  have start : (dbuf.bytes ++ behind).take nread = dbuf.bytes.take nread :=
    List.take_append_of_le_length (by omega)
  constructor
  · intro safe
    have chain := records_of_safeFrom covered _ safe
    rwa [List.drop_zero, start] at chain
  · intro chain
    exact safeFrom_of_records covered _ chain _ start

/-- `dbuf` after a call that returned one entry. -/
def sampleDbuf : Buffer dbufSize := (Buffer.zeros dbufSize).write (sampleEntry.bytes .big)

theorem safe_sample : 24 ≤ dbufSize ∧ Safe .big (sampleDbuf.bytes ++ []) 24 := by
  refine ⟨by decide, (safe_iff_records .big sampleDbuf [] 24 (by decide)).mpr ?_⟩
  have start : sampleDbuf.bytes.take 24 = sampleEntry.bytes .big := by
    rw [sampleDbuf, Buffer.bytes_write _ _ (by decide)]
    exact List.take_left' (by decide)
  rw [start]
  exact .record _ (by decide) (by decide) .nil

/-- A walk that stands still never ends. -/
theorem walk_of_no_progress (order : ByteOrder) (mem : List Byte) (nread : Nat) (w : Walk)
    (more : w.bpos < nread) (stands : load order mem (w.bpos + dReclenField) 2 = 0) (fuel : Nat) :
    walk order mem nread fuel w = none := by
  induction fuel generalizing w with
  | zero => rfl
  | succ fuel ih =>
    have still : (visit order mem w).bpos = w.bpos := by
      simp only [visit, stands, Nat.add_zero]
    rw [walk, if_pos more]
    exact ih (visit order mem w) (by rw [still]; exact more) (by rw [still]; exact stands)

/-- A buffer of zeros: the first record has length 0, and the walk visits it for ever. -/
theorem not_safe_zeros :
    ¬ ∀ (order : ByteOrder) (dbuf : Buffer dbufSize) (behind : List Byte) (nread : Nat),
      nread ≤ dbufSize → Safe order (dbuf.bytes ++ behind) nread := by
  intro claim
  obtain ⟨fuel, ends⟩ := (claim .little (.zeros dbufSize) [] 24 (by decide)).terminates
  rw [walk_of_no_progress .little _ 24 ⟨0, _⟩ (by decide) (by decide)] at ends
  cases ends

end GenericTests.Call64
