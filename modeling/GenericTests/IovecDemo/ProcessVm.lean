import GenericTests.IovecDemo.Demos

/-!
# iovec_demo.c: the process's own memory

demo_process_vm_readv_writev copies a string to an array with one call and writes another string
over it with a second one; either may be forbidden. The second string comes without its NUL, so a
longer first string shows behind it.
-/
namespace GenericTests.IovecDemo

open GenericTests.CString GenericTests.Memory GenericTests.Vectored

/-- The bytes that the segments of `iov` hold. -/
def gathered (m : Mem) (iov : List Iovec) : List Byte :=
  gather (iov.map fun v => m.bytes v.base v.len)

/-- `process_vm_readv` and `process_vm_writev` on the calling process: the bytes of `source` go to
`target`, and their number is returned. -/
def copyVector (m : Mem) (source target : List Iovec) : Mem × Nat :=
  (scatter m target (gathered m source), scattered target (gathered m source))

/-- `secret`, `out` and `newdata` of demo_process_vm_readv_writev for strings of these sizes. -/
structure Locals (secretSize newdataSize : Nat) where
  secret : Nat
  out : Nat
  newdata : Nat
  secretApart : Iovec.Disjoint ⟨secret, secretSize⟩ ⟨out, 64⟩
  newdataApart : Iovec.Disjoint ⟨newdata, newdataSize⟩ ⟨out, 64⟩

/-- Which of the two calls are forbidden; the program only says so on stderr. -/
structure Forbidden where
  readv : Bool
  writev : Bool

def readBytesLine (n : Nat) : List Byte :=
  ascii "process_vm_readv read " ++ decimal n ++ ascii " bytes: "

def wroteBytesLine (n : Nat) : List Byte :=
  ascii "process_vm_writev wrote " ++ decimal n ++ ascii " bytes; out now: "

/-- The memory and the text after the first call. -/
def readSecret (forbidden : Forbidden) (secret : Iovec) (out : Nat) (m : Mem) :
    Mem × List (List Byte) :=
  if forbidden.readv then (m, [])
  else
    let (m, n) := copyVector m [secret] [⟨out, 64⟩]
    (m, [readBytesLine n ++ showBuf (ascii "out") m out n])

/-- The memory and the text after the second call. -/
def writeNewdata (forbidden : Forbidden) (newdata : Iovec) (out : Nat) (m : Mem) :
    Mem × List (List Byte) :=
  if forbidden.writev then (m, [])
  else
    let (m, w) := copyVector m [newdata] [⟨out, 64⟩]
    (m, [wroteBytesLine w ++ showBuf (ascii "out") m out (strlen m out 64)])

/-- The lines with what `out` holds, for a `secret` and a `newdata` of any length. -/
def demoProcessVmReadvWritev (forbidden : Forbidden) (secret newdata : List Byte)
    (place : Locals (secret.length + 1) (newdata.length + 1)) (m : Mem) : List (List Byte) :=
  let m := m.write place.secret (secret ++ [0])
  let m := m.write place.out (List.replicate 64 0)
  -- sizeof(secret) counts the NUL, and sizeof(newdata) - 1 does not
  let (m, first) := readSecret forbidden ⟨place.secret, secret.length + 1⟩ place.out m
  let m := m.write place.newdata (newdata ++ [0])
  let (_, second) := writeNewdata forbidden ⟨place.newdata, newdata.length⟩ place.out m
  first ++ second

/-! ### One copy -/

theorem bytes_drop (m : Mem) (a k n : Nat) (h : k ≤ n) :
    (m.bytes a n).drop k = m.bytes (a + k) (n - k) := by
  have whole : n = k + (n - k) := by omega
  rw [whole, Mem.bytes_add, List.drop_left' (Mem.length_bytes m a k), Nat.add_sub_cancel_left]

theorem gathered_one (m : Mem) (v : Iovec) : gathered m [v] = m.bytes v.base v.len := by
  simp [gathered, gather]

theorem copyVector_count (m : Mem) (v : Iovec) (out : Nat) (fits : v.len ≤ 64) :
    (copyVector m [v] [⟨out, 64⟩]).2 = v.len := by
  rw [copyVector, gathered_one, scattered_eq]
  · exact Mem.length_bytes m v.base v.len
  · rw [Mem.length_bytes]
    simpa [room] using fits

/-- The array holds the copy, and behind it what it held before. -/
theorem copyVector_target (m : Mem) (v : Iovec) (out : Nat) (fits : v.len ≤ 64) :
    (copyVector m [v] [⟨out, 64⟩]).1.bytes out 64 =
      m.bytes v.base v.len ++ (m.bytes out 64).drop v.len := by
  have size := Mem.length_bytes m v.base v.len
  rw [copyVector, gathered_one]
  simp only [scatter]
  rw [List.take_of_length_le (size.trans_le fits), bytes_write_front _ _ _ _ (size.trans_le fits), size,
    bytes_drop m out v.len 64 fits]

theorem cstr_zeros (n : Nat) : cstr (List.replicate n 0) = [] := by
  rw [cstr_eq_nil_iff]
  intro b first
  cases n with
  | zero => cases first
  | succ n =>
    rw [List.replicate_succ, List.head?_cons] at first
    exact (Option.some.inj first).symm

/-- A string with zeros behind it, seen from its byte `k` on. -/
theorem cstr_drop_zeros (text : List Byte) (noNul : (0 : Byte) ∉ text) (k n : Nat) :
    cstr ((text ++ List.replicate n 0).drop k) = text.drop k := by
  rw [List.drop_append, List.drop_replicate, cstr_append _ _ fun nul => noNul (List.mem_of_mem_drop nul),
    cstr_zeros, List.append_nil]

/-! ### The two calls -/

/-- `out` holds `text` and zeros behind it. -/
def Holds (m : Mem) (out : Nat) (text : List Byte) : Prop :=
  ∃ n, m.bytes out 64 = text ++ List.replicate n 0

/-- What the first call has put into `out`. -/
def held (forbidden : Forbidden) (secret : List Byte) : List Byte :=
  if forbidden.readv then [] else secret

theorem readSecret_spec (forbidden : Forbidden) (secret : List Byte) (base out : Nat) (m : Mem)
    (noNul : (0 : Byte) ∉ secret) (fits : secret.length < 64)
    (source : m.bytes base (secret.length + 1) = secret ++ [0])
    (zeroed : m.bytes out 64 = List.replicate 64 0) :
    (readSecret forbidden ⟨base, secret.length + 1⟩ out m).2 =
        (if forbidden.readv then []
          else [readBytesLine (secret.length + 1) ++ shownLine (ascii "out") secret]) ∧
      Holds (readSecret forbidden ⟨base, secret.length + 1⟩ out m).1 out (held forbidden secret) := by
  cases readable : forbidden.readv with
  | true =>
    simp only [readSecret, readable, held, if_true, true_and]
    exact ⟨64, zeroed⟩
  | false =>
    have target := copyVector_target m ⟨base, secret.length + 1⟩ out fits
    have count := copyVector_count m ⟨base, secret.length + 1⟩ out fits
    simp only [source, zeroed, List.drop_replicate, List.append_assoc, List.singleton_append,
      ← List.replicate_succ] at target
    -- the NUL of `secret` comes along, and `%.*s` stops there
    have shown := congrArg (fun bytes => cstr (bytes.take (secret.length + 1))) target
    simp only [Mem.take_bytes, Nat.min_eq_left (Nat.succ_le_of_lt fits)] at shown
    rw [List.take_append, List.take_of_length_le (Nat.le_succ _), List.take_replicate,
      cstr_append secret _ noNul, cstr_zeros, List.append_nil] at shown
    simp only [readSecret, readable, held, if_false, Bool.false_eq_true, count, showBuf, atMost,
      shown, true_and]
    exact ⟨_, target⟩

theorem writeNewdata_spec (forbidden : Forbidden) (newdata text : List Byte) (base out : Nat) (m : Mem)
    (noNul : (0 : Byte) ∉ newdata) (textNoNul : (0 : Byte) ∉ text) (fits : newdata.length ≤ 64)
    (source : m.bytes base newdata.length = newdata) (holds : Holds m out text) :
    (writeNewdata forbidden ⟨base, newdata.length⟩ out m).2 =
      if forbidden.writev then []
      else [wroteBytesLine newdata.length ++
        shownLine (ascii "out") (newdata ++ text.drop newdata.length)] := by
  cases writable : forbidden.writev with
  | true => simp only [writeNewdata, writable, if_true]
  | false =>
    obtain ⟨n, zeroed⟩ := holds
    have target := copyVector_target m ⟨base, newdata.length⟩ out fits
    have count := copyVector_count m ⟨base, newdata.length⟩ out fits
    simp only [source, zeroed] at target
    simp only [writeNewdata, writable, if_false, Bool.false_eq_true, count, showBuf, atMost_strlen]
    rw [atMost, target, cstr_append newdata _ noNul, cstr_drop_zeros text textNoNul]

/-! ### The demo -/

theorem nul_not_mem_held (forbidden : Forbidden) (secret : List Byte) (noNul : (0 : Byte) ∉ secret) :
    (0 : Byte) ∉ held forbidden secret := by
  unfold held
  split
  · exact List.not_mem_nil
  · exact noNul

/-- An initialised array, with and without its NUL. -/
theorem bytes_write_string (m : Mem) (a : Nat) (text : List Byte) :
    (m.write a (text ++ [0])).bytes a (text.length + 1) = text ++ [0] ∧
      (m.write a (text ++ [0])).bytes a text.length = text := by
  have whole := m.bytes_write_self a (text ++ [0])
  rw [List.length_append, List.length_singleton] at whole
  refine ⟨whole, ?_⟩
  have front := Mem.take_bytes (m.write a (text ++ [0])) a text.length (text.length + 1)
  rwa [whole, Nat.min_eq_left (Nat.le_succ _), List.take_left, eq_comm] at front

/-- **What `out` shows**: the secret, if it could be read, and then the new data with what is left
of the secret behind it. The new data stands alone exactly if there was no longer secret. -/
theorem out_shows_new_data_over_secret (forbidden : Forbidden) (secret newdata : List Byte)
    (place : Locals (secret.length + 1) (newdata.length + 1)) (m : Mem)
    (secretNoNul : (0 : Byte) ∉ secret) (newdataNoNul : (0 : Byte) ∉ newdata)
    (secretFits : secret.length < 64) (newdataFits : newdata.length < 64) :
    ∃ shown, demoProcessVmReadvWritev forbidden secret newdata place m =
        (if forbidden.readv then []
          else [readBytesLine (secret.length + 1) ++ shownLine (ascii "out") secret]) ++
        (if forbidden.writev then []
          else [wroteBytesLine newdata.length ++ shownLine (ascii "out") shown]) ∧
      shown = newdata ++ (held forbidden secret).drop newdata.length ∧
      (shown = newdata ↔ forbidden.readv = true ∨ secret.length ≤ newdata.length) := by
  have secretApart := place.secretApart
  have newdataApart := place.newdataApart
  simp only [Iovec.Disjoint] at secretApart newdataApart
  -- the arrays after their initialisers
  have source := (bytes_write_string m place.secret secret).1
  rw [← Mem.bytes_write_disjoint _ _ place.out _ (List.replicate 64 0)
    (by rw [List.length_replicate]; omega)] at source
  have zeroed := Mem.bytes_write_self (m.write place.secret (secret ++ [0])) place.out
    (List.replicate 64 0)
  rw [List.length_replicate] at zeroed
  obtain ⟨first, n, holds⟩ := readSecret_spec forbidden secret place.secret place.out _ secretNoNul
    secretFits source zeroed
  -- the initialiser of `newdata` does not reach `out`
  rw [← Mem.bytes_write_disjoint _ _ place.newdata _ (newdata ++ [0])
    (by rw [List.length_append, List.length_singleton]; omega)] at holds
  have second := writeNewdata_spec forbidden newdata (held forbidden secret) place.newdata place.out _
    newdataNoNul (nul_not_mem_held forbidden secret secretNoNul) newdataFits.le
    (bytes_write_string _ place.newdata newdata).2 ⟨n, holds⟩
  refine ⟨_, ?_, rfl, ?_⟩
  · simp only [demoProcessVmReadvWritev, first, second]
  · rw [List.append_right_eq_self, List.drop_eq_nil_iff]
    cases readable : forbidden.readv <;> simp [held, readable]

/-- The demo's own strings: the new data is longer than the secret. -/
theorem out_shows_new_data_of_the_demo :
    demoProcessVmReadvWritev ⟨false, false⟩ (ascii "SECRET_DATA_12345")
        (ascii "WRITTEN_BY_process_vm_writev") ⟨0, 32, 96, .inl (by decide), .inr (by decide)⟩
        (fun _ => 120) =
      [readBytesLine 18 ++ ascii "out: [SECRET_DATA_12345]\n",
        wroteBytesLine 28 ++ ascii "out: [WRITTEN_BY_process_vm_writev]\n"] := by
  obtain ⟨shown, lines, -, alone⟩ := out_shows_new_data_over_secret ⟨false, false⟩
    (ascii "SECRET_DATA_12345") (ascii "WRITTEN_BY_process_vm_writev")
    ⟨0, 32, 96, .inl (by decide), .inr (by decide)⟩ (fun _ => 120) (by decide) (by decide)
    (by decide) (by decide)
  rw [lines, alone.mpr (.inr (by decide))]
  rfl

end GenericTests.IovecDemo
