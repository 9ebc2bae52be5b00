import GenericTests.Controlthreads.Makethreads
import Mathlib.Data.List.GetD

/-!
# controlthreads.c: waiting for bingo

waitfakedev and waitfakefile read ten bytes at a time until a record of ten bytes starts with
`bingo`. A read that returns less is thrown away with its bytes. Here the loop reads a file that
others append to; it finds a record only if no earlier read has come too soon.
-/
namespace GenericTests.Controlthreads.Makethreads.Bingo

open GenericTests.CString GenericTests.Transition

inductive Reader where
  | waitfakedev
  | waitfakefile

def Reader.body : Reader → Body
  | .waitfakedev => Makethreads.waitfakedev
  | .waitfakefile => Makethreads.waitfakefile

structure State where
  file : List Byte
  /-- the offset of `fd` -/
  offset : Nat
  thread : Thread
  out : List Line

def State.start (file : List Byte) (thread : Thread) (out : List Line) : State :=
  ⟨file, 0, { thread with pc := .read 0 }, out⟩

inductive Act where
  | append (bytes : List Byte)
  | read
  /-- the read returns -1 -/
  | fail

/-- `read(fd,input,10)` -/
def State.input (s : State) : List Byte := (s.file.drop s.offset).take 10

def State.after (s : State) (bytes : List Byte) (r : Thread × List Line) : State :=
  ⟨s.file, s.offset + bytes.length, r.1, s.out ++ r.2⟩

def step (r : Reader) (s : State) : Act → Option State
  | .append bytes => some { s with file := s.file ++ bytes }
  | .read =>
    match s.thread.pc with
    | .read _ => (r.body s.thread true s.input).map (s.after s.input)
    | _ => none
  | .fail =>
    match s.thread.pc with
    | .read _ => (r.body s.thread false []).map (s.after [])
    | _ => none

/-- The loop of one reader and those who append to its file. -/
def bingo (r : Reader) : System State Act where
  init s := ∃ file thread out, s = .start file thread out
  step := step r

def isBingo (record : List Byte) : Bool := decide (record.take 5 = ascii "bingo")

/-- Record `i` of the file. -/
def State.record (s : State) (i : Nat) : List Byte := (s.file.drop (10 * i)).take 10

/-- The next read starts at a record. -/
def Aligned (s : State) : Prop := s.offset % 10 = 0

/-- A read does not come in the middle of a record that is being written. -/
def NoPartial (s : State) (a : Act) : Prop :=
  a = .read → s.file.length - s.offset = 0 ∨ 10 ≤ s.file.length - s.offset

/-- The reader has passed over the records before its offset, or has stopped behind the first one
that starts with `bingo`, with the last byte of it. -/
structure Scanned (s : State) : Prop where
  inside : s.offset ≤ s.file.length
  found : ∃ k, s.offset = 10 * k ∧
    (s.thread.pc = .read 0 ∧ (∀ i < k, isBingo (s.record i) = false) ∨
      ∃ j, k = j + 1 ∧ (∀ i < j, isBingo (s.record i) = false) ∧ isBingo (s.record j) = true ∧
        s.thread.pc = .store (charValue ((s.record j).getD 9 0)))

section Steps

variable {r : Reader} {s t : State}

/-- What a read does to the place of the thread. -/
def afterRead (i : Nat) (bytes : List Byte) : ThreadPc :=
  if bytes.length = 10 ∧ isBingo bytes = true then .store (charValue (bytes.getD 9 0)) else .read i

theorem body_read (r : Reader) (t : Thread) (i : Nat) (pc : t.pc = .read i) (bytes : List Byte)
    (most : bytes.length ≤ 10) :
    ∃ t' lines, r.body t true bytes = some (t', lines) ∧ t'.pc = afterRead i bytes := by
  have shared (missing : Line) (notEnough : Int → Line) : ∃ t' lines,
      waitFake missing notEnough t true bytes = some (t', lines) ∧
        t'.pc = afterRead i bytes := by
    by_cases short : bytes.length < 10
    · refine ⟨{ t with pc := .read i, input := t.input.write bytes }, [notEnough bytes.length], ?_, ?_⟩
      · simp only [waitFake, pc, if_true, short]
      · exact (if_neg (by omega)).symm
    · have full : bytes.length = 10 := by omega
      have stored := t.input.bytes_write bytes (by omega)
      have start : (t.input.write bytes).bytes.take 5 = bytes.take 5 := by
        rw [stored, List.take_append_of_le_length (by omega)]
      have last : (t.input.write bytes).bytes.getD 9 0 = bytes.getD 9 0 := by
        rw [stored, List.getD_append _ _ _ _ (by omega)]
      by_cases hit : bytes.take 5 = ascii "bingo"
      · refine ⟨{ t with pc := .store (charValue (bytes.getD 9 0)), input := t.input.write bytes },
          [.gotBingo (charValue (bytes.getD 9 0))], ?_, ?_⟩
        · simp only [waitFake, pc, if_true, full, Nat.lt_irrefl, if_false, start, hit, last]
        · exact (if_pos ⟨full, decide_eq_true hit⟩).symm
      · refine ⟨{ t with pc := .read i, input := t.input.write bytes },
          [.badInput (t.input.write bytes).text], ?_, ?_⟩
        · simp only [waitFake, pc, if_true, full, Nat.lt_irrefl, if_false, start, hit]
        · exact (if_neg fun h => hit (of_decide_eq_true h.2)).symm
  cases r with
  | waitfakedev => exact shared _ _
  | waitfakefile => exact shared _ _

theorem State.length_input (s : State) : s.input.length = min 10 (s.file.length - s.offset) := by
  simp only [State.input, List.length_take, List.length_drop]

theorem read_cases (moved : step r s .read = some t) :
    ∃ i, s.thread.pc = .read i ∧ t.file = s.file ∧ t.offset = s.offset + s.input.length ∧
      t.thread.pc = afterRead i s.input := by
  simp only [step] at moved
  split at moved
  next i pc =>
    have most : s.input.length ≤ 10 := by
      rw [s.length_input]
      omega
    obtain ⟨t', lines, does, goes⟩ := body_read r s.thread i pc s.input most
    rw [does] at moved
    cases moved
    exact ⟨i, pc, rfl, rfl, goes⟩
  next => cases moved

/-- A read that fails changes nothing but the output. -/
theorem fail_cases (moved : step r s .fail = some t) :
    t.file = s.file ∧ t.offset = s.offset ∧ t.thread.pc = s.thread.pc := by
  have shared (missing : Line) (notEnough : Int → Line) (i : Nat) (pc : s.thread.pc = .read i)
      (moved : (waitFake missing notEnough s.thread false []).map (s.after []) = some t) :
      t.file = s.file ∧ t.offset = s.offset ∧ t.thread.pc = s.thread.pc := by
    rw [waitFake, pc] at moved
    cases moved
    exact ⟨rfl, rfl, pc.symm⟩
  simp only [step] at moved
  split at moved
  next i pc =>
    cases r with
    | waitfakedev => exact shared _ _ i pc moved
    | waitfakefile => exact shared _ _ i pc moved
  next => cases moved

/-- Records that are complete do not change. -/
theorem record_append (s : State) (bytes : List Byte) (i : Nat)
    (complete : 10 * (i + 1) ≤ s.file.length) :
    ({ s with file := s.file ++ bytes } : State).record i = s.record i := by
  simp only [State.record]
  rw [List.drop_append_of_le_length (by omega), List.take_append_of_le_length]
  rw [List.length_drop]
  omega

theorem aligned_step_iff {a : Act} (aligned : Aligned s) (moved : step r s a = some t) :
    Aligned t ↔ NoPartial s a := by
  unfold Aligned at aligned
  cases a with
  | append bytes =>
    cases moved
    exact iff_of_true aligned nofun
  | fail =>
    obtain ⟨-, offset, -⟩ := fail_cases moved
    exact iff_of_true (by rw [Aligned, offset]; exact aligned) nofun
  | read =>
    obtain ⟨i, -, -, offset, -⟩ := read_cases moved
    rw [Aligned, offset, s.length_input]
    constructor
    · intro next _
      omega
    · intro whole
      have := whole rfl
      omega

/-- The records are read one after the other. -/
theorem scanned_read (h : Scanned s) (whole : NoPartial s .read) (moved : step r s .read = some t) :
    Scanned t := by
  obtain ⟨inside, k, offset, found⟩ := h
  obtain ⟨i, pc, file, next, goes⟩ := read_cases moved
  have same (j : Nat) : t.record j = s.record j := by rw [State.record, file, ← State.record]
  have length := s.length_input
  rcases found with ⟨reading, passed⟩ | ⟨j, -, -, -, stored⟩
  · cases reading.symm.trans pc
    have input : s.input = s.record k := by rw [State.input, offset, State.record]
    refine ⟨by rw [file, next]; omega, ?_⟩
    rcases whole rfl with none_left | full
    · -- at the end of the file
      refine ⟨k, by omega, .inl ⟨?_, fun j hj => by rw [same]; exact passed j hj⟩⟩
      rw [goes, afterRead, if_neg (by omega)]
    · refine ⟨k + 1, by omega, ?_⟩
      cases hit : isBingo (s.record k) with
      | true =>
        refine .inr ⟨k, rfl, fun j hj => by rw [same]; exact passed j hj, by rw [same]; exact hit, ?_⟩
        rw [goes, afterRead, input, if_pos ⟨by rw [← input]; omega, hit⟩, same]
      | false =>
        refine .inl ⟨?_, fun j hj => ?_⟩
        · rw [goes, afterRead, input, if_neg (by rw [hit]; exact fun h => nomatch h.2)]
        · rw [same]
          by_cases last : j = k
          · rw [last]
            exact hit
          · exact passed j (by omega)
  · rw [stored] at pc
    cases pc

theorem scanned_step {a : Act} (h : Scanned s) (whole : NoPartial s a)
    (moved : step r s a = some t) : Scanned t := by
  cases a with
  | read => exact scanned_read h whole moved
  | append bytes =>
    cases moved
    obtain ⟨inside, k, offset, found⟩ := h
    refine ⟨inside.trans (by simp), k, offset, ?_⟩
    rcases found with ⟨reading, passed⟩ | ⟨j, rfl, passed, hit, stored⟩
    · refine .inl ⟨reading, fun i hi => ?_⟩
      rw [record_append s bytes i (by omega)]
      exact passed i hi
    · refine .inr ⟨j, rfl, fun i hi => ?_, ?_, ?_⟩
      · rw [record_append s bytes i (by omega)]
        exact passed i hi
      · rw [record_append s bytes j (by omega)]
        exact hit
      · rw [record_append s bytes j (by omega)]
        exact stored
  | fail =>
    obtain ⟨file, offset, pc⟩ := fail_cases moved
    have same (j : Nat) : t.record j = s.record j := by rw [State.record, file, ← State.record]
    refine ⟨by rw [file, offset]; exact h.inside, ?_⟩
    simp only [offset, pc, same]
    exact h.found

end Steps

/-- **Waiting for bingo**: a reader stays at the boundaries of the records exactly as long as none
of its reads comes in the middle of a record. Then it stops at the first record that starts with
`bingo`, with the last byte of it, and passes over all the others. -/
theorem bingo_found (r : Reader) (file : List Byte) (thread : Thread) (out : List Line)
    (acts : List Act) :
    ((bingo r).Always Aligned (.start file thread out) acts ↔
      (bingo r).StepsMeet NoPartial (.start file thread out) acts) ∧
    ∀ s, (bingo r).run (.start file thread out) acts = some s →
      (bingo r).StepsMeet NoPartial (.start file thread out) acts → Scanned s := by
  constructor
  · refine (bingo r).always_iff_stepsMeet (fun _ => True) Aligned NoPartial
      (fun _ _ _ _ _ _ => trivial) ?_ _ acts trivial rfl
    exact fun s a t _ aligned moved => aligned_step_iff aligned moved
  · intro s ran whole
    have start : Scanned (.start file thread out) :=
      ⟨Nat.zero_le _, 0, rfl, .inl ⟨rfl, fun i hi => absurd hi (Nat.not_lt_zero i)⟩⟩
    exact (bingo r).stepsMeet_invariant Scanned NoPartial (fun _ _ _ => scanned_step) _ s acts start
      whole ran

end GenericTests.Controlthreads.Makethreads.Bingo
