import GenericTests.Lib.CString
import GenericTests.Lib.Transition

/-!
# controlthreads.c: pipewriter and pipereader

Both threads have the FIFO open. It is a byte stream: a write appends, a read takes
what the scheduler gives it of the oldest bytes. What the reader prints depends on the
sizes of its reads only, as if it read the whole stream alone.
-/
namespace GenericTests.Controlthreads

open GenericTests.CString GenericTests.Transition

/-- The size of `sendbuf` and of `readbuf`. -/
def bufSize : Nat := 100

/-- `messages` of pipewriter -/
def messages : List (List Byte) :=
  [ascii "1st message", ascii "2nd message", ascii "last message"]

/-- What `sprintf(sendbuf, "From %d: %s", thread_id, message)` writes before its NUL. -/
def pipeText (threadId : CInt) (message : List Byte) : List Byte :=
  ascii "From " ++ decimal threadId.val ++ ascii ": " ++ message

inductive WriterPc where
  | write (i : Nat)
  | close
  | exited (exitval : Int)
  deriving DecidableEq

inductive ReaderPc where
  | read (i : Nat)
  | close
  | exited (exitval : Byte)
  deriving DecidableEq

structure PipeState where
  /-- the bytes in the FIFO, oldest first -/
  pipe : List Byte
  writer : WriterPc
  sendbuf : Buffer bufSize
  /-- the strings of the lines `Writer: Sent message: %s` -/
  sent : List (List Byte)
  reader : ReaderPc
  readbuf : Buffer bufSize
  /-- the strings of the lines `Reader %d: Received message: %s` -/
  printed : List (List Byte)

inductive PipeAct where
  | write
  | closeWriter
  | read (bytesRead : Nat)
  | closeReader

def writerLoop (i : Nat) : WriterPc := if i < 3 then .write i else .close

def readerLoop (i : Nat) : ReaderPc := if i < 3 then .read i else .close

/-- A read takes at least one byte, unless the writer has closed an empty FIFO. -/
def PipeState.MayRead (s : PipeState) (bytesRead : Nat) : Prop :=
  bytesRead ≤ bufSize ∧ bytesRead ≤ s.pipe.length ∧
    (bytesRead = 0 → s.pipe = [] ∧ s.writer = .exited 88)

instance (s : PipeState) (bytesRead : Nat) : Decidable (s.MayRead bytesRead) :=
  inferInstanceAs (Decidable (_ ∧ _ ∧ _))

def pipeStep (threadId : CInt) (s : PipeState) : PipeAct → Option PipeState
  | .write =>
    match s.writer with
    | .write i =>
      match messages[i]? with
      | some message =>
        let sendbuf := s.sendbuf.write (pipeText threadId message ++ [0])
        some { s with
          sendbuf := sendbuf
          -- strlen(sendbuf) + 1 bytes, so the NUL goes along
          pipe := s.pipe ++ sendbuf.bytes.take (sendbuf.text.length + 1)
          sent := s.sent ++ [sendbuf.text]
          writer := writerLoop (i + 1) }
      | none => none
    | _ => none
  | .closeWriter =>
    -- `*exitval='X'`
    if s.writer = .close then some { s with writer := .exited 88 } else none
  | .read bytesRead =>
    match s.reader with
    | .read i =>
      if s.MayRead bytesRead then
        -- what an earlier read left behind the new bytes stays
        let readbuf := s.readbuf.write (s.pipe.take bytesRead)
        some { s with
          pipe := s.pipe.drop bytesRead
          readbuf := readbuf
          printed := if 0 < bytesRead then s.printed ++ [readbuf.text] else s.printed
          reader := readerLoop (i + 1) }
      else none
    | _ => none
  | .closeReader =>
    -- `*exitval=readbuf[10]`
    if s.reader = .close then some { s with reader := .exited (s.readbuf.bytes.getD 10 0) }
    else none

/-- Both buffers are uninitialised. -/
def pipes (threadId : CInt) : System PipeState PipeAct where
  init s := s.pipe = [] ∧ s.writer = writerLoop 0 ∧ s.sent = [] ∧ s.reader = readerLoop 0 ∧
    s.printed = []
  step := pipeStep threadId

/-- Both threads have called `pthread_exit`. -/
def PipeState.Finished (s : PipeState) : Prop :=
  (∃ k, s.writer = .exited k) ∧ ∃ k, s.reader = .exited k

/-! ### The reader alone with the whole stream -/

def texts (threadId : CInt) : List (List Byte) := messages.map (pipeText threadId)

/-- All that pipewriter writes, from message `k` on. -/
def stream (threadId : CInt) (k : Nat) : List Byte :=
  (((texts threadId).drop k).map (· ++ [0])).flatten

structure Reading where
  rest : List Byte
  /-- the number of bytes read -/
  taken : Nat
  readbuf : Buffer bufSize
  printed : List (List Byte)

def Reading.read (r : Reading) (bytesRead : Nat) : Reading where
  rest := r.rest.drop bytesRead
  taken := r.taken + bytesRead
  readbuf := r.readbuf.write (r.rest.take bytesRead)
  printed := if 0 < bytesRead then
      r.printed ++ [(r.readbuf.write (r.rest.take bytesRead)).text]
    else r.printed

/-- The reader on the complete stream, with reads of the given sizes. -/
def reading (threadId : CInt) (readbuf : Buffer bufSize) (sizes : List Nat) : Reading :=
  sizes.foldl Reading.read ⟨stream threadId 0, 0, readbuf, []⟩

def PipeAct.size : PipeAct → Option Nat
  | .read bytesRead => some bytesRead
  | .write | .closeWriter | .closeReader => none

def readSizes (acts : List PipeAct) : List Nat := acts.filterMap PipeAct.size

/-- The writer has sent the first `k` messages. -/
def WriterPc.At (pc : WriterPc) (k : Nat) : Prop :=
  pc = writerLoop k ∧ k ≤ 3 ∨ k = 3 ∧ pc = .exited 88

/-- The reader has made `k` reads. -/
def ReaderPc.At (pc : ReaderPc) (k : Nat) : Prop :=
  pc = readerLoop k ∧ k ≤ 3 ∨ k = 3 ∧ ∃ exitval, pc = .exited exitval

/-- What is in the FIFO and what is still to be written is what the reader alone has
left. -/
structure Simulates (threadId : CInt) (readbuf : Buffer bufSize) (acts : List PipeAct)
    (s : PipeState) : Prop where
  stage : ∃ k, s.writer.At k ∧ s.sent = (texts threadId).take k ∧
    (reading threadId readbuf (readSizes acts)).rest = s.pipe ++ stream threadId k
  readbuf_eq : s.readbuf = (reading threadId readbuf (readSizes acts)).readbuf
  printed_eq : s.printed = (reading threadId readbuf (readSizes acts)).printed
  reads : s.reader.At (readSizes acts).length
  bound : (reading threadId readbuf (readSizes acts)).taken +
    (reading threadId readbuf (readSizes acts)).rest.length = (stream threadId 0).length

/-! ### The texts -/

/-- A text without its first letter, which occurs nowhere else in it. -/
def pipeTail (threadId : CInt) (message : List Byte) : List Byte :=
  ascii "rom " ++ (decimal threadId.val ++ (ascii ": " ++ message))

theorem pipeText_eq (threadId : CInt) (message : List Byte) :
    pipeText threadId message = byteOf 'F' :: pipeTail threadId message := by
  have first : ascii "From " = byteOf 'F' :: ascii "rom " := by decide
  simp only [pipeText, pipeTail, first, List.append_assoc, List.cons_append]

theorem mem_pipeTail (threadId : CInt) (message : List Byte) (h : message ∈ messages) (b : Byte)
    (hb : b ∈ pipeTail threadId message) : b ≠ 0 ∧ b ≠ byteOf 'F' := by
  -- The literals are checked byte by byte; the number is made of digits and a sign.
  have checked : (ascii "rom " ++ ascii ": " ++ messages.flatten).all
      (fun c => c != 0 && c != byteOf 'F') = true := by decide
  have plain : ∀ c ∈ ascii "rom " ++ ascii ": " ++ messages.flatten, c ≠ 0 ∧ c ≠ byteOf 'F' := by
    intro c hc
    simpa using List.all_eq_true.mp checked c hc
  rcases List.mem_append.mp hb with hb | hb
  · exact plain b (by simp [hb])
  · rcases List.mem_append.mp hb with hb | hb
    · rcases mem_decimal threadId.val b hb with rfl | ⟨low, high⟩
      · decide
      · constructor
        · rintro rfl
          exact absurd low (by decide)
        · rintro rfl
          exact absurd high (by decide)
    · rcases List.mem_append.mp hb with hb | hb
      · exact plain b (by simp [hb])
      · exact plain b (List.mem_append_right _ (List.mem_flatten.mpr ⟨message, h, hb⟩))

theorem nul_not_mem_pipeText (threadId : CInt) (message : List Byte) (h : message ∈ messages) :
    (0 : Byte) ∉ pipeText threadId message := by
  rw [pipeText_eq, List.mem_cons, not_or]
  exact ⟨by decide, fun hb => (mem_pipeTail threadId message h 0 hb).1 rfl⟩

theorem length_pipeText_le (threadId : CInt) (message : List Byte) (h : message ∈ messages) :
    (pipeText threadId message).length ≤ 30 := by
  have short : ∀ m ∈ messages, m.length ≤ 12 := by decide
  have digits : (decimal threadId.val).length ≤ 11 := by
    apply length_decimal_le
    have lower := threadId.lower
    have upper := threadId.upper
    omega
  have around : (ascii "From ").length = 5 ∧ (ascii ": ").length = 2 := by decide
  have := short message h
  simp only [pipeText, List.length_append]
  omega

/-- What pipewriter puts into the FIFO for one message. -/
theorem written (threadId : CInt) (sendbuf : Buffer bufSize) (message : List Byte)
    (h : message ∈ messages) :
    (sendbuf.write (pipeText threadId message ++ [0])).text = pipeText threadId message ∧
    (sendbuf.write (pipeText threadId message ++ [0])).bytes.take
      ((pipeText threadId message).length + 1) = pipeText threadId message ++ [0] := by
  have length := length_pipeText_le threadId message h
  have fits : (pipeText threadId message ++ [0]).length ≤ bufSize := by
    simp only [List.length_append, List.length_singleton, bufSize]
    omega
  constructor
  · rw [Buffer.text, sendbuf.bytes_write _ fits, List.append_assoc, List.singleton_append]
    exact cstr_append_nul _ _ (nul_not_mem_pipeText threadId message h)
  · rw [sendbuf.bytes_write _ fits]
    exact List.take_left' (by simp)

/-! ### The simulation -/

theorem readSizes_concat (acts : List PipeAct) (a : PipeAct) :
    readSizes (acts ++ [a]) = readSizes acts ++ a.size.toList := by
  cases h : a.size <;> simp [readSizes, h]

theorem reading_concat (threadId : CInt) (readbuf : Buffer bufSize) (sizes : List Nat) (n : Nat) :
    reading threadId readbuf (sizes ++ [n]) = (reading threadId readbuf sizes).read n := by
  simp only [reading, List.foldl_append, List.foldl_cons, List.foldl_nil]

theorem simulates_init (threadId : CInt) (s : PipeState) (h : (pipes threadId).init s) :
    Simulates threadId s.readbuf [] s := by
  obtain ⟨pipe, writer, sent, reader, printed⟩ := h
  refine ⟨⟨0, .inl ⟨writer, by omega⟩, by simp [sent], ?_⟩, rfl, printed, .inl ⟨reader, by simp [readSizes]⟩,
    by simp [readSizes, reading]⟩
  simp [pipe, readSizes, reading]

private theorem writerAt_write {pc : WriterPc} {i k : Nat} (at_k : pc.At k) (h : pc = .write i) :
    k = i ∧ i < 3 := by
  subst h
  rcases at_k with ⟨loop, -⟩ | ⟨-, exited⟩
  · rw [writerLoop] at loop
    split at loop
    next more =>
      cases loop
      exact ⟨rfl, more⟩
    next => cases loop
  · cases exited

private theorem readerAt_read {pc : ReaderPc} {i k : Nat} (at_k : pc.At k) (h : pc = .read i) :
    k = i ∧ i < 3 := by
  subst h
  rcases at_k with ⟨loop, -⟩ | ⟨-, exitval, exited⟩
  · rw [readerLoop] at loop
    split at loop
    next more =>
      cases loop
      exact ⟨rfl, more⟩
    next => cases loop
  · cases exited

private theorem writerAt_close {pc : WriterPc} {k : Nat} (at_k : pc.At k) (h : pc = .close) :
    k = 3 := by
  subst h
  rcases at_k with ⟨loop, le⟩ | ⟨-, exited⟩
  · rw [writerLoop] at loop
    split at loop
    next => cases loop
    next => omega
  · cases exited

private theorem readerAt_close {pc : ReaderPc} {k : Nat} (at_k : pc.At k) (h : pc = .close) :
    k = 3 := by
  subst h
  rcases at_k with ⟨loop, le⟩ | ⟨-, exitval, exited⟩
  · rw [readerLoop] at loop
    split at loop
    next => cases loop
    next => omega
  · cases exited

private theorem stream_succ (threadId : CInt) (k : Nat) (message : List Byte)
    (h : messages[k]? = some message) :
    stream threadId k = pipeText threadId message ++ [0] ++ stream threadId (k + 1) ∧
    (texts threadId).take (k + 1) = (texts threadId).take k ++ [pipeText threadId message] := by
  have text : (texts threadId)[k]? = some (pipeText threadId message) := by simp [texts, h]
  obtain ⟨bound, get⟩ := List.getElem?_eq_some_iff.mp text
  constructor
  · rw [stream, List.drop_eq_getElem_cons bound, get]
    rfl
  · rw [List.take_succ_eq_append_getElem bound, get]

/-- One step of the two threads is no step, or the same read, of the reader alone. -/
theorem simulates_step (threadId : CInt) (readbuf : Buffer bufSize) (past : List PipeAct)
    (s : PipeState) (a : PipeAct) (t : PipeState) (sim : Simulates threadId readbuf past s)
    (hs : pipeStep threadId s a = some t) : Simulates threadId readbuf (past ++ [a]) t := by
  obtain ⟨⟨k, at_k, sent, rest⟩, readbuf_eq, printed_eq, reads, bound⟩ := sim
  cases a with
  | write =>
    have same : readSizes (past ++ [.write]) = readSizes past := by
      simp [readSizes_concat, PipeAct.size]
    simp only [pipeStep] at hs
    split at hs
    next i pc =>
      split at hs
      next message found =>
        cases Option.some.inj hs
        obtain ⟨rfl, more⟩ := writerAt_write at_k pc
        have mem := List.mem_of_getElem? found
        obtain ⟨text, bytes⟩ := written threadId s.sendbuf message mem
        obtain ⟨streamEq, takeEq⟩ := stream_succ threadId k message found
        refine ⟨⟨k + 1, .inl ⟨rfl, by omega⟩, ?_, ?_⟩, ?_, ?_, ?_, ?_⟩
        · rw [takeEq, ← sent, text]
        · rw [same, rest, text, bytes, streamEq, ← List.append_assoc]
        · rw [same, readbuf_eq]
        · rw [same, printed_eq]
        · rw [same]
          exact reads
        · rw [same, bound]
      next => cases hs
    next => cases hs
  | closeWriter =>
    have same : readSizes (past ++ [.closeWriter]) = readSizes past := by
      simp [readSizes_concat, PipeAct.size]
    simp only [pipeStep] at hs
    split at hs
    next pc =>
      cases Option.some.inj hs
      have three := writerAt_close at_k pc
      exact ⟨⟨k, .inr ⟨three, rfl⟩, sent, same ▸ rest⟩, same ▸ readbuf_eq, same ▸ printed_eq,
        same ▸ reads, same ▸ bound⟩
    next => cases hs
  | closeReader =>
    have same : readSizes (past ++ [.closeReader]) = readSizes past := by
      simp [readSizes_concat, PipeAct.size]
    simp only [pipeStep] at hs
    split at hs
    next pc =>
      cases Option.some.inj hs
      have three := readerAt_close reads pc
      exact ⟨⟨k, at_k, sent, same ▸ rest⟩, same ▸ readbuf_eq, same ▸ printed_eq,
        .inr ⟨same ▸ three, _, rfl⟩, same ▸ bound⟩
    next => cases hs
  | read n =>
    have one : readSizes (past ++ [.read n]) = readSizes past ++ [n] := by
      simp [readSizes_concat, PipeAct.size]
    simp only [pipeStep] at hs
    split at hs
    next i pc =>
      split at hs
      next may =>
        cases Option.some.inj hs
        obtain ⟨count, more⟩ := readerAt_read reads pc
        obtain ⟨-, there, -⟩ := may
        -- the read stays inside the FIFO, so it does not see what is still to be written
        have chunk : (reading threadId readbuf (readSizes past)).rest.take n = s.pipe.take n := by
          rw [rest, List.take_append_of_le_length there]
        refine ⟨⟨k, at_k, sent, ?_⟩, ?_, ?_, ?_, ?_⟩
        · rw [one, reading_concat, Reading.read, rest, List.drop_append_of_le_length there]
        · rw [one, reading_concat, Reading.read, chunk, readbuf_eq]
        · rw [one, reading_concat, Reading.read, chunk, readbuf_eq, printed_eq]
        · rw [one, List.length_append, count]
          exact .inl ⟨rfl, by rw [List.length_singleton]; omega⟩
        · rw [one, reading_concat, Reading.read, List.length_drop]
          have enough : n ≤ (reading threadId readbuf (readSizes past)).rest.length := by
            rw [rest, List.length_append]
            omega
          dsimp only
          omega
      next => cases hs
    next => cases hs

/-- **Simulation**: whatever the interleaving, what was printed is what a reader with the
whole stream would print. -/
theorem finished_reading (threadId : CInt) (s t : PipeState) (acts : List PipeAct)
    (init : (pipes threadId).init s) (ran : (pipes threadId).run s acts = some t)
    (finished : t.Finished) :
    t.sent = texts threadId ∧
    t.printed = (reading threadId s.readbuf (readSizes acts)).printed ∧
    (readSizes acts).length = 3 ∧
    (reading threadId s.readbuf (readSizes acts)).taken ≤ (stream threadId 0).length := by
  have sim := (pipes threadId).run_history (Simulates threadId s.readbuf)
    (simulates_step threadId s.readbuf) s t acts (simulates_init threadId s init) ran
  obtain ⟨⟨k, at_k, sent, -⟩, -, printed, reads, bound⟩ := sim
  obtain ⟨⟨x, writer⟩, ⟨y, reader⟩⟩ := finished
  have sentAll : k = 3 := by
    rcases at_k with ⟨loop, -⟩ | ⟨three, -⟩
    · rw [writer, writerLoop] at loop
      split at loop <;> cases loop
    · exact three
  have readAll : (readSizes acts).length = 3 := by
    rcases reads with ⟨loop, -⟩ | ⟨three, -⟩
    · rw [reader, readerLoop] at loop
      split at loop <;> cases loop
    · exact three
  refine ⟨?_, printed, readAll, by omega⟩
  rw [sent, sentAll]
  rfl

end GenericTests.Controlthreads
