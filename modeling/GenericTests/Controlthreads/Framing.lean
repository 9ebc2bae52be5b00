import GenericTests.Controlthreads.Pipe

/-!
# Message framing over the FIFO

The reader takes one read for one message. The letter `F` starts every message and
occurs nowhere else in the stream, so a message is reported whole only if the read
before it stopped exactly at a message's end.
-/
namespace GenericTests.Controlthreads

open GenericTests.CString GenericTests.Transition

section Texts

variable (threadId : CInt)

def firstText : List Byte := pipeText threadId (ascii "1st message")

def secondText : List Byte := pipeText threadId (ascii "2nd message")

def lastText : List Byte := pipeText threadId (ascii "last message")

/-- Every read returns one message with its NUL. The last NUL may be missing if the
uninitialised `readbuf` holds one in its place. -/
def WholeReads (readbuf : Buffer bufSize) (sizes : List Nat) : Prop :=
  sizes = [(firstText threadId).length + 1, (secondText threadId).length + 1,
      (lastText threadId).length + 1] ∨
    sizes = [(firstText threadId).length + 1, (secondText threadId).length + 1,
      (lastText threadId).length] ∧ readbuf.bytes[(lastText threadId).length]? = some 0

theorem stream_eq : stream threadId 0 =
    firstText threadId ++ 0 :: (secondText threadId ++ 0 :: (lastText threadId ++ [0])) := by
  simp [stream, texts, messages, firstText, secondText, lastText]

theorem length_texts :
    (secondText threadId).length = (firstText threadId).length ∧
    (lastText threadId).length = (firstText threadId).length + 1 ∧
    (lastText threadId).length ≤ 30 := by
  have sizes : (ascii "1st message").length = 11 ∧ (ascii "2nd message").length = 11 ∧
      (ascii "last message").length = 12 := by decide
  have bound := length_pipeText_le threadId (ascii "last message") (by decide)
  simp only [firstText, secondText, lastText, pipeText, List.length_append] at *
  omega

end Texts

/-! ### Where messages start -/

/-- In `b :: x ++ y` with `b` not in `x`, a later `b` is in `y`. -/
private theorem getElem?_marked (b : Byte) (x y : List Byte) (h : b ∉ x) (o : Nat)
    (ho : (b :: x ++ y)[o]? = some b) (later : 0 < o) :
    x.length + 1 ≤ o ∧ y[o - (x.length + 1)]? = some b := by
  by_cases inside : o < (b :: x).length
  · rw [List.getElem?_append_left inside] at ho
    obtain ⟨o, rfl⟩ : ∃ k, o = k + 1 := ⟨o - 1, by omega⟩
    rw [List.getElem?_cons_succ] at ho
    exact absurd (List.mem_of_getElem? ho) h
  · rw [List.getElem?_append_right (by omega)] at ho
    exact ⟨by simpa using inside, ho⟩

/-- The places of the letter `F` in the stream. -/
theorem stream_starts (threadId : CInt) (o : Nat) (later : 0 < o)
    (ho : (stream threadId 0)[o]? = some (byteOf 'F')) :
    o = (firstText threadId).length + 1 ∨
    o = (firstText threadId).length + 1 + ((secondText threadId).length + 1) := by
  -- Each message is an F followed by bytes that are none.
  have marked : ∀ message ∈ messages, byteOf 'F' ∉ pipeTail threadId message ++ [0] := by
    intro message h hb
    rcases List.mem_append.mp hb with hb | hb
    · exact (mem_pipeTail threadId message h _ hb).2 rfl
    · exact absurd hb (by decide)
  have length : ∀ message, (pipeText threadId message).length =
      (pipeTail threadId message ++ [0]).length := by
    intro message
    simp [pipeText_eq]
  have split : stream threadId 0 =
      byteOf 'F' :: (pipeTail threadId (ascii "1st message") ++ [0]) ++
        (byteOf 'F' :: (pipeTail threadId (ascii "2nd message") ++ [0]) ++
          (byteOf 'F' :: (pipeTail threadId (ascii "last message") ++ [0]) ++ [])) := by
    simp [stream_eq, firstText, secondText, lastText, pipeText_eq]
  rw [split] at ho
  simp only [firstText, secondText, length]
  obtain ⟨le₁, h₁⟩ := getElem?_marked _ _ _ (marked _ (by decide)) o ho later
  by_cases start₂ : o = (pipeTail threadId (ascii "1st message") ++ [0]).length + 1
  · exact .inl start₂
  · obtain ⟨le₂, h₂⟩ := getElem?_marked _ _ _ (marked _ (by decide)) _ h₁ (by omega)
    by_cases start₃ : o - ((pipeTail threadId (ascii "1st message") ++ [0]).length + 1) =
        (pipeTail threadId (ascii "2nd message") ++ [0]).length + 1
    · right
      omega
    · obtain ⟨-, h₃⟩ := getElem?_marked _ _ _ (marked _ (by decide)) _ h₂ (by omega)
      cases h₃

/-- A read that makes a message show up whole has started at its first letter. -/
private theorem start_of_text (threadId : CInt) (buffer : Buffer bufSize) (source message : List Byte)
    (o n : Nat) (some_read : 0 < n) (inside : o < source.length)
    (shown : (buffer.write ((source.drop o).take n)).text = pipeText threadId message) :
    source[o]? = some (byteOf 'F') := by
  rw [pipeText_eq] at shown
  have head := head?_of_cstr _ _ _ shown
  obtain ⟨n, rfl⟩ : ∃ k, n = k + 1 := ⟨n - 1, by omega⟩
  simp only [Buffer.write, List.drop_eq_getElem_cons inside, List.take_succ_cons,
    List.cons_append] at head
  rw [List.getElem?_eq_getElem inside]
  exact head

/-! ### Three reads -/

/-- Three strings are printed only if no read comes back empty. -/
private theorem printed_three (threadId : CInt) (readbuf : Buffer bufSize) (n₁ n₂ n₃ : Nat) :
    (reading threadId readbuf [n₁, n₂, n₃]).printed = texts threadId ↔
      (0 < n₁ ∧ 0 < n₂ ∧ 0 < n₃) ∧
      (reading threadId readbuf [n₁]).readbuf.text = firstText threadId ∧
      (reading threadId readbuf [n₁, n₂]).readbuf.text = secondText threadId ∧
      (reading threadId readbuf [n₁, n₂, n₃]).readbuf.text = lastText threadId := by
  have three : texts threadId = [firstText threadId, secondText threadId, lastText threadId] := rfl
  rw [three]
  by_cases all : 0 < n₁ ∧ 0 < n₂ ∧ 0 < n₃
  · obtain ⟨h₁, h₂, h₃⟩ := all
    simp [reading, Reading.read, h₁, h₂, h₃]
  · constructor
    · intro h
      -- an empty read prints nothing, so there are at most two lines
      have count := congrArg List.length h
      exfalso
      simp only [reading, Reading.read, List.foldl_cons, List.foldl_nil] at count
      split at count <;> split at count <;> split at count <;> simp at count
      omega
    · intro h
      exact absurd h.1 all

/-- After two whole messages. -/
private theorem reading_two (threadId : CInt) (readbuf : Buffer bufSize) :
    (reading threadId readbuf [(firstText threadId).length + 1]).readbuf.text =
      firstText threadId ∧
    (reading threadId readbuf
      [(firstText threadId).length + 1, (secondText threadId).length + 1]).readbuf.bytes =
        secondText threadId ++ 0 :: readbuf.bytes.drop (lastText threadId).length ∧
    (reading threadId readbuf
      [(firstText threadId).length + 1, (secondText threadId).length + 1]).rest =
        lastText threadId ++ [0] := by
  obtain ⟨second, last, bound⟩ := length_texts threadId
  have take : ∀ text rest : List Byte,
      (text ++ 0 :: rest).take (text.length + 1) = text ++ [0] ∧
      (text ++ 0 :: rest).drop (text.length + 1) = rest := by
    intro text rest
    have split : text ++ 0 :: rest = (text ++ [0]) ++ rest := by simp
    have length : text.length + 1 = (text ++ [0]).length := by simp
    rw [split, length]
    exact ⟨List.take_left, List.drop_left⟩
  have fits₁ : (firstText threadId ++ [0]).length ≤ bufSize := by
    simp only [List.length_append, List.length_singleton, bufSize]
    omega
  have fits₂ : (secondText threadId ++ [0]).length ≤ bufSize := by
    simp only [List.length_append, List.length_singleton, bufSize]
    omega
  have one : reading threadId readbuf [(firstText threadId).length + 1] =
      ⟨secondText threadId ++ 0 :: (lastText threadId ++ [0]),
        (firstText threadId).length + 1, readbuf.write (firstText threadId ++ [0]),
        [(readbuf.write (firstText threadId ++ [0])).text]⟩ := by
    simp only [reading, List.foldl_cons, List.foldl_nil, Reading.read, stream_eq, (take _ _).1,
      (take _ _).2, Nat.zero_lt_succ, if_true, List.nil_append, Nat.zero_add]
  have two : reading threadId readbuf
      [(firstText threadId).length + 1, (secondText threadId).length + 1] =
      (reading threadId readbuf [(firstText threadId).length + 1]).read
        ((secondText threadId).length + 1) := rfl
  refine ⟨?_, ?_, ?_⟩
  · rw [one]
    dsimp only
    rw [Buffer.text, readbuf.bytes_write _ fits₁, List.append_assoc, List.singleton_append]
    exact cstr_append_nul _ _ (nul_not_mem_pipeText threadId _ (by decide))
  · rw [two, one]
    simp only [Reading.read, (take _ _).1]
    rw [Buffer.bytes_write _ _ fits₂, readbuf.bytes_write _ fits₁, List.append_assoc,
      List.singleton_append]
    congr 2
    -- the second message covers the first one exactly, so the old bytes behind it stay
    have same : (secondText threadId ++ [0]).length = (firstText threadId ++ [0]).length := by
      simp [second]
    rw [same, List.drop_left, last]
    simp
  · rw [two, one]
    exact (take _ _).2

/-- The last message is shown whole with its NUL, or without it by what was in the buffer. -/
private theorem last_read (threadId : CInt) (readbuf : Buffer bufSize) (buffer : Buffer bufSize)
    (n : Nat) (fits : n ≤ (lastText threadId).length + 1)
    (hb : buffer.bytes =
      secondText threadId ++ 0 :: readbuf.bytes.drop (lastText threadId).length) :
    (buffer.write ((lastText threadId ++ [0]).take n)).text = lastText threadId ↔
      n = (lastText threadId).length + 1 ∨
      n = (lastText threadId).length ∧ readbuf.bytes[(lastText threadId).length]? = some 0 := by
  obtain ⟨second, last, bound⟩ := length_texts threadId
  have noNul : (0 : Byte) ∉ lastText threadId := nul_not_mem_pipeText threadId _ (by decide)
  have chunk : ((lastText threadId ++ [0]).take n).length = n := by
    simp only [List.length_take, List.length_append, List.length_singleton]
    omega
  have bytes := buffer.bytes_write ((lastText threadId ++ [0]).take n) (by
    rw [chunk, bufSize]
    omega)
  rw [Buffer.text, bytes, chunk]
  rcases Nat.lt_trichotomy n (lastText threadId).length with short | exactly | whole
  · -- the NUL of the second message is still in the buffer
    constructor
    · intro h
      exfalso
      have nul : ((lastText threadId ++ [0]).take n ++ buffer.bytes.drop n)[
          (secondText threadId).length]? = some 0 := by
        rw [List.getElem?_append_right (by omega), chunk, List.getElem?_drop]
        have place : n + ((secondText threadId).length - n) = (secondText threadId).length := by
          omega
        rw [place, hb]
        simp
      have := length_cstr_le _ _ nul
      rw [h] at this
      omega
    · intro h
      omega
  · -- the first two reads were one byte shorter, so the next byte is the uninitialised one
    have text : (lastText threadId ++ [0]).take n = lastText threadId := by
      rw [exactly, List.take_left]
    have stale : buffer.bytes.drop n = readbuf.bytes.drop (lastText threadId).length := by
      have split : buffer.bytes =
          (secondText threadId ++ [0]) ++ readbuf.bytes.drop (lastText threadId).length := by
        simp [hb]
      have length : n = (secondText threadId ++ [0]).length := by
        simp only [List.length_append, List.length_singleton]
        omega
      rw [split, length, List.drop_left]
    have inside : (lastText threadId).length < readbuf.bytes.length := by
      rw [readbuf.length_eq, bufSize]
      omega
    rw [text, stale, cstr_append _ _ noNul, List.append_right_eq_self,
      List.drop_eq_getElem_cons inside, List.getElem?_eq_getElem inside, cstr,
      List.takeWhile_cons]
    simp [exactly]
  · have n_eq : n = (lastText threadId).length + 1 := by omega
    have text : (lastText threadId ++ [0]).take n = lastText threadId ++ [0] := by
      apply List.take_of_length_le
      simp [n_eq]
    rw [text, List.append_assoc, List.singleton_append, cstr_append_nul _ _ noNul]
    simp [n_eq]

theorem reading_texts_iff (threadId : CInt) (readbuf : Buffer bufSize) (n₁ n₂ n₃ : Nat)
    (bound : n₁ + n₂ + n₃ ≤ (stream threadId 0).length) :
    (reading threadId readbuf [n₁, n₂, n₃]).printed = texts threadId ↔
      WholeReads threadId readbuf [n₁, n₂, n₃] := by
  obtain ⟨second, last, -⟩ := length_texts threadId
  obtain ⟨shown₁, bytes₂, rest₂⟩ := reading_two threadId readbuf
  have total : (stream threadId 0).length = (firstText threadId).length + 1 +
      ((secondText threadId).length + 1) + ((lastText threadId).length + 1) := by
    simp only [stream_eq, List.length_append, List.length_cons, List.length_nil]
    omega
  have third : reading threadId readbuf [n₁, n₂, n₃] =
      (reading threadId readbuf [n₁, n₂]).read n₃ := rfl
  have shown₂ : (reading threadId readbuf
      [(firstText threadId).length + 1, (secondText threadId).length + 1]).readbuf.text =
        secondText threadId := by
    rw [Buffer.text, bytes₂]
    exact cstr_append_nul _ _ (nul_not_mem_pipeText threadId _ (by decide))
  rw [printed_three]
  -- Either the first two reads are whole messages, or no choice of the third helps.
  by_cases framed : n₁ = (firstText threadId).length + 1 ∧ n₂ = (secondText threadId).length + 1
  · obtain ⟨rfl, rfl⟩ := framed
    have lastRead := last_read threadId readbuf _ n₃ (by omega) bytes₂
    rw [third, Reading.read, rest₂]
    dsimp only
    rw [lastRead, WholeReads]
    constructor
    · rintro ⟨-, -, -, whole | ⟨bare, nul⟩⟩
      · exact .inl (by rw [whole])
      · exact .inr ⟨by rw [bare], nul⟩
    · rintro (whole | ⟨bare, nul⟩)
      · have n_eq : n₃ = (lastText threadId).length + 1 := by simpa using whole
        exact ⟨by omega, shown₁, shown₂, .inl n_eq⟩
      · have n_eq : n₃ = (lastText threadId).length := by simpa using bare
        exact ⟨by omega, shown₁, shown₂, .inr ⟨n_eq, nul⟩⟩
  · constructor
    · rintro ⟨⟨pos₁, pos₂, pos₃⟩, -, text₂, text₃⟩
      exfalso
      -- the second and the third read both start at an `F`
      have start₂ := start_of_text threadId _ (stream threadId 0) (ascii "2nd message") n₁ n₂ pos₂
        (by omega) text₂
      have rest : (reading threadId readbuf [n₁, n₂]).rest = (stream threadId 0).drop (n₁ + n₂) := by
        simp [reading, Reading.read]
      rw [third, Reading.read, rest] at text₃
      have start₃ := start_of_text threadId _ (stream threadId 0) (ascii "last message") (n₁ + n₂) n₃
        pos₃ (by omega) text₃
      -- of the two places after the start, n₁ is the first and n₁ + n₂ the second
      have place₂ := stream_starts threadId n₁ pos₁ start₂
      have place₃ := stream_starts threadId (n₁ + n₂) (by omega) start₃
      omega
    · rintro (whole | ⟨bare, -⟩)
      · simp only [List.cons.injEq] at whole
        exact absurd ⟨whole.1, whole.2.1⟩ framed
      · simp only [List.cons.injEq] at bare
        exact absurd ⟨bare.1, bare.2.1⟩ framed

/-- **Framing**: the messages come out as they were sent if and only if the reads fall
exactly on the messages. -/
theorem printed_eq_sent_iff (threadId : CInt) (s t : PipeState) (acts : List PipeAct)
    (init : (pipes threadId).init s) (ran : (pipes threadId).run s acts = some t)
    (finished : t.Finished) :
    t.printed = t.sent ↔ WholeReads threadId s.readbuf (readSizes acts) := by
  obtain ⟨sent, printed, three, bound⟩ := finished_reading threadId s t acts init ran finished
  obtain ⟨n₁, n₂, n₃, sizes⟩ := List.length_eq_three.mp three
  rw [sizes] at bound printed ⊢
  rw [sent, printed]
  exact reading_texts_iff threadId s.readbuf n₁ n₂ n₃ (by simpa [reading, Reading.read] using bound)

/-- The id `makethreads` gives to pipewriter. -/
def five : CInt := ⟨5, by decide, by decide⟩

def pipesStart : PipeState where
  pipe := []
  writer := writerLoop 0
  sendbuf := .zeros bufSize
  sent := []
  reader := readerLoop 0
  readbuf := .zeros bufSize
  printed := []

/-- Every message is read before the next one is written. -/
theorem printed_eq_sent_alternating :
    ∃ t, (pipes five).run pipesStart [.write, .read 20, .write, .read 20, .write, .read 21,
        .closeWriter, .closeReader] = some t ∧ t.printed = t.sent := by
  have run : ∃ t, (pipes five).run pipesStart [.write, .read 20, .write, .read 20, .write, .read 21,
      .closeWriter, .closeReader] = some t ∧ t.Finished := ⟨_, rfl, ⟨_, rfl⟩, ⟨_, rfl⟩⟩
  obtain ⟨t, ran, finished⟩ := run
  have init : (pipes five).init pipesStart := ⟨rfl, rfl, rfl, rfl, rfl⟩
  exact ⟨t, ran, (printed_eq_sent_iff five pipesStart t _ init ran finished).mpr (.inl (by decide))⟩

/-- The writer runs first: one read takes all three messages and shows the first. -/
theorem messages_lost :
    ∃ t, (pipes five).run pipesStart [.write, .write, .write, .closeWriter, .read 61, .read 0,
        .read 0, .closeReader] = some t ∧
      t.Finished ∧ t.sent.length = 3 ∧ t.printed.length = 1 ∧ t.printed ≠ t.sent := by
  refine ⟨_, rfl, ⟨⟨_, rfl⟩, ⟨_, rfl⟩⟩, rfl, rfl, ?_⟩
  intro h
  exact absurd (congrArg List.length h) (by decide)

end GenericTests.Controlthreads
