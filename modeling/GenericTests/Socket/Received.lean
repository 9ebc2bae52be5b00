import GenericTests.Socket.Clients
import GenericTests.Socket.PollSet

/-!
# What is printed as received

Neither `read` writes a NUL behind what it delivers. The server reads all messages into
one buffer, and a client reads the reply over the message it has sent, so what is shown is
the bytes delivered and whatever follows them up to the next NUL.
-/
namespace GenericTests.Socket

open GenericTests.CString

/-- What `%s` shows of a buffer that is followed by `behind` in memory. -/
def shown (behind : List Byte) (buffer : Buffer bufferSize) : List Byte :=
  cstr (buffer.bytes ++ behind)

/-- One successful `read` of the server and the line after it. -/
structure Reception where
  client : Nat
  delivered : List Byte
  printed : List Byte

/-- The reception at entry `i`, if there is one. -/
def receive (behind : List Byte) (i : Nat) (valread : ReadResult) (s : Server) : List Reception :=
  match s.fds[i]? with
  | none => []
  | some entry =>
    if entry.revents &&& pollin ≠ 0 then
      match valread with
      | .data bytes => [⟨i + 1, bytes, shown behind (s.buffer.write bytes)⟩]
      | .eof | .error => []
    else []

/-- The receptions of one pass over the first `count` entries. -/
def passReceptions (v : Variant) (behind : List Byte) (reads : Nat → ReadResult) (count : Nat)
    (s : Server) : List Reception :=
  (List.range count).flatMap fun i => receive behind i (reads i) (serve v reads i s)

def roundReceptions (v : Variant) (behind : List Byte) (r : Round) (s : Server) : List Reception :=
  if 0 < r.pollCount then
    passReceptions v behind r.reads s.fds.length (setRevents r.revents s)
  else []

/-- All receptions of the poll loop, in order. -/
def receptions (v : Variant) (behind : List Byte) : List Round → Server → List Reception
  | [], _ => []
  | r :: rs, s =>
    if v.guard s.numOpen s.timeouts then
      roundReceptions v behind r s ++
        match iteration v r s with
        | .again s' => receptions v behind rs s'
        | .broke _ | .failed => []
    else []

/-- The client's buffer after its `sprintf`. -/
def messageBuffer (threadId : Int) : Buffer bufferSize :=
  (Buffer.zeros bufferSize).write (clientMessage threadId ++ [0])

/-- What the client prints as the message it received. -/
def clientPrints (behind : List Byte) (threadId : Int) (reply : List Byte) : List Byte :=
  shown behind ((messageBuffer threadId).write reply)

/-! ### Reading over an old text -/

/-- The buffer holds a text of `length` bytes, and zeros behind it. -/
structure Holds (buffer : Buffer bufferSize) (length : Nat) : Prop where
  bound : length ≤ bufferSize
  text : ∀ i < length, ∀ b, buffer.bytes[i]? = some b → b ≠ 0
  zeros : ∀ i, length ≤ i → ∀ b, buffer.bytes[i]? = some b → b = 0

theorem holds_zeros : Holds (.zeros bufferSize) 0 where
  bound := Nat.zero_le _
  text i bound := absurd bound (Nat.not_lt_zero i)
  zeros i _ b here := by
    rw [Buffer.zeros] at here
    exact (List.eq_of_mem_replicate (List.mem_of_getElem? here))

section Overwrite

variable {buffer : Buffer bufferSize} {length : Nat} {message : List Byte}

theorem bytes_write_getElem? (fits : message.length ≤ bufferSize) (i : Nat) :
    (buffer.write message).bytes[i]? =
      if i < message.length then message[i]? else buffer.bytes[i]? := by
  rw [buffer.bytes_write message fits, List.getElem?_append]
  split
  · rfl
  next behind =>
    rw [List.getElem?_drop]
    congr 1
    omega

theorem Holds.write (h : Holds buffer length) (noNul : (0 : Byte) ∉ message)
    (fits : message.length ≤ bufferSize) :
    Holds (buffer.write message) (max length message.length) where
  bound := Nat.max_le.mpr ⟨h.bound, fits⟩
  text i inside b here := by
    rw [bytes_write_getElem? fits] at here
    split at here
    · exact fun zero => noNul (zero ▸ List.mem_of_getElem? here)
    · exact h.text i (by omega) b here
  zeros i outside b here := by
    rw [bytes_write_getElem? fits, if_neg (by omega)] at here
    exact h.zeros i (by omega) b here

/-- A message is shown exactly if it is not shorter than the text before it and, where it
fills the buffer, a NUL follows the buffer. -/
theorem shown_write_iff (behind : List Byte) (h : Holds buffer length)
    (fits : message.length ≤ bufferSize) :
    shown behind (buffer.write message) = message ↔
      (0 : Byte) ∉ message ∧ length ≤ message.length ∧
        (message.length = bufferSize → cstr behind = []) := by
  have size := buffer.length_eq
  rw [shown, buffer.bytes_write message fits, List.append_assoc, cstr_append_eq_iff]
  refine and_congr_right fun _ => ?_
  by_cases full : message.length = bufferSize
  · have nothing : buffer.bytes.drop message.length = [] := List.drop_eq_nil_of_le (by omega)
    have bound := h.bound
    rw [nothing, List.nil_append]
    exact ⟨fun empty => ⟨by omega, fun _ => empty⟩, fun both => both.2 full⟩
  · -- the byte behind the message is one of the buffer
    have inside : message.length < buffer.bytes.length := by omega
    have head : (buffer.bytes.drop message.length ++ behind).head? =
        buffer.bytes[message.length]? := by
      rw [List.drop_eq_getElem_cons inside, List.cons_append, List.head?_cons,
        List.getElem?_eq_getElem inside]
    rw [cstr_eq_nil_iff, head]
    constructor
    · intro nul
      refine ⟨?_, fun isFull => absurd isFull full⟩
      by_contra shorter
      exact h.text message.length (by omega) _ (List.getElem?_eq_getElem inside)
        (nul _ (List.getElem?_eq_getElem inside))
    · rintro ⟨longer, -⟩ b here
      exact h.zeros message.length longer b here

end Overwrite

/-! ### The server's buffer over whole runs -/

/-- The receptions in this order lead from one buffer to the other. -/
def Replays (behind : List Byte) : Buffer bufferSize → List Reception → Buffer bufferSize → Prop
  | before, [], after => after = before
  | before, e :: es, after =>
    e.printed = shown behind (before.write e.delivered) ∧
      Replays behind (before.write e.delivered) es after

theorem Replays.append {behind : List Byte} {a b c : Buffer bufferSize} {es es' : List Reception}
    (first : Replays behind a es b) (second : Replays behind b es' c) :
    Replays behind a (es ++ es') c := by
  induction es generalizing a with
  | nil =>
    cases first
    exact second
  | cons e es ih => exact ⟨first.1, ih first.2⟩

theorem replays_receive (v : Variant) (behind : List Byte) (i : Nat) (valread : ReadResult)
    (s : Server) :
    Replays behind s.buffer (receive behind i valread s) (serveEntry v i valread s).buffer := by
  unfold receive serveEntry
  cases s.fds[i]? with
  | none => rfl
  | some entry =>
    by_cases ready : entry.revents &&& pollin ≠ 0
    · simp only [if_pos ready]
      cases valread with
      | data bytes => exact ⟨rfl, rfl⟩
      | eof => rfl
      | error => rfl
    · simp only [if_neg ready]
      split
      · cases v.printsPolled <;> rfl
      · rfl

theorem replays_pass (v : Variant) (behind : List Byte) (reads : Nat → ReadResult) (count : Nat)
    (s : Server) :
    Replays behind s.buffer (passReceptions v behind reads count s) (serve v reads count s).buffer := by
  induction count with
  | zero => rfl
  | succ count ih =>
    rw [passReceptions, List.range_succ, List.flatMap_append, serve_succ, List.flatMap_singleton]
    exact ih.append (replays_receive v behind count (reads count) _)

theorem replays_round (v : Variant) (behind : List Byte) (r : Round) (s t : Server)
    (ends : iteration v r s = .again t ∨ iteration v r s = .broke t) :
    Replays behind s.buffer (roundReceptions v behind r s) t.buffer := by
  obtain ⟨notFailed, rfl⟩ := iteration_ends ends
  rw [roundReceptions]
  by_cases zero : r.pollCount = 0
  · rw [if_neg (by omega), if_pos zero]
    rfl
  · rw [if_pos (by omega), if_neg zero, length_setRevents]
    exact replays_pass v behind r.reads s.fds.length (setRevents r.revents s)

theorem roundReceptions_of_failed (v : Variant) (behind : List Byte) (r : Round) (s : Server)
    (failed : iteration v r s = .failed) : roundReceptions v behind r s = [] := by
  simp only [iteration] at failed
  split at failed
  next error => exact if_neg (by omega)
  next =>
    split at failed
    · cases failed
    · cases failed

/-- The whole loop, by induction over the rounds. -/
theorem replays_receptions (v : Variant) (behind : List Byte) (rounds : List Round) (s : Server) :
    ∃ after, Replays behind s.buffer (receptions v behind rounds s) after := by
  induction rounds generalizing s with
  | nil => exact ⟨s.buffer, rfl⟩
  | cons r rounds ih =>
    rw [receptions]
    split
    · cases result : iteration v r s with
      | again t =>
        obtain ⟨after, rest⟩ := ih t
        exact ⟨after, (replays_round v behind r s t (.inl result)).append rest⟩
      | broke t =>
        refine ⟨t.buffer, ?_⟩
        simpa using replays_round v behind r s t (.inr result)
      | failed =>
        refine ⟨s.buffer, ?_⟩
        rw [roundReceptions_of_failed v behind r s result]
        rfl
    · exact ⟨s.buffer, rfl⟩

/-- Over a text of `length` bytes the messages are shown exactly if none is shorter than
that text or than a message before it. -/
theorem Replays.printed_iff {behind : List Byte} {before after : Buffer bufferSize}
    {es : List Reception} {length : Nat} (replays : Replays behind before es after)
    (h : Holds before length)
    (messages : ∀ e ∈ es, (0 : Byte) ∉ e.delivered ∧ e.delivered.length ≤ bufferSize) :
    (∀ e ∈ es, e.printed = e.delivered) ↔
      (∀ e ∈ es, length ≤ e.delivered.length) ∧
        es.Pairwise (fun e f => e.delivered.length ≤ f.delivered.length) ∧
        ∀ e ∈ es, e.delivered.length = bufferSize → cstr behind = [] := by
  induction es generalizing before length with
  | nil => simp
  | cons e es ih =>
    obtain ⟨printed, rest⟩ := replays
    obtain ⟨⟨noNul, fits⟩, later⟩ := List.forall_mem_cons.mp messages
    -- what is left in the buffer is the longer of the two texts
    have head := shown_write_iff behind h fits
    have tail := ih rest (h.write noNul fits) later
    simp only [List.forall_mem_cons, List.pairwise_cons, tail, printed, head, Nat.max_le]
    constructor
    · rintro ⟨⟨-, notShorter, full⟩, longer, ordered, others⟩
      exact ⟨⟨notShorter, fun f member => (longer f member).1⟩,
        ⟨fun f member => (longer f member).2, ordered⟩, full, others⟩
    · rintro ⟨⟨notShorter, old⟩, ⟨longer, ordered⟩, full, others⟩
      exact ⟨⟨noNul, notShorter, full⟩, fun f member => ⟨old f member, longer f member⟩, ordered, others⟩

/-! ### The client's own message -/

theorem clientMessage_noNul (threadId : Int) : (0 : Byte) ∉ clientMessage threadId := by
  rw [clientMessage, List.mem_append]
  rintro (fixed | number)
  · revert fixed
    decide
  · rcases mem_decimal threadId 0 number with minus | ⟨digit, -⟩
    · revert minus
      decide
    · revert digit
      decide

theorem length_clientMessage (threadId : CInt) : (clientMessage threadId.val).length ≤ 29 := by
  have lower := threadId.lower
  have upper := threadId.upper
  have digits := length_decimal_le threadId.val (by omega)
  have fixed : (ascii "Hello from client" ++ ascii " ").length = 18 := by decide
  rw [clientMessage, List.length_append, fixed]
  omega

/-- The NUL of `sprintf` changes nothing in a buffer that was zero. -/
theorem messageBuffer_eq (threadId : CInt) :
    messageBuffer threadId.val = (Buffer.zeros bufferSize).write (clientMessage threadId.val) := by
  have bound := length_clientMessage threadId
  have room : (clientMessage threadId.val ++ [0]).length ≤ bufferSize := by
    rw [List.length_append, List.length_singleton, bufferSize]
    omega
  have fits : (clientMessage threadId.val).length ≤ bufferSize := by
    rw [bufferSize]
    omega
  have nul : (0 : Byte) :: List.replicate (bufferSize - ((clientMessage threadId.val).length + 1)) 0 =
      List.replicate (bufferSize - (clientMessage threadId.val).length) 0 := by
    rw [← List.replicate_succ, bufferSize]
    congr 1
    omega
  rw [messageBuffer, Buffer.mk.injEq, Buffer.bytes_write _ _ room, Buffer.bytes_write _ _ fits,
    Buffer.zeros, List.drop_replicate, List.drop_replicate, List.append_assoc, List.length_append,
    List.length_singleton, List.singleton_append, nul]

theorem holds_messageBuffer (threadId : CInt) :
    Holds (messageBuffer threadId.val) (clientMessage threadId.val).length := by
  have bound := length_clientMessage threadId
  have written := holds_zeros.write (clientMessage_noNul threadId.val) (by rw [bufferSize]; omega)
  rw [messageBuffer_eq]
  simpa using written

/-! ### The lines of the two programs -/

theorem shown_nil (buffer : Buffer bufferSize) : shown [] buffer = buffer.text := by
  rw [shown, List.append_nil, Buffer.text]

/-- With nothing behind the buffer, the line the server prints after a `read` is the one of
the reception. -/
theorem serveEntry_stdout (v : Variant) (i : Nat) (bytes : List Byte) (s : Server) (entry : PollFd)
    (found : s.fds[i]? = some entry) (ready : entry.revents &&& pollin ≠ 0) :
    (serveEntry v i (.data bytes) s).stdout =
      s.stdout ++ (receive [] i (.data bytes) s).map fun e => receivedLine e.client e.printed := by
  unfold receive serveEntry
  simp only [found, if_pos ready, Server.print, List.map_cons, List.map_nil, shown_nil]

/-- So is the line a client prints after its `read`. -/
theorem clientStep_stdout (accepted : Accepted numThreads) (threadId : Fin numThreads → Int)
    (w : World) (i : Fin numThreads) (reading : w.clients i = ⟨.read, messageBuffer (threadId i)⟩)
    (arrived : replies accepted w.server i ≠ []) :
    (clientStep accepted threadId w i).map (fun w' => w'.server.stdout) =
      some (w.server.stdout ++ [receivedMessageLine (threadId i)
        (clientPrints [] (threadId i) (replies accepted w.server i).flatten)]) := by
  simp only [clientStep, reading, arrived, false_and, if_false, Option.map_some, setClient,
    Server.print, clientPrints, shown_nil]

/-- **Printed as received**: what either server prints is what was read, in every run, exactly
if no message is shorter than one before it, and what a client prints is the reply exactly
if it has no NUL and is not shorter than the client's own message; text that fills its
buffer needs a NUL behind the buffer besides. -/
theorem prints_received_iff {n : Nat} (v : Variant) (accepted : Accepted n)
    (behind behindClient : List Byte) (rounds : List Round) (threadId : CInt) (reply : List Byte)
    (messages : ∀ e ∈ receptions v behind rounds (start accepted),
      (0 : Byte) ∉ e.delivered ∧ 1 ≤ e.delivered.length ∧ e.delivered.length ≤ bufferSize)
    (replySize : 1 ≤ reply.length ∧ reply.length ≤ bufferSize) :
    ((∀ e ∈ receptions v behind rounds (start accepted), e.printed = e.delivered) ↔
      (receptions v behind rounds (start accepted)).Pairwise
          (fun e f => e.delivered.length ≤ f.delivered.length) ∧
        ∀ e ∈ receptions v behind rounds (start accepted),
          e.delivered.length = bufferSize → cstr behind = []) ∧
    (clientPrints behindClient threadId.val reply = reply ↔
      (0 : Byte) ∉ reply ∧ (clientMessage threadId.val).length ≤ reply.length ∧
        (reply.length = bufferSize → cstr behindClient = [])) := by
  obtain ⟨after, replays⟩ := replays_receptions v behind rounds (start accepted)
  have fit : ∀ e ∈ receptions v behind rounds (start accepted),
      (0 : Byte) ∉ e.delivered ∧ e.delivered.length ≤ bufferSize := fun e member =>
    ⟨(messages e member).1, (messages e member).2.2⟩
  refine ⟨?_, shown_write_iff behindClient (holds_messageBuffer threadId) replySize.2⟩
  rw [replays.printed_iff holds_zeros fit]
  -- the buffer starts empty, so the first message is not held against anything
  exact and_iff_right fun e _ => Nat.zero_le _

def clientOne : CInt := ⟨1, by decide, by decide⟩

/-- A first message, and a reply that is longer than the message it is read over. -/
theorem prints_received_greeting :
    (∀ e ∈ receptions socketServer [] [greeting] (start threeClients), e.printed = e.delivered) ∧
      clientPrints [] clientOne.val (ascii "Hello from the server") =
        ascii "Hello from the server" := by
  have one : (receptions socketServer [] [greeting] (start threeClients)).map Reception.delivered =
      [ascii "Hello from client 2"] := rfl
  have each : ∀ e ∈ receptions socketServer [] [greeting] (start threeClients),
      e.delivered = ascii "Hello from client 2" := fun e member => by
    have delivered := List.mem_map_of_mem (f := Reception.delivered) member
    rw [one] at delivered
    exact List.mem_singleton.mp delivered
  have both := prints_received_iff socketServer threeClients [] [] [greeting] clientOne
    (ascii "Hello from the server") (fun e member => by rw [each e member]; decide) (by decide)
  refine ⟨both.1.mpr ⟨?_, fun _ _ _ => rfl⟩, both.2.mpr (by decide)⟩
  refine List.pairwise_of_forall_mem_list fun e he f hf => ?_
  rw [each e he, each f hf]

/-- The first client shows the end of its own message behind the reply; a server shows the end
of a long message behind a short one. -/
theorem prints_old_text :
    clientPrints [] clientOne.val response = ascii "Hello from server 1" ∧
      clientPrints [] clientOne.val response ≠ response ∧
      ∃ e ∈ receptions socketServer [] [greeting, secondClient (.data (ascii "Hi"))]
        (start threeClients), e.delivered = ascii "Hi" ∧ e.printed = ascii "Hillo from client 2" := by
  refine ⟨by decide +kernel, by decide +kernel, _, List.mem_of_getElem? (i := 1) rfl, rfl, ?_⟩
  decide +kernel

end GenericTests.Socket
