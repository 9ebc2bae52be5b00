import GenericTests.Lib.Vectored

/-!
# recvmsg.c and recvmsg-flush.c: the datagram and what is shown of it

`recvmsg` returns how many bytes arrived and leaves every `iov_len` as it was. recv_thread
shows each row of its buffer with the whole `iov_len`, so a row that the datagram does not
fill shows what stood behind it as well, up to a NUL. The two programs have the same loop.
-/
namespace GenericTests.Recvmsg

open GenericTests.CString GenericTests.Memory GenericTests.Vectored

/-- `BUF_SIZE` -/
def bufSize : Nat := 1024

/-- `NUMBUFS` -/
def numBufs : Nat := 2

/-- `buffer[i]` -/
def row (buffer i : Nat) : Nat := buffer + i * bufSize

/-- `iov` of recv_thread, after the loop that sets it up. -/
def receiveVector (buffer : Nat) : List Iovec :=
  (List.range numBufs).map fun i => ⟨row buffer i, bufSize - 1⟩

/-- The datagram that sender_thread sends. -/
def senderThread (texts : List (List Byte)) : List Byte := gather (texts.map stringSegment)

/-- The strings between the quotes that recv_thread prints once it has the payload. -/
def recvThread (buffer : Nat) (m : Mem) (payload : List Byte) : List (List Byte) :=
  let iov := receiveVector buffer
  let m := scatter m iov payload
  -- the precision is iov_len and not what the row has received
  iov.map fun v => atMost m v.base v.len

/-- Every row that a datagram of `length` bytes does not fill has a NUL right behind what it
gets. -/
def NulBehind (buffer : Nat) (m : Mem) (length : Nat) : Prop :=
  ∀ i < numBufs, length < (i + 1) * (bufSize - 1) → m (row buffer i + (length - i * (bufSize - 1))) = 0

theorem receiveVector_disjoint (buffer : Nat) : (receiveVector buffer).Pairwise Iovec.Disjoint := by
  refine List.pairwise_map.mpr (List.pairwise_lt_range.imp fun {i j} before => ?_)
  refine .inl ?_
  have next : (i + 1) * bufSize ≤ j * bufSize := Nat.mul_le_mul_right _ before
  simp only [row, bufSize] at next ⊢
  omega

theorem room_receiveVector (buffer : Nat) : room (receiveVector buffer) = numBufs * (bufSize - 1) := by
  simp [room, receiveVector, numBufs, bufSize, List.range_succ]

theorem senderThread_eq (texts : List (List Byte)) (noNul : (0 : Byte) ∉ texts.flatten) :
    senderThread texts = texts.flatten := by
  have same : texts.map stringSegment = texts.map id := by
    apply List.map_congr_left
    intro text member
    exact stringSegment_eq text fun nul => noNul (List.mem_flatten_of_mem member nul)
  rw [senderThread, gather, same, List.map_id]

/-- Where each row's part ends. -/
theorem parts_receiveVector (buffer : Nat) (payload : List Byte) :
    parts (receiveVector buffer) payload =
      (List.range numBufs).map fun i =>
        (⟨row buffer i, bufSize - 1⟩, (payload.drop (i * (bufSize - 1))).take (bufSize - 1)) := by
  simp [parts, receiveVector, numBufs, bufSize, List.range_succ]

theorem nulBehind_iff_parts (buffer : Nat) (m : Mem) (payload : List Byte) :
    (∀ p ∈ parts (receiveVector buffer) payload,
      p.2.length < p.1.len → m (p.1.base + p.2.length) = 0) ↔
        NulBehind buffer m payload.length := by
  rw [parts_receiveVector, List.forall_mem_map, NulBehind]
  simp only [List.mem_range, List.length_take, List.length_drop]
  refine forall₂_congr fun i _ => ?_
  rw [Nat.add_mul, Nat.one_mul]
  constructor
  · intro nul short
    have part : min (bufSize - 1) (payload.length - i * (bufSize - 1)) =
        payload.length - i * (bufSize - 1) := by omega
    rw [part] at nul
    exact nul (by simp only [bufSize] at *; omega)
  · intro nul short
    have part : min (bufSize - 1) (payload.length - i * (bufSize - 1)) =
        payload.length - i * (bufSize - 1) := by omega
    rw [part]
    exact nul (by omega)

theorem shows_payload_iff (buffer : Nat) (m : Mem) (payload : List Byte)
    (noNul : (0 : Byte) ∉ payload) (fits : payload.length ≤ numBufs * (bufSize - 1)) :
    (recvThread buffer m payload).flatten = payload ↔ NulBehind buffer m payload.length := by
  rw [recvThread, ← List.flatMap_def, shown_segments_iff m _ _ (receiveVector_disjoint buffer) noNul
    (by rw [room_receiveVector]; exact fits)]
  exact nulBehind_iff_parts buffer m payload

/-- **Scattered receive**: the rows show the sender's text exactly if each row that the text
does not fill had a NUL behind what it receives. -/
theorem shows_datagram_iff (texts : List (List Byte)) (buffer : Nat) (m : Mem)
    (noNul : (0 : Byte) ∉ texts.flatten) (fits : texts.flatten.length ≤ 2 * (bufSize - 1)) :
    (recvThread buffer m (senderThread texts)).flatten = texts.flatten ↔
      NulBehind buffer m texts.flatten.length := by
  rw [senderThread_eq texts noNul]
  exact shows_payload_iff buffer m texts.flatten noNul fits

/-- `msg_text` and `msg_text2` of sender_thread -/
def senderTexts : List (List Byte) :=
  [ascii "Hello from sendmsg!", ascii "A little something extra"]

/-- On a stack that was zero. -/
theorem shows_datagram_on_zeros :
    (recvThread 0 (fun _ => 0) (senderThread senderTexts)).flatten = senderTexts.flatten :=
  (shows_datagram_iff senderTexts 0 (fun _ => 0) (by decide) (by decide)).mpr fun _ _ _ => rfl

/-- On a stack of other bytes the second row, which receives nothing, shows them. -/
theorem shows_old_bytes :
    (recvThread 0 (fun _ => 120) (senderThread senderTexts)).flatten ≠ senderTexts.flatten := by
  intro same
  have noNul : (0 : Byte) ∉ senderTexts.flatten := by decide
  rw [senderThread_eq senderTexts noNul, shows_payload_iff 0 _ _ noNul (by decide)] at same
  have nul := same 1 (by decide) (by decide)
  revert nul
  decide

end GenericTests.Recvmsg
