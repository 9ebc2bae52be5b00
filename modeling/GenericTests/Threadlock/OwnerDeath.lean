import GenericTests.Lib.Memory
import GenericTests.Threadlock.Model

/-!
# threadlockfail.c: recovery after the owner died

`thread1` registers `robust_head`, takes the lock and exits; the kernel walks the
registered list; `thread2` then looks for `FUTEX_OWNER_DIED`. No other thread runs in
between, so the three run one after the other on one memory.
-/
namespace GenericTests.Threadlock

open GenericTests.Memory

/-- `FUTEX_WAITERS` -/
def futexWaiters : Word := 0x80000000

/-- `FUTEX_OWNER_DIED` -/
def futexOwnerDied : Word := 0x40000000

/-- The low 30 bits of a futex word, where the kernel looks for a thread id. -/
def futexTidMask : Word := 0x3fffffff

/-- A target: width of pointers and of `long`, and byte order. -/
structure Abi where
  ptrSize : Nat
  order : ByteOrder
  supported : ptrSize = 4 ∨ ptrSize = 8

namespace Abi

variable (abi : Abi)

/-- `offsetof(struct robust_futex, futex)` -/
def futexField : Nat := 0

/-- `offsetof(struct robust_futex, list)`: after an `int`, aligned for a pointer. -/
def listField : Nat := abi.ptrSize

/-- `offsetof(struct robust_list_head, futex_offset)` -/
def futexOffsetField : Nat := abi.ptrSize

def loadWord (m : Mem) (a : Nat) : Word := BitVec.ofNat 32 (m.load abi.order a 4)

def storeWord (m : Mem) (a : Nat) (w : Word) : Mem := m.store abi.order a 4 w.toNat

def loadPtr (m : Mem) (a : Nat) : Nat := m.load abi.order a abi.ptrSize

def storePtr (m : Mem) (a p : Nat) : Mem := m.store abi.order a abi.ptrSize p

end Abi

/-- Where the linker put `lock` and `robust_head`: two objects that do not overlap. -/
structure Placement (abi : Abi) where
  lock : Nat
  head : Nat
  lockFits : lock + 2 * abi.ptrSize ≤ 256 ^ abi.ptrSize
  headFits : head + 3 * abi.ptrSize ≤ 256 ^ abi.ptrSize
  apart : lock + 2 * abi.ptrSize ≤ head ∨ head + 3 * abi.ptrSize ≤ lock

/-- `&lock.futex` -/
def Placement.futexAddr {abi : Abi} (place : Placement abi) : Nat := place.lock + Abi.futexField

/-- `&lock.list` -/
def Placement.listAddr {abi : Abi} (place : Placement abi) : Nat := place.lock + abi.listField

/-- Everything the program does not control. `weak1 k` and `weak2 k` say that the k-th
compare-exchange of that thread fails spuriously. -/
structure Setting where
  abi : Abi
  place : Placement abi
  /-- memory outside the two objects, and their padding -/
  rest : Mem
  /-- the kernel's id of `thread1` -/
  kernelTid : Word
  /-- `pthread_self()` in `thread1` -/
  self1 : BitVec 64
  /-- `pthread_self()` in `thread2` -/
  self2 : BitVec 64
  weak1 : Nat → Bool
  weak2 : Nat → Bool

namespace Setting

variable (g : Setting)

/-- The initialisers of `lock` and `robust_head`. -/
def staticData : Mem :=
  -- the third field, list_op_pending, is NULL here and nobody ever sets it
  let m := g.abi.storeWord g.rest g.place.futexAddr 0
  let m := g.abi.storePtr m g.place.listAddr 0
  let m := g.abi.storePtr m g.place.head 0
  g.abi.storePtr m (g.place.head + g.abi.futexOffsetField) Abi.futexField

/-- A successful compare-exchange, `lock.list.next = &robust_head.list` and
`robust_head.list.next = &lock.list`. -/
def takeLock (self : BitVec 64) (m : Mem) : Mem :=
  let m := g.abi.storeWord m g.place.futexAddr (truncated self)
  let m := g.abi.storePtr m g.place.listAddr g.place.head
  g.abi.storePtr m g.place.head g.place.listAddr

inductive Acquire where
  | acquired (m : Mem)
  /-- asleep in `futex_wait`, with no thread left to wake it -/
  | asleep
  /-- still in the loop -/
  | spinning

/-- `lock_acquire`, cut off after a number of iterations. -/
def lockAcquire (self : BitVec 64) (weak : Nat → Bool) : Nat → Nat → Word → Mem → Acquire
  | 0, _, _, _ => .spinning
  | fuel + 1, k, expected, m =>
    let futex := g.abi.loadWord m g.place.futexAddr
    if futex = expected ∧ weak k = false then .acquired (g.takeLock self m)
    else
      -- expected = 0; futex_wait(&lock.futex, expected);
      if futex = 0 then .asleep else lockAcquire self weak fuel (k + 1) 0 m

/-- What the kernel does with one entry: mark the word if it names the dead thread. -/
def handleFutexDeath (m : Mem) (uaddr : Nat) : Mem :=
  let word := g.abi.loadWord m uaddr
  if word &&& futexTidMask = g.kernelTid then
    g.abi.storeWord m uaddr ((word &&& futexWaiters) ||| futexOwnerDied)
  else m

/-- The kernel's walk from `entry` back to `head`; the link is read before the entry is
handled. `none` when the list is longer than the limit. -/
def walkRobustList (head offset : Nat) : Nat → Nat → Mem → Option Mem
  | 0, _, _ => none
  | limit + 1, entry, m =>
    if entry = head then some m
    else
      let next := g.abi.loadPtr m entry
      -- addresses wrap at the width of a pointer
      let uaddr := (entry + offset) % 256 ^ g.abi.ptrSize
      walkRobustList head offset limit next (g.handleFutexDeath m uaddr)

def exitRobustList (limit : Nat) (registered : Option Nat) (m : Mem) : Option Mem :=
  match registered with
  | none => some m
  | some head =>
    let offset := g.abi.loadPtr m (head + g.abi.futexOffsetField)
    g.walkRobustList head offset limit (g.abi.loadPtr m head) m

/-- `thread1`: `set_robust(&robust_head)`, `lock_acquire()`, exit without a release. -/
def thread1 (fuel limit : Nat) : Option Mem :=
  let registered := some g.place.head
  -- an acquisition that does not return never gets to pthread_exit
  match g.lockAcquire g.self1 g.weak1 fuel 0 0 g.staticData with
  | .acquired m => g.exitRobustList limit registered m
  | .asleep | .spinning => none

/-- `thread2` up to the end of its `lock_acquire`: whether it saw `FUTEX_OWNER_DIED`,
and how the acquisition went. -/
def thread2 (fuel : Nat) (m : Mem) : Bool × Acquire :=
  let val := g.abi.loadWord m g.place.futexAddr
  if val &&& futexOwnerDied ≠ 0 then
    (true, g.lockAcquire g.self2 g.weak2 fuel 0 0 (g.abi.storeWord m g.place.futexAddr 0))
  else (false, g.lockAcquire g.self2 g.weak2 fuel 0 0 m)

/-- `thread2` detects the death, resets the word and gets the lock. -/
def Recovers (m : Mem) : Prop := ∃ fuel m', g.thread2 fuel m = (true, .acquired m')

end Setting

/-! ### Fields in memory -/

namespace Abi

variable (abi : Abi)

theorem loadWord_storeWord_self (m : Mem) (a : Nat) (w : Word) :
    abi.loadWord (abi.storeWord m a w) a = w := by
  have bound : w.toNat < 256 ^ 4 := w.isLt
  rw [loadWord, storeWord, Mem.load_store_self m abi.order a 4 w.toNat bound, BitVec.ofNat_toNat,
    BitVec.setWidth_eq]

theorem loadWord_storeWord (m : Mem) (a b : Nat) (w : Word) (h : a + 4 ≤ b ∨ b + 4 ≤ a) :
    abi.loadWord (abi.storeWord m b w) a = abi.loadWord m a := by
  rw [loadWord, storeWord, Mem.load_store_disjoint m abi.order a 4 b 4 _ h, loadWord]

theorem loadWord_storePtr (m : Mem) (a b p : Nat) (h : a + 4 ≤ b ∨ b + abi.ptrSize ≤ a) :
    abi.loadWord (abi.storePtr m b p) a = abi.loadWord m a := by
  rw [loadWord, storePtr, Mem.load_store_disjoint m abi.order a 4 b _ p h, loadWord]

theorem loadPtr_storePtr_self (m : Mem) (a p : Nat) (h : p < 256 ^ abi.ptrSize) :
    abi.loadPtr (abi.storePtr m a p) a = p :=
  Mem.load_store_self m abi.order a abi.ptrSize p h

theorem loadPtr_storePtr (m : Mem) (a b p : Nat)
    (h : a + abi.ptrSize ≤ b ∨ b + abi.ptrSize ≤ a) :
    abi.loadPtr (abi.storePtr m b p) a = abi.loadPtr m a :=
  Mem.load_store_disjoint m abi.order a abi.ptrSize b abi.ptrSize p h

theorem loadPtr_storeWord (m : Mem) (a b : Nat) (w : Word)
    (h : a + abi.ptrSize ≤ b ∨ b + 4 ≤ a) :
    abi.loadPtr (abi.storeWord m b w) a = abi.loadPtr m a :=
  Mem.load_store_disjoint m abi.order a abi.ptrSize b 4 w.toNat h

theorem four_le_ptrSize : 4 ≤ abi.ptrSize := by
  rcases abi.supported with h | h <;> omega

end Abi

namespace Setting

variable (g : Setting)

theorem staticData_futex : g.abi.loadWord g.staticData g.place.futexAddr = 0 := by
  have size := g.abi.four_le_ptrSize
  have apart := g.place.apart
  simp only [staticData, Placement.futexAddr, Placement.listAddr, Abi.futexField, Abi.listField,
    Abi.futexOffsetField]
  rw [g.abi.loadWord_storePtr _ _ _ _ (by omega), g.abi.loadWord_storePtr _ _ _ _ (by omega),
    g.abi.loadWord_storePtr _ _ _ _ (by omega), g.abi.loadWord_storeWord_self]

/-- `.futex_offset = offsetof(struct robust_futex, futex)`, which is 0. -/
theorem staticData_futexOffset :
    g.abi.loadPtr g.staticData (g.place.head + g.abi.futexOffsetField) = 0 :=
  g.abi.loadPtr_storePtr_self _ _ _ (Nat.pow_pos (by decide))

theorem takeLock_futex (self : BitVec 64) (m : Mem) :
    g.abi.loadWord (g.takeLock self m) g.place.futexAddr = truncated self := by
  have size := g.abi.four_le_ptrSize
  have apart := g.place.apart
  simp only [takeLock, Placement.futexAddr, Placement.listAddr, Abi.futexField, Abi.listField]
  rw [g.abi.loadWord_storePtr _ _ _ _ (by omega), g.abi.loadWord_storePtr _ _ _ _ (by omega),
    g.abi.loadWord_storeWord_self]

theorem takeLock_head (self : BitVec 64) (m : Mem) :
    g.abi.loadPtr (g.takeLock self m) g.place.head = g.place.listAddr := by
  have size := g.abi.four_le_ptrSize
  have fits := g.place.lockFits
  apply g.abi.loadPtr_storePtr_self
  simp only [Placement.listAddr, Abi.listField]
  omega

theorem takeLock_list (self : BitVec 64) (m : Mem) :
    g.abi.loadPtr (g.takeLock self m) g.place.listAddr = g.place.head := by
  have size := g.abi.four_le_ptrSize
  have fits := g.place.headFits
  have apart := g.place.apart
  simp only [takeLock, Placement.listAddr, Abi.listField]
  rw [g.abi.loadPtr_storePtr _ _ _ _ (by omega), g.abi.loadPtr_storePtr_self _ _ _ (by omega)]

theorem takeLock_futexOffset (self : BitVec 64) (m : Mem) :
    g.abi.loadPtr (g.takeLock self m) (g.place.head + g.abi.futexOffsetField) =
      g.abi.loadPtr m (g.place.head + g.abi.futexOffsetField) := by
  have size := g.abi.four_le_ptrSize
  have apart := g.place.apart
  simp only [takeLock, Placement.listAddr, Placement.futexAddr, Abi.futexField, Abi.listField,
    Abi.futexOffsetField]
  rw [g.abi.loadPtr_storePtr _ _ _ _ (by omega), g.abi.loadPtr_storePtr _ _ _ _ (by omega),
    g.abi.loadPtr_storeWord _ _ _ _ (by omega)]

/-! ### What the kernel does to the lock -/

theorem listAddr_ne_head : g.place.listAddr ≠ g.place.head := by
  have size := g.abi.four_le_ptrSize
  have apart := g.place.apart
  simp only [Placement.listAddr, Abi.listField]
  omega

/-- With offset 0 the kernel looks at `lock.list`, not at `lock.futex`. -/
theorem exitRobustList_takeLock (limit : Nat) (self : BitVec 64) (m : Mem)
    (offset : g.abi.loadPtr m (g.place.head + g.abi.futexOffsetField) = 0) :
    g.exitRobustList (limit + 2) (some g.place.head) (g.takeLock self m) =
      some (g.handleFutexDeath (g.takeLock self m) g.place.listAddr) := by
  have inRange : g.place.listAddr % 256 ^ g.abi.ptrSize = g.place.listAddr := by
    have size := g.abi.four_le_ptrSize
    have fits := g.place.lockFits
    apply Nat.mod_eq_of_lt
    simp only [Placement.listAddr, Abi.listField]
    omega
  -- robust_head leads to lock.list and lock.list back to robust_head: one entry.
  simp only [exitRobustList, walkRobustList, takeLock_futexOffset, offset, takeLock_head,
    takeLock_list, g.listAddr_ne_head, if_false, Nat.add_zero, inRange, if_true]

theorem handleFutexDeath_futex (m : Mem) :
    g.abi.loadWord (g.handleFutexDeath m g.place.listAddr) g.place.futexAddr =
      g.abi.loadWord m g.place.futexAddr := by
  have size := g.abi.four_le_ptrSize
  simp only [handleFutexDeath]
  split
  · apply g.abi.loadWord_storeWord
    simp only [Placement.futexAddr, Placement.listAddr, Abi.futexField, Abi.listField]
    omega
  · rfl

/-- `thread1` takes the free lock at its first attempt or sleeps for ever. -/
theorem thread1_succ (fuel limit : Nat) :
    g.thread1 (fuel + 1) (limit + 2) =
      if g.weak1 0 = false then
        some (g.handleFutexDeath (g.takeLock g.self1 g.staticData) g.place.listAddr)
      else none := by
  simp only [thread1, lockAcquire, staticData_futex, true_and, if_true]
  cases g.weak1 0 with
  | true => rfl
  | false => exact g.exitRobustList_takeLock limit g.self1 _ g.staticData_futexOffset

/-- However long the walk may be, the dead thread's word stays `(int)pthread_self()`. -/
theorem thread1_futex (fuel limit : Nat) (m : Mem) (h : g.thread1 fuel limit = some m) :
    g.abi.loadWord m g.place.futexAddr = truncated g.self1 := by
  -- The walk needs a limit of two; with less it does not end, and h is impossible.
  match fuel, limit with
  | 0, _ => cases h
  | fuel + 1, 0 =>
    simp only [thread1, lockAcquire] at h
    split at h
    · cases h
    · cases h
    · cases h
  | fuel + 1, 1 =>
    have short : g.thread1 (fuel + 1) 1 = none := by
      simp only [thread1, lockAcquire, staticData_futex, true_and, if_true]
      cases g.weak1 0 <;>
        simp [exitRobustList, walkRobustList, takeLock_head, g.listAddr_ne_head]
    rw [short] at h
    cases h
  | fuel + 1, limit + 2 =>
    rw [thread1_succ] at h
    split at h
    · cases Option.some.inj h
      rw [handleFutexDeath_futex, takeLock_futex]
    · cases h

/-! ### What thread2 makes of it -/

theorem ownerDied_iff (w : Word) : w &&& futexOwnerDied ≠ 0 ↔ w.getLsbD 30 = true := by
  have mask : futexOwnerDied = BitVec.twoPow 32 30 := by decide
  rw [mask, BitVec.and_twoPow]
  cases w.getLsbD 30 with
  | true => exact ⟨fun _ => rfl, fun _ => by decide⟩
  | false => exact ⟨fun h => absurd rfl h, nofun⟩

/-- On a free lock the first compare-exchange decides. -/
theorem lockAcquire_free (self : BitVec 64) (weak : Nat → Bool) (fuel : Nat) (m : Mem)
    (free : g.abi.loadWord m g.place.futexAddr = 0) :
    g.lockAcquire self weak (fuel + 1) 0 0 m =
      if weak 0 = false then .acquired (g.takeLock self m) else .asleep := by
  simp only [lockAcquire, free, true_and, if_true]

theorem recovers_iff (m : Mem) :
    g.Recovers m ↔
      (g.abi.loadWord m g.place.futexAddr).getLsbD 30 = true ∧ g.weak2 0 = false := by
  have free := g.abi.loadWord_storeWord_self m g.place.futexAddr 0
  rw [← ownerDied_iff]
  constructor
  · rintro ⟨fuel, m', h⟩
    -- thread2 stored 0 itself, so its first compare-exchange is on a free lock
    simp only [thread2] at h
    split at h
    next died =>
      refine ⟨died, ?_⟩
      have acquired := congrArg Prod.snd h
      dsimp only at acquired
      match fuel with
      | 0 => cases acquired
      | fuel + 1 =>
        rw [lockAcquire_free g _ _ _ _ free] at acquired
        split at acquired
        next strong => exact strong
        next => cases acquired
    next => cases h
  · rintro ⟨died, strong⟩
    refine ⟨1, g.takeLock g.self2 (g.abi.storeWord m g.place.futexAddr 0), ?_⟩
    rw [thread2, if_pos died, lockAcquire_free g _ _ _ _ free, if_pos strong]

/-- **When the lock is recovered**: after `thread1` died as the owner, `thread2` detects the
death, resets the word and gets the lock exactly when bit 30 of thread1's truncated
`pthread_self()` happens to be set and thread2's first compare-exchange does not fail
spuriously. The kernel id and the placement play no part. -/
theorem owner_death_recovery_iff (fuel limit : Nat) (m : Mem)
    (died : g.thread1 fuel limit = some m) :
    g.Recovers m ↔ (truncated g.self1).getLsbD 30 = true ∧ g.weak2 0 = false := by
  rw [recovers_iff, thread1_futex g fuel limit m died]

end Setting

/-- An x86_64 process with the given `pthread_self()` in `thread1`. -/
def sampleSetting (self1 : BitVec 64) : Setting where
  abi := ⟨8, .little, .inr rfl⟩
  place := ⟨0x404060, 0x404080, by decide, by decide, by decide⟩
  rest _ := 0
  kernelTid := 4242
  self1 := self1
  self2 := 0x7f3a1aac2640
  weak1 _ := false
  weak2 _ := false

/-- Bit 30 of 0xf7d8a640 is set. -/
theorem owner_death_recovered_by_chance :
    ∃ m, (sampleSetting 0x7ffff7d8a640).thread1 1 2 = some m ∧
      (sampleSetting 0x7ffff7d8a640).Recovers m := by
  have died := ((sampleSetting 0x7ffff7d8a640).thread1_succ 0 0).trans (if_pos rfl)
  exact ⟨_, died, ((sampleSetting 0x7ffff7d8a640).owner_death_recovery_iff 1 2 _ died).mpr
    ⟨by decide, rfl⟩⟩

/-- Bit 30 of 0x1b2c3640 is clear: `thread2` sees no death. -/
theorem owner_death_not_recovered :
    ¬ ∀ (g : Setting) (fuel limit : Nat) (m : Mem), g.self1 ≠ 0 →
      (∀ k, g.weak1 k = false ∧ g.weak2 k = false) → g.thread1 fuel limit = some m →
      g.Recovers m := by
  intro claim
  have died := ((sampleSetting 0x7f3a1b2c3640).thread1_succ 0 0).trans (if_pos rfl)
  have recovers := claim (sampleSetting 0x7f3a1b2c3640) 1 2 _ (by decide)
    (fun _ => ⟨rfl, rfl⟩) died
  rw [Setting.recovers_iff, Setting.thread1_futex _ 1 2 _ died] at recovers
  exact absurd recovers.1 (by decide)

end GenericTests.Threadlock
