import GenericTests.Lib.CString
import Mathlib.Algebra.BigOperators.Group.List.Basic
import Mathlib.Algebra.Ring.Nat
import Mathlib.Logic.Function.Basic

/-!
# System V message queues

Keys name queues; an identifier that was handed out once is not handed out again. Messages
are taken by their type, in the order in which they were sent. `IPC_RMID` destroys a queue
at once: every later call with its identifier fails, and so do the calls that were waiting.
-/
namespace GenericTests.MessageQueue

open GenericTests.CString

structure Message where
  mtype : Nat
  mtext : List Byte

abbrev Queue := List Message

/-- `msg_cbytes` -/
def Queue.bytes (q : Queue) : Nat := (q.map fun m => m.mtext.length).sum

def Message.ofType (k : Nat) (m : Message) : Bool := decide (m.mtype = k)

structure Queues (κ : Type) where
  keys : κ → Option Nat
  queue : Nat → Option Queue
  /-- identifiers from here on were never used -/
  next : Nat
  live : ∀ k id, keys k = some id → (queue id).isSome = true
  fresh : ∀ id, next ≤ id → queue id = none

/-- The outcome of a call that may have to wait. -/
inductive Call (α : Type) where
  | returned (value : α)
  | failed
  | blocked

namespace Queues

variable {κ : Type}

/-- No queue exists. -/
def empty : Queues κ := ⟨fun _ => none, fun _ => none, 0, nofun, fun _ _ => rfl⟩

theorem lt_next (S : Queues κ) {id : Nat} {q : Queue} (there : S.queue id = some q) :
    id < S.next := by
  by_contra beyond
  rw [S.fresh id (by omega)] at there
  cases there

section Keys

variable [DecidableEq κ]

/-- A new, empty queue. -/
def create (S : Queues κ) (k : κ) : Queues κ where
  keys := Function.update S.keys k (some S.next)
  queue := Function.update S.queue S.next (some [])
  next := S.next + 1
  live := by
    intro k' id h
    by_cases new : id = S.next
    · rw [new, Function.update_self]
      rfl
    · have other : k' ≠ k := by
        rintro rfl
        rw [Function.update_self] at h
        exact new (Option.some.inj h).symm
      rw [Function.update_of_ne other] at h
      rw [Function.update_of_ne new]
      exact S.live k' id h
  fresh := by
    intro id h
    rw [Function.update_of_ne (by omega)]
    exact S.fresh id (by omega)

/-- `msgget` with `IPC_CREAT`; `room` tells if the kernel has room for another queue. -/
def msgget (S : Queues κ) (k : κ) (room : Bool) : Option (Queues κ × Nat) :=
  match S.keys k with
  | some id => some (S, id)
  | none => if room then some (S.create k, S.next) else none

/-- `msgget` with `IPC_CREAT | IPC_EXCL` -/
def msggetExcl (S : Queues κ) (k : κ) (room : Bool) : Option (Queues κ × Nat) :=
  match S.keys k with
  | some _ => none
  | none => if room then some (S.create k, S.next) else none

end Keys

/-- Change a queue that exists. -/
def modify (S : Queues κ) (id : Nat) (f : Queue → Queue) : Queues κ where
  keys := S.keys
  queue := Function.update S.queue id ((S.queue id).map f)
  next := S.next
  live := by
    intro k j h
    by_cases same : j = id
    · subst same
      rw [Function.update_self, Option.isSome_map]
      exact S.live k j h
    · rw [Function.update_of_ne same]
      exact S.live k j h
  fresh := by
    intro j h
    by_cases same : j = id
    · subst same
      rw [Function.update_self, S.fresh j h]
      rfl
    · rw [Function.update_of_ne same]
      exact S.fresh j h

/-- The table without the queue `id` and without its key. -/
def without (S : Queues κ) (id : Nat) : Queues κ where
  keys := fun k => if S.keys k = some id then none else S.keys k
  queue := Function.update S.queue id none
  next := S.next
  live := by
    intro k j h
    split at h
    · cases h
    next other =>
      have ne : j ≠ id := by
        rintro rfl
        exact other h
      rw [Function.update_of_ne ne]
      exact S.live k j h
  fresh := by
    intro j h
    by_cases same : j = id
    · rw [same, Function.update_self]
    · rw [Function.update_of_ne same]
      exact S.fresh j h

/-- `msgctl(id, IPC_RMID, NULL)`; `none` if there is no such queue -/
def rmid (S : Queues κ) (id : Nat) : Option (Queues κ) :=
  if (S.queue id).isSome then some (S.without id) else none

/-- `msgsnd` with no flags. It waits while the queue holds so much that the message would
exceed `qbytes`; without `room` the kernel cannot copy the message. -/
def msgsnd (S : Queues κ) (qbytes id : Nat) (m : Message) (room : Bool) : Call (Queues κ) :=
  match S.queue id with
  | none => .failed
  | some q =>
    if room then
      if q.bytes + m.mtext.length ≤ qbytes ∧ q.length + 1 ≤ qbytes then
        .returned (S.modify id fun q => q ++ [m])
      else .blocked
    else .failed

/-- `msgrcv` for the first message of type `k`, with no flags. A message longer than `msgsz`
stays in the queue. -/
def msgrcv (S : Queues κ) (id msgsz k : Nat) : Call (Queues κ × Message) :=
  match S.queue id with
  | none => .failed
  | some q =>
    match q.find? (Message.ofType k) with
    | none => .blocked
    | some m =>
      if m.mtext.length ≤ msgsz then .returned (S.modify id fun q => q.eraseP (Message.ofType k), m)
      else .failed

/-! ### What the calls do -/

section Lemmas

variable {S S' : Queues κ}

theorem rmid_eq_some {id : Nat} (h : S.rmid id = some S') :
    (S.queue id).isSome = true ∧ S' = S.without id := by
  rw [rmid] at h
  split at h
  next there => exact ⟨there, (Option.some.inj h).symm⟩
  next => cases h

variable [DecidableEq κ] {k : κ}

theorem msggetExcl_eq_some {room : Bool} {id : Nat} (h : S.msggetExcl k room = some (S', id)) :
    S.keys k = none ∧ S' = S.create k ∧ id = S.next := by
  rw [msggetExcl] at h
  split at h
  · cases h
  next unbound =>
    split at h
    · cases h
      exact ⟨unbound, rfl, rfl⟩
    · cases h

theorem msgget_eq_some {room : Bool} {id : Nat} (h : S.msgget k room = some (S', id)) :
    (S.keys k = none ∧ S' = S.create k ∧ id = S.next) ∨ (S.keys k = some id ∧ S' = S) := by
  rw [msgget] at h
  split at h
  next id' bound =>
    cases h
    exact .inr ⟨bound, rfl⟩
  next unbound =>
    split at h
    · cases h
      exact .inl ⟨unbound, rfl, rfl⟩
    · cases h

end Lemmas

end Queues

/-! ### Messages of one type -/

def Queue.count (q : Queue) (k : Nat) : Nat := q.countP (Message.ofType k)

theorem Queue.count_send (q : Queue) (m : Message) (k : Nat) :
    Queue.count (q ++ [m]) k = q.count k + if m.mtype = k then 1 else 0 := by
  simp only [Queue.count, List.countP_append, List.countP_singleton, Message.ofType,
    decide_eq_true_eq]

/-- Taking a message of type `k` lowers the count of that type alone. -/
theorem Queue.count_take (q : Queue) (m : Message) (k j : Nat)
    (first : q.find? (Message.ofType k) = some m) :
    Queue.count (q.eraseP (Message.ofType k)) j + (if k = j then 1 else 0) = q.count j := by
  induction q with
  | nil => cases first
  | cons x q ih =>
    by_cases here : x.mtype = k
    · rw [List.eraseP_cons_of_pos (by simpa [Message.ofType] using here)]
      simp [Queue.count, List.countP_cons, Message.ofType, here]
    · have later : q.find? (Message.ofType k) = some m := by
        rw [List.find?_cons_of_neg (by simpa [Message.ofType] using here)] at first
        exact first
      have rest := ih later
      rw [List.eraseP_cons_of_neg (by simpa [Message.ofType] using here)]
      simp only [Queue.count, List.countP_cons] at rest ⊢
      omega

theorem Queue.exists_of_count (q : Queue) (k : Nat) (some_message : 0 < q.count k) :
    ∃ m, q.find? (Message.ofType k) = some m := by
  obtain ⟨m, member, type⟩ := List.countP_pos_iff.mp some_message
  exact Option.isSome_iff_exists.mp (List.find?_isSome.mpr ⟨m, member, type⟩)

theorem Queue.bytes_of_length (q : Queue) (size : Nat) (all : ∀ m ∈ q, m.mtext.length = size) :
    q.bytes = size * q.length := by
  have same : (q.map fun m => m.mtext.length) = List.replicate q.length size := by
    rw [List.eq_replicate_iff]
    refine ⟨List.length_map _, fun n member => ?_⟩
    obtain ⟨m, sent, rfl⟩ := List.mem_map.mp member
    exact all m sent
  rw [Queue.bytes, same, List.sum_replicate_nat, Nat.mul_comm]

end GenericTests.MessageQueue
