import Mathlib.Logic.Function.Basic

/-!
# System V shared memory

Keys name segments, segments are counted while they are attached. `IPC_RMID` takes the
key away at once and the segment with the last detach. A `Segments` value carries what
the kernel guarantees: a key always leads to a live segment, and two keys never to the
same one.
-/
namespace GenericTests.SharedMemory

structure Segment (α : Type) where
  data : α
  /-- `shm_nattch` -/
  attached : Nat
  /-- marked by `IPC_RMID` -/
  removed : Bool

structure Segments (κ α : Type) where
  keys : κ → Option Nat
  seg : Nat → Option (Segment α)
  /-- identifiers from here on were never used -/
  next : Nat
  live : ∀ k id, keys k = some id → ∃ g, seg id = some g ∧ g.removed = false
  fresh : ∀ id, next ≤ id → seg id = none
  distinct : ∀ k k' id, keys k = some id → keys k' = some id → k = k'

namespace Segments

variable {κ α : Type}

/-- An identifier that is in use is not handed out again. -/
theorem ne_next (S : Segments κ α) {id : Nat} {g : Segment α} (h : S.seg id = some g) :
    id ≠ S.next := by
  rintro rfl
  rw [S.fresh _ (Nat.le_refl _)] at h
  cases h

section Operations

variable [DecidableEq κ]

/-- A new segment with contents `zero`. -/
def create (S : Segments κ α) (k : κ) (zero : α) (unused : S.keys k = none) : Segments κ α where
  keys := Function.update S.keys k (some S.next)
  seg := Function.update S.seg S.next (some ⟨zero, 0, false⟩)
  next := S.next + 1
  live := by
    intro k' id h
    by_cases same : k' = k
    · subst same
      rw [Function.update_self] at h
      cases h
      exact ⟨_, Function.update_self .., rfl⟩
    · rw [Function.update_of_ne same] at h
      obtain ⟨g, hg, live⟩ := S.live k' id h
      exact ⟨g, by rw [Function.update_of_ne (S.ne_next hg), hg], live⟩
  fresh := by
    intro id h
    rw [Function.update_of_ne (by omega)]
    exact S.fresh id (by omega)
  distinct := by
    intro k₁ k₂ id h₁ h₂
    -- No key leads to the new identifier yet: it would lead to a live segment.
    have old : ∀ k', S.keys k' ≠ some S.next := by
      intro k' h
      obtain ⟨g, hg, -⟩ := S.live k' _ h
      exact S.ne_next hg rfl
    by_cases same₁ : k₁ = k <;> by_cases same₂ : k₂ = k
    · rw [same₁, same₂]
    · subst same₁
      rw [Function.update_self] at h₁
      rw [Function.update_of_ne same₂, ← h₁] at h₂
      exact absurd h₂ (old k₂)
    · subst same₂
      rw [Function.update_self] at h₂
      rw [Function.update_of_ne same₁, ← h₂] at h₁
      exact absurd h₁ (old k₁)
    · rw [Function.update_of_ne same₁] at h₁
      rw [Function.update_of_ne same₂] at h₂
      exact S.distinct k₁ k₂ id h₁ h₂

/-- `shmget` with `IPC_CREAT` -/
def shmget (S : Segments κ α) (k : κ) (zero : α) : Segments κ α × Nat :=
  match h : S.keys k with
  | some id => (S, id)
  | none => (S.create k zero h, S.next)

/-- `shmget` with `IPC_CREAT|IPC_EXCL` -/
def shmgetExcl (S : Segments κ α) (k : κ) (zero : α) : Option (Segments κ α × Nat) :=
  match h : S.keys k with
  | some _ => none
  | none => some (S.create k zero h, S.next)

end Operations

/-- Change a segment that exists, without marking it. -/
def modify (S : Segments κ α) (id : Nat) (f : Segment α → Segment α)
    (marks : ∀ g, (f g).removed = g.removed) : Segments κ α where
  keys := S.keys
  seg := Function.update S.seg id ((S.seg id).map f)
  next := S.next
  live := by
    intro k j h
    obtain ⟨g, hg, live⟩ := S.live k j h
    by_cases same : j = id
    · subst same
      exact ⟨f g, by rw [Function.update_self, hg]; rfl, by rw [marks, live]⟩
    · exact ⟨g, by rw [Function.update_of_ne same, hg], live⟩
  fresh := by
    intro j h
    by_cases same : j = id
    · subst same
      rw [Function.update_self, S.fresh j h]
      rfl
    · rw [Function.update_of_ne same]
      exact S.fresh j h
  distinct := S.distinct

/-- A store through an attached address. -/
def store (S : Segments κ α) (id : Nat) (f : α → α) : Segments κ α :=
  S.modify id (fun g => { g with data := f g.data }) fun _ => rfl

/-- `shmat`; `none` if there is no such segment -/
def shmat (S : Segments κ α) (id : Nat) : Option (Segments κ α) :=
  -- a marked segment can still be attached by those who know its identifier
  if (S.seg id).isSome then
    some (S.modify id (fun g => { g with attached := g.attached + 1 }) fun _ => rfl)
  else none

/-- Take the key away from segment `id`, and the segment itself unless `kept`. -/
def unbind (S : Segments κ α) (id : Nat) (kept : Option (Segment α))
    (old : S.seg id = none → kept = none) : Segments κ α where
  keys := fun k => if S.keys k = some id then none else S.keys k
  seg := Function.update S.seg id kept
  next := S.next
  live := by
    intro k j h
    split at h
    · cases h
    next other =>
      obtain ⟨g, hg, live⟩ := S.live k j h
      have ne : j ≠ id := by
        rintro rfl
        exact other h
      exact ⟨g, by rw [Function.update_of_ne ne, hg], live⟩
  fresh := by
    intro j h
    by_cases same : j = id
    · subst same
      rw [Function.update_self]
      exact old (S.fresh j h)
    · rw [Function.update_of_ne same]
      exact S.fresh j h
  distinct := by
    intro k₁ k₂ j h₁ h₂
    split at h₁
    · cases h₁
    · split at h₂
      · cases h₂
      · exact S.distinct k₁ k₂ j h₁ h₂

/-- `shmctl(id, IPC_RMID)`; `none` if there is no such segment -/
def rmid (S : Segments κ α) (id : Nat) : Option (Segments κ α) :=
  match h : S.seg id with
  | none => none
  | some g =>
    some (S.unbind id (if g.attached = 0 then none else some { g with removed := true })
      fun e => by rw [h] at e; cases e)

/-- The end of an attachment, by `shmdt` or by the end of the process. -/
def detach (S : Segments κ α) (id : Nat) : Segments κ α :=
  match S.seg id with
  | none => S
  | some g =>
    -- the last one to leave a marked segment destroys it
    if g.removed ∧ g.attached ≤ 1 then S.unbind id none fun _ => rfl
    else S.modify id (fun g => { g with attached := g.attached - 1 }) fun _ => rfl

/-! ### What the calls do -/

section Lemmas

variable (S : Segments κ α)

variable [DecidableEq κ]

theorem shmget_of_some {k : κ} {id : Nat} (zero : α) (h : S.keys k = some id) :
    S.shmget k zero = (S, id) := by
  rw [shmget]
  split
  next id' h' =>
    rw [h] at h'
    cases h'
    rfl
  next h' =>
    rw [h] at h'
    cases h'

theorem shmget_of_none {k : κ} (zero : α) (h : S.keys k = none) :
    S.shmget k zero = (S.create k zero h, S.next) := by
  rw [shmget]
  split
  next id' h' =>
    rw [h] at h'
    cases h'
  next => rfl

theorem shmget_keys_self (k : κ) (zero : α) :
    (S.shmget k zero).1.keys k = some (S.shmget k zero).2 := by
  cases h : S.keys k with
  | some id => rw [S.shmget_of_some zero h, h]
  | none =>
    rw [S.shmget_of_none zero h]
    exact Function.update_self ..

theorem shmget_keys_other {k k' : κ} (zero : α) (other : k' ≠ k) :
    (S.shmget k zero).1.keys k' = S.keys k' := by
  cases h : S.keys k with
  | some id => rw [S.shmget_of_some zero h]
  | none =>
    rw [S.shmget_of_none zero h]
    exact Function.update_of_ne other ..

theorem shmget_seg {k : κ} (zero : α) {id : Nat} {g : Segment α} (there : S.seg id = some g) :
    (S.shmget k zero).1.seg id = some g := by
  cases h : S.keys k with
  | some id' => rw [S.shmget_of_some zero h, there]
  | none =>
    rw [S.shmget_of_none zero h]
    exact (Function.update_of_ne (S.ne_next there) ..).trans there

theorem shmget_new {k : κ} (zero : α) (h : S.keys k = none) :
    (S.shmget k zero).1.seg (S.shmget k zero).2 = some ⟨zero, 0, false⟩ := by
  rw [S.shmget_of_none zero h]
  exact Function.update_self ..

theorem shmgetExcl_of_some {k : κ} {id : Nat} (zero : α) (h : S.keys k = some id) :
    S.shmgetExcl k zero = none := by
  rw [shmgetExcl]
  split
  next => rfl
  next h' =>
    rw [h] at h'
    cases h'

omit [DecidableEq κ]

theorem modify_seg {id : Nat} {g : Segment α} {f : Segment α → Segment α}
    {marks : ∀ g, (f g).removed = g.removed} (h : S.seg id = some g) :
    (S.modify id f marks).seg id = some (f g) := by
  simp [modify, h]

theorem shmat_of_some {id : Nat} {g : Segment α} (h : S.seg id = some g) :
    ∃ T, S.shmat id = some T ∧ T.keys = S.keys ∧
      T.seg id = some { g with attached := g.attached + 1 } := by
  have found : S.shmat id =
      some (S.modify id (fun g => { g with attached := g.attached + 1 }) fun _ => rfl) := by
    simp [shmat, h]
  exact ⟨_, found, rfl, S.modify_seg h⟩

theorem shmat_of_none {id : Nat} (h : S.seg id = none) : S.shmat id = none := by
  rw [shmat, h]
  exact if_neg (by simp)

theorem rmid_of_some {id : Nat} {g : Segment α} (h : S.seg id = some g) :
    ∃ T, S.rmid id = some T ∧
      T.keys = (fun k => if S.keys k = some id then none else S.keys k) ∧
      T.seg id = if g.attached = 0 then none else some { g with removed := true } := by
  rw [rmid]
  split
  next h' =>
    rw [h] at h'
    cases h'
  next g' h' =>
    rw [h] at h'
    cases h'
    exact ⟨_, rfl, rfl, Function.update_self ..⟩

/-- Detaching from a segment that keeps its key. -/
theorem detach_of_live {id : Nat} {g : Segment α} (h : S.seg id = some g)
    (live : g.removed = false) :
    (S.detach id).keys = S.keys ∧
      (S.detach id).seg id = some { g with attached := g.attached - 1 } := by
  rw [detach]
  split
  next h' =>
    rw [h] at h'
    cases h'
  next g' h' =>
    rw [h] at h'
    cases h'
    rw [if_neg (by simp [live])]
    exact ⟨rfl, S.modify_seg h⟩

/-- Detaching gives no key a segment. -/
theorem detach_keys {id : Nat} {k : κ} (h : S.keys k = none) : (S.detach id).keys k = none := by
  rw [detach]
  split
  · exact h
  · split
    · simp [unbind, h]
    · exact h

end Lemmas

end Segments

end GenericTests.SharedMemory
