import GenericTests.Pthread.Model

/-!
# pthread.c and spawnthreads: every thread has its own id and its own block

A slot is written before the thread that gets its address is created and never again, so
the creator may be anywhere when the thread reads it. The creator's place tells which
slots are written and which threads are there, joined and freed.
-/
namespace GenericTests.Pthread

open GenericTests.Transition

/-- Threads created so far. -/
def Pc.made (n : Nat) : Pc → Nat
  | .createTest i | .writeSlot i | .create i => i
  | _ => n

/-- Slots of `thread_ids` written so far. -/
def Pc.slots (n : Nat) : Pc → Nat
  | .createTest i | .writeSlot i => i
  | .create i => i + 1
  | _ => n

def Pc.joined (n : Nat) : Pc → Nat
  | .createTest _ | .writeSlot _ | .create _ => 0
  | .joinTest i | .indent i | .join i => i
  | .print i _ | .free i _ | .unindent i => i + 1
  | .done => n

def Pc.printed (n : Nat) : Pc → Nat
  | .createTest _ | .writeSlot _ | .create _ => 0
  | .joinTest i | .indent i | .join i | .print i _ => i
  | .free i _ | .unindent i => i + 1
  | .done => n

def Pc.freed (n : Nat) : Pc → Nat
  | .createTest _ | .writeSlot _ | .create _ => 0
  | .joinTest i | .indent i | .join i | .print i _ | .free i _ => i
  | .unindent i => i + 1
  | .done => n

def Pc.InRange (n : Nat) : Pc → Prop
  | .createTest i | .joinTest i => i ≤ n
  | .writeSlot i | .create i | .indent i | .join i | .print i _ | .free i _ | .unindent i => i < n
  | .done => True

/-- `threadstatus` while the creator uses it. -/
def Pc.status : Pc → Option (Nat × Option Nat)
  | .print i p | .free i p => some (i, p)
  | _ => none

theorem Pc.made_le_slots {n : Nat} {pc : Pc} : pc.made n ≤ pc.slots n := by
  cases pc <;> simp [Pc.made, Pc.slots]

theorem Pc.freed_le_joined (n : Nat) (pc : Pc) : pc.freed n ≤ pc.joined n := by
  cases pc <;> simp [Pc.freed, Pc.joined]

theorem Pc.lt_joined_of_status {n i : Nat} {p : Option Nat} {pc : Pc}
    (h : pc.status = some (i, p)) : i < pc.joined n := by
  cases pc with
  | print j q | free j q =>
    cases h
    exact Nat.lt_succ_self _
  | createTest _ | writeSlot _ | create _ | joinTest _ | indent _ | join _ | unindent _ | done =>
    cases h

def ThreadPc.written : ThreadPc → Bool
  | .exit | .exited | .joined => true
  | _ => false

/-- Behind `malloc` and not joined yet. -/
def ThreadPc.between : ThreadPc → Bool
  | .readId | .malloc | .joined => false
  | _ => true

/-- Which thread a line says was joined, and with which exit value. -/
def Line.join : Line → Option (Nat × Int)
  | .joined thread status _ => some (thread, status)
  | _ => none

structure ThreadInv (joined : Nat) (block : Nat → Option Block) (k : Nat) (t : Thread) : Prop where
  id : t.id = k
  threadId : t.pc ≠ .readId → t.threadId = k + 1
  early : t.pc = .readId ∨ t.pc = .malloc → t.exitval = none
  owns : ∀ b, t.exitval = some b → ∃ B, block b = some B ∧ B.owner = k ∧
    B.value = if t.pc.written then some (k + 1 : Int) else none
  written : t.pc.written = true → t.exitval.isSome = true
  joined : t.pc = .joined ↔ k < joined

/-- The state while the creator is at the place `c`. -/
structure Inv (n : Nat) (c : Pc) (s : State) : Prop where
  range : c.InRange n
  created : s.created = c.made n
  present : ∀ k, (s.thread k).isSome = true ↔ k < s.created
  slots : ∀ k < c.slots n, s.threadIds k = k + 1
  handles : ∀ k < s.created, s.threads k = k
  threads : ∀ k t, s.thread k = some t → ThreadInv (c.joined n) s.block k t
  fresh : ∀ b, s.allocated ≤ b → s.block b = none
  blocks : ∀ b B, s.block b = some B → (∃ t, s.thread B.owner = some t ∧ t.exitval = some b) ∧
    B.frees = if B.owner < c.freed n then 1 else 0
  status : ∀ i p, c.status = some (i, p) → ∃ t, s.thread i = some t ∧ t.exitval = p
  printed : s.out.filterMap Line.join = (List.range (c.printed n)).map fun i : Nat => (i, (i : Int) + 1)
  crashed : s.crashed = true → ∃ k t, s.thread k = some t ∧ t.pc = .write ∧ t.exitval = none

theorem inv_initial (src : Source) (count : Int) (threadIds : Nat → Int) (threads : Nat → Nat) :
    Inv count.toNat (.createTest 0) (initial src count threadIds threads) where
  range := Nat.zero_le _
  created := rfl
  present k := ⟨nofun, fun h => absurd h (Nat.not_lt_zero k)⟩
  slots k h := absurd h (Nat.not_lt_zero k)
  handles k h := absurd h (Nat.not_lt_zero k)
  threads _ _ h := nomatch h
  fresh _ _ := rfl
  blocks _ _ h := nomatch h
  status _ _ h := nomatch h
  printed := by cases src <;> rfl
  crashed h := nomatch h

/-! ### The threads -/

section Threads

variable {n : Nat} {c : Pc} {s : State} {k : Nat} {t : Thread}

theorem ThreadInv.unjoined {joined : Nat} {block : Nat → Option Block}
    (h : ThreadInv joined block k t) (pc : t.pc ≠ .joined) : ¬ k < joined :=
  fun less => pc (h.joined.mpr less)

/-- A thread that has not been joined moves; only its own block may change. -/
theorem Inv.replace (inv : Inv n c s) (alive : s.crashed = false) (present : s.thread k = some t)
    (pc : t.pc ≠ .joined) (t' : Thread) (block : Nat → Option Block) (allocated : Nat)
    (own : ThreadInv (c.joined n) block k t')
    (others : ∀ b B, s.block b = some B → B.owner ≠ k → block b = some B)
    (fresh : ∀ b, allocated ≤ b → block b = none)
    (blocks : ∀ b B, block b = some B → B.owner = k ∧ t'.exitval = some b ∧ B.frees = 0 ∨
      B.owner ≠ k ∧ s.block b = some B) :
    Inv n c { s.setThread k t' with block := block, allocated := allocated } := by
  have unjoined := (inv.threads k t present).unjoined pc
  have other (i : Nat) (u : Thread) (e : i ≠ k) (hu : s.thread i = some u) :
      (s.setThread k t').thread i = some u := by
    simp [State.setThread, e, hu]
  refine { inv with
    present := ?_, threads := ?_, fresh := fresh, blocks := ?_, status := ?_, crashed := ?_ }
  · intro i
    refine Iff.trans ?_ (inv.present i)
    by_cases e : i = k
    · subst e
      simp [State.setThread, present]
    · simp [State.setThread, e]
  · intro i u hu
    by_cases e : i = k
    · subst e
      simp only [State.setThread, Function.update_self, Option.some.injEq] at hu
      exact hu ▸ own
    · simp only [State.setThread, Function.update_of_ne e] at hu
      have same := inv.threads i u hu
      refine { same with owns := fun b hb => ?_ }
      obtain ⟨B, hB, rfl, value⟩ := same.owns b hb
      exact ⟨B, others b B hB e, rfl, value⟩
  · intro b B hB
    rcases blocks b B hB with ⟨rfl, holds, frees⟩ | ⟨e, old⟩
    · -- a block that is freed belongs to a thread that has been joined
      have unfreed : ¬ B.owner < c.freed n := fun h =>
        unjoined (Nat.lt_of_lt_of_le h (c.freed_le_joined n))
      exact ⟨⟨t', Function.update_self _ _ _, holds⟩, by simp [frees, unfreed]⟩
    · obtain ⟨⟨u, hu, holds⟩, frees⟩ := inv.blocks b B old
      exact ⟨⟨u, other B.owner u e hu, holds⟩, frees⟩
  · intro i p hp
    obtain ⟨u, hu, holds⟩ := inv.status i p hp
    have e : i ≠ k := by
      rintro rfl
      exact unjoined (Pc.lt_joined_of_status hp)
    exact ⟨u, other i u e hu, holds⟩
  · intro h
    cases alive.symm.trans h

theorem Inv.block_of_owner (inv : Inv n c s) (present : s.thread k = some t) {b : Nat} {B : Block}
    (hB : s.block b = some B) (owner : B.owner = k) : t.exitval = some b := by
  obtain ⟨⟨u, hu, holds⟩, -⟩ := inv.blocks b B hB
  rw [owner] at hu
  cases Option.some.inj (present.symm.trans hu)
  exact holds

theorem Inv.frees_of_unjoined (inv : Inv n c s) (present : s.thread k = some t)
    (pc : t.pc ≠ .joined) {b : Nat} {B : Block} (hB : s.block b = some B) (owner : B.owner = k) :
    B.frees = 0 := by
  have unfreed : ¬ B.owner < c.freed n := fun h =>
    (inv.threads k t present).unjoined pc
      (owner ▸ Nat.lt_of_lt_of_le h (c.freed_le_joined n))
  rw [(inv.blocks b B hB).2, if_neg unfreed]

/-- A thread that moves on and keeps its block. -/
theorem Inv.setThread (inv : Inv n c s) (alive : s.crashed = false) (present : s.thread k = some t)
    (pc : t.pc ≠ .joined) (t' : Thread) (own : ThreadInv (c.joined n) s.block k t')
    (exitval : t'.exitval = t.exitval) : Inv n c (s.setThread k t') := by
  apply inv.replace alive present pc t' s.block s.allocated own (fun _ _ hB _ => hB) inv.fresh
  intro b B hB
  by_cases owner : B.owner = k
  · exact .inl ⟨owner, exitval.trans (inv.block_of_owner present hB owner),
      inv.frees_of_unjoined present pc hB owner⟩
  · exact .inr ⟨owner, hB⟩

theorem Inv.print (inv : Inv n c s) (line : Line) (silent : line.join = none) :
    Inv n c { s with out := s.out ++ [line] } := by
  refine { inv with printed := ?_ }
  rw [List.filterMap_append, inv.printed]
  simp [silent]

/-- The places between `malloc` and the join, which differ in `written` alone. -/
theorem Inv.advance (inv : Inv n c s) (alive : s.crashed = false) (present : s.thread k = some t)
    (pc : ThreadPc) (before : t.pc.between = true) (after : pc.between = true)
    (written : pc.written = t.pc.written) : Inv n c (s.setThread k { t with pc := pc }) := by
  have own := inv.threads k t present
  have unjoined : t.pc ≠ .joined := fun e => by rw [e] at before; cases before
  refine inv.setThread alive present unjoined _ ⟨own.id, fun _ => ?_, ?_, ?_, ?_, ?_⟩ rfl
  · exact own.threadId fun e => by rw [e] at before; cases before
  · rintro (rfl | rfl) <;> cases after
  · intro b hb
    obtain ⟨B, hB, owner, value⟩ := own.owns b hb
    exact ⟨B, hB, owner, by rw [written]; exact value⟩
  · exact fun isWritten => own.written (written ▸ isWritten)
  · constructor
    · rintro rfl
      cases after
    · exact fun e => absurd e (own.unjoined unjoined)

theorem inv_malloc (inv : Inv n c s) (alive : s.crashed = false) (present : s.thread k = some t)
    (pc : t.pc = .malloc) :
    Inv n c { s.setThread k { t with pc := .print, exitval := some s.allocated } with
      block := Function.update s.block s.allocated (some ⟨k, none, 0⟩)
      allocated := s.allocated + 1 } := by
  have own := inv.threads k t present
  have nothing : t.exitval = none := own.early (.inr pc)
  have unjoined : t.pc ≠ .joined := by rw [pc]; nofun
  -- `malloc` returns a block that nobody holds
  have old : ∀ b B, s.block b = some B → b ≠ s.allocated := by
    rintro b B hB rfl
    rw [inv.fresh s.allocated (Nat.le_refl _)] at hB
    cases hB
  apply inv.replace alive present unjoined
  · refine ⟨own.id, fun _ => own.threadId (by rw [pc]; nofun), ?_, ?_, nofun, nofun, ?_⟩
    · rintro (e | e) <;> cases e
    · intro b hb
      cases hb
      exact ⟨⟨k, none, 0⟩, Function.update_self _ _ _, rfl, rfl⟩
    · exact fun h => absurd h (own.unjoined unjoined)
  · intro b B hB _
    rw [Function.update_of_ne (old b B hB)]
    exact hB
  · intro b hb
    rw [Function.update_of_ne (by omega)]
    exact inv.fresh b (by omega)
  · intro b B hB
    by_cases new : b = s.allocated
    · subst new
      rw [Function.update_self] at hB
      cases hB
      exact .inl ⟨rfl, rfl, rfl⟩
    · rw [Function.update_of_ne new] at hB
      refine .inr ⟨fun owner => ?_, hB⟩
      cases nothing.symm.trans (inv.block_of_owner present hB owner)

theorem inv_write (inv : Inv n c s) (alive : s.crashed = false) (present : s.thread k = some t)
    (pc : t.pc = .write) (b : Nat) (exitval : t.exitval = some b) :
    Inv n c { s.setThread k { t with pc := .exit } with
      block := Function.update s.block b
        ((s.block b).map fun B => { B with value := some t.threadId }) } := by
  have own := inv.threads k t present
  have id : t.threadId = k + 1 := own.threadId (by rw [pc]; nofun)
  have unjoined : t.pc ≠ .joined := by rw [pc]; nofun
  obtain ⟨B, hB, owner, -⟩ := own.owns b exitval
  rw [hB, Option.map_some]
  apply inv.replace alive present unjoined
  · refine ⟨own.id, fun _ => id, ?_, ?_, fun _ => by simp [exitval], nofun, ?_⟩
    · rintro (e | e) <;> cases e
    · intro c hc
      cases Option.some.inj (exitval.symm.trans hc)
      refine ⟨_, Function.update_self _ _ _, owner, ?_⟩
      simp [id, ThreadPc.written]
    · exact fun h => absurd h (own.unjoined unjoined)
  · intro c C hC other
    have e : c ≠ b := by
      rintro rfl
      cases Option.some.inj (hB.symm.trans hC)
      exact other owner
    rw [Function.update_of_ne e]
    exact hC
  · intro c hc
    have e : c ≠ b := by
      rintro rfl
      cases (inv.fresh c hc).symm.trans hB
    rw [Function.update_of_ne e]
    exact inv.fresh c hc
  · intro c C hC
    by_cases e : c = b
    · subst e
      rw [Function.update_self] at hC
      have frees := inv.frees_of_unjoined present unjoined hB owner
      cases hC
      exact .inl ⟨owner, exitval, frees⟩
    · rw [Function.update_of_ne e] at hC
      refine .inr ⟨fun ownerC => e ?_, hC⟩
      exact Option.some.inj ((inv.block_of_owner present hC ownerC).symm.trans exitval)

theorem inv_thread {src : Source} {ok : Bool} {s' : State} (inv : Inv n c s)
    (present : s.thread k = some t) (alive : s.crashed = false)
    (moved : threadStep src s k t ok = some s') : Inv n c s' := by
  have own := inv.threads k t present
  have thread : k < s.created := (inv.present k).mp (by rw [present]; rfl)
  unfold threadStep at moved
  split at moved
  next pc =>
    cases moved
    have nothing : t.exitval = none := own.early (.inl pc)
    -- the slot has been written, wherever the creator is now
    have slot : s.threadIds t.id = k + 1 := by
      rw [own.id]
      apply inv.slots k
      rw [inv.created] at thread
      exact Nat.lt_of_lt_of_le thread Pc.made_le_slots
    have unjoined : t.pc ≠ .joined := by rw [pc]; nofun
    refine inv.setThread alive present unjoined _
      ⟨own.id, fun _ => slot, fun _ => nothing, ?_, nofun, nofun, ?_⟩ rfl
    · intro b hb
      cases nothing.symm.trans hb
    · exact fun h => absurd h (own.unjoined unjoined)
  next pc =>
    split at moved
    · cases moved
      exact inv_malloc inv alive present pc
    · cases moved
      have nothing : t.exitval = none := own.early (.inr pc)
      have unjoined : t.pc ≠ .joined := by rw [pc]; nofun
      refine inv.setThread alive present unjoined _
        ⟨own.id, fun _ => own.threadId (by rw [pc]; nofun), fun _ => rfl, nofun, nofun, nofun, ?_⟩
        nothing.symm
      exact fun h => absurd h (own.unjoined unjoined)
  next pc =>
    cases moved
    exact (inv.advance alive present .sleep (by rw [pc]; rfl) rfl (by rw [pc]; rfl)).print _ rfl
  next pc =>
    cases moved
    exact inv.advance alive present .printReady (by rw [pc]; rfl) rfl (by rw [pc]; rfl)
  next pc =>
    cases moved
    exact (inv.advance alive present .write (by rw [pc]; rfl) rfl (by rw [pc]; rfl)).print _ rfl
  next pc =>
    split at moved
    next b exitval =>
      cases moved
      exact inv_write inv alive present pc b exitval
    next exitval =>
      cases moved
      exact { inv with crashed := fun _ => ⟨k, t, present, pc, exitval⟩ }
  next pc =>
    cases moved
    exact inv.advance alive present .exited (by rw [pc]; rfl) rfl (by rw [pc]; rfl)
  next => cases moved
  next => cases moved

theorem pc_threadStep {src : Source} {ok : Bool} {s' : State}
    (moved : threadStep src s k t ok = some s') : s'.pc = s.pc := by
  unfold threadStep at moved
  split at moved
  case h_2 | h_6 =>
    split at moved
    · cases moved
      rfl
    · cases moved
      rfl
  case h_8 | h_9 => cases moved
  all_goals
    cases moved
    rfl

end Threads

/-! ### The creator -/

section Creator

variable {n : Nat} {s : State} {i : Nat}

/-- The creator goes on, and the counters that its place stands for do not change. -/
theorem Inv.goto {c : Pc} (inv : Inv n c s) (c' : Pc) (range : c'.InRange n)
    (made : c'.made n = c.made n) (slots : c'.slots n = c.slots n)
    (joined : c'.joined n = c.joined n) (printed : c'.printed n = c.printed n)
    (freed : c'.freed n = c.freed n) (status : c'.status = none) : Inv n c' s where
  range := range
  created := inv.created.trans made.symm
  present := inv.present
  slots := slots ▸ inv.slots
  handles := inv.handles
  threads := joined ▸ inv.threads
  fresh := inv.fresh
  blocks := freed ▸ inv.blocks
  status _ _ h := nomatch status.symm.trans h
  printed := printed ▸ inv.printed
  crashed := inv.crashed

/-- The state's own copy of the place plays no role. -/
theorem Inv.setPc {c : Pc} (inv : Inv n c s) : Inv n c { s with pc := c } := { inv with }

/-- When all threads have been created, the handle of thread `i` stands at index `i`. -/
theorem Inv.handle {c : Pc} (inv : Inv n c s) (made : c.made n = n) (less : i < n) :
    s.threads i = i := by
  apply inv.handles i
  rw [inv.created, made]
  exact less

theorem inv_createTest {count : Int} (inv : Inv count.toNat (.createTest i) s) :
    Inv count.toNat (if i < count then .writeSlot i else .joinTest 0) s := by
  have range : i ≤ count.toNat := inv.range
  split
  next more =>
    have less : i < count.toNat := by omega
    exact inv.goto (.writeSlot i) less rfl rfl rfl rfl rfl rfl
  next finished =>
    have last : count.toNat = i := by omega
    exact inv.goto (.joinTest 0) (Nat.zero_le _) last last rfl rfl rfl rfl

theorem inv_writeSlot (inv : Inv n (.writeSlot i) s) :
    Inv n (.create i) { s with threadIds := Function.update s.threadIds i (i + 1) } := by
  refine { inv with slots := ?_, status := nofun }
  intro k hk
  by_cases e : k = i
  · subst e
    exact Function.update_self _ _ _
  · simp only [Function.update_of_ne e]
    exact inv.slots k (Nat.lt_of_le_of_ne (Nat.lt_succ_iff.mp hk) e)

theorem inv_create (inv : Inv n (.create i) s) :
    Inv n (.createTest (i + 1)) { s with
      threads := Function.update s.threads i s.created
      thread := Function.update s.thread s.created (some ⟨.readId, i, 0, none⟩)
      created := s.created + 1 } := by
  have count : s.created = i := inv.created
  -- handles are given out in order, so the new one is free
  have absent : s.thread i = none := by
    have none_yet := (inv.present i).not.mpr (by omega)
    simpa using none_yet
  have other (k : Nat) (t : Thread) (h : s.thread k = some t) : k ≠ i := by
    rintro rfl
    cases absent.symm.trans h
  rw [count]
  refine ⟨inv.range, rfl, ?_, inv.slots, ?_, ?_, inv.fresh, ?_, nofun, inv.printed, ?_⟩
  · intro k
    by_cases e : k = i
    · simp [e]
    · have before := inv.present k
      simp only [Function.update_of_ne e, before]
      omega
  · intro k hk
    by_cases e : k = i
    · simp [e]
    · simp only [Function.update_of_ne e]
      exact inv.handles k (by simp only at hk; omega)
  · intro k t h
    by_cases e : k = i
    · subst e
      simp only [Function.update_self, Option.some.injEq] at h
      subst h
      exact ⟨rfl, fun e => absurd rfl e, fun _ => rfl, nofun, nofun, nofun,
        fun h => absurd h (Nat.not_lt_zero k)⟩
    · simp only [Function.update_of_ne e] at h
      exact inv.threads k t h
  · intro b B hB
    obtain ⟨⟨t, h, holds⟩, frees⟩ := inv.blocks b B hB
    exact ⟨⟨t, by simp only [Function.update_of_ne (other _ t h), h], holds⟩, frees⟩
  · intro h
    obtain ⟨k, t, hk, rest⟩ := inv.crashed h
    exact ⟨k, t, by simp only [Function.update_of_ne (other k t hk), hk], rest⟩

theorem inv_joinTest {count : Int} {src : Source} (inv : Inv count.toNat (.joinTest i) s) :
    Inv count.toNat (if i < count then
      match src with
      | .pthread => .indent i
      | .spawnthreads => .join i
      else .done) s := by
  have range : i ≤ count.toNat := inv.range
  split
  next more =>
    have less : i < count.toNat := by omega
    cases src with
    | pthread => exact inv.goto (.indent i) less rfl rfl rfl rfl rfl rfl
    | spawnthreads => exact inv.goto (.join i) less rfl rfl rfl rfl rfl rfl
  next finished =>
    have last : count.toNat = i := by omega
    exact inv.goto .done trivial rfl rfl last last last rfl

theorem inv_join {t : Thread} (inv : Inv n (.join i) s) (alive : s.crashed = false)
    (present : s.thread i = some t) (exited : t.pc = .exited) :
    Inv n (.print i t.exitval) (s.setThread i { t with pc := .joined }) := by
  have own := inv.threads i t present
  -- a join changes the place of a thread, not its pointer
  have same (k : Nat) (u : Thread) (h : s.thread k = some u) :
      ∃ u', (s.setThread i { t with pc := .joined }).thread k = some u' ∧
        u'.exitval = u.exitval := by
    by_cases e : k = i
    · subst e
      cases Option.some.inj (present.symm.trans h)
      exact ⟨_, Function.update_self _ _ _, rfl⟩
    · exact ⟨u, by simp [State.setThread, e, h], rfl⟩
  refine { inv with
    present := ?_, threads := ?_, blocks := ?_, status := ?_, crashed := ?_ }
  · intro k
    refine Iff.trans ?_ (inv.present k)
    by_cases e : k = i
    · subst e
      simp [State.setThread, present]
    · simp [State.setThread, e]
  · intro k u h
    by_cases e : k = i
    · subst e
      simp only [State.setThread, Function.update_self, Option.some.injEq] at h
      subst h
      refine ⟨own.id, fun _ => own.threadId (by rw [exited]; nofun), ?_, ?_, ?_, ?_⟩
      · rintro (e | e) <;> cases e
      · intro b hb
        obtain ⟨B, hB, owner, value⟩ := own.owns b hb
        rw [exited] at value
        exact ⟨B, hB, owner, value⟩
      · exact fun _ => own.written (by rw [exited]; rfl)
      · exact ⟨fun _ => Nat.lt_succ_self k, fun _ => rfl⟩
    · simp only [State.setThread, Function.update_of_ne e] at h
      have others := inv.threads k u h
      refine { others with joined := others.joined.trans ?_ }
      simp only [Pc.joined]
      omega
  · intro b B hB
    obtain ⟨⟨u, h, holds⟩, frees⟩ := inv.blocks b B hB
    obtain ⟨u', h', kept⟩ := same B.owner u h
    exact ⟨⟨u', h', kept.trans holds⟩, frees⟩
  · intro k p hp
    cases hp
    exact ⟨_, Function.update_self _ _ _, rfl⟩
  · intro h
    cases alive.symm.trans h

/-- The block that the creator holds is the written, unfreed block of thread `i`. -/
theorem Inv.held {c : Pc} {p : Option Nat} (inv : Inv n c s) (holds : c.status = some (i, p))
    (unfreed : c.freed n = i) :
    ∃ b B, p = some b ∧ s.block b = some B ∧ B.owner = i ∧ B.value = some (i + 1 : Int) ∧
      B.frees = 0 := by
  obtain ⟨t, present, rfl⟩ := inv.status i p holds
  have own := inv.threads i t present
  have joined : t.pc = .joined := own.joined.mpr (Pc.lt_joined_of_status holds)
  obtain ⟨b, hb⟩ := Option.isSome_iff_exists.mp (own.written (by rw [joined]; rfl))
  obtain ⟨B, hB, rfl, value⟩ := own.owns b hb
  rw [joined] at value
  refine ⟨b, B, hb, hB, rfl, value, ?_⟩
  rw [(inv.blocks b B hB).2, unfreed, if_neg (Nat.lt_irrefl _)]

theorem load_status {p : Option Nat} (inv : Inv n (.print i p) s) :
    s.load p = some (i + 1 : Int) := by
  obtain ⟨b, B, rfl, hB, -, value, frees⟩ := inv.held rfl rfl
  simp only [State.load, hB, frees, value, if_true]

theorem inv_print {p : Option Nat} (inv : Inv n (.print i p) s) (line : Line)
    (shows : line.join = some (i, (i : Int) + 1)) :
    Inv n (.free i p) { s with out := s.out ++ [line] } := by
  refine { inv with printed := ?_ }
  rw [List.filterMap_append, inv.printed, Pc.printed, Pc.printed, List.range_succ, List.map_append]
  simp [shows]

theorem inv_free {p : Option Nat} (inv : Inv n (.free i p) s) :
    Inv n (.unindent i) { s with block := s.free p } := by
  obtain ⟨b, B, rfl, hB, owner, value, frees⟩ := inv.held rfl rfl
  simp only [State.free, hB, Option.map_some]
  refine { inv with threads := ?_, fresh := ?_, blocks := ?_, status := nofun }
  · intro k t present
    have own := inv.threads k t present
    refine { own with owns := fun c hc => ?_ }
    obtain ⟨C, hC, ownerC, valueC⟩ := own.owns c hc
    by_cases e : c = b
    · subst e
      cases Option.some.inj (hB.symm.trans hC)
      exact ⟨_, Function.update_self _ _ _, ownerC, valueC⟩
    · exact ⟨C, by simp only [Function.update_of_ne e, hC], ownerC, valueC⟩
  · intro c hc
    have e : c ≠ b := by
      rintro rfl
      cases (inv.fresh c hc).symm.trans hB
    simp only [Function.update_of_ne e]
    exact inv.fresh c hc
  · intro c C hC
    by_cases e : c = b
    · subst e
      simp only [Function.update_self, Option.some.injEq] at hC
      subst hC
      exact ⟨(inv.blocks c B hB).1, by simp [frees, owner, Pc.freed]⟩
    · simp only [Function.update_of_ne e] at hC
      obtain ⟨⟨t, present, holds⟩, freesC⟩ := inv.blocks c C hC
      refine ⟨⟨t, present, holds⟩, ?_⟩
      -- thread `i` has one block only
      have other : C.owner ≠ i := by
        intro same
        obtain ⟨u, present', holds'⟩ := (inv.blocks b B hB).1
        rw [same] at present
        rw [owner] at present'
        cases Option.some.inj (present.symm.trans present')
        exact e (Option.some.inj (holds.symm.trans holds'))
      have same : C.owner < i ↔ C.owner < i + 1 := by omega
      exact freesC.trans (if_congr same rfl rfl)

theorem inv_creator {count : Int} {src : Source} {s' : State} (inv : Inv count.toNat s.pc s)
    (alive : s.crashed = false) (moved : creatorStep src count s = some s') :
    Inv count.toNat s'.pc s' := by
  unfold creatorStep at moved
  split at moved
  next i pc =>
    rw [pc] at inv
    cases moved
    exact (inv_createTest inv).setPc
  next i pc =>
    rw [pc] at inv
    cases moved
    exact (inv_writeSlot inv).setPc
  next i pc =>
    rw [pc] at inv
    cases moved
    exact (inv_create inv).setPc
  next i pc =>
    rw [pc] at inv
    cases moved
    exact (inv_joinTest inv).setPc
  next i pc =>
    rw [pc] at inv
    cases moved
    have less : i < count.toNat := inv.range
    exact { inv.goto (.join i) less rfl rfl rfl rfl rfl rfl with }
  next i pc =>
    rw [pc] at inv
    split at moved
    next t present =>
      split at moved
      next exited =>
        cases moved
        rw [inv.handle rfl inv.range] at present ⊢
        exact (inv_join inv alive present exited).setPc
      next => cases moved
    next => cases moved
  next i p pc =>
    rw [pc] at inv
    -- the value is there, so the branch of the crash is not taken
    rw [load_status inv] at moved
    cases moved
    refine (inv_print inv _ ?_).setPc
    cases src with
    | pthread => rfl
    | spawnthreads =>
      have handle := inv.handle rfl inv.range
      simp only [Line.join, handle]
  next i p pc =>
    rw [pc] at inv
    cases moved
    have freed := inv_free inv
    have less : i < count.toNat := inv.range
    cases src with
    | pthread => exact freed.setPc
    | spawnthreads => exact (freed.goto (.joinTest (i + 1)) less rfl rfl rfl rfl rfl rfl).setPc
  next i pc =>
    rw [pc] at inv
    cases moved
    have less : i < count.toNat := inv.range
    exact { inv.goto (.joinTest (i + 1)) less rfl rfl rfl rfl rfl rfl with }
  next => cases moved

theorem inv_step {count : Int} {src : Source} {a : Act} {s' : State}
    (inv : Inv count.toNat s.pc s) (h : step src count s a = some s') :
    Inv count.toNat s'.pc s' := by
  unfold step at h
  split at h
  · cases h
  next crashed =>
    have alive : s.crashed = false := by simpa using crashed
    split at h
    · exact inv_creator inv alive h
    · split at h
      next t present =>
        rw [pc_threadStep h]
        exact inv_thread inv present alive h
      next => cases h

theorem inv_reachable (src : Source) (count : Int) (s : State)
    (h : (system src count).Reachable s) : Inv count.toNat s.pc s := by
  apply (system src count).reachable_invariant (fun s => Inv count.toNat s.pc s) ?_ ?_ s h
  · rintro s₀ ⟨threadIds, threads, rfl⟩
    exact inv_initial src count threadIds threads
  · intro s a t inv hs
    exact inv_step inv hs

end Creator

/-! ### Ids, exit values and blocks -/

/-- What the threads read, what the joins report and what happens to the exit blocks. -/
structure OwnIds (src : Source) (count : Int) (s : State) : Prop where
  /-- thread `k` has read `k + 1` -/
  read : ∀ k t, s.thread k = some t → t.pc ≠ .readId → t.threadId = k + 1
  /-- the join of index `i` reports `i + 1` -/
  reported : ∃ j, s.out.filterMap Line.join = (List.range j).map (fun i : Nat => (i, (i : Int) + 1)) ∧
    j ≤ count.toNat ∧ (s.pc = .done → j = count.toNat)
  /-- every block belongs to the one thread that holds it -/
  owner : ∀ b B, s.block b = some B → ∃ t, s.thread B.owner = some t ∧ t.exitval = some b ∧
    ∀ k u, s.thread k = some u → u.exitval = some b → k = B.owner
  /-- no block is freed twice, or before it was written -/
  freedOnce : ∀ b B, s.block b = some B → B.frees ≤ 1 ∧
    (B.frees = 1 → B.value = some (B.owner + 1 : Int))
  /-- at the end every thread has its block, and it has been freed -/
  allFreed : s.pc = .done → (∀ k, k < count.toNat → ∃ t b B, s.thread k = some t ∧
      t.exitval = some b ∧ s.block b = some B ∧ B.frees = 1) ∧
    ∀ b B, s.block b = some B → B.frees = 1
  /-- only a failed `malloc` makes the program crash -/
  crashed : s.crashed = true → ∃ k t, s.thread k = some t ∧ t.pc = .write ∧ t.exitval = none
  /-- and nothing else stops it before the end -/
  goesOn : s.crashed = false → s.pc ≠ .done → (system src count).Enabled s

/-- The creator waits in a join only for a thread that is still running. -/
theorem enabled_of_inv (src : Source) (count : Int) {s : State} (inv : Inv count.toNat s.pc s)
    (alive : s.crashed = false) (running : s.pc ≠ .done) : (system src count).Enabled s := by
  have creator (s' : State) (h : creatorStep src count s = some s') :
      (system src count).Enabled s :=
    ⟨.creator, s', by simp only [system, step, alive, h]; rfl⟩
  cases pc : s.pc with
  | done => exact absurd pc running
  | join i =>
    rw [pc] at inv
    have less : i < count.toNat := inv.range
    obtain ⟨t, present⟩ := Option.isSome_iff_exists.mp
      ((inv.present i).mpr (by rw [inv.created]; exact less))
    have handle := inv.handle rfl less
    have unjoined : t.pc ≠ .joined := fun e =>
      Nat.lt_irrefl i ((inv.threads i t present).joined.mp e)
    -- either the join returns or the thread it waits for can move
    by_cases exited : t.pc = .exited
    · apply creator
      simp only [creatorStep, pc, handle, present, exited, if_true]
      rfl
    · have steps : ∃ s', threadStep src s i t true = some s' := by
        unfold threadStep
        split
        case h_8 e => exact absurd e exited
        case h_9 e => exact absurd e unjoined
        case h_6 => split <;> exact ⟨_, rfl⟩
        all_goals exact ⟨_, rfl⟩
      obtain ⟨s', h⟩ := steps
      exact ⟨.thread i true, s', by simp only [system, step, alive, present, h]; rfl⟩
  | print i p =>
    rw [pc] at inv
    apply creator
    simp only [creatorStep, pc, load_status inv]
    rfl
  | createTest i | writeSlot i | create i | joinTest i | indent i | free i p | unindent i =>
    apply creator
    simp only [creatorStep, pc]
    rfl

theorem Pc.printed_le {n : Nat} {c : Pc} (range : c.InRange n) : c.printed n ≤ n := by
  cases c <;> simp only [Pc.InRange, Pc.printed] at range ⊢ <;> omega

/-- **Own ids**: for every requested number of threads and in every reachable state of
either source. -/
theorem own_ids (src : Source) (requested : Int) (s : State)
    (h : (system src (numThreads requested)).Reachable s) :
    OwnIds src (numThreads requested) s := by
  have inv := inv_reachable src (numThreads requested) s h
  constructor
  · intro k t present past
    exact (inv.threads k t present).threadId past
  · refine ⟨_, inv.printed, Pc.printed_le inv.range, fun done => ?_⟩
    rw [done]
    rfl
  · intro b B hB
    obtain ⟨⟨t, present, holds⟩, -⟩ := inv.blocks b B hB
    refine ⟨t, present, holds, fun k u present' holds' => ?_⟩
    obtain ⟨C, hC, rfl, -⟩ := (inv.threads k u present').owns b holds'
    cases Option.some.inj (hB.symm.trans hC)
    rfl
  · intro b B hB
    obtain ⟨⟨t, present, holds⟩, frees⟩ := inv.blocks b B hB
    rw [frees]
    split
    next less =>
      refine ⟨Nat.le_refl 1, fun _ => ?_⟩
      -- it is freed, so its thread has been joined, so it is written
      have own := inv.threads B.owner t present
      have joined := own.joined.mpr (Nat.lt_of_lt_of_le less (s.pc.freed_le_joined _))
      obtain ⟨C, hC, -, value⟩ := own.owns b holds
      cases Option.some.inj (hB.symm.trans hC)
      rw [value, joined]
      rfl
    next => exact ⟨Nat.zero_le 1, nofun⟩
  · intro done
    rw [done] at inv
    have freed : ∀ b B, s.block b = some B → B.frees = 1 := by
      intro b B hB
      obtain ⟨⟨t, present, -⟩, frees⟩ := inv.blocks b B hB
      have less := (inv.present B.owner).mp (by rw [present]; rfl)
      rw [inv.created] at less
      rw [frees]
      exact if_pos less
    refine ⟨fun k hk => ?_, freed⟩
    obtain ⟨t, present⟩ := Option.isSome_iff_exists.mp
      ((inv.present k).mpr (by rw [inv.created]; exact hk))
    have own := inv.threads k t present
    have joined := own.joined.mpr hk
    obtain ⟨b, hb⟩ := Option.isSome_iff_exists.mp (own.written (by rw [joined]; rfl))
    obtain ⟨B, hB, -⟩ := own.owns b hb
    exact ⟨t, b, B, present, hb, hB, freed b B hB⟩
  · exact inv.crashed
  · exact enabled_of_inv src _ inv

/-- Two threads of pthread.c: the second one runs before the first one has read its id. -/
theorem own_ids_two :
    ∃ s, (system .pthread (numThreads 2)).Reachable s ∧ s.pc = .done ∧
      s.out.filterMap Line.join = [(0, 1), (1, 2)] ∧ OwnIds .pthread (numThreads 2) s := by
  have reached : (system .pthread (numThreads 2)).Reachable _ :=
    ⟨initial .pthread (numThreads 2) (fun _ => 0) (fun _ => 0),
      List.replicate 7 Act.creator ++ List.replicate 7 (Act.thread 1 true) ++
        List.replicate 7 (Act.thread 0 true) ++ List.replicate 13 Act.creator, ⟨_, _, rfl⟩, rfl⟩
  exact ⟨_, reached, rfl, rfl, own_ids .pthread 2 _ reached⟩

end GenericTests.Pthread
