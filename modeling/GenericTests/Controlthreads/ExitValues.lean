import GenericTests.Controlthreads.Makethreads

/-!
# controlthreads.c: the exit values of the threads

A thread function goes from statement to statement until it stores its exit value, and the
place of the join loop tells which threads are joined and which blocks are freed. A thread
that cannot open the pipe exits with `NULL`.
-/
namespace GenericTests.Controlthreads.Makethreads

open GenericTests.CString GenericTests.Transition

/-! ### What the join loop relies on -/

/-- The argument of `pthread_exit`, from that statement on. -/
def ThreadPc.result : ThreadPc → Option (Option Nat)
  | .exit result | .exited result | .joined result => some result
  | _ => none

def ThreadPc.isJoined : ThreadPc → Bool
  | .joined _ => true
  | _ => false

/-- Threads created so far. -/
def Pc.made : Pc → Nat
  | .createTest i | .writeId i | .create i => i
  | _ => numthreads

def Pc.joined : Pc → Nat
  | .createTest _ | .writeId _ | .create _ | .printCreated => 0
  | .joinTest i | .join i => i
  | .print i _ | .free i _ => i + 1
  | .returned => numthreads

def Pc.freed : Pc → Nat
  | .createTest _ | .writeId _ | .create _ | .printCreated => 0
  | .joinTest i | .join i | .print i _ | .free i _ => i
  | .returned => numthreads

/-- Every thread that has been joined ended with a pointer to an int it had written; the loop
has dereferenced nothing else, and it has freed the block of every thread it is done with,
once, and no other. -/
structure Sound (s : State) : Prop where
  joined : ∀ i t result, s.thread i = some t → t.pc = .joined result →
    ∃ B v, result = some i ∧ s.block i = some B ∧ B.value = some v
  defined : s.crashed = false
  freed : ∀ i B, s.block i = some B → B.frees = if i < s.pc.freed then 1 else 0

/-! ### The statements of the thread functions -/

/-- In front of `malloc`. -/
def Thread.early (t : Thread) : Bool :=
  match t.pc, t.func with
  | .malloc, _ | .readId, .printThreadId => true
  | _, _ => false

/-- Both calls of `open(PIPE_NAME, ...)` succeed. -/
def Opens.Both (opens : Opens) : Prop := opens.writer = true ∧ opens.reader = true

/-- A statement of a thread function neither calls `malloc` nor ends the thread. -/
structure Stays (t t' : Thread) : Prop where
  exitval : t'.exitval = t.exitval
  running : t'.pc.result = none

/-- Only a failing `open(PIPE_NAME, ...)` leads to `pthread_exit(NULL)`. -/
theorem body_stays {opens : Opens} (both : opens.Both) {f : ThreadFunc} {t t' : Thread} {ok : Bool}
    {bytes : List Byte} {lines : List Line} (moved : body opens f t ok bytes = some (t', lines)) :
    Stays t t' := by
  obtain ⟨writer, reader⟩ := both
  -- every branch of every function goes to a statement of that function or to the store
  cases f
  all_goals
    simp only [body, printThreadId, waitkeyboard, waitfakedev, waitfakefile, waitFake, pipewriter,
      pipereader, useioctls, writer, reader, if_true] at moved
    repeat' split at moved
  all_goals
    cases moved
  all_goals exact ⟨rfl, rfl⟩

/-! ### The invariant -/

def Pc.InRange : Pc → Prop
  | .createTest i | .joinTest i => i ≤ numthreads
  | .writeId i | .create i | .join i | .print i _ | .free i _ => i < numthreads
  | .printCreated | .returned => True

/-- `threadstatus` while the join loop uses it. -/
def Pc.status : Pc → Option (Nat × Option Nat)
  | .print i p | .free i p => some (i, p)
  | _ => none

/-- What holds of the thread `i` and its block. -/
structure ThreadInv (joined i : Nat) (t : Thread) (block : Option Block) : Prop where
  owns : t.early = false → t.exitval = some i ∧ block.isSome = true
  written : ∀ result, t.pc.result = some result →
    result = some i ∧ (block.bind Block.value).isSome = true
  joined : t.pc.isJoined = true ↔ i < joined

/-- The state while makethreads is at the place `c`. -/
structure Inv (c : Pc) (s : State) : Prop where
  range : c.InRange
  present : ∀ i t, s.thread i = some t → i < c.made
  threads : ∀ i t, s.thread i = some t → ThreadInv c.joined i t (s.block i)
  blocks : ∀ i B, s.block i = some B →
    (s.thread i).isSome = true ∧ B.frees = if i < c.freed then 1 else 0
  status : ∀ i p, c.status = some (i, p) → ∃ t, s.thread i = some t ∧ t.pc = .joined p
  calm : s.crashed = false

theorem Pc.freed_le_joined (c : Pc) : c.freed ≤ c.joined := by
  cases c <;> simp [Pc.freed, Pc.joined]

section Threads

variable {c : Pc} {s : State} {i : Nat} {t : Thread}

theorem ThreadInv.unjoined {joined : Nat} {block : Option Block} (own : ThreadInv joined i t block)
    (running : t.pc.isJoined = false) : ¬ i < joined := by
  intro less
  rw [own.joined.mpr less] at running
  cases running

/-- A thread that has called `pthread_exit` has left a value in its block. -/
theorem ThreadInv.block_written {joined : Nat} {block : Option Block} {result : Option Nat}
    (own : ThreadInv joined i t block) (ended : t.pc.result = some result) :
    result = some i ∧ ∃ B v, block = some B ∧ B.value = some v := by
  obtain ⟨pointer, written⟩ := own.written result ended
  obtain ⟨v, hv⟩ := Option.isSome_iff_exists.mp written
  obtain ⟨B, hB, value⟩ := Option.bind_eq_some_iff.mp hv
  exact ⟨pointer, B, v, hB, value⟩

/-- A thread on its way to `pthread_exit` has promised nothing about the value yet. -/
theorem ThreadInv.of_running {joined : Nat} {block : Option Block}
    (owns : t.early = false → t.exitval = some i ∧ block.isSome = true)
    (running : t.pc.result = none) (unjoined : ¬ i < joined) : ThreadInv joined i t block := by
  refine ⟨owns, fun result ended => ?_, fun ended => ?_, fun less => absurd less unjoined⟩
  · rw [running] at ended
    cases ended
  · cases pc : t.pc <;> simp [pc, ThreadPc.isJoined, ThreadPc.result] at ended running

theorem result_first (f : ThreadFunc) : (first f).result = none := by cases f <;> rfl

theorem result_afterReadId (f : ThreadFunc) : (afterReadId f).result = none := by cases f <;> rfl

theorem result_afterMalloc (f : ThreadFunc) : (afterMalloc f).result = none := by cases f <;> rfl

/-- A thread that has not been joined moves; only its own block may change. -/
theorem Inv.replace (inv : Inv c s) (present : s.thread i = some t)
    (running : t.pc.isJoined = false) (t' : Thread) (block : Option Block)
    (own : ThreadInv c.joined i t' block) (frees : ∀ B, block = some B → B.frees = 0) :
    Inv c { s.setThread i t' with block := Function.update s.block i block } := by
  have unjoined := (inv.threads i t present).unjoined running
  refine ⟨inv.range, ?_, ?_, ?_, ?_, inv.calm⟩
  · intro j u hu
    by_cases e : j = i
    · subst e
      exact inv.present j t present
    · rw [State.setThread] at hu
      simp only [Function.update_of_ne e] at hu
      exact inv.present j u hu
  · intro j u hu
    by_cases e : j = i
    · subst e
      simp only [State.setThread, Function.update_self, Option.some.injEq] at hu ⊢
      exact hu ▸ own
    · simp only [State.setThread, Function.update_of_ne e] at hu ⊢
      exact inv.threads j u hu
  · intro j B hB
    by_cases e : j = i
    · subst e
      simp only [Function.update_self] at hB
      -- a block that is freed belongs to a thread that has been joined
      have unfreed : ¬ j < c.freed := fun h => unjoined (Nat.lt_of_lt_of_le h c.freed_le_joined)
      exact ⟨by simp [State.setThread], by rw [if_neg unfreed, frees B hB]⟩
    · simp only [Function.update_of_ne e] at hB
      simpa only [State.setThread, Function.update_of_ne e] using inv.blocks j B hB
  · intro j p hp
    obtain ⟨u, hu, pc⟩ := inv.status j p hp
    -- the thread in the hands of the loop has been joined, so it is another one
    have e : j ≠ i := by
      rintro rfl
      cases Option.some.inj (present.symm.trans hu)
      rw [pc] at running
      cases running
    exact ⟨u, by simp only [State.setThread, Function.update_of_ne e, hu], pc⟩

/-- The block of a thread that has not been joined has not been freed. -/
theorem Inv.unfreed (inv : Inv c s) (present : s.thread i = some t)
    (running : t.pc.isJoined = false) (B : Block) (hB : s.block i = some B) : B.frees = 0 := by
  have unjoined := (inv.threads i t present).unjoined running
  rw [(inv.blocks i B hB).2,
    if_neg fun h => unjoined (Nat.lt_of_lt_of_le h c.freed_le_joined)]

/-- A thread that leaves its block alone. -/
theorem Inv.goto (inv : Inv c s) (present : s.thread i = some t) (running : t.pc.isJoined = false)
    (t' : Thread) (own : ThreadInv c.joined i t' (s.block i)) : Inv c (s.setThread i t') := by
  have moved := inv.replace present running t' (s.block i) own (inv.unfreed present running)
  rwa [Function.update_eq_self] at moved

/-- The ids, the output and the place of makethreads do not matter. -/
theorem Inv.keep {s' : State} (inv : Inv c s) (thread : s'.thread = s.thread)
    (block : s'.block = s.block) (crashed : s'.crashed = s.crashed) : Inv c s' := by
  refine ⟨inv.range, ?_, ?_, ?_, ?_, crashed.trans inv.calm⟩
  · rw [thread]
    exact inv.present
  · rw [thread, block]
    exact inv.threads
  · rw [thread, block]
    exact inv.blocks
  · rw [thread]
    exact inv.status

theorem inv_malloc (inv : Inv c s) (present : s.thread i = some t) (pc : t.pc = .malloc) :
    Inv c { s.setThread i { t with pc := afterMalloc t.func, exitval := some i } with
      block := Function.update s.block i (some ⟨none, 0⟩) } := by
  have running : t.pc.isJoined = false := by rw [pc]; rfl
  have unjoined := (inv.threads i t present).unjoined running
  refine inv.replace present running _ _
    (.of_running (fun _ => ⟨rfl, rfl⟩) (result_afterMalloc t.func) unjoined) fun B hB => ?_
  cases hB
  rfl

theorem inv_store (inv : Inv c s) (present : s.thread i = some t) (v : Int) (pc : t.pc = .store v) :
    t.exitval = some i ∧
    Inv c { s.setThread i { t with pc := .exit (some i) } with
      block := Function.update s.block i ((s.block i).map fun B => { B with value := some v }) } := by
  have running : t.pc.isJoined = false := by rw [pc]; rfl
  have own := inv.threads i t present
  have unjoined := own.unjoined running
  obtain ⟨exitval, there⟩ := own.owns (by rw [Thread.early, pc])
  obtain ⟨B, hB⟩ := Option.isSome_iff_exists.mp there
  refine ⟨exitval, ?_⟩
  rw [hB, Option.map_some]
  refine inv.replace present running _ _ ⟨fun _ => ⟨exitval, rfl⟩, ?_, ?_⟩ ?_
  · -- from here on the thread has a result, and the block has a value
    intro result ended
    cases ended
    exact ⟨rfl, rfl⟩
  · exact ⟨nofun, fun less => absurd less unjoined⟩
  · intro B' same
    cases same
    exact inv.unfreed present running B hB

theorem inv_body {opens : Opens} (both : opens.Both) {ok : Bool} {bytes : List Byte} {t' : Thread}
    {lines : List Line} (inv : Inv c s) (present : s.thread i = some t)
    (late : t.early = false) (running : t.pc.isJoined = false)
    (moved : body opens t.func t ok bytes = some (t', lines)) :
    Inv c { s.setThread i t' with out := s.out ++ lines } := by
  have own := inv.threads i t present
  have unjoined := own.unjoined running
  have stays := body_stays both moved
  refine (inv.goto present running t' (.of_running (fun _ => ?_) stays.running unjoined)).keep
    rfl rfl rfl
  rw [stays.exitval]
  exact own.owns late

theorem inv_thread {opens : Opens} (both : opens.Both) {ok : Bool} {bytes : List Byte} {s' : State}
    (inv : Inv c s) (present : s.thread i = some t)
    (moved : threadStep opens s i t ok bytes = some s') : Inv c s' := by
  have own := inv.threads i t present
  unfold threadStep at moved
  split at moved
  next pc =>
    cases moved
    have running : t.pc.isJoined = false := by rw [pc]; rfl
    have unjoined := own.unjoined running
    refine inv.goto present running _
      (.of_running (fun late => own.owns ?_) (result_afterReadId t.func) unjoined)
    -- print_thread_id is still in front of malloc, the others are behind it before and after
    cases func : t.func <;> simp [Thread.early, afterReadId, func, pc] at late ⊢
  next pc =>
    cases moved
    exact inv_malloc inv present pc
  next v pc =>
    obtain ⟨exitval, stored⟩ := inv_store inv present v pc
    split at moved
    next b found =>
      cases Option.some.inj (exitval.symm.trans found)
      cases moved
      exact stored
    next missing =>
      -- `malloc` succeeds, so the store has a block to go to
      rw [exitval] at missing
      cases missing
  next result pc =>
    cases moved
    have running : t.pc.isJoined = false := by rw [pc]; rfl
    have unjoined := own.unjoined running
    refine inv.goto present running _ ⟨fun _ => own.owns (by rw [Thread.early, pc]), ?_, nofun, ?_⟩
    · intro result' ended
      exact own.written result' (by rw [pc]; exact ended)
    · exact fun less => absurd less unjoined
  next => cases moved
  next => cases moved
  all_goals
    rename_i pc
    obtain ⟨⟨t', lines⟩, does, rfl⟩ := Option.map_eq_some_iff.mp moved
    exact inv_body both inv present (by rw [Thread.early, pc]) (by rw [pc]; rfl) does

end Threads

/-! ### The join loop -/

section Loop

variable {c c' : Pc} {s : State}

/-- A statement of makethreads that neither creates, joins nor frees. -/
theorem Inv.move (inv : Inv c s) (range : c'.InRange) (made : c'.made = c.made)
    (joined : c'.joined = c.joined) (freed : c'.freed = c.freed) (status : c'.status = none) :
    Inv c' s := by
  refine ⟨range, ?_, ?_, ?_, ?_, inv.calm⟩
  · rw [made]
    exact inv.present
  · rw [joined]
    exact inv.threads
  · rw [freed]
    exact inv.blocks
  · rw [status]
    nofun

theorem inv_create {i : Nat} (inv : Inv (.create i) s) (f : ThreadFunc) (input : Buffer 11)
    (buf : Buffer bufSize) :
    Inv (.createTest (i + 1)) (s.setThread i ⟨f, first f, 0, none, input, buf⟩) := by
  have range : i < numthreads := inv.range
  -- the thread is new, so it has no block
  have absent : s.thread i = none := by
    by_contra there
    obtain ⟨t, present⟩ := Option.ne_none_iff_exists'.mp there
    exact Nat.lt_irrefl i (inv.present i t present)
  have early : Thread.early ⟨f, first f, 0, none, input, buf⟩ = true := by cases f <;> rfl
  refine ⟨range, ?_, ?_, ?_, nofun, inv.calm⟩
  · intro j u hu
    by_cases e : j = i
    · exact e ▸ Nat.lt_succ_self i
    · simp only [State.setThread, Function.update_of_ne e] at hu
      exact Nat.lt_succ_of_lt (inv.present j u hu)
  · intro j u hu
    by_cases e : j = i
    · subst e
      simp only [State.setThread, Function.update_self, Option.some.injEq] at hu
      subst hu
      refine .of_running (fun late => ?_) (result_first f) (Nat.not_lt_zero j)
      rw [early] at late
      cases late
    · simp only [State.setThread, Function.update_of_ne e] at hu
      exact inv.threads j u hu
  · intro j B hB
    obtain ⟨there, frees⟩ := inv.blocks j B hB
    have e : j ≠ i := by
      rintro rfl
      rw [absent] at there
      cases there
    exact ⟨by simpa only [State.setThread, Function.update_of_ne e] using there, frees⟩

theorem inv_join {i : Nat} (inv : Inv (.join i) s) {t : Thread} (present : s.thread i = some t)
    {result : Option Nat} (pc : t.pc = .exited result) :
    Inv (.print i result) (s.setThread i { t with pc := .joined result }) := by
  have range : i < numthreads := inv.range
  have own := inv.threads i t present
  refine ⟨range, ?_, ?_, ?_, ?_, inv.calm⟩
  · intro j u hu
    by_cases e : j = i
    · exact e ▸ range
    · simp only [State.setThread, Function.update_of_ne e] at hu
      exact inv.present j u hu
  · intro j u hu
    by_cases e : j = i
    · subst e
      simp only [State.setThread, Function.update_self, Option.some.injEq] at hu
      subst hu
      refine ⟨fun _ => own.owns (by rw [Thread.early, pc]), fun result' ended => ?_, ?_⟩
      · exact own.written result' (by rw [pc]; exact ended)
      · exact ⟨fun _ => Nat.lt_succ_self j, fun _ => rfl⟩
    · simp only [State.setThread, Function.update_of_ne e] at hu
      have other := inv.threads j u hu
      refine ⟨other.owns, other.written, other.joined.trans ?_⟩
      simp only [Pc.joined]
      omega
  · intro j B hB
    obtain ⟨there, frees⟩ := inv.blocks j B hB
    refine ⟨?_, frees⟩
    by_cases e : j = i
    · simp [State.setThread, e]
    · simpa only [State.setThread, Function.update_of_ne e] using there
  · intro j p hp
    cases hp
    exact ⟨{ t with pc := .joined result }, by simp [State.setThread], rfl⟩

theorem Pc.not_lt_freed {i : Nat} {p : Option Nat} (here : c.status = some (i, p)) :
    ¬ i < c.freed := by
  cases c with
  | print j q | free j q =>
    cases here
    exact Nat.lt_irrefl _
  | createTest _ | writeId _ | create _ | printCreated | joinTest _ | join _ | returned => cases here

/-- What the loop has in its hands between the join and the free. -/
theorem Inv.status_written {i : Nat} {p : Option Nat} (inv : Inv c s) (here : c.status = some (i, p)) :
    p = some i ∧ ∃ B v, s.block i = some B ∧ B.value = some v ∧ B.frees = 0 := by
  obtain ⟨t, present, pc⟩ := inv.status i p here
  obtain ⟨pointer, B, v, hB, value⟩ := (inv.threads i t present).block_written (by rw [pc]; rfl)
  exact ⟨pointer, B, v, hB, value, by rw [(inv.blocks i B hB).2, if_neg (Pc.not_lt_freed here)]⟩

theorem inv_free {i : Nat} {p : Option Nat} (inv : Inv (.free i p) s) :
    Inv (.joinTest (i + 1)) { s with block := s.free p } := by
  have range : i < numthreads := inv.range
  obtain ⟨rfl, B, v, hB, value, frees⟩ := inv.status_written rfl
  simp only [State.free, hB, Option.map_some, frees]
  refine ⟨range, inv.present, ?_, ?_, nofun, inv.calm⟩
  · intro j t present
    have own := inv.threads j t present
    by_cases e : j = i
    · subst e
      simp only [Function.update_self]
      exact ⟨fun late => ⟨(own.owns late).1, rfl⟩, fun result ended =>
        ⟨(own.written result ended).1, by simp [value]⟩, own.joined⟩
    · simp only [Function.update_of_ne e]
      exact own
  · intro j B' hB'
    by_cases e : j = i
    · subst e
      simp only [Function.update_self, Option.some.injEq] at hB'
      subst hB'
      exact ⟨(inv.blocks j B hB).1, by simp [Pc.freed]⟩
    · simp only [Function.update_of_ne e] at hB'
      obtain ⟨there, count⟩ := inv.blocks j B' hB'
      refine ⟨there, count.trans ?_⟩
      simp only [Pc.freed]
      exact if_congr (by omega) rfl rfl

theorem inv_makethreads {input : Buffer 11} {buf : Buffer bufSize} {s' : State} (inv : Inv s.pc s)
    (moved : makethreadsStep input buf s = some s') : Inv s'.pc s' := by
  unfold makethreadsStep at moved
  split at moved
  next i pc =>
    rw [pc] at inv
    have range : i ≤ numthreads := inv.range
    cases moved
    by_cases more : i < numthreads
    · simp only [more, if_true]
      have atWrite : Inv (.writeId i) s := inv.move more rfl rfl rfl rfl
      exact atWrite.keep rfl rfl rfl
    · -- all threads are there
      simp only [more, if_false]
      have all : i = numthreads := by omega
      have atPrint : Inv .printCreated s := inv.move trivial all.symm rfl rfl rfl
      exact atPrint.keep rfl rfl rfl
  next i pc =>
    rw [pc] at inv
    cases moved
    have atCreate : Inv (.create i) s := inv.move inv.range rfl rfl rfl rfl
    exact atCreate.keep rfl rfl rfl
  next i pc =>
    rw [pc] at inv
    split at moved
    next f _ =>
      cases moved
      exact (inv_create inv f input buf).keep rfl rfl rfl
    next => cases moved
  next pc =>
    rw [pc] at inv
    cases moved
    have atLoop : Inv (.joinTest 0) s := inv.move (Nat.zero_le _) rfl rfl rfl rfl
    exact atLoop.keep rfl rfl rfl
  next i pc =>
    rw [pc] at inv
    have range : i ≤ numthreads := inv.range
    cases moved
    by_cases more : i < numthreads
    · simp only [more, if_true]
      have atJoin : Inv (.join i) s := inv.move more rfl rfl rfl rfl
      exact atJoin.keep rfl rfl rfl
    · -- all threads are joined, and their blocks freed
      simp only [more, if_false]
      have all : i = numthreads := by omega
      have atEnd : Inv .returned s := inv.move trivial rfl all.symm all.symm rfl
      exact atEnd.keep rfl rfl rfl
  next i pc =>
    rw [pc] at inv
    split at moved
    next t present =>
      split at moved
      next result exited =>
        cases moved
        exact (inv_join inv present exited).keep rfl rfl rfl
      next => cases moved
    next => cases moved
  next i p pc =>
    rw [pc] at inv
    -- the branch in which the program crashes is not taken
    obtain ⟨rfl, B, v, hB, value, frees⟩ := inv.status_written rfl
    have loaded : s.load (some i) = some v := by simp only [State.load, hB, frees, if_true, value]
    rw [loaded] at moved
    cases moved
    have atFree : Inv (.free i (some i)) s :=
      ⟨inv.range, inv.present, inv.threads, inv.blocks, inv.status, inv.calm⟩
    exact atFree.keep rfl rfl rfl
  next i p pc =>
    rw [pc] at inv
    cases moved
    exact (inv_free inv).keep rfl rfl rfl
  next => cases moved

end Loop

theorem inv_initial (id : Nat → Int) : Inv (.createTest 0) (initial id) where
  range := Nat.zero_le _
  present _ _ h := nomatch h
  threads _ _ h := nomatch h
  blocks _ _ h := nomatch h
  status _ _ h := nomatch h
  calm := rfl

theorem threadStep_pc {opens : Opens} {s s' : State} {i : Nat} {t : Thread} {ok : Bool}
    {bytes : List Byte} (moved : threadStep opens s i t ok bytes = some s') : s'.pc = s.pc := by
  unfold threadStep at moved
  split at moved
  case h_1 | h_2 | h_4 =>
    cases moved
    rfl
  case h_3 =>
    split at moved
    · cases moved
      rfl
    · cases moved
      rfl
  case h_5 | h_6 => cases moved
  -- the statements of the function itself
  all_goals
    obtain ⟨-, -, rfl⟩ := Option.map_eq_some_iff.mp moved
    rfl

theorem inv_reachable {opens : Opens} (both : opens.Both) (s : State)
    (h : (makethreads opens).Reachable s) : Inv s.pc s := by
  apply (makethreads opens).reachable_invariant (fun s => Inv s.pc s) ?_ ?_ s h
  · rintro s₀ ⟨id, rfl⟩
    exact inv_initial id
  · intro s a t inv hs
    cases a with
    | makethreads input buf =>
      simp only [makethreads, step, inv.calm, Bool.false_eq_true, if_false] at hs
      exact inv_makethreads inv hs
    | thread i ok bytes =>
      simp only [makethreads, step, inv.calm, Bool.false_eq_true, if_false] at hs
      split at hs
      next u present =>
        rw [threadStep_pc hs]
        exact inv_thread both inv present hs
      next => cases hs

theorem sound_of_both {opens : Opens} (both : opens.Both) (s : State)
    (h : (makethreads opens).Reachable s) : Sound s := by
  have inv := inv_reachable both s h
  refine ⟨fun i t result present pc => ?_, inv.calm, fun i B hB => (inv.blocks i B hB).2⟩
  obtain ⟨pointer, B, v, hB, value⟩ := (inv.threads i t present).block_written (by rw [pc]; rfl)
  exact ⟨B, v, pointer, hB, value⟩

/-! ### When an open fails -/

/-- makethreads moves on. -/
def go : Act := .makethreads (Buffer.zeros 11) (Buffer.zeros bufSize)

/-- All threads are created, and the first four are joined: there is a key, and the fake
device and the fake file are missing. -/
def upToPipewriter : List Act :=
  List.flatten [List.replicate 23 go,
    List.replicate 7 (.thread 0 true []), List.replicate 4 go,
    List.replicate 6 (.thread 1 true [65]), List.replicate 4 go,
    List.replicate 5 (.thread 2 false []), List.replicate 4 go,
    List.replicate 5 (.thread 3 false []), List.replicate 4 go]

/-- pipewriter is joined after its open has failed, and `*threadstatus` is evaluated. -/
def writerFails : List Act :=
  List.flatten [upToPipewriter, List.replicate 4 (.thread 4 true []), List.replicate 3 go]

/-- pipewriter runs to its end, and pipereader is joined after its open has failed. -/
def readerFails : List Act :=
  List.flatten [upToPipewriter, List.replicate 10 (.thread 4 true []), List.replicate 4 go,
    List.replicate 4 (.thread 5 true []), List.replicate 3 go]

theorem crashes_of_failure (opens : Opens) (fails : ¬ opens.Both) :
    ∃ s, (makethreads opens).Reachable s ∧ s.crashed = true := by
  obtain ⟨writer, reader⟩ := opens
  cases writer with
  | false => exact ⟨_, ⟨_, writerFails, ⟨fun _ => 0, rfl⟩, rfl⟩, rfl⟩
  | true =>
    cases reader with
    | false => exact ⟨_, ⟨_, readerFails, ⟨fun _ => 0, rfl⟩, rfl⟩, rfl⟩
    | true => exact absurd ⟨rfl, rfl⟩ fails

/-- **Every exit value is there** when the join loop uses it, whatever the other calls return
and in all orders of events, if and only if both threads can open the pipe. -/
theorem exit_values_defined_iff (opens : Opens) :
    (∀ s, (makethreads opens).Reachable s → Sound s) ↔
      opens.writer = true ∧ opens.reader = true := by
  constructor
  · intro claim
    by_contra fails
    obtain ⟨s, reachable, crashed⟩ := crashes_of_failure opens fails
    rw [(claim s reachable).defined] at crashed
    cases crashed
  · exact fun both s h => sound_of_both both s h

/-- The open of pipewriter fails: the thread exits with `NULL`, which makethreads
dereferences, and its block is lost. -/
theorem not_exit_values_defined :
    ¬ ∀ s, (makethreads ⟨false, true⟩).Reachable s → Sound s := by
  intro claim
  have reached : (makethreads ⟨false, true⟩).Reachable _ :=
    ⟨_, writerFails, ⟨fun _ => 0, rfl⟩, rfl⟩
  cases (claim _ reached).defined

end GenericTests.Controlthreads.Makethreads
