import GenericTests.Lib.Processes
import Mathlib.Data.List.Range

/-!
# processesgalore.c

main makes threads, and thread `i` forks `i + 2` children, all of them children of the one
process. Each thread waits for the child it made last; main joins the threads. The children
are named by their thread and by `forkno`.
-/
namespace GenericTests.Forks.Processesgalore

open GenericTests.Processes GenericTests.Transition

inductive KidPc where
  | announce
  /-- `sleep(5*(forkno+1))` comes before the second line -/
  | asleep
  | exit

/-- A child as the kernel knows it. -/
structure Kid where
  life : Life
  report : Option Status
  pc : KidPc

def Kid.born : Kid := ⟨.running, none, .announce⟩

def Kid.end (K : Kid) (status : Status) : Kid := { K with life := .ended status, report := some status }

def Kid.reap (K : Kid) : Kid := { K with report := none }

def Kid.terminated (K : Kid) : Bool :=
  match K.life with
  | .ended _ => true
  | .running | .stopped => false

def Kid.reaped (K : Kid) : Bool := K.terminated && K.report.isNone

inductive ThreadPc where
  | start
  | forkTest (forkno : Nat)
  | made
  | wait
  | status (status : Status)
  /-- `*exitval=thread_id` -/
  | finish
  | exited (value : Nat)

structure Thread where
  pc : ThreadPc
  /-- `forkno` of the child whose id is in `cpid` -/
  cpid : Option Nat

/-- The lines that are printed; process and thread ids and the padding are left out. -/
inductive Line where
  | inThread (thread numforks : Nat)
  | child (forkno thread : Nat)
  | childDone (forkno thread : Nat)
  | madeAll (thread : Nat)
  /-- `Parent of thread %d: saw child %d ...`, the child by its `forkno` -/
  | saw (thread forkno : Nat) (status : Status)
  | threadsMade
  | joined (i value : Nat)

inductive MainPc where
  | create (i : Nat)
  | join (i : Nat)
  | returned

structure State where
  main : MainPc
  threads : Nat → Option Thread
  kids : Nat → Nat → Option Kid
  out : List Line

def State.initial : State := ⟨.create 0, fun _ => none, fun _ _ => none, []⟩

def State.print (s : State) (line : Line) : State := { s with out := s.out ++ [line] }

def State.setThread (s : State) (i : Nat) (T : Thread) : State :=
  { s with threads := Function.update s.threads i (some T) }

def State.setKid (s : State) (i k : Nat) (K : Kid) : State :=
  { s with kids := Function.update s.kids i (Function.update (s.kids i) k (some K)) }

/-- main; a join waits for the end of the thread. -/
def mainStep (numThreads : Nat) (s : State) : Option State :=
  match s.main with
  | .create i =>
    if i < numThreads then some { s.setThread i ⟨.start, none⟩ with main := .create (i + 1) }
    else some { s.print .threadsMade with main := .join 0 }
  | .join i =>
    if i < numThreads then
      match s.threads i with
      | some ⟨.exited value, _⟩ => some { s.print (.joined i value) with main := .join (i + 1) }
      | _ => none
    else some { s with main := .returned }
  | .returned => none

/-- do_thread, apart from the return of `waitpid`; the fork succeeds. -/
def doThread (s : State) (i : Nat) (T : Thread) : Option State :=
  match T.pc with
  | .start => some ((s.print (.inThread i (i + 2))).setThread i { T with pc := .forkTest 0 })
  | .forkTest forkno =>
    if forkno < i + 2 then
      some ((s.setKid i forkno .born).setThread i ⟨.forkTest (forkno + 1), some forkno⟩)
    else some (s.setThread i { T with pc := .made })
  | .made => some ((s.print (.madeAll i)).setThread i { T with pc := .wait })
  | .wait => none
  | .status status =>
    match T.cpid with
    | some forkno =>
      some ((s.print (.saw i forkno status)).setThread i
        { T with pc := if status.final then .finish else .wait })
    | none => none
  | .finish => some (s.setThread i { T with pc := .exited i })
  | .exited _ => none

/-- `waitpid(cpid, ...)` returns. If there is nothing left to wait for it fails, and the loop
is left. -/
def waitpid (s : State) (i : Nat) (T : Thread) : Option State :=
  match T.pc, T.cpid with
  | .wait, some forkno =>
    match s.kids i forkno with
    | some K =>
      match K.report with
      | some status => some ((s.setKid i forkno K.reap).setThread i { T with pc := .status status })
      | none => if K.terminated then some (s.setThread i { T with pc := .finish }) else none
    | none => some (s.setThread i { T with pc := .finish })
  | _, _ => none

/-- The branch of the child. -/
def kidStep (s : State) (i forkno : Nat) (K : Kid) : Option State :=
  if K.life = .running then
    match K.pc with
    | .announce => some ((s.print (.child forkno i)).setKid i forkno { K with pc := .asleep })
    | .asleep => some ((s.print (.childDone forkno i)).setKid i forkno { K with pc := .exit })
    | .exit => some (s.setKid i forkno (K.end (exitStatus forkno)))
  else none

inductive Act where
  | main
  | thread (i : Nat)
  | waitpid (i : Nat)
  | kid (i forkno : Nat)
  | stop (i forkno signal : Nat)
  | cont (i forkno : Nat)
  | kill (i forkno signal : Nat)

def step (numThreads : Nat) (s : State) : Act → Option State
  | .main => mainStep numThreads s
  | .thread i => (s.threads i).bind (doThread s i)
  | .waitpid i => (s.threads i).bind (waitpid s i)
  | .kid i forkno => (s.kids i forkno).bind (kidStep s i forkno)
  | .stop i forkno signal => (s.kids i forkno).bind fun K =>
      if K.life = .running then
        some (s.setKid i forkno { K with life := .stopped, report := some (.stopped signal) })
      else none
  | .cont i forkno => (s.kids i forkno).bind fun K =>
      if K.life = .stopped then
        some (s.setKid i forkno { K with life := .running, report := some .continued })
      else none
  | .kill i forkno signal => (s.kids i forkno).bind fun K =>
      if K.terminated then none else some (s.setKid i forkno (K.end (.killed signal)))

/-- Any interleaving of main, the threads and the children, with signals for the children. -/
def processesgalore (numThreads : Nat) : System State Act where
  init s := s = .initial
  step := step numThreads

/-- What thread `i` has printed about children. -/
def Line.sawBy (i : Nat) : Line → Option (Nat × Status)
  | .saw thread forkno status => if thread = i then some (forkno, status) else none
  | _ => none

def Line.joinedWith : Line → Option (Nat × Nat)
  | .joined i value => some (i, value)
  | _ => none

def State.saw (s : State) (i : Nat) : List (Nat × Status) := s.out.filterMap (Line.sawBy i)

def State.joined (s : State) : List (Nat × Nat) := s.out.filterMap Line.joinedWith

/-! ### The invariant -/

/-- The first `n` children have been made. -/
def Made (n : Nat) (kids : Nat → Option Kid) : Prop := ∀ k, (kids k).isSome = true ↔ k < n

def Unreaped (kids : Nat → Option Kid) : Prop := ∀ k K, kids k = some K → K.reaped = false

/-- Of the children of thread `i`, the last one has ended in this way and has been waited for,
and it is the only one. -/
structure Collected (i : Nat) (status : Status) (kids : Nat → Option Kid) : Prop where
  last : ∃ K, kids (i + 1) = some K ∧ K.life = .ended status ∧ K.reaped = true
  others : ∀ k K, k ≠ i + 1 → kids k = some K → K.reaped = false

/-- Thread `i` has told of stops and continuations of its last child. -/
def ToldPassing (i : Nat) (saw : List (Nat × Status)) : Prop :=
  ∃ passing : List Status, (∀ e ∈ passing, e.final = false) ∧ saw = passing.map (Prod.mk (i + 1))

/-- Thread `i` has told everything up to the end of its last child. -/
def ToldAll (i : Nat) (kids : Nat → Option Kid) (saw : List (Nat × Status)) : Prop :=
  ∃ (passing : List Status) (last : Status), (∀ e ∈ passing, e.final = false) ∧
    Collected i last kids ∧ saw = (passing ++ [last]).map (Prod.mk (i + 1))

def ThreadInv (i : Nat) (T : Thread) (kids : Nat → Option Kid) (saw : List (Nat × Status)) : Prop :=
  match T.pc with
  | .start => Made 0 kids ∧ saw = []
  | .forkTest forkno => forkno ≤ i + 2 ∧ Made forkno kids ∧ Unreaped kids ∧
      (∀ k, forkno = k + 1 → T.cpid = some k) ∧ saw = []
  | .made => Made (i + 2) kids ∧ Unreaped kids ∧ T.cpid = some (i + 1) ∧ saw = []
  | .wait => Made (i + 2) kids ∧ Unreaped kids ∧ T.cpid = some (i + 1) ∧ ToldPassing i saw
  | .status status => Made (i + 2) kids ∧ T.cpid = some (i + 1) ∧ ToldPassing i saw ∧
      if status.final then Collected i status kids else Unreaped kids
  | .finish => Made (i + 2) kids ∧ ToldAll i kids saw
  | .exited value => value = i ∧ Made (i + 2) kids ∧ ToldAll i kids saw

def ThreadsInv (i : Nat) (T : Option Thread) (kids : Nat → Option Kid)
    (saw : List (Nat × Status)) : Prop :=
  match T with
  | none => Made 0 kids ∧ saw = []
  | some T => ThreadInv i T kids saw

/-- Reports and ends belong together; a child that exits does so with its own number. -/
structure KidInv (k : Nat) (K : Kid) : Prop where
  reported : ∀ e, K.report = some e → e.final = true → K.life = .ended e
  ended : ∀ e, K.life = .ended e → e.final = true ∧ (K.report = none ∨ K.report = some e)
  exited : ∀ st, K.life = .ended (.exited st) → st = k % 256

def MainInv (n : Nat) (main : MainPc) (threads : Nat → Option Thread) (joined : List (Nat × Nat)) :
    Prop :=
  match main with
  | .create i => i ≤ n ∧ (∀ j, (threads j).isSome = true ↔ j < i) ∧ joined = []
  | .join i => i ≤ n ∧ (∀ j, (threads j).isSome = true ↔ j < n) ∧
      (∀ j < i, ∃ cpid, threads j = some ⟨.exited j, cpid⟩) ∧
      joined = (List.range i).map fun j => (j, j)
  | .returned => (∀ j, (threads j).isSome = true ↔ j < n) ∧
      (∀ j < n, ∃ cpid, threads j = some ⟨.exited j, cpid⟩) ∧
      joined = (List.range n).map fun j => (j, j)

structure Inv (n : Nat) (s : State) : Prop where
  threads : ∀ i, ThreadsInv i (s.threads i) (s.kids i) (s.saw i)
  kids : ∀ i k K, s.kids i k = some K → KidInv k K
  main : MainInv n s.main s.threads s.joined

theorem inv_initial (n : Nat) : Inv n .initial :=
  ⟨fun _ => ⟨fun k => by simp [State.initial], rfl⟩, nofun,
    ⟨Nat.zero_le n, fun j => by simp [State.initial], rfl⟩⟩

/-! ### Changes of one child -/

section Kids

variable {i k : Nat} {K K' : Kid} {kids : Nat → Option Kid}

theorem Made.update {n : Nat} (h : Made n kids) (kid : kids k = some K) :
    Made n (Function.update kids k (some K')) := by
  intro j
  by_cases same : j = k
  · subst same
    rw [Function.update_self, ← h j, kid]
    rfl
  · rw [Function.update_of_ne same]
    exact h j

theorem Unreaped.update (h : Unreaped kids) (unreaped : K'.reaped = false) :
    Unreaped (Function.update kids k (some K')) := by
  intro j L there
  by_cases same : j = k
  · subst same
    rw [Function.update_self] at there
    cases there
    exact unreaped
  · rw [Function.update_of_ne same] at there
    exact h j L there

/-- A child that is alive is not the one that has been collected. -/
theorem Collected.update {status : Status} (h : Collected i status kids) (kid : kids k = some K)
    (alive : K.terminated = false) (unreaped : K'.reaped = false) :
    Collected i status (Function.update kids k (some K')) := by
  obtain ⟨⟨L, there, ended, reaped⟩, others⟩ := h
  have other : k ≠ i + 1 := by
    rintro rfl
    cases Option.some.inj (kid.symm.trans there)
    rw [Kid.reaped, alive] at reaped
    cases reaped
  refine ⟨⟨L, by rw [Function.update_of_ne other.symm]; exact there, ended, reaped⟩, ?_⟩
  intro j M outer there
  by_cases same : j = k
  · subst same
    rw [Function.update_self] at there
    cases there
    exact unreaped
  · rw [Function.update_of_ne same] at there
    exact others j M outer there

/-- What happens to a child that is alive keeps the invariant of its thread. -/
theorem ThreadsInv.kid {T : Option Thread} {saw : List (Nat × Status)}
    (h : ThreadsInv i T kids saw) (kid : kids k = some K) (alive : K.terminated = false)
    (unreaped : K'.reaped = false) :
    ThreadsInv i T (Function.update kids k (some K')) saw := by
  cases T with
  | none => exact ⟨h.1.update kid, h.2⟩
  | some T =>
    obtain ⟨pc, cpid⟩ := T
    cases pc with
    | start => exact ⟨h.1.update kid, h.2⟩
    | forkTest forkno => exact ⟨h.1, h.2.1.update kid, h.2.2.1.update unreaped, h.2.2.2⟩
    | made => exact ⟨h.1.update kid, h.2.1.update unreaped, h.2.2⟩
    | wait => exact ⟨h.1.update kid, h.2.1.update unreaped, h.2.2⟩
    | status status =>
      obtain ⟨made, cpid, told, rest⟩ := h
      refine ⟨made.update kid, cpid, told, ?_⟩
      split at rest
      next final =>
        rw [if_pos final]
        exact rest.update kid alive unreaped
      next passing =>
        rw [if_neg passing]
        exact rest.update unreaped
    | finish =>
      obtain ⟨made, passing, last, pass, collected, told⟩ := h
      exact ⟨made.update kid, passing, last, pass, collected.update kid alive unreaped, told⟩
    | exited value =>
      obtain ⟨own, made, passing, last, pass, collected, told⟩ := h
      exact ⟨own, made.update kid, passing, last, pass, collected.update kid alive unreaped, told⟩

theorem KidInv.end (K : Kid) (status : Status) (final : status.final = true)
    (own : ∀ st, status = .exited st → st = k % 256) : KidInv k (K.end status) := by
  refine ⟨?_, ?_, ?_⟩
  · intro e report _
    cases report
    rfl
  · intro e life
    cases life
    exact ⟨final, .inr rfl⟩
  · intro st life
    exact own st (by injection life)

/-- A child that is alive has at most a stop or a continuation to report. -/
theorem KidInv.alive (K : Kid) (alive : ∀ e, K.life ≠ .ended e)
    (passing : ∀ e, K.report = some e → e.final = false) : KidInv k K := by
  refine ⟨?_, fun e life => absurd life (alive e), fun st life => absurd life (alive _)⟩
  intro e report final
  rw [passing e report] at final
  cases final

end Kids

/-! ### The steps -/

theorem State.saw_print (s : State) (line : Line) (i : Nat) :
    (s.print line).saw i = s.saw i ++ (line.sawBy i).toList := by
  simp only [State.saw, State.print, List.filterMap_append, List.filterMap_cons, List.filterMap_nil]
  cases line.sawBy i <;> rfl

theorem State.joined_print (s : State) (line : Line) :
    (s.print line).joined = s.joined ++ line.joinedWith.toList := by
  simp only [State.joined, State.print, List.filterMap_append, List.filterMap_cons,
    List.filterMap_nil]
  cases line.joinedWith <;> rfl

section Steps

variable {n : Nat} {s t : State}

/-- A line that is neither about a child nor about a join. -/
theorem Inv.print (h : Inv n s) (line : Line) (saw : ∀ i, line.sawBy i = none)
    (joined : line.joinedWith = none) : Inv n (s.print line) := by
  refine ⟨fun i => ?_, h.kids, ?_⟩
  · rw [State.saw_print, saw i, Option.toList_none, List.append_nil]
    exact h.threads i
  · rw [State.joined_print, joined, Option.toList_none, List.append_nil]
    exact h.main

theorem Inv.setKid (h : Inv n s) {i k : Nat} {K K' : Kid} (kid : s.kids i k = some K)
    (alive : K.terminated = false) (unreaped : K'.reaped = false) (inv : KidInv k K') :
    Inv n (s.setKid i k K') := by
  refine ⟨fun j => ?_, fun j l L there => ?_, h.main⟩
  · by_cases same : j = i
    · subst same
      simp only [State.setKid, Function.update_self]
      exact (h.threads j).kid kid alive unreaped
    · simp only [State.setKid, Function.update_of_ne same]
      exact h.threads j
  · by_cases same : j = i
    · subst same
      simp only [State.setKid, Function.update_self] at there
      by_cases this_kid : l = k
      · subst this_kid
        rw [Function.update_self] at there
        cases there
        exact inv
      · rw [Function.update_of_ne this_kid] at there
        exact h.kids j l L there
    · simp only [State.setKid, Function.update_of_ne same] at there
      exact h.kids j l L there

theorem MainInv.setThread {main : MainPc} {threads : Nat → Option Thread}
    {joined : List (Nat × Nat)} (h : MainInv n main threads joined) {i : Nat} {T T' : Thread}
    (present : threads i = some T) (runs : ∀ value, T.pc ≠ .exited value) :
    MainInv n main (Function.update threads i (some T')) joined := by
  have there (m : Nat) (made : ∀ j, (threads j).isSome = true ↔ j < m) (j : Nat) :
      (Function.update threads i (some T') j).isSome = true ↔ j < m := by
    by_cases same : j = i
    · subst same
      rw [Function.update_self, ← made j, present]
      rfl
    · rw [Function.update_of_ne same]
      exact made j
  -- a thread that has exited is another one
  have exited (j : Nat) (settled : ∃ cpid, threads j = some ⟨.exited j, cpid⟩) :
      ∃ cpid, Function.update threads i (some T') j = some ⟨.exited j, cpid⟩ := by
    obtain ⟨cpid, settled⟩ := settled
    have other : j ≠ i := by
      rintro rfl
      cases Option.some.inj (present.symm.trans settled)
      exact runs j rfl
    exact ⟨cpid, by rw [Function.update_of_ne other]; exact settled⟩
  cases main with
  | create m => exact ⟨h.1, there m h.2.1, h.2.2⟩
  | join m => exact ⟨h.1, there n h.2.1, fun j hj => exited j (h.2.2.1 j hj), h.2.2.2⟩
  | returned => exact ⟨there n h.1, fun j hj => exited j (h.2.1 j hj), h.2.2⟩

/-- A step of thread `i` changes the thread, its children and what it has printed. -/
theorem Inv.change (h : Inv n s) {i : Nat} {T T' : Thread} (present : s.threads i = some T)
    (runs : ∀ value, T.pc ≠ .exited value) (main : t.main = s.main) (joined : t.joined = s.joined)
    (threads : t.threads = Function.update s.threads i (some T'))
    (other : ∀ j, j ≠ i → t.kids j = s.kids j ∧ t.saw j = s.saw j)
    (own : ThreadInv i T' (t.kids i) (t.saw i)) (kids : ∀ k K, t.kids i k = some K → KidInv k K) :
    Inv n t := by
  refine ⟨fun j => ?_, fun j k K there => ?_, ?_⟩
  · by_cases same : j = i
    · subst same
      rw [threads, Function.update_self]
      exact own
    · rw [threads, Function.update_of_ne same, (other j same).1, (other j same).2]
      exact h.threads j
  · by_cases same : j = i
    · subst same
      exact kids k K there
    · rw [(other j same).1] at there
      exact h.kids j k K there
  · rw [main, joined, threads]
    exact h.main.setThread present runs

/-- The thread goes on, with a line that is not about a child. -/
theorem Inv.goto (h : Inv n s) {i : Nat} {T T' : Thread} (present : s.threads i = some T)
    (runs : ∀ value, T.pc ≠ .exited value) (own : ThreadInv i T' (s.kids i) (s.saw i)) :
    Inv n (s.setThread i T') :=
  h.change present runs rfl rfl rfl (fun _ _ => ⟨rfl, rfl⟩) own fun k K there => h.kids i k K there

theorem inv_fork (h : Inv n s) {i forkno : Nat} {cpid : Option Nat}
    (present : s.threads i = some ⟨.forkTest forkno, cpid⟩) (more : forkno < i + 2) :
    Inv n ((s.setKid i forkno .born).setThread i ⟨.forkTest (forkno + 1), some forkno⟩) := by
  have inv := h.threads i
  rw [present] at inv
  obtain ⟨-, made, unreaped, -, quiet⟩ := inv
  refine h.change present nofun rfl rfl rfl ?_ ?_ ?_
  · intro j other
    exact ⟨by simp only [State.setThread, State.setKid, Function.update_of_ne other], rfl⟩
  · simp only [State.setThread, State.setKid, Function.update_self]
    refine ⟨more, fun k => ?_, unreaped.update rfl, ?_, quiet⟩
    · by_cases same : k = forkno
      · subst same
        simp
      · rw [Function.update_of_ne same, made k]
        omega
    · intro k next
      rw [Nat.add_right_cancel next]
  · intro k K there
    simp only [State.setThread, State.setKid, Function.update_self] at there
    by_cases same : k = forkno
    · subst same
      rw [Function.update_self] at there
      cases there
      exact .alive .born nofun nofun
    · rw [Function.update_of_ne same] at there
      exact h.kids i k K there

theorem inv_saw (h : Inv n s) {i forkno : Nat} {status : Status}
    (present : s.threads i = some ⟨.status status, some forkno⟩) :
    Inv n ((s.print (.saw i forkno status)).setThread i
      ⟨if status.final then .finish else .wait, some forkno⟩) := by
  have inv := h.threads i
  rw [present] at inv
  obtain ⟨made, cpid, ⟨passing, pass, told⟩, rest⟩ := inv
  obtain rfl : forkno = i + 1 := Option.some.inj cpid
  have more : (s.print (.saw i (i + 1) status)).saw i = (passing ++ [status]).map (Prod.mk (i + 1)) := by
    rw [State.saw_print, told, List.map_append]
    simp [Line.sawBy]
  refine h.change present nofun rfl ?_ rfl ?_ ?_ fun k K there => h.kids i k K there
  · exact (State.joined_print _ _).trans (List.append_nil _)
  · intro j other
    refine ⟨rfl, (State.saw_print _ _ j).trans ?_⟩
    simp [Line.sawBy, other.symm]
  · change ThreadInv i _ (s.kids i) ((s.print (.saw i (i + 1) status)).saw i)
    rw [more]
    cases final : status.final with
    | true =>
      rw [final, if_pos rfl] at rest
      exact ⟨made, passing, status, pass, rest, rfl⟩
    | false =>
      rw [final, if_neg Bool.false_ne_true] at rest
      refine ⟨made, rest, rfl, passing ++ [status], ?_, rfl⟩
      intro e member
      rcases List.mem_append.mp member with old | new
      · exact pass e old
      · cases List.mem_singleton.mp new
        exact final

theorem inv_doThread (h : Inv n s) {i : Nat} {T : Thread} (present : s.threads i = some T)
    (moved : doThread s i T = some t) : Inv n t := by
  have inv := h.threads i
  rw [present] at inv
  obtain ⟨pc, cpid⟩ := T
  cases pc with
  | start =>
    cases moved
    have printed := h.print (.inThread i (i + 2)) (fun _ => rfl) rfl
    refine printed.goto present nofun ?_
    have quiet : (s.print (.inThread i (i + 2))).saw i = [] := by
      rw [State.saw_print, inv.2]
      rfl
    refine ⟨Nat.zero_le _, inv.1, fun k K there => ?_, nofun, quiet⟩
    have some_kid := (inv.1 k).mp (by rw [show s.kids i k = some K from there]; rfl)
    exact absurd some_kid (Nat.not_lt_zero k)
  | forkTest forkno =>
    simp only [doThread] at moved
    split at moved
    next more =>
      cases moved
      exact inv_fork h present more
    next all =>
      -- `cpid` holds the last child
      cases moved
      obtain ⟨most, made, unreaped, last, quiet⟩ := inv
      obtain rfl : forkno = i + 2 := by omega
      exact h.goto present nofun ⟨made, unreaped, last (i + 1) rfl, quiet⟩
  | made =>
    cases moved
    obtain ⟨made, unreaped, last, quiet⟩ := inv
    have printed := h.print (.madeAll i) (fun _ => rfl) rfl
    refine printed.goto present nofun ⟨made, unreaped, last, [], nofun, ?_⟩
    rw [State.saw_print, show s.saw i = [] from quiet]
    rfl
  | wait => cases moved
  | status status =>
    cases cpid with
    | none => cases moved
    | some forkno =>
      cases moved
      exact inv_saw h present
  | finish =>
    cases moved
    exact h.goto present nofun ⟨rfl, inv.1, inv.2⟩
  | exited value => cases moved

/-- `waitpid` never fails: the child it is about has not been waited for. -/
theorem inv_waitpid (h : Inv n s) {i : Nat} {T : Thread} (present : s.threads i = some T)
    (moved : waitpid s i T = some t) : Inv n t := by
  have inv := h.threads i
  rw [present] at inv
  obtain ⟨pc, cpid⟩ := T
  unfold waitpid at moved
  split at moved
  next forkno atWait here =>
    cases atWait
    cases here
    obtain ⟨made, unreaped, last, told⟩ := inv
    obtain rfl : forkno = i + 1 := Option.some.inj last
    obtain ⟨K, kid⟩ := Option.isSome_iff_exists.mp ((made (i + 1)).mpr (by omega))
    have sane := h.kids i (i + 1) K kid
    rw [kid] at moved
    simp only at moved
    split at moved
    next status report =>
      cases moved
      refine h.change present nofun rfl rfl rfl ?_ ?_ ?_
      · intro j other
        exact ⟨by simp only [State.setThread, State.setKid, Function.update_of_ne other], rfl⟩
      · simp only [State.setThread, State.setKid, Function.update_self]
        refine ⟨made.update kid, rfl, told, ?_⟩
        split
        next final =>
          have settled := sane.reported status report final
          refine ⟨⟨K.reap, Function.update_self _ _ _, settled, ?_⟩, fun k L other there => ?_⟩
          · simp [Kid.reap, Kid.reaped, Kid.terminated, settled]
          · rw [Function.update_of_ne other] at there
            exact unreaped k L there
        next passing =>
          -- the report was not the last one
          refine unreaped.update ?_
          cases life : K.life with
          | running => simp [Kid.reap, Kid.reaped, Kid.terminated, life]
          | stopped => simp [Kid.reap, Kid.reaped, Kid.terminated, life]
          | ended e =>
            obtain ⟨final, gone | same⟩ := sane.ended e life
            · rw [report] at gone
              cases gone
            · cases Option.some.inj (report.symm.trans same)
              exact absurd final passing
      · intro k L there
        simp only [State.setThread, State.setKid, Function.update_self] at there
        by_cases same : k = i + 1
        · subst same
          rw [Function.update_self] at there
          cases there
          exact ⟨nofun, fun e life => ⟨(sane.ended e life).1, .inl rfl⟩, sane.exited⟩
        · rw [Function.update_of_ne same] at there
          exact h.kids i k L there
    next silent =>
      split at moved
      next terminated =>
        have open_end := unreaped (i + 1) K kid
        simp [Kid.reaped, terminated, silent] at open_end
      next => cases moved
  next => cases moved

theorem terminated_of_life {K : Kid} (alive : ∀ e, K.life ≠ .ended e) : K.terminated = false := by
  unfold Kid.terminated
  split
  next e life => exact absurd life (alive e)
  next => rfl
  next => rfl

theorem unreaped_of_alive {K : Kid} (alive : K.terminated = false) : K.reaped = false := by
  rw [Kid.reaped, alive, Bool.false_and]

/-- A child that runs on has nothing new to report. -/
theorem Inv.kidRuns (h : Inv n s) {i k : Nat} {K : Kid} (kid : s.kids i k = some K)
    (running : K.life = .running) (pc : KidPc) : Inv n (s.setKid i k { K with pc := pc }) := by
  have alive : K.terminated = false := terminated_of_life (by rw [running]; exact nofun)
  have old := h.kids i k K kid
  exact h.setKid kid alive (unreaped_of_alive alive) ⟨old.reported, old.ended, old.exited⟩

theorem inv_kidStep (h : Inv n s) {i k : Nat} {K : Kid} (kid : s.kids i k = some K)
    (moved : kidStep s i k K = some t) : Inv n t := by
  unfold kidStep at moved
  split at moved
  next running =>
    split at moved
    · cases moved
      exact (h.print (.child k i) (fun _ => rfl) rfl).kidRuns kid running .asleep
    · cases moved
      exact (h.print (.childDone k i) (fun _ => rfl) rfl).kidRuns kid running .exit
    · cases moved
      have alive : K.terminated = false := terminated_of_life (by rw [running]; exact nofun)
      refine h.setKid kid alive (Bool.and_false _) (.end K _ rfl fun st same => ?_)
      cases same
      omega
  next => cases moved

theorem inv_mainStep (h : Inv n s) (moved : mainStep n s = some t) : Inv n t := by
  obtain ⟨threads, kids, main⟩ := h
  unfold mainStep at moved
  split at moved
  next i pc =>
    rw [pc] at main
    obtain ⟨most, made, none_joined⟩ := main
    split at moved
    next more =>
      cases moved
      have absent : s.threads i = none := by
        have not_made := (made i).not.mpr (Nat.lt_irrefl i)
        simpa using not_made
      refine ⟨fun j => ?_, kids, more, fun j => ?_, none_joined⟩
      · by_cases same : j = i
        · subst same
          have nothing := threads j
          rw [absent] at nothing
          simp only [State.setThread, Function.update_self]
          exact nothing
        · simp only [State.setThread, Function.update_of_ne same]
          exact threads j
      · by_cases same : j = i
        · subst same
          simp [State.setThread]
        · simp only [State.setThread, Function.update_of_ne same]
          rw [made j]
          omega
    next all =>
      cases moved
      obtain rfl : i = n := by omega
      have printed : Inv i (s.print .threadsMade) :=
        Inv.print ⟨threads, kids, by rw [pc]; exact ⟨most, made, none_joined⟩⟩ _ (fun _ => rfl) rfl
      refine ⟨printed.threads, printed.kids, Nat.zero_le i, made, nofun, ?_⟩
      exact (State.joined_print _ _).trans (by rw [none_joined]; rfl)
  next i pc =>
    rw [pc] at main
    obtain ⟨most, made, exited, lines⟩ := main
    split at moved
    next more =>
      split at moved
      next value cpid settled =>
        cases moved
        have own := threads i
        rw [settled] at own
        obtain ⟨rfl, -⟩ := own
        refine ⟨fun j => ?_, kids, more, made, fun j hj => ?_, ?_⟩
        · have quiet : (s.print (.joined value value)).saw j = s.saw j :=
            (State.saw_print _ _ j).trans (List.append_nil _)
          exact quiet ▸ threads j
        · by_cases same : j = value
          · subst same
            exact ⟨cpid, settled⟩
          · exact exited j (by omega)
        · refine (State.joined_print _ _).trans ?_
          rw [lines, List.range_succ, List.map_append]
          rfl
      next => cases moved
    next all =>
      cases moved
      obtain rfl : i = n := by omega
      exact ⟨threads, kids, made, exited, lines⟩
  next => cases moved

theorem inv_step (h : Inv n s) {a : Act} (moved : step n s a = some t) : Inv n t := by
  cases a with
  | main => exact inv_mainStep h moved
  | thread i =>
    obtain ⟨T, present, moved⟩ := Option.bind_eq_some_iff.mp moved
    exact inv_doThread h present moved
  | waitpid i =>
    obtain ⟨T, present, moved⟩ := Option.bind_eq_some_iff.mp moved
    exact inv_waitpid h present moved
  | kid i forkno =>
    obtain ⟨K, kid, moved⟩ := Option.bind_eq_some_iff.mp moved
    exact inv_kidStep h kid moved
  | stop i forkno signal =>
    obtain ⟨K, kid, moved⟩ := Option.bind_eq_some_iff.mp moved
    split at moved
    next running =>
      cases moved
      refine h.setKid kid (terminated_of_life (by rw [running]; exact nofun)) (Bool.and_false _) ?_
      refine .alive _ nofun fun e report => ?_
      cases report
      rfl
    next => cases moved
  | cont i forkno =>
    obtain ⟨K, kid, moved⟩ := Option.bind_eq_some_iff.mp moved
    split at moved
    next stopped =>
      cases moved
      refine h.setKid kid (terminated_of_life (by rw [stopped]; exact nofun)) rfl ?_
      refine .alive _ nofun fun e report => ?_
      cases report
      rfl
    next => cases moved
  | kill i forkno signal =>
    obtain ⟨K, kid, moved⟩ := Option.bind_eq_some_iff.mp moved
    split at moved
    next => cases moved
    next alive =>
      cases moved
      exact h.setKid kid (by simpa using alive) (Bool.and_false _) (.end K _ rfl nofun)

theorem inv_reachable (n : Nat) (s : State) (h : (processesgalore n).Reachable s) : Inv n s := by
  refine (processesgalore n).reachable_invariant (Inv n) ?_ (fun s a t inv moved =>
    inv_step inv moved) s h
  rintro s rfl
  exact inv_initial n

end Steps

end GenericTests.Forks.Processesgalore
