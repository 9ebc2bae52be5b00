import GenericTests.Lib.CString
import GenericTests.Lib.ProcessTree
import Mathlib.Logic.Relation

/-!
# Families of processes that print

`printf` puts its text behind what waits in the buffer of the stream, and the library
passes on to the kernel as much of the buffer as it likes. `fork` copies the buffer, `exit`
flushes it, and a signal, `execve` or `_exit` loses it.

A program is the tree of what it has left to do. What a process prints is then read off its
own tree: the other processes matter only for what `waitpid` reports.
-/
namespace GenericTests.Stdio

open GenericTests.CString GenericTests.Processes GenericTests.Transition

/-! ### Streams -/

structure Stream where
  buffer : List Byte
  /-- what this process has passed on -/
  written : List Byte

def Stream.empty : Stream := ⟨[], []⟩

/-- How many bytes of the buffer the library passes on after a call of `printf`. -/
abbrev Policy := List Byte → Nat

def Stream.printf (policy : Policy) (s : Stream) (text : List Byte) : Stream :=
  let waiting := s.buffer ++ text
  ⟨waiting.drop (policy waiting), s.written ++ waiting.take (policy waiting)⟩

def Stream.fflush (s : Stream) : Stream := ⟨[], s.written ++ s.buffer⟩

/-- The stream of a child. -/
def Stream.copy (s : Stream) : Stream := ⟨s.buffer, []⟩

def Stream.all (s : Stream) : List Byte := s.written ++ s.buffer

/-- A terminal gets every line as soon as it is complete. -/
def lineBuffered : Policy := fun waiting =>
  waiting.length - (waiting.reverse.takeWhile fun b => decide (b ≠ 10)).length

/-- A pipe or a file gets nothing before the buffer is full. -/
def fullyBuffered (size : Nat) : Policy := fun waiting => waiting.length / size * size

theorem Stream.all_printf (policy : Policy) (s : Stream) (text : List Byte) :
    (s.printf policy text).all = s.all ++ text := by
  simp only [Stream.all, Stream.printf, List.append_assoc, List.take_append_drop]

theorem Stream.all_fflush (s : Stream) : s.fflush.all = s.all := by
  simp only [Stream.all, Stream.fflush, List.append_nil]

/-- A flush makes up for whatever the library has kept back. -/
theorem Stream.fflush_printf (policy : Policy) (s : Stream) (text : List Byte) :
    (s.printf policy text).fflush = ⟨[], s.all ++ text⟩ := by
  rw [← s.all_printf policy text]
  rfl

/-- Complete lines do not wait for a terminal. -/
theorem Stream.buffer_lineBuffered (s : Stream) (line : List Byte) :
    (s.printf lineBuffered (line ++ [10])).buffer = [] := by
  simp [Stream.printf, lineBuffered]

/-- A text that does not fill the buffer stays there. -/
theorem Stream.buffer_fullyBuffered (s : Stream) (size : Nat) (text : List Byte)
    (short : (s.buffer ++ text).length < size) :
    (s.printf (fullyBuffered size) text).buffer = s.buffer ++ text := by
  have no_block : fullyBuffered size (s.buffer ++ text) = 0 := by
    rw [fullyBuffered, Nat.div_eq_of_lt short, Nat.zero_mul]
  simp only [Stream.printf, no_block, List.drop_zero]

/-! ### Programs -/

variable {μ : Type}

/-- The rest of a program; `μ` is the memory of the process. -/
inductive Code (μ : Type) where
  | printf (text : μ → List Byte) (k : Code μ)
  | fflush (k : Code μ)
  | assign (f : μ → μ) (k : Code μ)
  | fork (child : Code μ) (parent : Pid → Code μ)
  | execve (failed : Code μ)
  | waitpid (target : Target) (k : Status → Code μ) (failed : Code μ)
  /-- `waitpid` until the status is one of a child that has terminated, with the text for each
  status -/
  | waitLoop (target : Target) (text : Status → List Byte) (k failed : Code μ)
  | exit (status : Int)
  /-- `_exit` -/
  | quit (status : Int)

/-- The process itself never calls `_exit`. -/
def Code.flushes : Code μ → Prop
  | .printf _ k | .fflush k | .assign _ k | .execve k => k.flushes
  | .fork _ parent => ∀ pid, (parent pid).flushes
  | .waitpid _ k failed => (∀ status, (k status).flushes) ∧ failed.flushes
  | .waitLoop _ _ k failed => k.flushes ∧ failed.flushes
  | .exit _ => True
  | .quit _ => False

structure Image (μ : Type) where
  code : Code μ
  mem : μ
  stdout : Stream
  /-- what `waitpid` has told this process -/
  reports : List Status
  /-- `exit` has been called and has flushed the stream, or `_exit` has been called -/
  finished : Option Int

def Image.start (main : Code μ) (m : μ) : Image μ := ⟨main, m, .empty, [], none⟩

def Image.told (c : Image μ) (status : Status) (k : Code μ) : Image μ :=
  { c with code := k, reports := c.reports ++ [status] }

def nextCode (policy : Policy) (c : Image μ) : Code μ → Action (Image μ)
  | .printf text k => .goto { c with code := k, stdout := c.stdout.printf policy (text c.mem) }
  | .fflush k => .goto { c with code := k, stdout := c.stdout.fflush }
  | .assign f k => .goto { c with code := k, mem := f c.mem }
  | .fork child parent =>
    .fork { c with code := child, stdout := c.stdout.copy, reports := [] } fun pid =>
      { c with code := parent pid }
  | .execve failed => .execve { c with code := failed }
  | .waitpid target k failed =>
    .waitpid target (fun status => c.told status (k status)) { c with code := failed }
  | .waitLoop target text k failed =>
    .waitpid target
      (fun status => c.told status (.printf (fun _ => text status)
        (if status.final then k else .waitLoop target text k failed)))
      { c with code := failed }
  | .exit status => .goto { c with stdout := c.stdout.fflush, finished := some status }
  | .quit status => .goto { c with finished := some status }

def next (policy : Policy) (c : Image μ) : Action (Image μ) :=
  match c.finished with
  | some status => .exit status
  | none => nextCode policy c c.code

def program (policy : Policy) (exec : Pid → Bool) (main : Code μ) (m : μ) :
    System (Table (Image μ)) Act :=
  family (next policy) exec (.start main m)

/-! ### What one process does -/

/-- The steps of a process `p` with `n` children, as far as they concern itself. `waitpid`
fails if none of the children is meant or if the end of one has been reported. -/
inductive LocalStep (policy : Policy) (exec : Pid → Bool) (p : Pid) : Nat × Image μ → Nat × Image μ → Prop
  | goto (n : Nat) (c c' : Image μ) (does : next policy c = .goto c') :
      LocalStep policy exec p (n, c) (n, c')
  | fork (n : Nat) (c child : Image μ) (parent : Pid → Image μ)
      (does : next policy c = .fork child parent) :
      LocalStep policy exec p (n, c) (n + 1, parent (n :: p))
  | execFailed (n : Nat) (c failed : Image μ) (does : next policy c = .execve failed)
      (fails : exec p = false) :
      LocalStep policy exec p (n, c) (n, failed)
  | reported (n : Nat) (c failed : Image μ) (target : Target) (reported : Status → Image μ)
      (status : Status) (does : next policy c = .waitpid target reported failed)
      (covered : ∃ k < n, target.covers (k :: p) = true) :
      LocalStep policy exec p (n, c) (n, reported status)
  | noChild (n : Nat) (c failed : Image μ) (target : Target) (reported : Status → Image μ)
      (does : next policy c = .waitpid target reported failed)
      (settled : (∃ k < n, target.covers (k :: p) = true) → ∃ e ∈ c.reports, e.final = true) :
      LocalStep policy exec p (n, c) (n, failed)

abbrev Path (policy : Policy) (exec : Pid → Bool) (p : Pid) : Nat × Image μ → Nat × Image μ → Prop :=
  Relation.ReflTransGen (LocalStep policy exec p)

/-- Where a process starts: the first one at `main`, a child at the fork its parent comes to. -/
inductive Origin (policy : Policy) (exec : Pid → Bool) (start : Image μ) : Pid → Image μ → Prop
  | first : Origin policy exec start [] start
  | child (p : Pid) (n : Nat) (c₀ c child : Image μ) (parent : Pid → Image μ)
      (origin : Origin policy exec start p c₀) (path : Path policy exec p (0, c₀) (n, c))
      (does : next policy c = .fork child parent) : Origin policy exec start (n :: p) child

/-- Process `p` with `n` children, of which `rs` has been reported, prints `o` from here on and
exits with `st`; `rs'` are all the reports then. -/
inductive Prints (exec : Pid → Bool) (p : Pid) : Nat → List Status → Code μ → μ → List Byte → List Status → Int → Prop
  | printf (n rs text k m o rs' st) (rest : Prints exec p n rs k m o rs' st) :
      Prints exec p n rs (.printf text k) m (text m ++ o) rs' st
  | fflush (n rs k m o rs' st) (rest : Prints exec p n rs k m o rs' st) :
      Prints exec p n rs (.fflush k) m o rs' st
  | assign (n rs f k m o rs' st) (rest : Prints exec p n rs k (f m) o rs' st) :
      Prints exec p n rs (.assign f k) m o rs' st
  | fork (n rs child parent m o rs' st) (rest : Prints exec p (n + 1) rs (parent (n :: p)) m o rs' st) :
      Prints exec p n rs (.fork child parent) m o rs' st
  | execFailed (n rs failed m o rs' st) (fails : exec p = false)
      (rest : Prints exec p n rs failed m o rs' st) :
      Prints exec p n rs (.execve failed) m o rs' st
  | waitpid (n rs target k failed m status o rs' st)
      (covered : ∃ k < n, target.covers (k :: p) = true)
      (rest : Prints exec p n (rs ++ [status]) (k status) m o rs' st) :
      Prints exec p n rs (.waitpid target k failed) m o rs' st
  | noChild (n rs target k failed m o rs' st)
      (settled : (∃ k < n, target.covers (k :: p) = true) → ∃ e ∈ rs, e.final = true)
      (rest : Prints exec p n rs failed m o rs' st) : Prints exec p n rs (.waitpid target k failed) m o rs' st
  | waitLoop (n rs target text k failed m status o rs' st)
      (covered : ∃ k < n, target.covers (k :: p) = true)
      (rest : Prints exec p n (rs ++ [status]) (if status.final then k else .waitLoop target text k failed)
        m o rs' st) :
      Prints exec p n rs (.waitLoop target text k failed) m (text status ++ o) rs' st
  | loopNoChild (n rs target text k failed m o rs' st)
      (settled : (∃ k < n, target.covers (k :: p) = true) → ∃ e ∈ rs, e.final = true)
      (rest : Prints exec p n rs failed m o rs' st) :
      Prints exec p n rs (.waitLoop target text k failed) m o rs' st
  | exit (n rs m st) : Prints exec p n rs (.exit st) m [] rs st

/-- The same from the image of a process. -/
inductive Image.Ends (exec : Pid → Bool) (p : Pid) (n : Nat) (c : Image μ) (o : List Byte) (rs : List Status)
    (st : Int) : Prop
  | runs (running : c.finished = none) (prints : Prints exec p n c.reports c.code c.mem o rs st) :
      Image.Ends exec p n c o rs st
  | finished (finished : c.finished = some st) (reports : c.reports = rs) (quiet : o = []) :
      Image.Ends exec p n c o rs st

section Steps

variable {policy : Policy} {exec : Pid → Bool} {p : Pid} {c : Image μ}

theorem next_of_code {code : Code μ} (running : c.finished = none) (here : c.code = code) :
    next policy c = nextCode policy c code := by
  rw [next, running, here]

theorem next_running {a : Action (Image μ)} (does : next policy c = a)
    (goes : ∀ status, a ≠ .exit status) :
    c.finished = none ∧ nextCode policy c c.code = a := by
  unfold next at does
  split at does
  next status finished => exact absurd does.symm (goes status)
  next running => exact ⟨running, does⟩

theorem next_exit {status : Int} (does : next policy c = .exit status) :
    c.finished = some status := by
  unfold next at does
  split at does
  next status' finished =>
    cases does
    exact finished
  next running =>
    obtain ⟨code, mem, stdout, reports, finished⟩ := c
    cases code <;> cases does

theorem goto_ends {c' : Image μ} {n : Nat} {o : List Byte} {rs : List Status} {st : Int}
    (flushes : c.code.flushes) (does : next policy c = .goto c') (ends : c'.Ends exec p n o rs st) :
    ∃ done, c'.stdout.all = c.stdout.all ++ done ∧ c.Ends exec p n (done ++ o) rs st := by
  obtain ⟨running, code⟩ := next_running does nofun
  obtain ⟨code', mem, stdout, reports, finished⟩ := c
  cases running
  cases code' with
  | printf text k =>
    cases code
    cases ends with
    | runs _ prints => exact ⟨_, stdout.all_printf policy _, .runs rfl (.printf _ _ _ _ _ _ _ _ prints)⟩
    | finished finished => cases finished
  | fflush k =>
    cases code
    cases ends with
    | runs _ prints =>
      exact ⟨[], by rw [stdout.all_fflush, List.append_nil], .runs rfl (.fflush _ _ _ _ _ _ _ prints)⟩
    | finished finished => cases finished
  | assign f k =>
    cases code
    cases ends with
    | runs _ prints => exact ⟨[], (List.append_nil _).symm, .runs rfl (.assign _ _ _ _ _ _ _ _ prints)⟩
    | finished finished => cases finished
  | exit status =>
    cases code
    cases ends with
    | runs running => cases running
    | finished finished reports quiet =>
      cases finished
      subst reports quiet
      exact ⟨[], by rw [stdout.all_fflush, List.append_nil], .runs rfl (.exit _ _ _ _)⟩
  | quit status => exact flushes.elim
  | fork child parent => cases code
  | execve failed => cases code
  | waitpid target k failed => cases code
  | waitLoop target text k failed => cases code

/-- A state with the same stream that has not finished. -/
theorem Image.Ends.prints {n : Nat} {o : List Byte} {rs : List Status} {st : Int}
    (ends : c.Ends exec p n o rs st) (running : c.finished = none) :
    Prints exec p n c.reports c.code c.mem o rs st := by
  cases ends with
  | runs _ prints => exact prints
  | finished finished =>
    rw [running] at finished
    cases finished

theorem LocalStep.ends {a b : Nat × Image μ} {o : List Byte} {rs : List Status} {st : Int}
    (step : LocalStep policy exec p a b) (flushes : a.2.code.flushes)
    (ends : b.2.Ends exec p b.1 o rs st) :
    ∃ done, b.2.stdout.all = a.2.stdout.all ++ done ∧ a.2.Ends exec p a.1 (done ++ o) rs st := by
  cases step with
  | goto n c c' does => exact goto_ends flushes does ends
  | fork n c child parent does =>
    obtain ⟨running, code⟩ := next_running does nofun
    obtain ⟨code', mem, stdout, reports, finished⟩ := c
    cases running
    cases code' <;> cases code
    exact ⟨[], (List.append_nil _).symm, .runs rfl (.fork _ _ _ _ _ _ _ _ (ends.prints rfl))⟩
  | execFailed n c failed does fails =>
    obtain ⟨running, code⟩ := next_running does nofun
    obtain ⟨code', mem, stdout, reports, finished⟩ := c
    cases running
    cases code' <;> cases code
    exact ⟨[], (List.append_nil _).symm, .runs rfl (.execFailed _ _ _ _ _ _ _ fails (ends.prints rfl))⟩
  | reported n c failed target reported status does covered =>
    obtain ⟨running, code⟩ := next_running does nofun
    obtain ⟨code', mem, stdout, reports, finished⟩ := c
    cases running
    cases code' with
    | waitpid target' k failed' =>
      cases code
      exact ⟨[], (List.append_nil _).symm,
        .runs rfl (.waitpid _ _ _ _ _ _ status _ _ _ covered (ends.prints rfl))⟩
    | waitLoop target' text k failed' =>
      -- the text of the status is printed by the next step
      cases code
      have prints := ends.prints rfl
      cases prints with
      | printf _ _ _ _ _ o _ _ rest =>
        exact ⟨[], (List.append_nil _).symm,
          .runs rfl (.waitLoop _ _ _ _ _ _ _ status _ _ _ covered rest)⟩
    | printf text k => cases code
    | fflush k => cases code
    | assign f k => cases code
    | fork child parent => cases code
    | execve failed => cases code
    | exit status => cases code
    | quit status => cases code
  | noChild n c failed target reported does settled =>
    obtain ⟨running, code⟩ := next_running does nofun
    obtain ⟨code', mem, stdout, reports, finished⟩ := c
    cases running
    cases code' with
    | waitpid target' k failed' =>
      cases code
      exact ⟨[], (List.append_nil _).symm,
        .runs rfl (.noChild _ _ _ _ _ _ _ _ _ settled (ends.prints rfl))⟩
    | waitLoop target' text k failed' =>
      cases code
      exact ⟨[], (List.append_nil _).symm,
        .runs rfl (.loopNoChild _ _ _ _ _ _ _ _ _ _ settled (ends.prints rfl))⟩
    | printf text k => cases code
    | fflush k => cases code
    | assign f k => cases code
    | fork child parent => cases code
    | execve failed => cases code
    | exit status => cases code
    | quit status => cases code

/-- What stays true of the program that is left, whatever the process does. -/
structure Code.Closed (Q : Code μ → Prop) : Prop where
  printf : ∀ text k, Q (.printf text k) ↔ Q k
  fflush : ∀ k, Q (.fflush k) → Q k
  assign : ∀ f k, Q (.assign f k) → Q k
  fork : ∀ child parent, Q (.fork child parent) → ∀ pid, Q (parent pid)
  execve : ∀ k, Q (.execve k) → Q k
  waitpid : ∀ target k failed, Q (.waitpid target k failed) → (∀ status, Q (k status)) ∧ Q failed
  waitLoop : ∀ target text k failed, Q (.waitLoop target text k failed) → Q k ∧ Q failed

theorem LocalStep.closed {Q : Code μ → Prop} (closed : Code.Closed Q) {a b : Nat × Image μ}
    (step : LocalStep policy exec p a b) (holds : Q a.2.code) : Q b.2.code := by
  cases step with
  | goto n c c' does =>
    obtain ⟨running, code⟩ := next_running does nofun
    obtain ⟨code', mem, stdout, reports, finished⟩ := c
    cases code' with
    | printf text k =>
      cases code
      exact (closed.printf text k).mp holds
    | fflush k =>
      cases code
      exact closed.fflush k holds
    | assign f k =>
      cases code
      exact closed.assign f k holds
    | exit status | quit status =>
      cases code
      exact holds
    | fork child parent | execve failed | waitpid target k failed | waitLoop target text k failed =>
      cases code
  | fork n c child parent does =>
    obtain ⟨running, code⟩ := next_running does nofun
    obtain ⟨code', mem, stdout, reports, finished⟩ := c
    cases code' <;> cases code
    exact closed.fork _ _ holds _
  | execFailed n c failed does fails =>
    obtain ⟨running, code⟩ := next_running does nofun
    obtain ⟨code', mem, stdout, reports, finished⟩ := c
    cases code' <;> cases code
    exact closed.execve _ holds
  | reported n c failed target reported status does covered =>
    obtain ⟨running, code⟩ := next_running does nofun
    obtain ⟨code', mem, stdout, reports, finished⟩ := c
    cases code' <;> cases code
    · exact (closed.waitpid _ _ _ holds).1 status
    · -- the text of the status comes first
      refine (closed.printf _ _).mpr ?_
      split
      · exact (closed.waitLoop _ _ _ _ holds).1
      · exact holds
  | noChild n c failed target reported does settled =>
    obtain ⟨running, code⟩ := next_running does nofun
    obtain ⟨code', mem, stdout, reports, finished⟩ := c
    cases code' <;> cases code
    · exact (closed.waitpid _ _ _ holds).2
    · exact (closed.waitLoop _ _ _ _ holds).2

theorem Path.closed {Q : Code μ → Prop} (closed : Code.Closed Q) {a b : Nat × Image μ}
    (path : Path policy exec p a b) (holds : Q a.2.code) : Q b.2.code := by
  induction path with
  | refl => exact holds
  | tail _ step ih => exact step.closed closed ih

theorem Code.closed_flushes : Code.Closed fun k : Code μ => k.flushes where
  printf _ _ := Iff.rfl
  fflush _ := id
  assign _ _ := id
  fork _ _ := id
  execve _ := id
  waitpid _ _ _ := id
  waitLoop _ _ _ _ := id

theorem Path.ends {a b : Nat × Image μ} {o : List Byte} {rs : List Status} {st : Int}
    (path : Path policy exec p a b) (flushes : a.2.code.flushes)
    (ends : b.2.Ends exec p b.1 o rs st) :
    ∃ done, b.2.stdout.all = a.2.stdout.all ++ done ∧ a.2.Ends exec p a.1 (done ++ o) rs st := by
  induction path using Relation.ReflTransGen.head_induction_on with
  | refl => exact ⟨[], (List.append_nil _).symm, ends⟩
  | head step _ ih =>
    obtain ⟨later, all, ends⟩ := ih (step.closed Code.closed_flushes flushes)
    obtain ⟨first, all', ends⟩ := step.ends flushes ends
    exact ⟨first ++ later, by rw [all, all', List.append_assoc], by rwa [List.append_assoc]⟩

/-- What a process has been told changes with a report alone. -/
theorem goto_reports {c' : Image μ} (does : next policy c = .goto c') : c'.reports = c.reports := by
  obtain ⟨running, code⟩ := next_running does nofun
  obtain ⟨code', mem, stdout, reports, finished⟩ := c
  cases code' <;> cases code <;> rfl

theorem fork_cases {child : Image μ} {parent : Pid → Image μ}
    (does : next policy c = .fork child parent) :
    child.reports = [] ∧ child.finished = none ∧ child.stdout = c.stdout.copy ∧
      ∀ pid, (parent pid).reports = c.reports ∧ (parent pid).finished = none := by
  obtain ⟨running, code⟩ := next_running does nofun
  obtain ⟨code', mem, stdout, reports, finished⟩ := c
  cases running
  cases code' <;> cases code
  exact ⟨rfl, rfl, rfl, fun _ => ⟨rfl, rfl⟩⟩

theorem execve_cases {failed : Image μ} (does : next policy c = .execve failed) :
    failed.reports = c.reports ∧ failed.finished = none := by
  obtain ⟨running, code⟩ := next_running does nofun
  obtain ⟨code', mem, stdout, reports, finished⟩ := c
  cases running
  cases code' <;> cases code
  exact ⟨rfl, rfl⟩

theorem waitpid_cases {target : Target} {reported : Status → Image μ} {failed : Image μ}
    (does : next policy c = .waitpid target reported failed) :
    (∀ status, (reported status).reports = c.reports ++ [status] ∧
      (reported status).finished = none) ∧
    failed.reports = c.reports ∧ failed.finished = none := by
  obtain ⟨running, code⟩ := next_running does nofun
  obtain ⟨code', mem, stdout, reports, finished⟩ := c
  cases running
  cases code' <;> cases code
  · exact ⟨fun _ => ⟨rfl, rfl⟩, rfl, rfl⟩
  · exact ⟨fun _ => ⟨rfl, rfl⟩, rfl, rfl⟩

theorem goto_finished {c' : Image μ} {st : Int} (does : next policy c = .goto c')
    (flushes : c'.code.flushes) (finished : c'.finished = some st) : c'.stdout.buffer = [] := by
  obtain ⟨running, code⟩ := next_running does nofun
  obtain ⟨code', mem, stdout, reports, finished⟩ := c
  cases running
  cases code' <;> cases code <;> cases finished
  · rfl
  · exact flushes.elim

end Steps

/-! ### Whole families -/

section Family

variable {policy : Policy} {exec : Pid → Bool} {start : Image μ}

/-- What is known of a process from its own steps and from what it has been told. -/
structure Sound (policy : Policy) (exec : Pid → Bool) (start : Image μ) (p : Pid) (P : Process (Image μ))
    (kids : Kids (Image μ)) (c : Image μ) : Prop where
  path : ∃ c₀, Origin policy exec start p c₀ ∧ Path policy exec p (0, c₀) (P.forks, c)
  told : ∀ e ∈ c.reports, e.final = true → ∃ k K, kids k = some K ∧ K.life = .ended e
  untold : ∀ k K, kids k = some K → K.reaped = true → ∃ e ∈ c.reports, e.final = true
  flushed : ∀ st, c.code.flushes → c.finished = some st → c.stdout.buffer = []
  exited : ∀ st, P.life = .ended (.exited st) →
    ∃ status, c.finished = some status ∧ exitStatus status = .exited st

/-- Steps that leave the program and the children alone. -/
theorem Sound.keep {p : Pid} {P P' : Process (Image μ)} {kids : Kids (Image μ)} {c : Image μ}
    (h : Sound policy exec start p P kids c) (forks : P'.forks = P.forks)
    (exited : ∀ st, P'.life = .ended (.exited st) →
      ∃ status, c.finished = some status ∧ exitStatus status = .exited st) :
    Sound policy exec start p P' kids c :=
  ⟨by rw [forks]; exact h.path, h.told, h.untold, h.flushed, exited⟩

/-- Steps of the process itself that tell it nothing. -/
theorem Sound.advance {p : Pid} {P P' : Process (Image μ)} {kids : Kids (Image μ)} {c c' : Image μ}
    (h : Sound policy exec start p P kids c) (step : LocalStep policy exec p (P.forks, c) (P'.forks, c'))
    (reports : c'.reports = c.reports)
    (flushed : ∀ st, c'.code.flushes → c'.finished = some st → c'.stdout.buffer = [])
    (running : P'.life = .running) :
    Sound policy exec start p P' kids c' := by
  obtain ⟨c₀, origin, path⟩ := h.path
  refine ⟨⟨c₀, origin, path.tail step⟩, ?_, ?_, flushed, ?_⟩
  · rw [reports]
    exact h.told
  · rw [reports]
    exact h.untold
  · intro st ended
    rw [running] at ended
    cases ended

theorem Sound.reported {p : Pid} {P : Process (Image μ)} {kids : Kids (Image μ)}
    {c failed : Image μ} (h : Sound policy exec start p P kids c) {target : Target}
    {reported : Status → Image μ} {k : Nat} {K : Process (Image μ)} {status : Status}
    (here : P.At c) (does : next policy c = .waitpid target reported failed)
    (numbered : k < P.forks) (kid : kids k = some K) (sane : K.Sane)
    (pending : K.report = some status) (covered : target.covers (k :: p) = true) :
    Sound policy exec start p (P.goto (reported status)) (Function.update kids k (some K.reap))
      (reported status) := by
  obtain ⟨c₀, origin, path⟩ := h.path
  obtain ⟨reports, unfinished⟩ := (waitpid_cases does).1 status
  refine ⟨⟨c₀, origin, path.tail (.reported _ c failed target reported status does
    ⟨k, numbered, covered⟩)⟩, ?_, ?_, ?_, ?_⟩
  · intro e member final
    rw [reports, List.mem_append, List.mem_singleton] at member
    rcases member with old | rfl
    · obtain ⟨i, L, there, ended⟩ := h.told e old final
      by_cases same : i = k
      · subst same
        cases Option.some.inj (kid.symm.trans there)
        exact ⟨i, K.reap, Function.update_self _ _ _, ended⟩
      · exact ⟨i, L, by rw [Function.update_of_ne same]; exact there, ended⟩
    · exact ⟨k, K.reap, Function.update_self _ _ _, sane.reported e pending final⟩
  · intro i L there reaped
    rw [reports]
    by_cases same : i = k
    · subst same
      rw [Function.update_self] at there
      cases there
      rw [sane.reaped_reap status pending] at reaped
      exact ⟨status, List.mem_append_right _ (List.mem_singleton_self status), reaped⟩
    · rw [Function.update_of_ne same] at there
      obtain ⟨e, member, final⟩ := h.untold i L there reaped
      exact ⟨e, List.mem_append_left _ member, final⟩
  · intro st _ finished
    rw [unfinished] at finished
    cases finished
  · intro st ended
    rw [Process.goto, here.1] at ended
    cases ended

/-- A new child has told nothing yet. -/
theorem Sound.forked {p : Pid} {P : Process (Image μ)} {kids : Kids (Image μ)} {c child : Image μ}
    {parent : Pid → Image μ} (h : Sound policy exec start p P kids c) (here : P.At c)
    (does : next policy c = .fork child parent) (fresh : kids P.forks = none) :
    Sound policy exec start p (P.forked (parent (P.forks :: p)))
      (Function.update kids P.forks (some (.born child))) (parent (P.forks :: p)) := by
  obtain ⟨c₀, origin, path⟩ := h.path
  obtain ⟨reports, unfinished⟩ := (fork_cases does).2.2.2 (P.forks :: p)
  refine ⟨⟨c₀, origin, path.tail (.fork _ c child parent does)⟩, ?_, ?_, ?_, ?_⟩
  · rw [reports]
    intro e member final
    obtain ⟨k, K, kid, ended⟩ := h.told e member final
    have other : k ≠ P.forks := by
      rintro rfl
      rw [fresh] at kid
      cases kid
    exact ⟨k, K, by rw [Function.update_of_ne other]; exact kid, ended⟩
  · rw [reports]
    intro k K kid reaped
    by_cases new : k = P.forks
    · subst new
      rw [Function.update_self] at kid
      cases kid
      cases reaped
    · rw [Function.update_of_ne new] at kid
      exact h.untold k K kid reaped
  · intro st _ finished
    rw [unfinished] at finished
    cases finished
  · intro st ended
    rw [Process.forked, here.1] at ended
    cases ended

/-- A child that is alive changes; it is not one that has been reported dead. -/
theorem Sound.kid {p : Pid} {P : Process (Image μ)} {kids : Kids (Image μ)} {c : Image μ}
    (h : Sound policy exec start p P kids c) {k : Nat} {K K' : Process (Image μ)} (kid : kids k = some K)
    (alive : K.terminated = false) (unreaped : K'.reaped = false) :
    Sound policy exec start p P (Function.update kids k (some K')) c := by
  refine ⟨h.path, ?_, ?_, h.flushed, h.exited⟩
  · intro e member final
    obtain ⟨i, L, there, ended⟩ := h.told e member final
    have other : i ≠ k := by
      rintro rfl
      cases Option.some.inj (kid.symm.trans there)
      simp [Process.terminated, ended] at alive
    exact ⟨i, L, by rw [Function.update_of_ne other]; exact there, ended⟩
  · intro i L there reaped
    by_cases same : i = k
    · subst same
      rw [Function.update_self] at there
      cases there
      rw [unreaped] at reaped
      cases reaped
    · rw [Function.update_of_ne same] at there
      exact h.untold i L there reaped

theorem sound_own {p : Pid} {P P' : Process (Image μ)} {kids : Kids (Image μ)}
    (inv : ∀ c, P.prog = some c → Sound policy exec start p P kids c)
    (numbered : ∀ k, (kids k).isSome = true ↔ k < P.forks)
    (moves : Own (next policy) exec p kids P P') :
    ∀ c, P'.prog = some c → Sound policy exec start p P' kids c := by
  intro d prog
  cases moves with
  | goto c c' here does =>
    cases prog
    exact (inv c here.2).advance (.goto _ c d does) (goto_reports does)
      (fun st => goto_finished does) here.1
  | execve c failed here does ok => cases prog
  | execFailed c failed here does fails =>
    cases prog
    obtain ⟨reports, unfinished⟩ := execve_cases does
    exact (inv c here.2).advance (.execFailed _ c d does fails) reports
      (fun st _ finished => by rw [unfinished] at finished; cases finished) here.1
  | exit c status here does =>
    cases Option.some.inj (here.2.symm.trans prog)
    refine (inv d prog).keep rfl fun st ended => ⟨status, next_exit does, ?_⟩
    injection ended
  | noChild c failed target reported here does exhausted =>
    cases prog
    obtain ⟨-, reports, unfinished⟩ := waitpid_cases does
    refine (inv c here.2).advance (.noChild _ c d target reported does ?_) reports
      (fun st _ finished => by rw [unfinished] at finished; cases finished) here.1
    rintro ⟨k, hk, covered⟩
    obtain ⟨K, kid⟩ := Option.isSome_iff_exists.mp ((numbered k).mpr hk)
    exact (inv c here.2).untold k K kid (exhausted k hk covered K kid)
  | stop signal running => exact (inv d prog).keep rfl fun st ended => by cases ended
  | cont stopped => exact (inv d prog).keep rfl fun st ended => by cases ended
  | kill signal alive => exact (inv d prog).keep rfl fun st ended => by cases ended
  | finish status running other =>
    have gone := other.symm.trans prog
    cases gone

theorem sound_moves {p : Pid} {P P' : Process (Image μ)} {kids kids' : Kids (Image μ)}
    (inv : ∀ c, P.prog = some c → Sound policy exec start p P kids c)
    (numbered : ∀ k, (kids k).isSome = true ↔ k < P.forks)
    (sane : ∀ k K, kids k = some K → K.Sane)
    (moves : Moves (next policy) exec p P kids P' kids') :
    ∀ c, P'.prog = some c → Sound policy exec start p P' kids' c := by
  cases moves with
  | own P' moves => exact sound_own inv numbered moves
  | fork c child parent here does =>
    intro d prog
    cases prog
    refine (inv c here.2).forked here does ?_
    have none_yet := (numbered P.forks).not.mpr (Nat.lt_irrefl _)
    simpa using none_yet
  | report k K c failed target reported status here does kid pending covered =>
    intro d prog
    cases prog
    exact (inv c here.2).reported here does ((numbered k).mp (by rw [kid]; rfl)) kid (sane k K kid)
      pending covered
  | reaped => exact fun d prog => (inv d prog).keep rfl (inv d prog).exited
  | kid k K K' kid alive unreaped => exact fun d prog => (inv d prog).kid kid alive unreaped

/-- In every reachable state every process is on a path of its own program. -/
theorem sound_of_reachable {main : Code μ} {m : μ} (s : Table (Image μ))
    (h : (program policy exec main m).Reachable s) (p : Pid) (P : Process (Image μ)) (c : Image μ)
    (present : s.proc p = some P) (prog : P.prog = some c) :
    Sound policy exec (.start main m) p P (s.kids p) c := by
  rw [program] at h
  refine ((family_invariant (.start main m) (fun p P kids => ∀ c, P.prog = some c →
    Sound policy exec (.start main m) p P kids c) ?_ ?_ ?_ s h).2 p P present).inv c prog
  · intro c prog
    cases prog
    exact ⟨⟨_, .first, .refl⟩, nofun, nofun, nofun, nofun⟩
  · intro p P kids c child parent inv here does d prog
    cases prog
    obtain ⟨c₀, origin, path⟩ := (inv c here.2).path
    obtain ⟨reports, unfinished, -, -⟩ := fork_cases does
    refine ⟨⟨_, .child p _ c₀ c _ parent origin path does, .refl⟩, ?_, nofun, ?_, nofun⟩
    · rw [reports]
      exact nofun
    · rw [unfinished]
      exact nofun
  · intro p P kids P' kids' context moves
    exact sound_moves context.inv context.numbered (fun k K kid => (context.kid k K kid).1) moves

/-- A process starts with an empty record and has written nothing. -/
theorem Origin.fresh {main : Code μ} {m : μ} {p : Pid} {c₀ : Image μ}
    (h : Origin policy exec (.start main m) p c₀) :
    c₀.reports = [] ∧ c₀.finished = none ∧ c₀.stdout.written = [] := by
  cases h with
  | first => exact ⟨rfl, rfl, rfl⟩
  | child p n c₀ c child parent origin path does =>
    obtain ⟨reports, unfinished, stdout, -⟩ := fork_cases does
    exact ⟨reports, unfinished, by rw [stdout]; rfl⟩

/-- **What a process has written** that does not call `_exit`: the buffer it inherited and what its
own program prints. -/
theorem written_of_exited {main : Code μ} {m : μ} (s : Table (Image μ))
    (h : (program policy exec main m).Reachable s) (p : Pid) (P : Process (Image μ)) (c : Image μ)
    (st : Nat) (present : s.proc p = some P) (prog : P.prog = some c)
    (flushes : ∀ c₀, Origin policy exec (.start main m) p c₀ → c₀.code.flushes)
    (ended : P.life = .ended (.exited st)) :
    ∃ c₀ o status, Origin policy exec (.start main m) p c₀ ∧
      Prints exec p 0 [] c₀.code c₀.mem o c.reports status ∧ exitStatus status = .exited st ∧
      c.stdout.written = c₀.stdout.buffer ++ o := by
  have sound := sound_of_reachable s h p P c present prog
  obtain ⟨status, finished, same⟩ := sound.exited st ended
  obtain ⟨c₀, origin, path⟩ := sound.path
  obtain ⟨reports, unfinished, unwritten⟩ := origin.fresh
  obtain ⟨o, all, ends⟩ := path.ends (flushes c₀ origin) (.finished finished rfl rfl)
  rw [List.append_nil] at ends
  have prints := ends.prints unfinished
  rw [reports] at prints
  refine ⟨c₀, o, status, origin, prints, same, ?_⟩
  have empty := sound.flushed status (path.closed Code.closed_flushes (flushes c₀ origin)) finished
  simpa only [Stream.all, empty, unwritten, List.append_nil,
    List.nil_append] using all

end Family

/-! ### Runs in which no child is stopped -/

/-- No process but the first one is stopped or has a stop to report. -/
def Unstopped (s : Table (Image μ)) : Prop :=
  ∀ q K, q ≠ [] → s.proc q = some K →
    K.life ≠ .stopped ∧ ∀ e, K.report = some e → e.final = true

/-- Processes have been told of ends alone. -/
def OnlyEnds (s : Table (Image μ)) : Prop :=
  ∀ p P c, s.proc p = some P → P.prog = some c → ∀ e ∈ c.reports, e.final = true

section Unstopped

variable {policy : Policy} {exec : Pid → Bool} {s t : Table (Image μ)}

theorem Unstopped.set (h : Unstopped s) (p : Pid) (P : Process (Image μ))
    (fine : p ≠ [] → P.life ≠ .stopped ∧ ∀ e, P.report = some e → e.final = true) :
    Unstopped (s.set p P) := by
  intro q K inner present
  by_cases here : q = p
  · subst here
    rw [Table.proc_set_self] at present
    cases present
    exact fine inner
  · rw [Table.proc_set_ne _ _ _ _ here] at present
    exact h q K inner present

/-- A process that was running goes on with nothing new to report. -/
theorem Unstopped.running (h : Unstopped s) {p : Pid} {P : Process (Image μ)} {c : Image μ}
    (present : s.proc p = some P) (here : P.At c) (P' : Process (Image μ)) (life : P'.life = P.life)
    (report : P'.report = P.report) : Unstopped (s.set p P') := by
  refine h.set p P' fun inner => ⟨?_, ?_⟩
  · rw [life, here.1]
    exact nofun
  · rw [report]
    exact (h p P inner present).2

theorem Unstopped.ends (h : Unstopped s) (p : Pid) (P : Process (Image μ)) (status : Status)
    (final : status.final = true) : Unstopped (s.set p (P.end status)) := by
  refine h.set p _ fun _ => ⟨nofun, fun e report => ?_⟩
  cases report
  exact final

theorem OnlyEnds.set (h : OnlyEnds s) (p : Pid) (P : Process (Image μ))
    (fine : ∀ c, P.prog = some c → ∀ e ∈ c.reports, e.final = true) : OnlyEnds (s.set p P) := by
  intro q Q c present prog
  by_cases here : q = p
  · subst here
    rw [Table.proc_set_self] at present
    cases present
    exact fine c prog
  · rw [Table.proc_set_ne _ _ _ _ here] at present
    exact h q Q c present prog

/-- The process is told nothing. -/
theorem OnlyEnds.silent (h : OnlyEnds s) {p : Pid} {P : Process (Image μ)} {c c' : Image μ}
    (present : s.proc p = some P) (here : P.At c) (reports : c'.reports = c.reports)
    {P' : Process (Image μ)} (prog : P'.prog = some c') : OnlyEnds (s.set p P') := by
  refine h.set p P' fun d now => ?_
  cases Option.some.inj (prog.symm.trans now)
  rw [reports]
  exact h p P c present here.2

end Unstopped

/-! ### Programs that fork once -/

def Code.forkFree : Code μ → Prop
  | .printf _ k | .fflush k | .assign _ k | .execve k => k.forkFree
  | .fork _ _ => False
  | .waitpid _ k failed => (∀ status, (k status).forkFree) ∧ failed.forkFree
  | .waitLoop _ _ k failed => k.forkFree ∧ failed.forkFree
  | .exit _ | .quit _ => True

/-- `c` comes to `d` without a fork or a `waitpid`. -/
inductive Straight (policy : Policy) (d : Image μ) : Image μ → Prop
  | here : Straight policy d d
  | goto (c c' : Image μ) (does : next policy c = .goto c') (rest : Straight policy d c') :
      Straight policy d c

section OneFork

variable {policy : Policy} {exec : Pid → Bool} {p : Pid}

theorem Code.closed_forkFree : Code.Closed fun k : Code μ => k.forkFree where
  printf _ _ := Iff.rfl
  fflush _ := id
  assign _ _ := id
  fork _ _ := False.elim
  execve _ := id
  waitpid _ _ _ := id
  waitLoop _ _ _ _ := id

theorem not_fork_of_forkFree {c child : Image μ} {parent : Pid → Image μ}
    (free : c.code.forkFree) : next policy c ≠ .fork child parent := by
  intro does
  obtain ⟨running, code⟩ := next_running does nofun
  obtain ⟨code', mem, stdout, reports, finished⟩ := c
  cases code' <;> cases code
  exact free

theorem LocalStep.forkFree {a b : Nat × Image μ} (step : LocalStep policy exec p a b)
    (free : a.2.code.forkFree) : b.1 = a.1 ∧ b.2.code.forkFree := by
  refine ⟨?_, step.closed Code.closed_forkFree free⟩
  cases step with
  | goto | execFailed | reported | noChild => rfl
  | fork n c child parent does => exact absurd does (not_fork_of_forkFree free)

/-- The program forks once, always at the same place, and its child starts at `child`. -/
structure ForksOnce (policy : Policy) (start child : Image μ) : Prop where
  once : ∃ d parent, Straight policy d start ∧ next policy d = .fork child parent ∧
    ∀ pid, (parent pid).code.forkFree
  free : child.code.forkFree

variable {start d child : Image μ} {parent : Pid → Image μ}

theorem LocalStep.of_goto {c c' : Image μ} {n : Nat} {b : Nat × Image μ}
    (goes : next policy c = .goto c') (step : LocalStep policy exec p (n, c) b) : b = (n, c') := by
  cases step with
  | goto _ _ c'' does =>
    cases goes.symm.trans does
    rfl
  | fork _ _ _ _ does => cases goes.symm.trans does
  | execFailed _ _ _ does => cases goes.symm.trans does
  | reported _ _ _ _ _ _ does => cases goes.symm.trans does
  | noChild _ _ _ _ _ does => cases goes.symm.trans does

theorem LocalStep.of_fork {c : Image μ} {n : Nat} {b : Nat × Image μ}
    (forks : next policy c = .fork child parent) (step : LocalStep policy exec p (n, c) b) :
    b = (n + 1, parent (n :: p)) := by
  cases step with
  | fork _ _ _ _ does =>
    cases forks.symm.trans does
    rfl
  | goto _ _ _ does => cases forks.symm.trans does
  | execFailed _ _ _ does => cases forks.symm.trans does
  | reported _ _ _ _ _ _ does => cases forks.symm.trans does
  | noChild _ _ _ _ _ does => cases forks.symm.trans does

theorem LocalStep.not_of_exit {c : Image μ} {n : Nat} {b : Nat × Image μ} {st : Int}
    (exits : next policy c = .exit st) : ¬LocalStep policy exec p (n, c) b := by
  intro step
  cases step with
  | goto _ _ _ does => cases exits.symm.trans does
  | fork _ _ _ _ does => cases exits.symm.trans does
  | execFailed _ _ _ does => cases exits.symm.trans does
  | reported _ _ _ _ _ _ does => cases exits.symm.trans does
  | noChild _ _ _ _ _ does => cases exits.symm.trans does

/-- On its way a process is before its fork or has made it. -/
theorem Path.straight (straight : Straight policy d start)
    (forks : next policy d = .fork child parent) (free : ∀ pid, (parent pid).code.forkFree)
    {b : Nat × Image μ} (path : Path policy exec p (0, start) b) :
    b.1 = 0 ∧ Straight policy d b.2 ∨ b.1 = 1 ∧ b.2.code.forkFree := by
  induction path with
  | refl => exact .inl ⟨rfl, straight⟩
  | tail _ step ih =>
    rcases ih with ⟨zero, ahead⟩ | ⟨one, behind⟩
    · cases ahead with
      | here =>
        rw [step.of_fork forks]
        exact .inr ⟨congrArg (· + 1) zero, free _⟩
      | goto _ c' goes rest =>
        rw [step.of_goto goes]
        exact .inl ⟨zero, rest⟩
    · obtain ⟨same, free⟩ := step.forkFree behind
      exact .inr ⟨same.trans one, free⟩

/-- A process that goes straight to its end is on the way there or has come to it. -/
theorem Path.straight_end {e : Image μ} {st : Int} (straight : Straight policy d start)
    (last : next policy d = .goto e) (finished : e.finished = some st) {b : Nat × Image μ}
    (path : Path policy exec p (0, start) b) : Straight policy d b.2 ∨ b.2 = e := by
  induction path with
  | refl => exact .inl straight
  | tail _ step ih =>
    rcases ih with ahead | rfl
    · cases ahead with
      | here =>
        rw [step.of_goto last]
        exact .inr rfl
      | goto _ c' goes rest =>
        rw [step.of_goto goes]
        exact .inl rest
    · exact absurd step (LocalStep.not_of_exit (by rw [next, finished]))

/-- There are two processes at most. -/
theorem ForksOnce.origin (once : ForksOnce policy start child) {c : Image μ}
    (h : Origin policy exec start p c) : p = [] ∧ c = start ∨ p = [0] ∧ c = child := by
  obtain ⟨⟨d, parent, straight, forks, freeParent⟩, free⟩ := once
  induction h with
  | first => exact .inl ⟨rfl, rfl⟩
  | child p n c₀ c child' parent' origin path does ih =>
    rcases ih with ⟨rfl, rfl⟩ | ⟨rfl, rfl⟩
    · rcases path.straight straight forks freeParent with ⟨zero, ahead⟩ | ⟨-, behind⟩
      · cases ahead with
        | here =>
          cases forks.symm.trans does
          cases zero
          exact .inr ⟨rfl, rfl⟩
        | goto _ c' goes rest => cases goes.symm.trans does
      · exact absurd does (not_fork_of_forkFree behind)
    · exact absurd does (not_fork_of_forkFree (Path.closed Code.closed_forkFree path free))

variable {main : Code μ} {m : μ} {s : Table (Image μ)} {P : Process (Image μ)}
  {c : Image μ}

/-- The child writes what it has inherited as well. -/
theorem ForksOnce.child_written (once : ForksOnce policy (.start main m) child)
    (flushes : child.code.flushes) (h : (program policy exec main m).Reachable s) (inner : p ≠ []) (present : s.proc p = some P)
    (prog : P.prog = some c) {st : Nat} (ended : P.life = .ended (.exited st)) :
    p = [0] ∧ ∃ o status, exitStatus status = .exited st ∧
      Prints exec [0] 0 [] child.code child.mem o c.reports status ∧
      c.stdout.written = child.stdout.buffer ++ o := by
  have own (c₀ : Image μ) (origin : Origin policy exec (.start main m) p c₀) : c₀.code.flushes := by
    rcases once.origin origin with ⟨outer, -⟩ | ⟨-, rfl⟩
    · exact absurd outer inner
    · exact flushes
  obtain ⟨c₀, o, status, origin, prints, same, written⟩ :=
    written_of_exited s h p P c st present prog own ended
  rcases once.origin origin with ⟨outer, -⟩ | ⟨rfl, rfl⟩
  · exact absurd outer inner
  · exact ⟨rfl, o, status, same, prints, written⟩

/-- A child that forks and waits no more comes to one end alone. -/
theorem ForksOnce.child_straight (once : ForksOnce policy (.start main m) child)
    (straight : Straight policy d child) {e : Image μ} (last : next policy d = .goto e) {fin : Int}
    (finished : e.finished = some fin) (h : (program policy exec main m).Reachable s) (inner : p ≠ [])
    (present : s.proc p = some P) (prog : P.prog = some c) {st : Nat}
    (ended : P.life = .ended (.exited st)) : p = [0] ∧ c = e ∧ exitStatus fin = .exited st := by
  have sound := sound_of_reachable s h p P c present prog
  obtain ⟨status, exits, same⟩ := sound.exited st ended
  obtain ⟨c₀, origin, path⟩ := sound.path
  rcases once.origin origin with ⟨outer, -⟩ | ⟨rfl, rfl⟩
  · exact absurd outer inner
  · rcases Path.straight_end straight last finished path with ahead | there
    · -- a process on its way has not finished
      have stopped : next policy c = .exit status := by rw [next, exits]
      cases ahead with
      | here => cases stopped.symm.trans last
      | goto _ _ does => cases stopped.symm.trans does
    · rw [show c = e from there] at exits
      cases Option.some.inj (finished.symm.trans exits)
      exact ⟨rfl, there, same⟩

theorem Straight.reaches (straight : Straight policy d c) (h : Reaches (next policy) exec start s p P c) :
    ∃ s' P', Reaches (next policy) exec start s' p P' d ∧ P'.forks = P.forks := by
  induction straight generalizing s P with
  | here => exact ⟨s, P, h, rfl⟩
  | goto c c' does rest ih =>
    obtain ⟨s', P', there, forks⟩ := ih (h.goto does)
    exact ⟨s', P', there, forks⟩

/-- Some run comes to that end. -/
theorem ForksOnce.child_ends (once : ForksOnce policy (.start main m) child)
    (straight : Straight policy d child) {e : Image μ} (last : next policy d = .goto e) {fin : Int}
    (finished : e.finished = some fin) :
    ∃ s K, (program policy exec main m).Reachable s ∧ s.proc [0] = some K ∧ K.prog = some e ∧
      K.life = .ended (exitStatus fin) := by
  obtain ⟨⟨b, parent, way, forks, -⟩, -⟩ := once
  obtain ⟨s, P, there, zero⟩ := way.reaches (reaches_start (next policy) exec (.start main m))
  have forked := there.fork forks
  rw [show P.forks = 0 from zero] at forked
  have born := forked.other (by rw [Table.proc_spawn, Table.proc_set_self]) ⟨rfl, rfl⟩
  obtain ⟨s', K, ahead, -⟩ := straight.reaches born
  have done := ahead.goto last
  have exits := done.run
  have stops : next policy e = .exit fin := by rw [next, finished]
  rw [run, stops] at exits
  exact ⟨_, _, done.reachable.step exits, Table.proc_set_self _ _ _, rfl, rfl⟩

/-- The end that is reported to the parent is the end of the child. -/
theorem ForksOnce.told (once : ForksOnce policy (.start main m) child)
    (h : (program policy exec main m).Reachable s) (present : s.proc [] = some P)
    (prog : P.prog = some c) {e : Status} (member : e ∈ c.reports) (final : e.final = true) :
    ∃ K, s.proc [0] = some K ∧ K.life = .ended e := by
  have sound := sound_of_reachable s h [] P c present prog
  obtain ⟨k, K, kid, ended⟩ := sound.told e member final
  obtain ⟨c₀, origin, path⟩ := sound.path
  obtain ⟨⟨d, parent, straight, forks, free⟩, -⟩ := once
  rw [program] at h
  have numbered := ((recorded _ s h).1.kids [] P present k).mp (by rw [kid]; rfl)
  have most : P.forks ≤ 1 := by
    cases origin with
    | first =>
      rcases path.straight straight forks free with ⟨zero, -⟩ | ⟨one, -⟩
      · exact Nat.le_of_eq zero |>.trans Nat.one_pos.le
      · exact Nat.le_of_eq one
  obtain rfl : k = 0 := by omega
  exact ⟨K, kid, ended⟩

end OneFork

end GenericTests.Stdio
