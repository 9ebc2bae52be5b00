import GenericTests.Forks.StatusChain
import GenericTests.Lib.Stdio

/-!
# The programs with callsys and threads

fork_and_pthread.c, forkmulti.c and forkexec_and_pthread.c fork a child in callsys, make and
join threads and then call `waitpid` once. callsys has no `return` behind a failed `execve`: the
child goes on in main as if it were the parent. forkexecwait_and_pthread.c waits in callsys.
-/
namespace GenericTests.Forks.Callsys

open GenericTests.CString GenericTests.Processes GenericTests.Stdio GenericTests.Transition

/-- The thread part of main. `lines` are the lines of the threads and of the join loop in the
order in which they come out. -/
def threadPart (lines : List (List Byte)) (k : Code Unit) : Code Unit :=
  lines.foldr (fun line k => .printf (fun _ => line) k) k

def doneText : List Byte := ascii "Childpid fork done\n"

/-- The one `waitpid` with the texts behind it. -/
def waitChild (childpid : Target) (k : Code Unit) : Code Unit :=
  .waitpid childpid
    (fun status =>
      .printf (fun _ => statusText (ascii "childpid ") status) <|
      .printf (fun _ => doneText) <|
      .fflush k)
    (.exit (-1))

def bedTimeText : List Byte :=
  ascii "Bed time for forked child\n" ++ ascii "Forked child awoke\n"

/-- The child sleeps between the two lines. -/
def bedTime (k : Code Unit) : Code Unit :=
  .printf (fun _ => ascii "Bed time for forked child\n") <|
  .fflush <|
  .printf (fun _ => ascii "Forked child awoke\n") <|
  .fflush k

def failedText (name : List Byte) : List Byte := ascii "Failed to start " ++ name ++ ascii "\n"

/-- main behind the call of callsys. -/
def afterCallsys (lines : List (List Byte)) (childpid : Target) : Code Unit :=
  threadPart lines <| waitChild childpid <| .exit 0

/-- What is not determined by the source: the order of the lines of the threads, in the parent
and in a child that comes there, and what the call leaves in `childpid` in that child. -/
structure Environment where
  lines : List (List Byte)
  childLines : List (List Byte)
  childpid : Target

inductive Source where
  | forkAndPthread
  | forkmulti
  /-- with the name of the command -/
  | forkexecAndPthread (name : List Byte)
  | forkexecwaitAndPthread

/-- The branch of the child in callsys, with what follows if it comes out of it. -/
def Source.child (e : Environment) : Source → Code Unit
  | .forkAndPthread => bedTime <| .exit 17
  | .forkmulti => bedTime <| .execve <| .printf (fun _ => failedText (ascii "./hello-stat")) <|
      afterCallsys e.childLines e.childpid
  | .forkexecAndPthread name => .execve <| .printf (fun _ => failedText name) <|
      afterCallsys e.childLines e.childpid
  | .forkexecwaitAndPthread =>
      bedTime <| .execve <| .printf (fun _ => failedText (ascii "./hello-stat")) <|
      threadPart e.childLines <| .exit 0

def Source.parent (e : Environment) (pid : Pid) : Source → Code Unit
  | .forkAndPthread | .forkmulti | .forkexecAndPthread _ => afterCallsys e.lines (.child pid)
  | .forkexecwaitAndPthread => waitChild (.child pid) <| threadPart e.lines <| .exit 0

/-- main, which prints nothing before the fork -/
def Source.main (e : Environment) (source : Source) : Code Unit :=
  .fork (source.child e) fun pid => source.parent e pid

def Source.system (policy : Policy) (exec : Pid → Bool) (e : Environment) (source : Source) :
    System (Table (Image Unit)) Act :=
  program policy exec (source.main e) ()

/-- What a child writes that stays with this program. -/
def Source.childOutput (e : Environment) : Source → List Byte
  | .forkAndPthread => bedTimeText
  | .forkmulti | .forkexecwaitAndPthread =>
    bedTimeText ++ failedText (ascii "./hello-stat") ++ e.childLines.flatten
  | .forkexecAndPthread name => failedText name ++ e.childLines.flatten

/-- The status such a child exits with; 255 is that of `exit(-1)`. -/
def Source.childStatus : Source → Nat
  | .forkAndPthread => 17
  | .forkmulti | .forkexecAndPthread _ => 255
  | .forkexecwaitAndPthread => 0

/-- Does the child call `execve`? -/
def Source.execs : Source → Bool
  | .forkAndPthread => false
  | .forkmulti | .forkexecAndPthread _ | .forkexecwaitAndPthread => true

/-! ### What the parts print -/

section Parts

variable {exec : Pid → Bool} {p : Pid} {n : Nat} {rs rs' : List Status} {k : Code Unit}
  {o : List Byte} {st : Int}

theorem forkFree_threadPart (lines : List (List Byte)) (k : Code Unit) :
    (threadPart lines k).forkFree ↔ k.forkFree := by
  induction lines with
  | nil => rfl
  | cons line lines ih => exact ih

theorem flushes_threadPart (lines : List (List Byte)) (k : Code Unit) :
    (threadPart lines k).flushes ↔ k.flushes := by
  induction lines with
  | nil => rfl
  | cons line lines ih => exact ih

theorem prints_threadPart {lines : List (List Byte)}
    (h : Prints exec p n rs (threadPart lines k) () o rs' st) :
    ∃ o', o = lines.flatten ++ o' ∧ Prints exec p n rs k () o' rs' st := by
  induction lines generalizing o with
  | nil => exact ⟨o, rfl, h⟩
  | cons line lines ih =>
    cases h with
    | printf _ _ _ _ _ _ _ _ h =>
    obtain ⟨o', rfl, rest⟩ := ih h
    exact ⟨o', by simp, rest⟩

theorem prints_bedTime (h : Prints exec p n rs (bedTime k) () o rs' st) :
    ∃ o', o = bedTimeText ++ o' ∧ Prints exec p n rs k () o' rs' st := by
  cases h with
  | printf _ _ _ _ _ _ _ _ h =>
  cases h with
  | fflush _ _ _ _ _ _ _ h =>
  cases h with
  | printf _ _ _ _ _ _ _ _ h =>
  cases h with
  | fflush _ _ _ _ _ _ _ h => exact ⟨_, by rw [bedTimeText, List.append_assoc], h⟩

/-- A process without children fails there. -/
theorem prints_waitChild_alone {target : Target}
    (h : Prints exec p 0 [] (waitChild target k) () o rs' st) : o = [] ∧ st = -1 := by
  cases h with
  | waitpid _ _ _ _ _ _ _ _ _ _ covered =>
    obtain ⟨i, less, -⟩ := covered
    exact absurd less (Nat.not_lt_zero i)
  | noChild _ _ _ _ _ _ _ _ _ _ h =>
    cases h with
    | exit => exact ⟨rfl, rfl⟩

end Parts

section Source

variable {policy : Policy} {exec : Pid → Bool} {e : Environment} {source : Source}

theorem forksOnce :
    ForksOnce policy (.start (source.main e) ()) ⟨source.child e, (), .empty, [], none⟩ := by
  refine ⟨⟨_, _, .here, rfl, fun pid => ?_⟩, ?_⟩
  · cases source with
    | forkAndPthread | forkmulti | forkexecAndPthread name =>
      exact (forkFree_threadPart _ _).mpr ⟨fun _ => trivial, trivial⟩
    | forkexecwaitAndPthread =>
      exact ⟨fun _ => (forkFree_threadPart _ _).mpr trivial, trivial⟩
  · cases source with
    | forkAndPthread => exact trivial
    | forkmulti | forkexecAndPthread name =>
      exact (forkFree_threadPart _ _).mpr ⟨fun _ => trivial, trivial⟩
    | forkexecwaitAndPthread => exact (forkFree_threadPart _ _).mpr trivial

theorem child_flushes : (source.child e).flushes := by
  cases source with
  | forkAndPthread => exact trivial
  | forkmulti | forkexecAndPthread name =>
    exact (flushes_threadPart _ _).mpr ⟨fun _ => trivial, trivial⟩
  | forkexecwaitAndPthread => exact (flushes_threadPart _ _).mpr trivial

theorem prints_child {o : List Byte} {rs : List Status} {st : Int}
    (h : Prints exec [0] 0 [] (source.child e) () o rs st) :
    exitStatus st = .exited source.childStatus ∧ o = source.childOutput e ∧
      (source.execs = true → exec [0] = false) := by
  cases source with
  | forkAndPthread =>
    obtain ⟨o₁, rfl, after⟩ := prints_bedTime h
    cases after with
    | exit => exact ⟨rfl, List.append_nil _, nofun⟩
  | forkmulti =>
    obtain ⟨o₁, rfl, after⟩ := prints_bedTime h
    cases after with
    | execFailed _ _ _ _ _ _ _ fails h =>
    cases h with
    | printf _ _ _ _ _ _ _ _ h =>
    obtain ⟨o₂, rfl, after⟩ := prints_threadPart h
    obtain ⟨rfl, rfl⟩ := prints_waitChild_alone after
    exact ⟨rfl, by simp [Source.childOutput], fun _ => fails⟩
  | forkexecAndPthread name =>
    cases h with
    | execFailed _ _ _ _ _ _ _ fails h =>
    cases h with
    | printf _ _ _ _ _ _ _ _ h =>
    obtain ⟨o₂, rfl, after⟩ := prints_threadPart h
    obtain ⟨rfl, rfl⟩ := prints_waitChild_alone after
    exact ⟨rfl, by simp [Source.childOutput], fun _ => fails⟩
  | forkexecwaitAndPthread =>
    obtain ⟨o₁, rfl, after⟩ := prints_bedTime h
    cases after with
    | execFailed _ _ _ _ _ _ _ fails h =>
    cases h with
    | printf _ _ _ _ _ _ _ _ h =>
    obtain ⟨o₂, rfl, after⟩ := prints_threadPart h
    cases after with
    | exit => exact ⟨rfl, by simp [Source.childOutput], fun _ => fails⟩

/-- The parent is at `k`, while its child is stopped. -/
def StoppedChild (policy : Policy) (exec : Pid → Bool) (e : Environment) (source : Source)
    (k : Code Unit) (pending : Option Status) : Prop :=
  ∃ s P c K, Reaches (next policy) exec (.start (source.main e) ()) s [] P c ∧ c.code = k ∧
    c.finished = none ∧ s.proc [0] = some K ∧ K.life = .stopped ∧ K.report = pending

variable {k : Code Unit} {pending : Option Status}

/-- A step of the parent leaves the child alone. -/
theorem StoppedChild.goto {code : Code Unit} (h : StoppedChild policy exec e source code pending)
    (does : ∀ c : Image Unit, c.finished = none → c.code = code →
      ∃ c', next policy c = .goto c' ∧ c'.finished = none ∧ c'.code = k) :
    StoppedChild policy exec e source k pending := by
  obtain ⟨s, P, c, K, here, at_code, running, kid, stopped, report⟩ := h
  obtain ⟨c', goes, running', code'⟩ := does c running at_code
  exact ⟨_, _, _, K, here.goto goes, code', running', (s.proc_set_parent [] 0 _).trans kid, stopped,
    report⟩

theorem StoppedChild.printf {text : Unit → List Byte}
    (h : StoppedChild policy exec e source (.printf text k) pending) :
    StoppedChild policy exec e source k pending :=
  h.goto fun _ running code => ⟨_, next_of_code running code, running, rfl⟩

theorem StoppedChild.fflush (h : StoppedChild policy exec e source (.fflush k) pending) :
    StoppedChild policy exec e source k pending :=
  h.goto fun _ running code => ⟨_, next_of_code running code, running, rfl⟩

theorem StoppedChild.threadPart (lines : List (List Byte))
    (h : StoppedChild policy exec e source (threadPart lines k) pending) :
    StoppedChild policy exec e source k pending := by
  induction lines with
  | nil => exact h
  | cons line lines ih => exact ih h.printf

/-- `waitpid` returns although the child is alive. -/
theorem StoppedChild.waitChild {signal : Nat}
    (h : StoppedChild policy exec e source (waitChild (.child [0]) k) (some (.stopped signal))) :
    StoppedChild policy exec e source k none := by
  obtain ⟨s, P, c, K, here, code, running, kid, stopped, report⟩ := h
  have does : next policy c = .waitpid (.child [0])
      (fun status => c.told status (.printf (fun _ => statusText (ascii "childpid ") status) <|
        .printf (fun _ => doneText) <| .fflush k)) { c with code := .exit (-1) } :=
    next_of_code running code
  have told : StoppedChild policy exec e source
      (.printf (fun _ => statusText (ascii "childpid ") (.stopped signal)) <|
        .printf (fun _ => doneText) <| .fflush k) none :=
    ⟨_, _, _, K.reap, here.report does kid report (by simp [Target.covers]), rfl, running,
      Table.proc_set_self _ _ _, stopped, rfl⟩
  exact told.printf.printf.fflush

end Source

end GenericTests.Forks.Callsys
