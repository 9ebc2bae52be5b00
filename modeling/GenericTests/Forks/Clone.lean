import GenericTests.Lib.CString
import GenericTests.Lib.Processes

/-!
# clone.c

main makes five children one after the other, two of which it sends a signal, and calls
`waitpid(0, ...)` once for each. Nothing but the two calls of `sleep` keeps a child from
ending before its signal, and the call that waits for a child would take any other.
-/
namespace GenericTests.Forks.Clone

open GenericTests.CString GenericTests.Processes GenericTests.Transition

/-- The calls of `clone`, by what is to happen to the child. -/
inductive Phase where
  | segfault
  | divide
  | terminate
  | stop
  | exit
  deriving DecidableEq

def Phase.all : List Phase := [.segfault, .divide, .terminate, .stop, .exit]

/-- The phases before this one. -/
def Phase.earlier : Phase → List Phase
  | .segfault => []
  | .divide => [.segfault]
  | .terminate => [.segfault, .divide]
  | .stop => [.segfault, .divide, .terminate]
  | .exit => [.segfault, .divide, .terminate, .stop]

def Phase.next : Phase → Option Phase
  | .segfault => some .divide
  | .divide => some .terminate
  | .terminate => some .stop
  | .stop => some .exit
  | .exit => none

/-- The argument of fn: a null pointer, or a pointer to `intarg` with this value. -/
def Phase.arg : Phase → Option Int
  | .segfault => none
  | .divide => some 0
  | .terminate => some 1
  | .stop => some 1
  | .exit => some 3

/-- The numbers of the signals; `SIGSTOP` differs between the machines. -/
structure Signals where
  segv : Nat
  fpe : Nat
  term : Nat
  stop : Nat

def Phase.expects (sig : Signals) : Phase → Option Nat
  | .terminate => some sig.term
  | .stop => some sig.stop
  | .segfault | .divide | .exit => none

/-! ### fn -/

inductive FnPc where
  | enter
  | load
  | divide
  | branch
  | ret

/-- A child; its memory is a copy, so `arg` does not change any more. -/
structure Kid where
  life : Life
  report : Option Status
  pc : FnPc
  arg : Option Int

def Kid.born (arg : Option Int) : Kid := ⟨.running, none, .enter, arg⟩

def Kid.end (K : Kid) (status : Status) : Kid := { K with life := .ended status, report := some status }

def Kid.reap (K : Kid) : Kid := { K with report := none }

/-- fn, without its lines; `traps` tells whether a division by zero does on this machine. -/
def fn (sig : Signals) (traps : Bool) (K : Kid) : Kid :=
  match K.pc with
  | .enter => { K with pc := .load }
  | .load =>
    match K.arg with
    | none => K.end (.killed sig.segv)
    | some _ => { K with pc := .divide }
  | .divide =>
    if K.arg = some 0 ∧ traps = true then K.end (.killed sig.fpe) else { K with pc := .branch }
  -- with 1 the child sleeps here
  | .branch => { K with pc := .ret }
  | .ret => K.end (exitStatus (K.arg.getD 0))

/-! ### main -/

/-- What main says about the child of each phase. -/
def verdict (sig : Signals) : Phase → Status → List Byte
  | .segfault, .killed signal =>
    if signal = sig.segv then ascii "killed by segfault as expected\n"
    else ascii "Expect segfault but killed unexpectedly by signal " ++ decimal signal ++ ascii "\n"
  | .segfault, .exited status =>
    ascii "Expect segfault but unexpectedly exited normally, status=" ++ decimal status ++ ascii "\n"
  | .segfault, .stopped _ | .segfault, .continued =>
    ascii "Expect segfault but unexpectedly continued or stopped\n"
  | .divide, .killed signal =>
    if signal = sig.fpe then ascii "killed by floating point error as expected\n"
    else ascii "Expect fpe but killed unexpectedly by signal " ++ decimal signal ++ ascii "\n"
  | .divide, .exited status =>
    ascii "Expect fpe but unexpectedly exited normally, status=" ++ decimal status ++ ascii "\n"
  | .divide, .stopped _ | .divide, .continued =>
    ascii "Expect fpe but unexpectedly continued or stopped\n"
  | .terminate, .killed signal =>
    if signal = sig.term then ascii "killed by sigterm as expected\n"
    else ascii "Expect sigterm but killed unexpectedly by signal " ++ decimal signal ++ ascii "\n"
  | .terminate, .exited status =>
    ascii "Exited normally but expected sigterm , status=" ++ decimal status ++ ascii "\n"
  | .terminate, .stopped signal => ascii "stopped by signal " ++ decimal signal ++ ascii "\n"
  | .terminate, .continued => ascii "Unexpectedly continued or stopped\n"
  | .stop, .killed signal =>
    ascii "Unexpectedly killed  by signal " ++ decimal signal ++ ascii "\n"
  | .stop, .exited status =>
    ascii "Exited normally as expected, status=" ++ decimal status ++ ascii "\n"
  | .stop, .stopped signal =>
    if signal = sig.stop then ascii "stopped by sig stop as expected\n"
    else ascii "stopped by signal " ++ decimal signal ++ ascii " not " ++ decimal sig.stop ++
      ascii "\n"
  | .stop, .continued => ascii "Unexpectedly continued or stopped\n"
  | .exit, .killed signal =>
    ascii "Unexpectdely killed  by signal " ++ decimal signal ++ ascii "\n"
  | .exit, .exited status =>
    ascii "Exited normally as expected, status=" ++ decimal status ++ ascii "\n"
  | .exit, .stopped _ | .exit, .continued => ascii "Unexpectedly continued or stopped\n"

inductive Pc where
  | clone (phase : Phase)
  | kill (phase : Phase)
  | wait (phase : Phase)
  | verdict (phase : Phase)
  | free
  | done

structure State where
  pc : Pc
  status : Status
  kids : Phase → Option Kid
  /-- what main has printed since the first call of `clone` -/
  out : List (List Byte)

/-- `status` is not initialised. -/
def State.initial (status : Status) : State := ⟨.clone .segfault, status, fun _ => none, []⟩

def State.setKid (s : State) (φ : Phase) (K : Kid) : State :=
  { s with kids := Function.update s.kids φ (some K) }

/-- `kill`; it succeeds and does nothing if the child has ended already. -/
def kill (sig : Signals) (φ : Phase) (K : Kid) : Kid :=
  match φ, K.life with
  | .terminate, .running => K.end (.killed sig.term)
  | .stop, .running => { K with life := .stopped, report := some (.stopped sig.stop) }
  | _, _ => K

/-- main, apart from the return of `waitpid` -/
def mainStep (sig : Signals) (s : State) : Option State :=
  match s.pc with
  | .clone φ => some { s.setKid φ (.born φ.arg) with
      pc := if (φ.expects sig).isSome then .kill φ else .wait φ }
  | .kill φ => (s.kids φ).map fun K => { s.setKid φ (kill sig φ K) with pc := .wait φ }
  | .wait _ => none
  | .verdict φ => some { s with
      pc := φ.next.elim .free .clone
      out := s.out ++ [verdict sig φ s.status] }
  | .free => some { s with
      pc := .done
      out := s.out ++ [ascii "INFO: Child process terminated.\n"] }
  | .done => none

/-- `waitpid(0, ...)` takes any child that has something to report. -/
def waitpid (s : State) (ψ : Phase) : Option State :=
  match s.pc, s.kids ψ with
  | .wait φ, some K => K.report.map fun status =>
      { s.setKid ψ K.reap with pc := .verdict φ, status := status }
  | _, _ => none

def Kid.reaped (K : Kid) : Bool :=
  match K.life, K.report with
  | .ended _, none => true
  | _, _ => false

/-- `waitpid(0, ...)` fails if no child is left, which main does not look at. -/
def noChild (s : State) : Option State :=
  match s.pc with
  | .wait φ =>
    if Phase.all.all fun ψ => (s.kids ψ).all Kid.reaped then some { s with pc := .verdict φ }
    else none
  | _ => none

inductive Act where
  | main
  | waitpid (ψ : Phase)
  | noChild
  | kid (φ : Phase)

def step (sig : Signals) (traps : Bool) (s : State) : Act → Option State
  | .main => mainStep sig s
  | .waitpid ψ => waitpid s ψ
  | .noChild => noChild s
  | .kid φ => (s.kids φ).bind fun K =>
      if K.life = .running then some (s.setKid φ (fn sig traps K)) else none

/-- Any interleaving of main and its children; no signals come from outside. -/
def clone (sig : Signals) (traps : Bool) : System State Act where
  init s := ∃ status, s = .initial status
  step := step sig traps

/-! ### The invariant -/

/-- How the child of a phase ends. -/
def Ends (sig : Signals) (traps : Bool) : Phase → Status → Prop
  | .segfault, e => e = .killed sig.segv
  | .divide, e => e = if traps then .killed sig.fpe else .exited 0
  | .terminate, e => e = .killed sig.term ∨ e = .exited 1
  | .stop, e => e = .exited 1
  | .exit, e => e = .exited 3

/-- What `waitpid` tells of it. -/
def Reported (sig : Signals) (traps : Bool) (φ : Phase) (e : Status) : Prop :=
  Ends sig traps φ e ∨ φ = .stop ∧ e = .stopped sig.stop

/-- The places of fn the child of a phase comes to. -/
def OnItsWay (traps : Bool) : Phase → FnPc → Prop
  | _, .enter | _, .load => True
  | .segfault, _ => False
  | .divide, .divide => True
  | .divide, _ => traps = false
  | _, _ => True

/-- A child that nothing has been told of. -/
inductive Fresh (sig : Signals) (traps : Bool) (φ : Phase) (K : Kid) : Prop
  | running (life : K.life = .running) (report : K.report = none) (arg : K.arg = φ.arg)
      (way : OnItsWay traps φ K.pc)
  | stopped (phase : φ = .stop) (life : K.life = .stopped)
      (report : K.report = some (.stopped sig.stop))
  | ended (e : Status) (ends : Ends sig traps φ e) (life : K.life = .ended e)
      (report : K.report = some e)

/-- A child of an earlier phase: it has ended, or it stays stopped. -/
structure Past (sig : Signals) (traps : Bool) (φ : Phase) (e : Status) (K : Kid) : Prop where
  told : Reported sig traps φ e
  report : K.report = none
  life : K.life = .ended e ∧ Ends sig traps φ e ∨ K.life = .stopped ∧ e = .stopped sig.stop

/-- The children of these phases have been reported as `told` says, and main has said so. -/
structure Behind (sig : Signals) (traps : Bool) (told : Phase → Status) (phases : List Phase)
    (s : State) : Prop where
  past : ∀ ψ ∈ phases, ∃ K, s.kids ψ = some K ∧ Past sig traps ψ (told ψ) K
  absent : ∀ ψ, ψ ∉ phases → s.kids ψ = none

def verdicts (sig : Signals) (told : Phase → Status) (phases : List Phase) : List (List Byte) :=
  phases.map fun φ => verdict sig φ (told φ)

def PcInv (sig : Signals) (traps : Bool) (told : Phase → Status) (s : State) : Prop :=
  match s.pc with
  | .clone φ => Behind sig traps told φ.earlier s ∧ s.out = verdicts sig told φ.earlier
  | .kill φ | .wait φ => s.out = verdicts sig told φ.earlier ∧
      ∃ K, s.kids φ = some K ∧ Fresh sig traps φ K ∧
        Behind sig traps told φ.earlier { s with kids := Function.update s.kids φ none }
  | .verdict φ => Behind sig traps told (φ.earlier ++ [φ]) s ∧ s.out = verdicts sig told φ.earlier ∧
      told φ = s.status
  | .free => Behind sig traps told Phase.all s ∧ s.out = verdicts sig told Phase.all
  | .done => Behind sig traps told Phase.all s ∧
      s.out = verdicts sig told Phase.all ++ [ascii "INFO: Child process terminated.\n"]

theorem not_mem_earlier (φ : Phase) : φ ∉ φ.earlier := by
  cases φ <;> decide

theorem earlier_next {φ ψ : Phase} (h : φ.next = some ψ) : ψ.earlier = φ.earlier ++ [φ] := by
  cases φ <;> cases h <;> rfl

theorem all_of_last {φ : Phase} (h : φ.next = none) : Phase.all = φ.earlier ++ [φ] := by
  cases φ <;> cases h
  rfl

section Steps

variable {sig : Signals} {traps : Bool} {told : Phase → Status} {s t : State}

theorem fresh_born (φ : Phase) : Fresh sig traps φ (.born φ.arg) :=
  .running rfl rfl rfl (by cases φ <;> exact trivial)

theorem fresh_fn {φ : Phase} {K : Kid} (h : Fresh sig traps φ K) (running : K.life = .running) :
    Fresh sig traps φ (fn sig traps K) := by
  cases h with
  | stopped phase life => cases running.symm.trans life
  | ended e ends life => cases running.symm.trans life
  | running life report arg way =>
    obtain ⟨_, _, pc, _⟩ := K
    cases life
    cases report
    cases arg
    cases pc with
    | enter => exact .running rfl rfl rfl (by cases φ <;> exact trivial)
    | load =>
      cases φ with
      | segfault => exact .ended _ rfl rfl rfl
      | divide | terminate | stop | exit => exact .running rfl rfl rfl trivial
    | divide =>
      cases φ with
      | segfault => cases way
      | divide =>
        cases traps with
        | true => exact .ended _ rfl rfl rfl
        | false => exact .running rfl rfl rfl rfl
      | terminate | stop | exit => exact .running rfl rfl rfl trivial
    | branch =>
      cases φ with
      | segfault => cases way
      | divide => exact .running rfl rfl rfl way
      | terminate | stop | exit => exact .running rfl rfl rfl trivial
    | ret =>
      cases φ with
      | segfault => cases way
      | divide =>
        cases (show traps = false from way)
        exact .ended _ rfl rfl rfl
      | terminate => exact .ended _ (.inr rfl) rfl rfl
      | stop => exact .ended _ rfl rfl rfl
      | exit => exact .ended _ rfl rfl rfl

theorem fresh_kill {φ : Phase} {K : Kid} (h : Fresh sig traps φ K) :
    Fresh sig traps φ (kill sig φ K) := by
  cases h with
  | running life report arg way =>
    cases φ with
    | terminate =>
      simp only [kill, life]
      exact .ended _ (.inl rfl) rfl rfl
    | stop =>
      simp only [kill, life]
      exact .stopped rfl rfl rfl
    | segfault | divide | exit => exact .running life report arg way
  | stopped phase life report =>
    subst phase
    simp only [kill, life]
    exact .stopped rfl life report
  | ended e ends life report =>
    have same : kill sig φ K = K := by
      cases φ <;> simp only [kill, life]
    rw [same]
    exact .ended e ends life report

/-- The report of a child is the first one and, unless it was stopped, the last one. -/
theorem Fresh.reap {φ : Phase} {K : Kid} {e : Status} (h : Fresh sig traps φ K)
    (report : K.report = some e) : Past sig traps φ e K.reap := by
  cases h with
  | running life silent =>
    rw [silent] at report
    cases report
  | stopped phase life said =>
    cases said.symm.trans report
    exact ⟨.inr ⟨phase, rfl⟩, rfl, .inr ⟨life, rfl⟩⟩
  | ended e' ends life said =>
    cases said.symm.trans report
    exact ⟨.inl ends, rfl, .inl ⟨life, ends⟩⟩

theorem Fresh.unreaped {φ : Phase} {K : Kid} (h : Fresh sig traps φ K) : K.reaped = false := by
  cases h with
  | running life report => simp only [Kid.reaped, life]
  | stopped phase life report => simp only [Kid.reaped, life]
  | ended e ends life report => simp only [Kid.reaped, life, report]

/-- A child of an earlier phase neither moves nor is reported again. -/
theorem Past.settled {φ : Phase} {e : Status} {K : Kid} (h : Past sig traps φ e K) :
    K.life ≠ .running ∧ K.report = none := by
  refine ⟨?_, h.report⟩
  rcases h.life with ⟨life, -⟩ | ⟨life, -⟩ <;> rw [life] <;> exact nofun

/-- The child of this phase joins those of the earlier ones. -/
theorem Behind.add {φ : Phase} {K : Kid} {e : Status} {pc : Pc} {status : Status}
    (h : Behind sig traps told φ.earlier { s with kids := Function.update s.kids φ none })
    (past : Past sig traps φ e K) :
    Behind sig traps (Function.update told φ e) (φ.earlier ++ [φ])
      { s.setKid φ K with pc := pc, status := status } := by
  constructor
  · intro ψ member
    by_cases same : ψ = φ
    · subst same
      refine ⟨K, Function.update_self _ _ _, ?_⟩
      rw [Function.update_self]
      exact past
    · have earlier : ψ ∈ φ.earlier := by simpa [same] using member
      obtain ⟨L, there, old⟩ := h.past ψ earlier
      simp only [Function.update_of_ne same] at there
      refine ⟨L, ?_, ?_⟩
      · simp only [State.setKid, Function.update_of_ne same]
        exact there
      · rw [Function.update_of_ne same]
        exact old
  · intro ψ other
    rw [List.mem_append, List.mem_singleton, not_or] at other
    have none_there := h.absent ψ other.1
    simp only [Function.update_of_ne other.2] at none_there
    simp only [State.setKid, Function.update_of_ne other.2]
    exact none_there

/-- Only the child of this phase has something to report or moves. -/
theorem Behind.only {φ ψ : Phase} {K : Kid}
    (h : Behind sig traps told φ.earlier { s with kids := Function.update s.kids φ none })
    (kid : s.kids ψ = some K) (active : K.life = .running ∨ ∃ e, K.report = some e) : ψ = φ := by
  by_contra other
  have there : ({ s with kids := Function.update s.kids φ none } : State).kids ψ = some K := by
    simp only [Function.update_of_ne other]
    exact kid
  by_cases earlier : ψ ∈ φ.earlier
  · obtain ⟨L, present, old⟩ := h.past ψ earlier
    cases Option.some.inj (there.symm.trans present)
    rcases active with running | ⟨e, report⟩
    · exact old.settled.1 running
    · rw [old.settled.2] at report
      cases report
  · rw [h.absent ψ earlier] at there
    cases there

theorem verdicts_update (phases : List Phase) (φ : Phase) (e : Status) (new : φ ∉ phases) :
    verdicts sig (Function.update told φ e) phases = verdicts sig told phases := by
  apply List.map_congr_left
  intro ψ member
  rw [Function.update_of_ne]
  rintro rfl
  exact new member

theorem inv_mainStep (h : PcInv sig traps told s) (moved : mainStep sig s = some t) :
    PcInv sig traps told t := by
  obtain ⟨pc, status, kids, out⟩ := s
  cases pc with
  | clone φ =>
    cases moved
    obtain ⟨behind, said⟩ := h
    have absent := behind.absent φ (not_mem_earlier φ)
    have before : Function.update (Function.update kids φ (some (.born φ.arg))) φ none = kids := by
      rw [Function.update_idem, ← show kids φ = none from absent, Function.update_eq_self]
    have placed : ∀ pc, pc = .kill φ ∨ pc = .wait φ → PcInv sig traps told
        ⟨pc, status, Function.update kids φ (some (.born φ.arg)), out⟩ := by
      have rest : ∀ pc, Behind sig traps told φ.earlier ⟨pc, status,
          Function.update (Function.update kids φ (some (.born φ.arg))) φ none, out⟩ := by
        rw [before]
        exact fun _ => ⟨behind.past, behind.absent⟩
      rintro pc (rfl | rfl)
      · exact ⟨said, _, Function.update_self _ _ _, fresh_born φ, rest _⟩
      · exact ⟨said, _, Function.update_self _ _ _, fresh_born φ, rest _⟩
    apply placed
    split
    · exact .inl rfl
    · exact .inr rfl
  | kill φ =>
    obtain ⟨said, K, kid, fresh, behind⟩ := h
    simp only [mainStep, show kids φ = some K from kid, Option.map_some] at moved
    cases moved
    refine ⟨said, _, Function.update_self _ _ _, fresh_kill fresh, ?_⟩
    simp only [State.setKid, Function.update_idem]
    exact ⟨behind.past, behind.absent⟩
  | wait φ => cases moved
  | verdict φ =>
    cases moved
    obtain ⟨behind, said, known⟩ := h
    have more : out ++ [verdict sig φ status] = verdicts sig told (φ.earlier ++ [φ]) := by
      rw [verdicts, List.map_append, ← verdicts, ← said, List.map_singleton, known]
    cases last : φ.next with
    | none =>
      have all := all_of_last last
      exact ⟨⟨fun ψ member => behind.past ψ (all ▸ member), fun ψ other => behind.absent ψ (all ▸ other)⟩,
        all ▸ more⟩
    | some ψ =>
      have earlier := earlier_next last
      exact ⟨⟨fun χ member => behind.past χ (earlier ▸ member),
        fun χ other => behind.absent χ (earlier ▸ other)⟩, earlier ▸ more⟩
  | free =>
    cases moved
    exact ⟨⟨h.1.past, h.1.absent⟩, congrArg (· ++ _) h.2⟩
  | done => cases moved

/-- `waitpid(0, ...)` returns the child of this phase, whichever it might take. -/
theorem inv_waitpid {ψ : Phase} (h : PcInv sig traps told s) (moved : waitpid s ψ = some t) :
    ∃ told', PcInv sig traps told' t := by
  obtain ⟨pc, status, kids, out⟩ := s
  unfold waitpid at moved
  split at moved
  next φ K atWait kid =>
    cases atWait
    obtain ⟨e, report, rfl⟩ := Option.map_eq_some_iff.mp moved
    obtain ⟨said, L, there, fresh, behind⟩ := h
    obtain rfl := behind.only kid (.inr ⟨e, report⟩)
    cases Option.some.inj (kid.symm.trans there)
    refine ⟨Function.update told ψ e, behind.add (fresh.reap report), ?_, Function.update_self _ _ _⟩
    rw [verdicts_update _ _ _ (not_mem_earlier ψ)]
    exact said
  next => cases moved

/-- There is always a child to wait for. -/
theorem not_noChild (h : PcInv sig traps told s) : noChild s = none := by
  obtain ⟨pc, status, kids, out⟩ := s
  cases pc with
  | wait φ =>
    obtain ⟨-, K, kid, fresh, -⟩ := h
    have member : φ ∈ Phase.all := by cases φ <;> decide
    have left : ¬(Phase.all.all fun ψ => (kids ψ).all Kid.reaped) = true := by
      intro all
      have reaped := List.all_eq_true.mp all φ member
      rw [show kids φ = some K from kid, Option.all_some, fresh.unreaped] at reaped
      cases reaped
    simp only [noChild, left]
    rfl
  | clone φ => rfl
  | kill φ => rfl
  | verdict φ => rfl
  | free => rfl
  | done => rfl

theorem inv_kid {φ : Phase} {K : Kid} (h : PcInv sig traps told s) (kid : s.kids φ = some K)
    (running : K.life = .running) : PcInv sig traps told (s.setKid φ (fn sig traps K)) := by
  -- a child that runs belongs to the phase main is in
  have settled {phases : List Phase} (behind : Behind sig traps told phases s) : False := by
    by_cases member : φ ∈ phases
    · obtain ⟨L, there, past⟩ := behind.past φ member
      cases Option.some.inj (kid.symm.trans there)
      exact past.settled.1 running
    · rw [behind.absent φ member] at kid
      cases kid
  obtain ⟨pc, status, kids, out⟩ := s
  cases pc with
  | clone ψ => exact (settled h.1).elim
  | verdict ψ => exact (settled h.1).elim
  | free => exact (settled h.1).elim
  | done => exact (settled h.1).elim
  | kill ψ | wait ψ =>
    obtain ⟨said, L, there, fresh, behind⟩ := h
    obtain rfl := behind.only kid (.inl running)
    cases Option.some.inj (kid.symm.trans there)
    refine ⟨said, _, Function.update_self _ _ _, fresh_fn fresh running, ?_⟩
    simp only [State.setKid, Function.update_idem]
    exact ⟨behind.past, behind.absent⟩

theorem inv_reachable (s : State) (h : (clone sig traps).Reachable s) :
    ∃ told, PcInv sig traps told s := by
  refine (clone sig traps).reachable_invariant (fun s => ∃ told, PcInv sig traps told s) ?_ ?_ s h
  · rintro s ⟨status, rfl⟩
    exact ⟨fun _ => status, ⟨nofun, fun _ _ => rfl⟩, rfl⟩
  · rintro s a t ⟨told, inv⟩ moved
    cases a with
    | main => exact ⟨told, inv_mainStep inv moved⟩
    | waitpid ψ => exact inv_waitpid inv moved
    | noChild =>
      have none_left := not_noChild inv
      cases none_left.symm.trans moved
    | kid φ =>
      obtain ⟨K, kid, moved⟩ := Option.bind_eq_some_iff.mp moved
      split at moved
      next running =>
        cases moved
        exact ⟨told, inv_kid inv kid running⟩
      next => cases moved

end Steps

/-- A run of a child before its signal, if there is one. -/
def early (φ : Phase) (first : Bool) : List Act := if first then List.replicate 5 (.kid φ) else []

end GenericTests.Forks.Clone
