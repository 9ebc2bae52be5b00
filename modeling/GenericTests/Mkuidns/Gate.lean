import GenericTests.Mkuidns.Model

/-!
# mkuidns.c: what the child may find when it goes on, and whether it goes on at all

Nothing but the two bytes from the parent lets the child pass: it holds the writing end of
the socket pair itself, so its `read` never sees an end of file. The parent sends them
after the three map files whatever the kernel said to its writes, and it never sends them
after a failed `open`.
-/
namespace GenericTests.Mkuidns

open GenericTests.Processes GenericTests.Transition

/-- The parent has sent the message. -/
def ParentPc.released : ParentPc → Bool
  | .waitpid => true
  | .exited status => decide (status = 0)
  | _ => false

/-- The files the parent has written to. -/
def ParentPc.passed : ParentPc → List MapFile
  | .openFile .uidMap | .writeFile .uidMap => []
  | .openFile .setgroups | .writeFile .setgroups => [.uidMap]
  | .openFile .gidMap | .writeFile .gidMap => [.uidMap, .setgroups]
  | .writeGo | .waitpid => [.uidMap, .setgroups, .gidMap]
  | .exited status => if status = 0 then [.uidMap, .setgroups, .gidMap] else []
  | .openFailed _ | .kill | .exitFailed => []

/-- On the error path. -/
def ParentPc.failed : ParentPc → Bool
  | .openFailed _ | .kill | .exitFailed => true
  | .exited status => decide (status ≠ 0)
  | _ => false

def ChildPc.isTerminated : ChildPc → Bool
  | .terminated _ => true
  | _ => false

structure Inv (o : Setting) (s : State) : Prop where
  passed : ∀ f ∈ s.parent.passed, o.opens f = true ∧
    (o.writes f = true → s.accepted f = some (o.contents f))
  opened : ∀ f, s.parent = .writeFile f → o.opens f = true
  refused : ∀ f, o.writes f = false → s.accepted f = none
  failed : s.parent.failed = true → ∃ f, o.opens f = false
  gate : s.parent.released = false →
    s.stream = [] ∧ s.calls = [] ∧ (s.child = .read ∨ s.child.isTerminated = true)
  waited : s.parent = .exited 0 → s.child.isTerminated = true

theorem inv_initial (o : Setting) : Inv o initial where
  passed := nofun
  opened _ h := nomatch h
  refused _ _ := rfl
  failed h := nomatch h
  gate _ := ⟨rfl, rfl, .inl rfl⟩
  waited h := nomatch h

theorem isTerminated_signalled (c : ChildPc) (signal : Nat) (h : c.isTerminated = true) :
    (c.signalled signal).isTerminated = true := by
  cases c <;> first | rfl | cases h

theorem read_signalled (c : ChildPc) (signal : Nat) (h : c = .read ∨ c.isTerminated = true) :
    c.signalled signal = .read ∨ (c.signalled signal).isTerminated = true := by
  rcases h with rfl | ended
  · simp only [ChildPc.signalled]
    split
    · exact .inr rfl
    · exact .inl rfl
  · exact .inr (isTerminated_signalled c signal ended)

/-! ### The parent -/

section Steps

variable {o : Setting} {s : State}

/-- The files that will be passed after a write are those before and the one written. -/
theorem passed_next (f : MapFile) :
    f.next.passed = (ParentPc.writeFile f).passed ++ [f] := by
  cases f <;> rfl

theorem inv_write (inv : Inv o s) (f : MapFile) (pc : s.parent = .writeFile f) :
    Inv o { s with
      parent := f.next
      accepted := if o.writes f then Function.update s.accepted f (some (o.contents f))
        else s.accepted } := by
  have early : s.parent.released = false := by rw [pc]; rfl
  have moves : f.next.failed = false ∧ f.next.released = false ∧ f.next ≠ .exited 0 ∧
      ∀ g, f.next ≠ .writeFile g := by
    cases f <;> exact ⟨rfl, rfl, nofun, nofun⟩
  constructor
  · intro g member
    simp only at member
    rw [passed_next, List.mem_append, List.mem_singleton] at member
    -- a file that was passed before, or the one that is written now
    rcases member with before | rfl
    · obtain ⟨opened, accepted⟩ := inv.passed g (pc ▸ before)
      refine ⟨opened, fun writes => ?_⟩
      have known := accepted writes
      split
      · by_cases e : g = f
        · subst e
          exact Function.update_self _ _ _
        · simp only [Function.update_of_ne e]
          exact known
      · exact known
    · refine ⟨inv.opened g pc, fun writes => ?_⟩
      simp only [writes, if_true]
      exact Function.update_self _ _ _
  · intro g h
    exact absurd h (moves.2.2.2 g)
  · intro g refused
    have before := inv.refused g refused
    split
    next accepted =>
      have e : g ≠ f := by
        rintro rfl
        cases refused.symm.trans accepted
      simp only [Function.update_of_ne e]
      exact before
    next => exact before
  · intro h
    cases moves.1.symm.trans h
  · exact fun _ => inv.gate early
  · exact fun h => absurd h moves.2.2.1

theorem inv_parent {t : State} (inv : Inv o s) (moved : parentStep o s = some t) : Inv o t := by
  unfold parentStep at moved
  split at moved
  next f pc =>
    cases moved
    have gate := inv.gate (by rw [pc]; rfl)
    have passed := inv.passed
    rw [pc] at passed
    cases opens : o.opens f with
    | true =>
      refine ⟨fun g member => passed g ?_, ?_, inv.refused, nofun, fun _ => gate, nofun⟩
      · cases f <;> exact member
      · intro g same
        cases same
        exact opens
    | false => exact ⟨nofun, nofun, inv.refused, fun _ => ⟨f, opens⟩, fun _ => gate, nofun⟩
  next f pc =>
    cases moved
    exact inv_write inv f pc
  next f pc =>
    cases moved
    exact ⟨nofun, nofun, inv.refused, fun _ => inv.failed (by rw [pc]; rfl),
      fun _ => inv.gate (by rw [pc]; rfl), nofun⟩
  next pc =>
    cases moved
    -- wherever the signal finds the child, it is in its read or has ended afterwards, too
    obtain ⟨stream, calls, child⟩ := inv.gate (by rw [pc]; rfl)
    exact ⟨nofun, nofun, inv.refused, fun _ => inv.failed (by rw [pc]; rfl),
      fun _ => ⟨stream, calls, read_signalled s.child sigterm child⟩, nofun⟩
  next pc =>
    cases moved
    exact ⟨nofun, nofun, inv.refused, fun _ => inv.failed (by rw [pc]; rfl),
      fun _ => inv.gate (by rw [pc]; rfl), nofun⟩
  next pc =>
    cases moved
    have passed := inv.passed
    rw [pc] at passed
    exact ⟨passed, nofun, inv.refused, nofun, nofun, nofun⟩
  next pc =>
    split at moved
    next status ended =>
      cases moved
      have passed := inv.passed
      rw [pc] at passed
      refine ⟨passed, nofun, inv.refused, nofun, nofun, fun _ => ?_⟩
      simp only [ended]
      rfl
    next => cases moved
  next => cases moved

/-! ### The child -/

/-- The child does not move before the parent has sent the message. -/
theorem released_of_childStep {ok : Bool} {t : State} (inv : Inv o s)
    (moved : childStep o s ok = some t) : s.parent.released = true := by
  by_contra early
  obtain ⟨stream, -, child⟩ := inv.gate (by simpa using early)
  rcases child with reads | ended
  · -- it holds the writing end itself
    have holders : s.holders ≠ [] := by simp [State.holders, reads]
    simp only [childStep, reads, stream, holders, ne_eq, not_false_eq_true, and_self, if_true] at moved
    cases moved
  · cases place : s.child with
    | terminated status =>
      simp only [childStep, place] at moved
      cases moved
    | read | mkdir _ | mount _ | chroot | chdir | accessExists | accessExecutes | printArgs | execve
    | command =>
      rw [place] at ended
      cases ended

theorem parent_childStep {ok : Bool} {t : State} (moved : childStep o s ok = some t) :
    t.parent = s.parent ∧ t.accepted = s.accepted ∧ s.child.isTerminated = false := by
  have called (s : State) (ok : Bool) (next : ChildPc) :
      (s.called ok next).parent = s.parent ∧ (s.called ok next).accepted = s.accepted := by
    unfold State.called
    split <;> exact ⟨rfl, rfl⟩
  unfold childStep at moved
  split at moved
  next pc =>
    split at moved
    · cases moved
    · cases moved
      exact ⟨rfl, rfl, by rw [pc]; rfl⟩
  case h_2 pc | h_8 pc =>
    cases moved
    exact ⟨rfl, rfl, by rw [pc]; rfl⟩
  case h_10 | h_11 => cases moved
  all_goals
    next pc =>
    cases moved
    exact ⟨(called _ ok _).1, (called _ ok _).2, by rw [pc]; rfl⟩

theorem inv_child {ok : Bool} {t : State} (inv : Inv o s) (moved : childStep o s ok = some t) :
    Inv o t := by
  have released := released_of_childStep inv moved
  obtain ⟨parent, accepted, running⟩ := parent_childStep moved
  constructor
  · rw [parent, accepted]
    exact inv.passed
  · rw [parent]
    exact inv.opened
  · rw [accepted]
    exact inv.refused
  · rw [parent]
    exact inv.failed
  · rw [parent, released]
    nofun
  · rw [parent]
    intro finished
    cases running.symm.trans (inv.waited finished)

theorem inv_step {a : Act} {t : State} (inv : Inv o s) (h : step o s a = some t) : Inv o t := by
  cases a with
  | parent => exact inv_parent inv h
  | child ok => exact inv_child inv h
  | finish status =>
    simp only [step] at h
    split at h
    next command =>
      cases h
      refine { inv with gate := fun early => ?_, waited := fun _ => rfl }
      obtain ⟨stream, calls, -⟩ := inv.gate early
      exact ⟨stream, calls, .inr rfl⟩
    next => cases h
  | signal signal =>
    cases h
    refine { inv with gate := fun early => ?_, waited := fun finished => ?_ }
    · obtain ⟨stream, calls, child⟩ := inv.gate early
      exact ⟨stream, calls, read_signalled s.child signal child⟩
    · exact isTerminated_signalled s.child signal (inv.waited finished)

theorem inv_reachable (o : Setting) (s : State) (h : (system o).Reachable s) : Inv o s := by
  apply (system o).reachable_invariant (Inv o) ?_ ?_ s h
  · rintro s₀ rfl
    exact inv_initial o
  · intro s a t inv hs
    exact inv_step inv hs

end Steps

/-! ### The mapping at the first mount -/

/-- The kernel has accepted the three writes. -/
def Mapped (o : Setting) (s : State) : Prop := ∀ f, s.accepted f = some (o.contents f)

/-- The child has called `mount` or `chroot`. -/
def State.Entered (s : State) : Prop := ∃ call ∈ s.calls, call.privileged = true

section Runs

variable {o : Setting} {s t : State}

theorem reachable_parent (h : (system o).Reachable s) (moved : parentStep o s = some t) :
    (system o).Reachable t :=
  h.step (a := .parent) moved

theorem reachable_open (h : (system o).Reachable s) (f : MapFile) (pc : s.parent = .openFile f) :
    (system o).Reachable
      { s with parent := if o.opens f then .writeFile f else .openFailed f } := by
  apply reachable_parent h
  simp only [parentStep, pc]

/-- The parent comes to a file if it could open those before. -/
theorem reachable_openFile (f : MapFile) (opens : ∀ g ∈ (ParentPc.openFile f).passed, o.opens g = true) :
    ∃ s, (system o).Reachable s ∧ s.parent = .openFile f ∧ s.child = .read ∧ s.stream = [] := by
  have first := reachable_open ((system o).reachable_init initial rfl) .uidMap rfl
  cases f with
  | uidMap => exact ⟨initial, (system o).reachable_init initial rfl, rfl, rfl, rfl⟩
  | setgroups =>
    rw [if_pos (opens .uidMap (by decide))] at first
    exact ⟨_, reachable_parent first rfl, rfl, rfl, rfl⟩
  | gidMap =>
    rw [if_pos (opens .uidMap (by decide))] at first
    have second := reachable_open (reachable_parent first rfl) .setgroups rfl
    rw [if_pos (opens .setgroups (by decide))] at second
    exact ⟨_, reachable_parent second rfl, rfl, rfl, rfl⟩

theorem reachable_entered (opens : ∀ f, o.opens f = true) :
    ∃ s, (system o).Reachable s ∧ s.Entered := by
  obtain ⟨s, h, pc, child, stream⟩ := reachable_openFile (o := o) .gidMap fun g _ => opens g
  have third := reachable_open h .gidMap pc
  rw [if_pos (opens .gidMap)] at third
  have sent := reachable_parent (reachable_parent third rfl) rfl
  have passed := sent.step (a := .child true) (by
    simp only [system, step, childStep, child, stream]
    rfl)
  have made := (passed.step (a := .child true) rfl).step (a := .child true) rfl
  exact ⟨_, made, .mount .lib64, by simp [State.called, State.call], rfl⟩

end Runs

/-- **The gate**: the child makes its first mount under a complete mapping, in every
interleaving, if and only if some `open` fails or the kernel accepts all three writes. -/
theorem mapped_at_entry_iff (o : Setting) :
    (∀ s, (system o).Reachable s → s.Entered → Mapped o s) ↔
      ((∀ f, o.opens f = true) → ∀ f, o.writes f = true) := by
  constructor
  · intro gated opens f
    obtain ⟨s, h, entered⟩ := reachable_entered opens
    have mapped := gated s h entered f
    cases writes : o.writes f with
    | true => rfl
    | false => cases ((inv_reachable o s h).refused f writes).symm.trans mapped
  · rintro complete s h ⟨call, member, -⟩ f
    have inv := inv_reachable o s h
    -- a child that has entered was released by its parent
    have released : s.parent.released = true := by
      by_contra early
      rw [(inv.gate (by simpa using early)).2.1] at member
      cases member
    have all : ∀ f, f ∈ s.parent.passed := by
      intro f
      cases pc : s.parent with
      | waitpid => cases f <;> decide
      | exited status =>
        rw [pc] at released
        have zero : status = 0 := of_decide_eq_true released
        rw [zero]
        cases f <;> decide
      | openFile _ | writeFile _ | openFailed _ | kill | exitFailed | writeGo =>
        rw [pc] at released
        cases released
    exact (inv.passed f (all f)).2 (complete (fun g => (inv.passed g (all g)).1) f)

/-- The kernel refuses the uid map, and the child mounts `/lib64` without one. -/
theorem not_mapped_at_entry :
    ¬ ∀ (o : Setting) (s : State), (system o).Reachable s → s.Entered → Mapped o s := by
  intro claim
  have reached : (system ⟨1000, 1000, .zeros bufSize, [], fun _ => true,
      fun f => decide (f ≠ .uidMap)⟩).Reachable _ :=
    ⟨initial, List.replicate 7 Act.parent ++ List.replicate 3 (Act.child true), rfl, rfl⟩
  have accepted := claim _ _ reached ⟨.mount .lib64, .tail _ (.head _), rfl⟩ .uidMap
  cases accepted

/-! ### A stranded child -/

/-- The parent is gone and the child waits for its message. -/
def State.Stranded (s : State) : Prop := (∃ status, s.parent = .exited status) ∧ s.Blocked

theorem stranded_of_open_failed {o : Setting} {s : State} (h : (system o).Reachable s)
    (f : MapFile) (pc : s.parent = .openFile f) (child : s.child = .read) (stream : s.stream = [])
    (fails : o.opens f = false) : ∃ t, (system o).Reachable t ∧ t.Stranded := by
  have failed := reachable_open h f pc
  rw [fails] at failed
  have gone := reachable_parent (reachable_parent (reachable_parent failed rfl) rfl) rfl
  -- `SIGTERM` has done nothing to the child
  have waits : s.child.signalled sigterm = .read := by
    rw [child]
    rfl
  exact ⟨_, gone, ⟨2, rfl⟩, waits, stream, by simp [State.holders, waits]⟩

/-- **No stranded child**, in any interleaving, if and only if no `open` fails. -/
theorem not_stranded_iff (o : Setting) :
    (∀ s, (system o).Reachable s → ¬ s.Stranded) ↔ ∀ f, o.opens f = true := by
  constructor
  · intro safe
    -- file by file: the parent comes to the next one if it could open this one
    have each (f : MapFile) (before : ∀ g ∈ (ParentPc.openFile f).passed, o.opens g = true) :
        o.opens f = true := by
      cases opens : o.opens f with
      | true => rfl
      | false =>
        obtain ⟨s, h, pc, child, stream⟩ := reachable_openFile f before
        obtain ⟨t, reached, stranded⟩ := stranded_of_open_failed h f pc child stream opens
        exact absurd stranded (safe t reached)
    have first := each .uidMap nofun
    have second := each .setgroups (by simpa [ParentPc.passed] using first)
    have third := each .gidMap (by simpa [ParentPc.passed] using ⟨first, second⟩)
    intro f
    cases f with
    | uidMap => exact first
    | setgroups => exact second
    | gidMap => exact third
  · rintro opens s h ⟨⟨status, finished⟩, reads, -⟩
    have inv := inv_reachable o s h
    by_cases zero : status = 0
    · -- it has waited for the child
      subst zero
      have ended := inv.waited finished
      rw [reads] at ended
      cases ended
    · obtain ⟨f, fails⟩ := inv.failed (by rw [finished]; simp [ParentPc.failed, zero])
      cases fails.symm.trans (opens f)

/-- The uid map cannot be opened: the parent exits with 2 and leaves the child behind. -/
theorem stranded_child :
    ¬ ∀ (o : Setting) (s : State), (system o).Reachable s → ¬ s.Stranded := by
  intro claim
  have reached : (system ⟨1000, 1000, .zeros bufSize, [], fun f => decide (f ≠ .uidMap),
      fun _ => true⟩).Reachable _ :=
    ⟨initial, List.replicate 4 .parent, rfl, rfl⟩
  exact claim _ _ reached ⟨⟨2, rfl⟩, rfl, rfl, by decide⟩

end GenericTests.Mkuidns
