import GenericTests.Shmtest.Model

/-!
# The reader can finish

As long as the key is bound, both processes have the same segment. After `IPC_RMID` the
reader is either attached to the completed segment or has nothing left to attach to,
unless its `shmget` comes later still: then it makes a segment that nobody completes.
-/
namespace GenericTests.Shmtest

open GenericTests.CString GenericTests.SharedMemory GenericTests.Transition

def WriterPc.shmid : WriterPc → Option Nat
  | .shmget1 | .exited _ => none
  | .shmget2 id | .shmget2Excl id | .shmat id | .fill id _ | .storeCnt id _ _ | .clear id _
  | .complete id | .shmdt id | .rmid id => some id

/-- The number of attachments of the writer. -/
def WriterPc.attached : WriterPc → Nat
  | .fill _ _ | .storeCnt _ _ _ | .clear _ _ | .complete _ | .shmdt _ => 1
  | .shmget1 | .shmget2 _ | .shmget2Excl _ | .shmat _ | .rmid _ | .exited _ => 0

def ReaderPc.shmid : ReaderPc → Option Nat
  | .shmget | .exited _ => none
  | .shmat id | .test id | .printBuf id | .checkCnt id | .printCnt id | .shmdt id => some id

/-- The segment the reader is attached to. -/
def ReaderPc.attachedTo : ReaderPc → Option Nat
  | .test id | .printBuf id | .checkCnt id | .printCnt id | .shmdt id => some id
  | .shmget | .shmat _ | .exited _ => none

/-- Once the writer has finished, what the reader is attached to or will attach to is
complete; once both have exited, `SHM_KEY1` is free. -/
def CanFinish (s : State) : Prop :=
  (s.writer = .exited 0 →
    (∀ id, s.reader.attachedTo = some id → ∃ seg, s.view id = some seg ∧ seg.complete = 1) ∧
    (∀ id seg, s.reader = .shmat id → s.view id = some seg → seg.complete = 1)) ∧
  ((∃ i, s.writer = .exited i) → (∃ j, s.reader = .exited j) →
    s.segments.keys shmKey1 = none)

/-- The reader does not call `shmget` after the writer's `IPC_RMID`. -/
def ShmgetInTime (s : State) (a : Act) : Prop :=
  match a with
  | .reader => s.reader = .shmget → s.writer ≠ .exited 0
  | .writer => True

/-- Both processes use the segment `id`, which `SHM_KEY1` names. -/
structure Shared (s : State) (id : Nat) (g : Segment Shmseg) : Prop where
  key : s.segments.keys shmKey1 = some id
  seg : s.segments.seg id = some g
  attached : g.attached = s.writer.attached + s.reader.attachedTo.toList.length
  reader : s.reader.shmid = none ∨ s.reader.shmid = some id
  writer : s.writer = .shmget1 ∨ s.writer.shmid = some id
  key2 : ∀ i, s.writer = .shmget2Excl i → ∃ j, s.segments.keys shmKey2 = some j
  complete : ∀ i, s.writer = .shmdt i ∨ s.writer = .rmid i → g.data.complete = 1

inductive Stage (s : State) : Prop where
  | start : s.writer = .shmget1 → s.reader = .shmget → s.segments.keys shmKey1 = none → Stage s
  | shared (id : Nat) (g : Segment Shmseg) : Shared s id g → Stage s
  -- a reader that has an identifier but is not attached will find no segment there
  | removed : s.writer = .exited 0 → s.segments.keys shmKey1 = none →
      (∀ id, s.reader.attachedTo = some id → ∃ seg, s.view id = some seg ∧ seg.complete = 1) →
      (∀ id, s.reader = .shmat id → s.segments.seg id = none) → Stage s

theorem Shared.live {s : State} {id : Nat} {g : Segment Shmseg} (h : Shared s id g) :
    g.removed = false := by
  obtain ⟨g', seg, live⟩ := s.segments.live shmKey1 id h.key
  rw [h.seg] at seg
  cases seg
  exact live

theorem Shared.not_exited {s : State} {id : Nat} {g : Segment Shmseg} (h : Shared s id g) (i : Int) :
    s.writer ≠ .exited i := by
  intro exited
  rcases h.writer with e | e
  · rw [exited] at e
    cases e
  · rw [exited] at e
    cases e

theorem canFinish_of_stage {s : State} (h : Stage s) : CanFinish s := by
  cases h with
  | start writer reader key =>
    refine ⟨fun exited => ?_, fun _ _ => key⟩
    rw [writer] at exited
    cases exited
  | shared id g h =>
    refine ⟨fun exited => absurd exited (h.not_exited 0), ?_⟩
    rintro ⟨i, exited⟩
    exact absurd exited (h.not_exited i)
  | removed writer key attached later =>
    refine ⟨fun _ => ⟨attached, ?_⟩, fun _ _ => key⟩
    intro id seg reader view
    rw [State.view, later id reader] at view
    cases view

/-! ### The writer -/

/-- A store of the writer. -/
private theorem Shared.store {s t : State} {id : Nat} {g : Segment Shmseg} (h : Shared s id g)
    (f : Shmseg → Shmseg) (segments : t.segments = s.segments.store id f)
    (reader : t.reader = s.reader) (before : s.writer.attached = 1)
    (after : t.writer.shmid = some id ∧ t.writer.attached = 1)
    (complete : ∀ i, t.writer = .shmdt i → (f g.data).complete = 1) :
    Shared t id { g with data := f g.data } := by
  refine ⟨?_, ?_, ?_, ?_, .inr after.1, ?_, ?_⟩
  · rw [segments]
    exact h.key
  · rw [segments]
    exact s.segments.modify_seg h.seg
  · rw [reader, after.2, ← before]
    exact h.attached
  · rw [reader]
    exact h.reader
  · intro i excl
    rw [excl] at after
    cases after.2
  · rintro i (shmdt | rmid)
    · exact complete i shmdt
    · rw [rmid] at after
      cases after.2

/-- The identifier in the writer's `shmid` is the shared segment's. -/
private theorem Shared.writer_eq {s : State} {id i : Nat} {g : Segment Shmseg} (h : Shared s id g)
    {pc : WriterPc} (writer : s.writer = pc) (shmid : pc.shmid = some i) : id = i := by
  rcases h.writer with e | e
  · rw [writer] at e
    rw [e] at shmid
    cases shmid
  · rw [writer, shmid] at e
    exact (Option.some.inj e).symm

private theorem Shared.reader_eq {s : State} {id j : Nat} {g : Segment Shmseg} (h : Shared s id g)
    (shmid : s.reader.shmid = some j) : j = id := by
  rcases h.reader with e | e
  · rw [shmid] at e
    cases e
  · rw [shmid] at e
    exact Option.some.inj e

private theorem ReaderPc.shmid_of_attachedTo {pc : ReaderPc} {id : Nat}
    (h : pc.attachedTo = some id) : pc.shmid = some id := by
  cases pc with
  | shmget | shmat | exited => cases h
  | _ => exact h

private theorem writerLoop_attached (id numtimes : Nat) :
    (writerLoop id numtimes).shmid = some id ∧ (writerLoop id numtimes).attached = 1 ∧
      ∀ i, writerLoop id numtimes ≠ .shmdt i := by
  rw [writerLoop]
  split
  · exact ⟨rfl, rfl, fun i h => by cases h⟩
  · exact ⟨rfl, rfl, fun i h => by cases h⟩

/-- The writer moves on between its `shmget` and its `shmat`. -/
private theorem Shared.before_shmat {s t : State} {id : Nat} {g : Segment Shmseg}
    (h : Shared s id g) (key : t.segments.keys shmKey1 = some id)
    (seg : t.segments.seg id = some g) (reader : t.reader = s.reader)
    (before : s.writer.attached = 0)
    (after : t.writer.shmid = some id ∧ t.writer.attached = 0) (notRmid : ∀ i, t.writer ≠ .rmid i)
    (key2 : ∀ i, t.writer = .shmget2Excl i → ∃ j, t.segments.keys shmKey2 = some j) :
    Shared t id g := by
  refine ⟨key, seg, ?_, ?_, .inr after.1, key2, ?_⟩
  · rw [reader, after.2, ← before]
    exact h.attached
  · rw [reader]
    exact h.reader
  · rintro i (shmdt | rmid)
    · rw [shmdt] at after
      cases after.2
    · exact absurd rmid (notRmid i)

/-- `IPC_RMID` frees the key. The segment lives on exactly if the reader is attached. -/
private theorem Shared.removes {s t : State} {id : Nat} {g : Segment Shmseg} (h : Shared s id g)
    (writer : s.writer = .rmid id) (exited : t.writer = .exited 0) (reader : t.reader = s.reader)
    (keys : t.segments.keys = fun k => if s.segments.keys k = some id then none else s.segments.keys k)
    (seg : t.segments.seg id = if g.attached = 0 then none else some { g with removed := true }) :
    Stage t := by
  have attached := h.attached
  rw [writer] at attached
  apply Stage.removed exited
  · rw [keys]
    exact if_pos h.key
  · intro j attachedTo
    rw [reader] at attachedTo
    cases h.reader_eq (ReaderPc.shmid_of_attachedTo attachedTo)
    have some_attached : g.attached ≠ 0 := by simp [attached, attachedTo]
    rw [if_neg some_attached] at seg
    exact ⟨g.data, by simp [State.view, seg], h.complete id (.inr writer)⟩
  · intro j shmat
    rw [reader] at shmat
    cases h.reader_eq (by rw [shmat]; rfl)
    have none_attached : g.attached = 0 := by
      rw [attached, shmat]
      rfl
    rwa [if_pos none_attached] at seg

private theorem writerStep_shared {s t : State} {id : Nat} {g : Segment Shmseg} (h : Shared s id g)
    (hs : writerStep s = some t) : Stage t := by
  rw [writerStep] at hs
  cases writer : s.writer with
  | shmget1 =>
    rw [writer] at hs
    dsimp only at hs
    rw [s.segments.shmget_of_some .zero h.key] at hs
    cases Option.some.inj hs
    exact .shared id g
      (h.before_shmat h.key h.seg rfl (by rw [writer]; rfl) ⟨rfl, rfl⟩ nofun nofun)
  | shmget2 i =>
    rw [writer] at hs
    cases Option.some.inj hs
    cases h.writer_eq writer rfl
    have other : shmKey1 ≠ shmKey2 := by decide
    have key := (s.segments.shmget_keys_other .zero other).trans h.key
    refine .shared id g (h.before_shmat key (s.segments.shmget_seg .zero h.seg) rfl
      (by rw [writer]; rfl) ⟨rfl, rfl⟩ nofun ?_)
    intro _ _
    exact ⟨_, s.segments.shmget_keys_self shmKey2 .zero⟩
  | shmget2Excl i =>
    -- the key is bound since the call before, so IPC_EXCL refuses
    obtain ⟨j, key2⟩ := h.key2 i writer
    rw [writer] at hs
    dsimp only at hs
    rw [s.segments.shmgetExcl_of_some .zero key2] at hs
    cases Option.some.inj hs
    cases h.writer_eq writer rfl
    exact .shared id g
      (h.before_shmat h.key h.seg rfl (by rw [writer]; rfl) ⟨rfl, rfl⟩ nofun nofun)
  | shmat i =>
    cases h.writer_eq writer rfl
    obtain ⟨T, shmat, keys, seg⟩ := s.segments.shmat_of_some h.seg
    rw [writer] at hs
    dsimp only at hs
    rw [shmat] at hs
    cases Option.some.inj hs
    obtain ⟨shmid, one, notShmdt⟩ := writerLoop_attached id 0
    have attached := h.attached
    rw [writer] at attached
    refine .shared id _ ⟨?_, seg, ?_, h.reader, .inr shmid, ?_, ?_⟩
    · exact (congrFun keys shmKey1).trans h.key
    · dsimp only
      rw [one, attached]
      simp only [WriterPc.attached]
      omega
    · intro j e
      have e : writerLoop id 0 = .shmget2Excl j := e
      rw [e] at one
      cases one
    · rintro j (e | e)
      · exact absurd e (notShmdt j)
      · have e : writerLoop id 0 = .rmid j := e
        rw [e] at one
        cases one
  | fill i numtimes =>
    rw [writer] at hs
    cases Option.some.inj hs
    cases h.writer_eq writer rfl
    exact .shared id _ (h.store
      (fun seg => { seg with buf := seg.buf.write (fillBuffer bufSize s.ch).bytes })
      rfl rfl (by rw [writer]; rfl) ⟨rfl, rfl⟩ fun j e => by cases e)
  | storeCnt i numtimes filledCount =>
    rw [writer] at hs
    cases Option.some.inj hs
    cases h.writer_eq writer rfl
    exact .shared id _ (h.store (fun seg => { seg with cnt := filledCount })
      rfl rfl (by rw [writer]; rfl) ⟨rfl, rfl⟩ fun j e => by cases e)
  | clear i numtimes =>
    rw [writer] at hs
    dsimp only at hs
    split at hs
    next seg view =>
      cases Option.some.inj hs
      cases h.writer_eq writer rfl
      obtain ⟨shmid, one, notShmdt⟩ := writerLoop_attached id (numtimes + 1)
      exact .shared id _ (h.store (fun seg => { seg with complete := 0 })
        rfl rfl (by rw [writer]; rfl) ⟨shmid, one⟩ fun j e => absurd e (notShmdt j))
    next => cases hs
  | complete i =>
    rw [writer] at hs
    cases Option.some.inj hs
    cases h.writer_eq writer rfl
    exact .shared id _ (h.store (fun seg => { seg with complete := 1 })
      rfl rfl (by rw [writer]; rfl) ⟨rfl, rfl⟩ fun _ _ => rfl)
  | shmdt i =>
    rw [writer] at hs
    cases Option.some.inj hs
    cases h.writer_eq writer rfl
    obtain ⟨keys, seg⟩ := s.segments.detach_of_live h.seg h.live
    have attached := h.attached
    rw [writer] at attached
    refine .shared id _ ⟨?_, seg, ?_, h.reader, .inr rfl, ?_, ?_⟩
    · exact (congrFun keys shmKey1).trans h.key
    · simp only [WriterPc.attached] at attached ⊢
      omega
    · intro j excl
      cases excl
    · rintro j -
      exact h.complete id (.inl writer)
  | rmid i =>
    cases h.writer_eq writer rfl
    obtain ⟨T, rmid, keys, seg⟩ := s.segments.rmid_of_some h.seg
    rw [writer] at hs
    dsimp only at hs
    rw [rmid] at hs
    cases Option.some.inj hs
    exact h.removes writer rfl rfl keys seg
  | exited k =>
    rw [writer] at hs
    cases hs

theorem writerStep_stage {s t : State} (h : Stage s) (hs : writerStep s = some t) : Stage t := by
  cases h with
  | start writer reader key =>
    rw [writerStep, writer] at hs
    cases Option.some.inj hs
    refine .shared _ _ ⟨s.segments.shmget_keys_self shmKey1 .zero, s.segments.shmget_new .zero key,
      ?_, ?_, .inr rfl, ?_, ?_⟩
    · rw [reader]
      rfl
    · rw [reader]
      exact .inl rfl
    · intro i excl
      cases excl
    · rintro i (e | e) <;> cases e
  | shared id g h => exact writerStep_shared h hs
  | removed writer =>
    rw [writerStep, writer] at hs
    cases hs

theorem writerStep_reader {s t : State} (hs : writerStep s = some t) : t.reader = s.reader := by
  rw [writerStep] at hs
  cases writer : s.writer with
  | shmget2Excl | shmat | rmid =>
    -- the call may fail, and the writer goes on or exits
    rw [writer] at hs
    dsimp only at hs
    split at hs
    · exact Option.some.inj hs ▸ rfl
    · exact Option.some.inj hs ▸ rfl
  | clear =>
    rw [writer] at hs
    dsimp only at hs
    split at hs
    · exact Option.some.inj hs ▸ rfl
    · cases hs
  | exited =>
    rw [writer] at hs
    cases hs
  | _ =>
    rw [writer] at hs
    exact Option.some.inj hs ▸ rfl

/-! ### The reader -/

/-- Everything a step of the reader does to the segments. -/
inductive ReaderMoves (s t : State) : Prop where
  | get : s.reader = .shmget → t.segments = (s.segments.shmget shmKey1 .zero).1 →
      t.reader = .shmat (s.segments.shmget shmKey1 .zero).2 → ReaderMoves s t
  | attach (id : Nat) : s.reader = .shmat id → s.segments.shmat id = some t.segments →
      t.reader = .test id → ReaderMoves s t
  | missing (id : Nat) : s.reader = .shmat id → s.segments.shmat id = none →
      t.segments = s.segments → t.reader = .exited 1 → ReaderMoves s t
  | look (id : Nat) : s.reader.attachedTo = some id → t.segments = s.segments →
      t.reader.attachedTo = some id → ReaderMoves s t
  | leave (id : Nat) (status : Int) : s.reader.attachedTo = some id →
      t.segments = s.segments.detach id → t.reader = .exited status → ReaderMoves s t

theorem readerStep_moves {s t : State} (hs : readerStep s = some t) :
    ReaderMoves s t ∧ t.writer = s.writer := by
  rw [readerStep] at hs
  cases reader : s.reader with
  | shmget =>
    rw [reader] at hs
    cases Option.some.inj hs
    exact ⟨.get reader rfl rfl, rfl⟩
  | shmat id =>
    rw [reader] at hs
    dsimp only at hs
    split at hs
    next segments shmat =>
      cases Option.some.inj hs
      exact ⟨.attach id reader shmat rfl, rfl⟩
    next shmat =>
      cases Option.some.inj hs
      exact ⟨.missing id reader shmat rfl rfl, rfl⟩
  | test id =>
    have attachedTo : s.reader.attachedTo = some id := by rw [reader]; rfl
    rw [reader] at hs
    dsimp only at hs
    split at hs
    next =>
      split at hs
      next => exact Option.some.inj hs ▸ ⟨.look id attachedTo rfl rfl, rfl⟩
      next => exact Option.some.inj hs ▸ ⟨.look id attachedTo rfl rfl, rfl⟩
    next => cases hs
  | checkCnt id =>
    have attachedTo : s.reader.attachedTo = some id := by rw [reader]; rfl
    rw [reader] at hs
    dsimp only at hs
    split at hs
    next =>
      split at hs
      -- `cnt` is -1: the reader returns while it is attached
      next => exact Option.some.inj hs ▸ ⟨.leave id 1 attachedTo rfl rfl, rfl⟩
      next => exact Option.some.inj hs ▸ ⟨.look id attachedTo rfl rfl, rfl⟩
    next => cases hs
  | printBuf id | printCnt id =>
    have attachedTo : s.reader.attachedTo = some id := by rw [reader]; rfl
    rw [reader] at hs
    dsimp only at hs
    split at hs
    next => exact Option.some.inj hs ▸ ⟨.look id attachedTo rfl rfl, rfl⟩
    next => cases hs
  | shmdt id =>
    have attachedTo : s.reader.attachedTo = some id := by rw [reader]; rfl
    rw [reader] at hs
    exact Option.some.inj hs ▸ ⟨.leave id 0 attachedTo rfl rfl, rfl⟩
  | exited status =>
    rw [reader] at hs
    cases hs

/-- The reader moves while the key is bound. -/
private theorem Shared.reader_moves {s t : State} {id : Nat} {g : Segment Shmseg} (g' : Segment Shmseg)
    (h : Shared s id g) (writer : t.writer = s.writer) (keys : t.segments.keys = s.segments.keys)
    (seg : t.segments.seg id = some g') (data : g'.data = g.data)
    (attached : g'.attached = s.writer.attached + t.reader.attachedTo.toList.length)
    (reader : t.reader.shmid = none ∨ t.reader.shmid = some id) : Shared t id g' := by
  refine ⟨?_, seg, ?_, reader, ?_, ?_, ?_⟩
  · rw [keys]
    exact h.key
  · rw [writer]
    exact attached
  · rw [writer]
    exact h.writer
  · rw [writer, keys]
    exact h.key2
  · rw [writer, data]
    exact h.complete

private theorem readerMoves_shared {s t : State} {id : Nat} {g : Segment Shmseg} (h : Shared s id g)
    (moves : ReaderMoves s t) (writer : t.writer = s.writer) : Stage t := by
  have attached := h.attached
  cases moves with
  | get before segments after =>
    rw [s.segments.shmget_of_some .zero h.key] at segments after
    rw [before] at attached
    refine .shared id g (h.reader_moves g writer (congrArg _ segments) ?_ rfl ?_ ?_)
    · rw [segments]
      exact h.seg
    · rw [after]
      exact attached
    · rw [after]
      exact .inr rfl
  | attach i before shmat after =>
    cases h.reader_eq (by rw [before]; rfl)
    obtain ⟨T, shmat', keys, seg⟩ := s.segments.shmat_of_some h.seg
    rw [shmat] at shmat'
    cases shmat'
    rw [before] at attached
    refine .shared id _ (h.reader_moves { g with attached := g.attached + 1 } writer keys seg rfl ?_ ?_)
    · rw [after]
      simp only [ReaderPc.attachedTo, Option.toList_some, Option.toList_none,
        List.length_singleton, List.length_nil] at attached ⊢
      omega
    · rw [after]
      exact .inr rfl
  | missing i before shmat =>
    -- impossible while the key is bound
    cases h.reader_eq (by rw [before]; rfl)
    obtain ⟨T, shmat', -⟩ := s.segments.shmat_of_some h.seg
    rw [shmat] at shmat'
    cases shmat'
  | look i before segments after =>
    cases h.reader_eq (ReaderPc.shmid_of_attachedTo before)
    refine .shared id g (h.reader_moves g writer (congrArg _ segments) ?_ rfl ?_
      (.inr (ReaderPc.shmid_of_attachedTo after)))
    · rw [segments]
      exact h.seg
    · rw [after, attached, before]
  | leave i status before segments after =>
    cases h.reader_eq (ReaderPc.shmid_of_attachedTo before)
    obtain ⟨keys, seg⟩ := s.segments.detach_of_live h.seg h.live
    refine .shared id _ (h.reader_moves { g with attached := g.attached - 1 } writer ?_ ?_ rfl ?_ ?_)
    · rw [segments, keys]
    · rw [segments, seg]
    · rw [before] at attached
      rw [after]
      simp only [ReaderPc.attachedTo, Option.toList_some, Option.toList_none,
        List.length_singleton, List.length_nil] at attached ⊢
      omega
    · rw [after]
      exact .inl rfl

private theorem readerMoves_stage {s t : State} (h : Stage s) (moves : ReaderMoves s t)
    (writer : t.writer = s.writer) (inTime : s.reader = .shmget → s.writer ≠ .exited 0) :
    Stage t := by
  cases h with
  | shared id g h => exact readerMoves_shared h moves writer
  | start atShmget reader key =>
    cases moves with
    | get _ segments after =>
      refine .shared (s.segments.shmget shmKey1 .zero).2 ⟨.zero, 0, false⟩
        ⟨?_, ?_, ?_, ?_, .inl (writer.trans atShmget), ?_, ?_⟩
      · rw [segments]
        exact s.segments.shmget_keys_self shmKey1 .zero
      · rw [segments]
        exact s.segments.shmget_new .zero key
      · rw [writer, atShmget, after]
        rfl
      · rw [after]
        exact .inr rfl
      · intro i excl
        rw [writer, atShmget] at excl
        cases excl
      · rw [writer, atShmget]
        rintro i (e | e) <;> cases e
    | attach _ before | missing _ before | look _ before | leave _ _ before =>
      rw [reader] at before
      cases before
  | removed exited key attached later =>
    -- Nothing new can be attached to, so all that is left is to look and to leave.
    apply Stage.removed (writer.trans exited)
    · cases moves with
      | get before => exact absurd exited (inTime before)
      | attach id before shmat =>
        rw [s.segments.shmat_of_none (later id before)] at shmat
        cases shmat
      | missing _ _ _ segments | look _ _ segments =>
        rw [segments]
        exact key
      | leave _ _ _ segments =>
        rw [segments]
        exact s.segments.detach_keys key
    · intro id attachedTo
      cases moves with
      | get _ _ after | missing _ _ _ _ after | leave _ _ _ _ after =>
        rw [after] at attachedTo
        cases attachedTo
      | attach i before shmat =>
        rw [s.segments.shmat_of_none (later i before)] at shmat
        cases shmat
      | look i before segments after =>
        rw [after] at attachedTo
        cases attachedTo
        rw [State.view, segments]
        exact attached id before
    · intro id shmat
      cases moves with
      | get before => exact absurd exited (inTime before)
      | attach _ _ _ after | missing _ _ _ _ after | leave _ _ _ _ after =>
        rw [after] at shmat
        cases shmat
      | look i _ _ after =>
        rw [shmat] at after
        cases after

theorem step_stage (s : State) (a : Act) (t : State) (h : Stage s) (inTime : ShmgetInTime s a)
    (hs : step s a = some t) : Stage t := by
  cases a with
  | writer => exact writerStep_stage h hs
  | reader =>
    obtain ⟨moves, writer⟩ := readerStep_moves hs
    exact readerMoves_stage h moves writer inTime

/-- A reader that comes too late gets a segment of its own. -/
theorem not_canFinish_of_late {s t : State} (h : Stage s) (reader : s.reader = .shmget)
    (exited : s.writer = .exited 0) (hs : readerStep s = some t) : ¬ CanFinish t := by
  have key : s.segments.keys shmKey1 = none := by
    cases h with
    | start writer =>
      rw [writer] at exited
      cases exited
    | shared id g h => exact absurd exited (h.not_exited 0)
    | removed _ key => exact key
  obtain ⟨moves, writer⟩ := readerStep_moves hs
  cases moves with
  | get _ segments after =>
    -- it is filled with zeros, and the only process that stores 1 has gone
    intro can
    have complete := (can.1 (writer.trans exited)).2 _ .zero after (by
      rw [State.view, segments, s.segments.shmget_new .zero key]
      rfl)
    cases complete
  | attach _ before | missing _ before | look _ before | leave _ _ before =>
    rw [reader] at before
    cases before

/-- **Completion**: in a run the reader can always finish if and only if its `shmget`
does not come after the writer's `IPC_RMID`. -/
theorem reader_can_finish_iff (s : State) (acts : List Act) (init : system.init s) :
    system.Always CanFinish s acts ↔ system.StepsMeet ShmgetInTime s acts := by
  obtain ⟨key, writer, reader, -⟩ := init
  have stage : Stage s := .start writer reader key
  apply system.always_iff_stepsMeet Stage CanFinish ShmgetInTime step_stage ?_ s acts stage
    (canFinish_of_stage stage)
  intro s a t h _ hs
  constructor
  · intro can
    cases a with
    | writer => trivial
    | reader =>
      intro reader exited
      exact not_canFinish_of_late h reader exited hs can
  · intro inTime
    exact canFinish_of_stage (step_stage s a t h inTime hs)

/-- The next test ends the read loop of a reader that can finish. -/
theorem test_ends_loop (s : State) (id : Nat) (can : CanFinish s) (exited : s.writer = .exited 0)
    (reader : s.reader = .test id) : ∃ t, step s .reader = some t ∧ t.reader = .shmdt id := by
  obtain ⟨seg, view, complete⟩ := (can.1 exited).1 id (by rw [reader]; rfl)
  refine ⟨{ s.print readingDoneLine with reader := .shmdt id }, ?_, rfl⟩
  rw [step, readerStep, reader]
  dsimp only
  rw [view]
  exact if_neg (by simp [complete])

/-- A reader that has its identifier never calls `shmget` again. -/
theorem stepsMeet_of_shmid (s : State) (acts : List Act) (past : s.reader ≠ .shmget) :
    system.StepsMeet ShmgetInTime s acts := by
  induction acts generalizing s with
  | nil => trivial
  | cons a acts ih =>
    intro t hs
    cases a with
    | writer =>
      refine ⟨trivial, ih t ?_⟩
      rw [writerStep_reader hs]
      exact past
    | reader =>
      refine ⟨fun h => absurd h past, ih t ?_⟩
      intro back
      cases (readerStep_moves hs).1 with
      | get before => exact past before
      | attach _ _ _ after | missing _ _ _ _ after | leave _ _ _ _ after =>
        rw [back] at after
        cases after
      | look _ _ _ after =>
        rw [back] at after
        cases after

def noSegments : Segments Nat Shmseg where
  keys _ := none
  seg _ := none
  next := 0
  live := by simp
  fresh := by simp
  distinct := by simp

def forked : State where
  segments := noSegments
  writer := .shmget1
  ch := 65
  reader := .shmget
  stdout := []

/-- The reader gets its identifier first, and the writer then runs to its end. -/
theorem reader_can_finish_first :
    system.Always CanFinish forked (.reader :: List.replicate 13 .writer) := by
  refine (reader_can_finish_iff forked _ ⟨rfl, rfl, rfl, rfl⟩).mpr ?_
  intro t hs
  refine ⟨?_, stepsMeet_of_shmid t _ ?_⟩
  · intro _ exited
    cases exited
  · cases Option.some.inj hs
    simp

/-- The writer runs to its end before the reader's `shmget`. -/
theorem late_reader_cannot_finish :
    ∃ t, system.init forked ∧
      system.run forked (List.replicate 13 .writer ++ [.reader, .reader]) = some t ∧
      t.writer = .exited 0 ∧ t.reader = .test 2 ∧ ¬ CanFinish t := by
  refine ⟨_, ⟨rfl, rfl, rfl, rfl⟩, rfl, rfl, rfl, ?_⟩
  intro can
  obtain ⟨seg, view, complete⟩ := (can.1 rfl).1 2 rfl
  cases view
  cases complete

end GenericTests.Shmtest
