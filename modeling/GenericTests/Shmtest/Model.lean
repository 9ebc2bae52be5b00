import GenericTests.Lib.CString
import GenericTests.Lib.SharedMemory
import GenericTests.Lib.Transition

/-!
# shmtest.c

After the fork the parent writes and the child reads. Each finds or creates the segment
by its key; nothing else is shared and nobody waits. One step is one system call or one
access to the segment, with the lines printed after it.
-/
namespace GenericTests.Shmtest

open GenericTests.CString GenericTests.SharedMemory GenericTests.Transition

/-- `BUF_SIZE` -/
def bufSize : Nat := 1024

/-- `SHM_KEY1` -/
def shmKey1 : Nat := 0x1234

/-- `SHM_KEY2` -/
def shmKey2 : Nat := 0x5678

/-- `DOITERS` -/
def doIters : Nat := 2

structure Shmseg where
  cnt : Int
  complete : Int
  buf : Buffer bufSize

/-- A new segment is filled with zeros. -/
def Shmseg.zero : Shmseg := ⟨0, 0, .zeros bufSize⟩

structure Filled where
  bytes : List Byte
  filledCount : Nat
  /-- the static variable after the call -/
  ch : Byte

/-- fill_buffer; `ch` is its static variable. -/
def fillBuffer (size : Nat) (ch : Byte) : Filled :=
  let bytes := List.replicate (size - 1) ch ++ [0]
  -- the byte was written before the range check, so the check is for the next call
  let ch := if ch > 122 then 65 else ch
  let ch := if ch ≥ 65 ∧ ch ≤ 122 then (if ch ≥ 91 ∧ ch ≤ 96 then 65 else ch) else ch
  { bytes := bytes, filledCount := (cstr bytes).length, ch := ch + 1 }

inductive WriterPc where
  | shmget1
  | shmget2 (shmid : Nat)
  | shmget2Excl (shmid : Nat)
  | shmat (shmid : Nat)
  | fill (shmid numtimes : Nat)
  | storeCnt (shmid numtimes filledCount : Nat)
  | clear (shmid numtimes : Nat)
  | complete (shmid : Nat)
  | shmdt (shmid : Nat)
  | rmid (shmid : Nat)
  | exited (status : Int)

inductive ReaderPc where
  | shmget
  | shmat (shmid : Nat)
  /-- `while (shmp->complete != 1)` -/
  | test (shmid : Nat)
  | printBuf (shmid : Nat)
  | checkCnt (shmid : Nat)
  | printCnt (shmid : Nat)
  | shmdt (shmid : Nat)
  | exited (status : Int)

structure State where
  segments : Segments Nat Shmseg
  writer : WriterPc
  /-- `ch` of fill_buffer, in the parent -/
  ch : Byte
  reader : ReaderPc
  stdout : List (List Byte)

inductive Act where
  | writer
  | reader

def wroteLine (cnt : Int) : List Byte :=
  ascii "Writing Process: Shared Memory Write: Wrote " ++ decimal cnt ++ ascii " bytes\n"

def wroteTimesLine : List Byte :=
  ascii "Writing Process: Wrote " ++ decimal doIters ++ ascii " times\n"

def writerCompleteLine : List Byte := ascii "Writing Process: Complete\n"

def containsLine (buf : Buffer bufSize) : List Byte :=
  ascii "segment contains : \n\"" ++ buf.text ++ ascii "\"\n"

def readLine (cnt : Int) : List Byte :=
  ascii "Reading Process: Shared Memory: Read " ++ decimal cnt ++ ascii " bytes\n"

def readingDoneLine : List Byte :=
  ascii "Reading Process: Reading Done, Detaching Shared Memory\n"

def readerCompleteLine : List Byte := ascii "Reading Process: Complete\n"

def State.print (s : State) (line : List Byte) : State := { s with stdout := s.stdout ++ [line] }

/-- The segment as an attached process sees it. -/
def State.view (s : State) (shmid : Nat) : Option Shmseg :=
  (s.segments.seg shmid).map Segment.data

def State.store (s : State) (shmid : Nat) (f : Shmseg → Shmseg) : State :=
  { s with segments := s.segments.store shmid f }

/-- The `for` loop of the writer. -/
def writerLoop (shmid numtimes : Nat) : WriterPc :=
  if numtimes < doIters then .fill shmid numtimes else .complete shmid

def writerStep (s : State) : Option State :=
  match s.writer with
  | .shmget1 =>
    let (segments, shmid) := s.segments.shmget shmKey1 .zero
    some { s with segments := segments, writer := .shmget2 shmid }
  | .shmget2 shmid =>
    let (segments, _) := s.segments.shmget shmKey2 .zero
    some { s with segments := segments, writer := .shmget2Excl shmid }
  | .shmget2Excl shmid =>
    match s.segments.shmgetExcl shmKey2 .zero with
    -- here success is the error
    | some (segments, _) => some { s with segments := segments, writer := .exited 2 }
    | none => some { s with writer := .shmat shmid }
  | .shmat shmid =>
    match s.segments.shmat shmid with
    | some segments => some { s with segments := segments, writer := writerLoop shmid 0 }
    | none => some { s with writer := .exited 1 }
  | .fill shmid numtimes =>
    let filled := fillBuffer bufSize s.ch
    let s := s.store shmid fun seg => { seg with buf := seg.buf.write filled.bytes }
    some { s with ch := filled.ch, writer := .storeCnt shmid numtimes filled.filledCount }
  | .storeCnt shmid numtimes filledCount =>
    let s := s.store shmid fun seg => { seg with cnt := filledCount }
    some { s with writer := .clear shmid numtimes }
  | .clear shmid numtimes =>
    -- shmp->complete = 0, and the count is read back from the segment to be printed
    match s.view shmid with
    | some seg =>
      let s := (s.store shmid fun seg => { seg with complete := 0 }).print (wroteLine seg.cnt)
      some { s with writer := writerLoop shmid (numtimes + 1) }
    | none => none
  | .complete shmid =>
    let s := (s.print wroteTimesLine).store shmid fun seg => { seg with complete := 1 }
    some { s with writer := .shmdt shmid }
  | .shmdt shmid => some { s with segments := s.segments.detach shmid, writer := .rmid shmid }
  | .rmid shmid =>
    match s.segments.rmid shmid with
    | some segments =>
      some { s.print writerCompleteLine with segments := segments, writer := .exited 0 }
    | none => some { s with writer := .exited 1 }
  | .exited _ => none

def readerStep (s : State) : Option State :=
  match s.reader with
  | .shmget =>
    let (segments, shmid) := s.segments.shmget shmKey1 .zero
    some { s with segments := segments, reader := .shmat shmid }
  | .shmat shmid =>
    match s.segments.shmat shmid with
    | some segments => some { s with segments := segments, reader := .test shmid }
    | none => some { s with reader := .exited 1 }
  | .test shmid =>
    match s.view shmid with
    | some seg =>
      if seg.complete ≠ 1 then some { s with reader := .printBuf shmid }
      else some { s.print readingDoneLine with reader := .shmdt shmid }
    | none => none
  | .printBuf shmid =>
    match s.view shmid with
    | some seg => some { s.print (containsLine seg.buf) with reader := .checkCnt shmid }
    | none => none
  | .checkCnt shmid =>
    match s.view shmid with
    | some seg =>
      -- `return` with the segment attached
      if seg.cnt = -1 then
        some { s with segments := s.segments.detach shmid, reader := .exited 1 }
      else some { s with reader := .printCnt shmid }
    | none => none
  | .printCnt shmid =>
    match s.view shmid with
    | some seg => some { s.print (readLine seg.cnt) with reader := .test shmid }
    | none => none
  | .shmdt shmid =>
    some { s.print readerCompleteLine with
      segments := s.segments.detach shmid, reader := .exited 0 }
  | .exited _ => none

def step (s : State) : Act → Option State
  | .writer => writerStep s
  | .reader => readerStep s

/-- There is no segment with `SHM_KEY1`; other keys may be in use. -/
def system : System State Act where
  init s := s.segments.keys shmKey1 = none ∧ s.writer = .shmget1 ∧ s.reader = .shmget ∧ s.ch = 65
  step := step

end GenericTests.Shmtest
