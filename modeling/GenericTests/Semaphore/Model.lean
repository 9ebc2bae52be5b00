import GenericTests.Lib.CString
import GenericTests.Lib.Transition
import Mathlib.Logic.Function.Basic

/-!
# semaphore.c: producer and consumer after the fork

The two processes share one segment and a set of six semaphores, of which the loops
use number 0 (empty) and number 1 (full). One step is one `sem_op`, one `snprintf`,
one `printf` or one system call of the cleanup; the calls of `sleep` only delay.
-/
namespace GenericTests.Semaphore

open GenericTests.CString GenericTests.Transition

/-- `SHM_SIZE` -/
def shmSize : Nat := 0x1024

/-- The largest value the kernel lets a semaphore take. -/
def semvmx : Nat := 32767

abbrev Sems := Fin 6 → Nat

inductive SemResult where
  | changed (sems : Sems)
  | blocked
  | error

/-- `semop` with one `sembuf` and `sem_flg = 0`. -/
def semop (removed : Bool) (sems : Sems) (semNum : Fin 6) (op : Int) : SemResult :=
  -- EINVAL from a call made after the removal, EIDRM from one that slept through it
  if removed then .error
  else if op = 0 then (if sems semNum = 0 then .changed sems else .blocked)
  else if (sems semNum : Int) + op < 0 then .blocked
  -- ERANGE
  else if (semvmx : Int) < sems semNum + op then .error
  else .changed (Function.update sems semNum ((sems semNum : Int) + op).toNat)

/-- `"Message %d from Producer"` -/
def message (n : Nat) : List Byte := ascii "Message " ++ decimal n ++ ascii " from Producer"

def wroteLine (text : List Byte) : List Byte := ascii "Producer: Wrote '" ++ text ++ ascii "'\n"

def readLine (text : List Byte) : List Byte := ascii "Consumer: Read '" ++ text ++ ascii "'\n"

def cleanedUpLine : List Byte := ascii "Resources cleaned up. Exiting.\n"

/-- The statement a process executes next. -/
inductive ProducerPc where
  | waitEmpty
  | write
  | print
  | signalFull
  | exit
  | exited (status : Nat)
  deriving DecidableEq

inductive ConsumerPc where
  | waitFull
  | print
  | signalEmpty
  | wait
  | shmdt
  | shmRmid
  | semRmid
  | farewell
  | exited (status : Nat)
  deriving DecidableEq

structure State where
  sems : Sems
  semRemoved : Bool
  sharedMemory : Buffer shmSize
  shmRemoved : Bool
  producer : ProducerPc
  /-- the producer's `i` -/
  pi : Nat
  producerOut : List (List Byte)
  consumer : ConsumerPc
  /-- the consumer's `i` -/
  ci : Nat
  consumerOut : List (List Byte)
  /-- what the consumer prints after its cleanup -/
  cleanupOut : List (List Byte)

/-- `sem_op`: a failing `semop` ends the calling process with status 1. -/
def semOp (s : State) (semnum : Fin 6) (op : Int) (failed : State) (next : Sems → State) :
    Option State :=
  match semop s.semRemoved s.sems semnum op with
  | .changed sems => some (next sems)
  | .blocked => none
  | .error => some failed

/-- Where the producer's loop test leads. -/
def producerLoop (numtrans : CInt) (i : Nat) : ProducerPc :=
  if (i : Int) < numtrans.val then .waitEmpty else .exit

def consumerLoop (numtrans : CInt) (i : Nat) : ConsumerPc :=
  if (i : Int) < numtrans.val then .waitFull else .wait

def producerStep (numtrans : CInt) (s : State) : Option State :=
  match s.producer with
  | .waitEmpty =>
    semOp s 0 (-1) { s with producer := .exited 1 }
      (fun sems => { s with sems := sems, producer := .write })
  | .write =>
    some { s with sharedMemory := s.sharedMemory.snprintf (message (s.pi + 1)), producer := .print }
  | .print =>
    some { s with
      producerOut := s.producerOut ++ [wroteLine s.sharedMemory.text], producer := .signalFull }
  | .signalFull =>
    -- also covers sleep(1), i++ and the loop test
    semOp s 1 1 { s with producer := .exited 1 }
      (fun sems => { s with
        sems := sems, pi := s.pi + 1, producer := producerLoop numtrans (s.pi + 1) })
  | .exit => some { s with producer := .exited 0 }
  | .exited _ => none

def consumerStep (numtrans : CInt) (s : State) : Option State :=
  match s.consumer with
  | .waitFull =>
    semOp s 1 (-1) { s with consumer := .exited 1 }
      (fun sems => { s with sems := sems, consumer := .print })
  | .print =>
    some { s with
      consumerOut := s.consumerOut ++ [readLine s.sharedMemory.text], consumer := .signalEmpty }
  | .signalEmpty =>
    semOp s 0 1 { s with consumer := .exited 1 }
      (fun sems => { s with
        sems := sems, ci := s.ci + 1, consumer := consumerLoop numtrans (s.ci + 1) })
  | .wait =>
    -- wait(NULL) returns once the only child has terminated, whatever its status
    match s.producer with
    | .exited _ => some { s with consumer := .shmdt }
    | _ => none
  | .shmdt => some { s with consumer := .shmRmid }
  | .shmRmid => some { s with shmRemoved := true, consumer := .semRmid }
  | .semRmid => some { s with semRemoved := true, consumer := .farewell }
  | .farewell =>
    some { s with cleanupOut := s.cleanupOut ++ [cleanedUpLine], consumer := .exited 0 }
  | .exited _ => none

/-- Which process the scheduler runs. -/
inductive Act where
  | producer
  | consumer

def step (numtrans : CInt) (s : State) : Act → Option State
  | .producer => producerStep numtrans s
  | .consumer => consumerStep numtrans s

/-- Right after a successful `fork`: the semaphores hold 1 and 0, the other four and
the segment hold anything. -/
structure Initial (numtrans : CInt) (s : State) : Prop where
  empty : s.sems 0 = 1
  full : s.sems 1 = 0
  present : s.semRemoved = false ∧ s.shmRemoved = false
  producer : s.producer = producerLoop numtrans 0 ∧ s.pi = 0 ∧ s.producerOut = []
  consumer : s.consumer = consumerLoop numtrans 0 ∧ s.ci = 0 ∧ s.consumerOut = [] ∧ s.cleanupOut = []

def system (numtrans : CInt) : System State Act where
  init := Initial numtrans
  step := step numtrans

/-- The state after `fork` with a fresh segment. -/
def forked (numtrans : CInt) : State where
  sems k := if k = 1 then 0 else 1
  semRemoved := false
  sharedMemory := .zeros shmSize
  shmRemoved := false
  producer := producerLoop numtrans 0
  pi := 0
  producerOut := []
  consumer := consumerLoop numtrans 0
  ci := 0
  consumerOut := []
  cleanupOut := []

theorem initial_forked (numtrans : CInt) : Initial numtrans (forked numtrans) :=
  ⟨rfl, rfl, ⟨rfl, rfl⟩, ⟨rfl, rfl, rfl⟩, ⟨rfl, rfl, rfl, rfl⟩⟩

/-! ### Texts -/

theorem noNul_message (n : Nat) : (0 : Byte) ∉ message n := by
  simp only [message, List.mem_append, not_or]
  refine ⟨⟨by decide, ?_⟩, by decide⟩
  intro member
  -- decimal prints only digits and a sign
  rcases mem_decimal n 0 member with h | ⟨h, -⟩
  · exact absurd h (by decide)
  · exact absurd h (by decide)

/-- Every message an `int` counter can produce fits the segment. -/
theorem length_message_lt (n : Nat) (h : n ≤ 2147483647) : (message n).length < shmSize := by
  have digits := length_decimal_le n (by simp only [Int.natAbs_natCast]; omega)
  have before : (ascii "Message ").length = 8 := by decide
  have after : (ascii " from Producer").length = 14 := by decide
  simp only [message, List.length_append, shmSize]
  omega

theorem text_snprintf_message (b : Buffer shmSize) (n : Nat) (h : n ≤ 2147483647) :
    (b.snprintf (message n)).text = message n :=
  b.text_snprintf (message n) (noNul_message n) (length_message_lt n h)

/-! ### One call of `semop` -/

theorem semop_wait (sems : Sems) (k : Fin 6) :
    semop false sems k (-1) =
      if sems k = 0 then .blocked
      else if semvmx + 1 < sems k then .error
      else .changed (Function.update sems k (sems k - 1)) := by
  simp only [semop, Bool.false_eq_true, if_false]
  by_cases zero : sems k = 0
  · simp [zero]
  · have nonneg : ¬ ((sems k : Int) + -1 < 0) := by omega
    have value : ((sems k : Int) + -1).toNat = sems k - 1 := by omega
    have bound : ((semvmx : Int) < sems k + -1) = (semvmx + 1 < sems k) := by
      apply propext
      omega
    simp [zero, nonneg, value, bound]

theorem semop_signal (sems : Sems) (k : Fin 6) :
    semop false sems k 1 =
      if semvmx < sems k + 1 then .error
      else .changed (Function.update sems k (sems k + 1)) := by
  have nonneg : ¬ ((sems k : Int) + 1 < 0) := by omega
  have value : ((sems k : Int) + 1).toNat = sems k + 1 := by omega
  have bound : ((semvmx : Int) < sems k + 1) = (semvmx < sems k + 1) := by
    apply propext
    omega
  simp [semop, nonneg, value, bound]

end GenericTests.Semaphore
