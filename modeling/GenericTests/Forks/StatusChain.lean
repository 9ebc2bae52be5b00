import GenericTests.Forks.SerialLoop
import GenericTests.Lib.CString
import GenericTests.Lib.WaitStatus

/-!
# What the programs say about a child

Behind their `waitpid` the programs have the same chain of tests and print the same four
texts with a word for the child before them. callsys puts the result of `system` through
the same tests, also when it is -1. This is the level below `Forks.statusLine`, which the
models of the fork programs use.
-/
namespace GenericTests.Forks

open GenericTests.CString GenericTests.Processes GenericTests.WaitStatus

/-- The four texts. -/
def statusText (who : List Byte) : Status → List Byte
  | .exited status => who ++ ascii "exited, status=" ++ decimal status ++ ascii "\n"
  | .killed signal => who ++ ascii "killed by signal " ++ decimal signal ++ ascii "\n"
  | .stopped signal => who ++ ascii "stopped by signal " ++ decimal signal ++ ascii "\n"
  | .continued => who ++ ascii "continued\n"

/-- The chain of tests with its calls of `printf`. -/
def report (who : List Byte) (status : Word) : List Byte :=
  if wifexited status then statusText who (.exited (wexitstatus status))
  else if wifsignaled status then statusText who (.killed (wtermsig status))
  else if wifstopped status then statusText who (.stopped (wstopsig status))
  else if wifcontinued status then statusText who .continued
  else []

/-- fork.c, forkexec.c, serialfork.c, parallelfork.c, multiforkexec.c, sample.c, waitchildren of
forktree_and_pthread.c and fork_and_wait of controlthreads.c -/
def reportPlain : Word → List Byte := report []

/-- forkmulti.c, fork_and_pthread.c, forkexec_and_pthread.c and forkexecwait_and_pthread.c -/
def reportChildpid : Word → List Byte := report (ascii "childpid ")

/-- socketforkserver.c -/
def reportServer : Word → List Byte := report (ascii "server ")

/-- do_thread of processesgalore.c; `w` is what `waitpid` returned -/
def reportThread (threadId w : Int) : Word → List Byte :=
  report (ascii "Parent of thread " ++ decimal threadId ++ ascii ": saw child " ++ decimal w ++
    ascii " ")

end GenericTests.Forks
