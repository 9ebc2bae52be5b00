import GenericTests.Socket.PollSet

/-!
# The number of open connections

`num_open` is counted down next to every call of `closefd`. The entry of a closed
descriptor stays in the poll set and may show any events again, but a `read` on it fails,
and a failed `read` counts nothing.
-/
namespace GenericTests.Socket

variable {n : Nat}

/-- The state at every test of the `while` condition, in order. -/
def loopTests (v : Variant) : List Round → Server → List Server
  | [], s => [s]
  | r :: rs, s =>
    s :: if v.guard s.numOpen s.timeouts then
        match iteration v r s with
        | .again s' => loopTests v rs s'
        | .broke _ | .failed => []
      else []

/-- The state after every iteration, in order; also after the one that left the loop. -/
def iterations (v : Variant) : List Round → Server → List Server
  | [], _ => []
  | r :: rs, s =>
    if v.guard s.numOpen s.timeouts then
      match iteration v r s with
      | .again s' => s' :: iterations v rs s'
      | .broke s' => [s']
      | .failed => []
    else []

section Reads

variable (accepted : Accepted n) (v : Variant)

/-- In this round a `read` on a descriptor that is closed when its entry is served returns
-1. -/
def Round.ClosedReadsFail (r : Round) (s : Server) : Prop :=
  0 < r.pollCount → ∀ i : Fin n,
    accepted.fd i ∈ (serve v r.reads i (setRevents r.revents s)).closefdCalls → r.reads i = .error

/-- So in every round of the run. -/
def ClosedReadsFail : List Round → Server → Prop
  | [], _ => True
  | r :: rs, s => r.ClosedReadsFail accepted v s ∧
      match iteration v r s with
      | .again s' => ClosedReadsFail rs s'
      | .broke _ | .failed => True

end Reads

/-- The count is right, and no descriptor was closed twice. -/
structure Counted (accepted : Accepted n) (s : Server) : Prop where
  fds : s.fds.map PollFd.fd = accepted.fds
  numOpen : s.numOpen = (openClients accepted s).card
  once : s.closefdCalls.Nodup

theorem counted_start (accepted : Accepted n) : Counted accepted (start accepted) where
  fds := by simp [start, Function.comp_def]
  numOpen := by simp [start, openClients]
  once := List.nodup_nil

section Steps

variable {accepted : Accepted n} {v : Variant}

/-- Only the fields of the invariant matter. -/
theorem Counted.congr {s t : Server} (h : Counted accepted s)
    (fds : t.fds.map PollFd.fd = s.fds.map PollFd.fd) (numOpen : t.numOpen = s.numOpen)
    (calls : t.closefdCalls = s.closefdCalls) : Counted accepted t where
  fds := fds.trans h.fds
  numOpen := by
    rw [numOpen, h.numOpen, openClients, openClients, calls]
  once := calls ▸ h.once

theorem Counted.close {s t : Server} (h : Counted accepted s) (i : Fin n)
    (live : accepted.fd i ∉ s.closefdCalls) (fds : t.fds.map PollFd.fd = s.fds.map PollFd.fd)
    (numOpen : t.numOpen = s.numOpen - 1)
    (calls : t.closefdCalls = s.closefdCalls ++ [accepted.fd i]) : Counted accepted t where
  fds := fds.trans h.fds
  numOpen := by
    have member : i ∈ openClients accepted s := by simp [openClients, live]
    have positive := Finset.card_pos.mpr ⟨i, member⟩
    rw [numOpen, h.numOpen, openClients_of_closefd accepted s t i calls, Finset.card_erase_of_mem member]
    omega
  once := by
    rw [calls]
    refine h.once.append (List.nodup_singleton _) ?_
    simpa using live

theorem counted_serveEntry {s : Server} (h : Counted accepted s) (i : Fin n) (valread : ReadResult)
    (fails : accepted.fd i ∈ s.closefdCalls → valread = .error) :
    Counted accepted (serveEntry v i valread s) := by
  have same := serveEntry_fd v i valread s
  cases found : s.fds[i.val]? with
  | none =>
    rw [serveEntry_of_none v i valread s found]
    exact h
  | some entry =>
    obtain ⟨calls, numOpen, -⟩ := serveEntry_effect v i valread s entry found
    cases closes : closing valread entry with
    | none =>
      rw [closes] at calls numOpen
      exact h.congr same (by simpa using numOpen) (by simpa using calls)
    | some fd =>
      obtain ⟨-, rfl, rfl⟩ := (closing_eq_some valread entry fd).mp closes
      have live : accepted.fd i ∉ s.closefdCalls := fun closed => by cases fails closed
      rw [closes, fd_of_entry accepted s i entry h.fds found] at calls
      rw [closes] at numOpen
      exact h.close i live same (by simpa using numOpen) (by simpa using calls)

/-- The inner loop, by induction over the entries it has served. -/
theorem counted_serve {s : Server} (h : Counted accepted s) (reads : Nat → ReadResult) (k : Nat)
    (bound : k ≤ n)
    (fails : ∀ i : Fin n, accepted.fd i ∈ (serve v reads i s).closefdCalls → reads i = .error) :
    Counted accepted (serve v reads k s) := by
  induction k with
  | zero => exact h
  | succ k ih =>
    rw [serve_succ]
    exact counted_serveEntry (ih (by omega)) ⟨k, bound⟩ (reads k) (fails ⟨k, bound⟩)

theorem Counted.length_fds {s : Server} (h : Counted accepted s) : s.fds.length = n := by
  have length := congrArg List.length h.fds
  simpa [Accepted.fds] using length

theorem counted_iteration {s t : Server} {r : Round} (h : Counted accepted s)
    (fails : r.ClosedReadsFail accepted v s)
    (ends : iteration v r s = .again t ∨ iteration v r s = .broke t) : Counted accepted t := by
  have polled : Counted accepted (setRevents r.revents s) :=
    h.congr (setRevents_fd r.revents s) rfl rfl
  obtain ⟨notFailed, rfl⟩ := iteration_ends ends
  split
  · exact polled.congr rfl rfl rfl
  next some =>
    exact counted_serve polled r.reads _ (Nat.le_of_eq polled.length_fds) (fails (by omega))

/-- The invariant along the loop, by induction over the rounds. -/
theorem counted_run (rounds : List Round) {s : Server} (h : Counted accepted s)
    (fails : ClosedReadsFail accepted v rounds s) :
    (∀ t ∈ loopTests v rounds s, Counted accepted t) ∧
      ∀ t ∈ iterations v rounds s, Counted accepted t := by
  induction rounds generalizing s with
  | nil =>
    refine ⟨fun t member => ?_, fun t member => by cases member⟩
    rw [List.mem_singleton.mp member]
    exact h
  | cons r rounds ih =>
    obtain ⟨first, later⟩ := fails
    simp only [loopTests, iterations]
    split
    next more =>
      cases result : iteration v r s with
      | again s' =>
        rw [result] at later
        have next := counted_iteration h first (.inl result)
        obtain ⟨tests, passes⟩ := ih next later
        exact ⟨List.forall_mem_cons.mpr ⟨h, tests⟩, List.forall_mem_cons.mpr ⟨next, passes⟩⟩
      | broke s' =>
        have last := counted_iteration h first (.inr result)
        exact ⟨List.forall_mem_singleton.mpr h, List.forall_mem_singleton.mpr last⟩
      | failed => exact ⟨List.forall_mem_singleton.mpr h, fun t member => by cases member⟩
    next => exact ⟨List.forall_mem_singleton.mpr h, fun t member => by cases member⟩

end Steps

/-- **Open connections**: at every loop test `num_open` is the number of accepted
descriptors that `closefd` was not called for, and `closefd` is called at most once for
each, whatever the guard of the loop. -/
theorem open_count (v : Variant) (accepted : Accepted n) (rounds : List Round)
    (fails : ClosedReadsFail accepted v rounds (start accepted)) :
    (∀ s ∈ loopTests v rounds (start accepted),
      s.numOpen = (openClients accepted s).card ∧ 0 ≤ s.numOpen) ∧
    ∀ s ∈ iterations v rounds (start accepted), s.closefdCalls.Nodup := by
  obtain ⟨tests, passes⟩ := counted_run rounds (counted_start accepted) fails
  refine ⟨fun s member => ?_, fun s member => (passes s member).once⟩
  have count := (tests s member).numOpen
  exact ⟨count, by rw [count]; exact Int.natCast_nonneg _⟩

/-- The second client ends, is polled again, and its `read` fails. -/
theorem open_count_after_eof :
    ∃ s, (loopTests socketServer [secondClient .eof, secondClient .error] (start threeClients))[2]? =
        some s ∧ s.closefdCalls = [5] ∧ s.numOpen = (openClients threeClients s).card := by
  have fails : ClosedReadsFail threeClients socketServer [secondClient .eof, secondClient .error]
      (start threeClients) := ⟨fun _ => by decide, fun _ => by decide, trivial⟩
  obtain ⟨tests, -⟩ := open_count socketServer threeClients _ fails
  exact ⟨_, rfl, rfl, (tests _ (List.mem_of_getElem? (i := 2) rfl)).1⟩

end GenericTests.Socket
