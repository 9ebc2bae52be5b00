import GenericTests.Socket.PollSet
import Mathlib.Algebra.Ring.Nat

/-!
# When the server stops polling

The guard of socket.c is `num_open > 0 || timeouts > 3`: the fourth timeout does not end
the loop, it keeps it running for good. The guard of socketforkserver.c is
`num_open > 0 && timeouts < 3`.
-/
namespace GenericTests.Socket

variable {n : Nat}

/-- The clients found at end of file in a round. -/
def Round.eofs (n : Nat) (r : Round) : Nat :=
  if 0 < r.pollCount then
    (List.range n).countP fun i =>
      decide (r.revents i &&& pollin ≠ 0) && decide (r.reads i = .eof)
  else 0

def Round.timesOut (r : Round) : Bool := decide (r.pollCount = 0)

/-- A poll error, or the `break`. -/
def Round.leaves (r : Round) : Bool := decide (r.pollCount < 0) || decide (r.pollCount = 3)

def eofsIn (n : Nat) (rounds : List Round) : Nat := (rounds.map (Round.eofs n)).sum

def timeoutsIn (rounds : List Round) : Nat := rounds.countP Round.timesOut

/-- `poll` is called with a connection open and at most three timeouts behind it. -/
def StopsInTime (calls : List Server) : Prop := ∀ s ∈ calls, 0 < s.numOpen ∧ s.timeouts ≤ 3

/-! ### One iteration -/

/-- A connection that is closed is no longer counted. -/
theorem serveEntry_numOpen (v : Variant) (i : Nat) (valread : ReadResult) (s : Server) :
    (serveEntry v i valread s).numOpen + (serveEntry v i valread s).closefdCalls.length =
      s.numOpen + s.closefdCalls.length := by
  cases found : s.fds[i]? with
  | none => rw [serveEntry_of_none v i valread s found]
  | some entry =>
    obtain ⟨calls, numOpen, -⟩ := serveEntry_effect v i valread s entry found
    rw [calls, numOpen, List.length_append]
    omega

theorem serveEntry_timeouts (v : Variant) (i : Nat) (valread : ReadResult) (s : Server) :
    (serveEntry v i valread s).timeouts = s.timeouts := by
  cases found : s.fds[i]? with
  | none => rw [serveEntry_of_none v i valread s found]
  | some entry =>
    have serves := serveEntry_serves v i valread s entry found
    generalize serveEntry v i valread s = t at serves ⊢
    cases serves <;> rfl

theorem serve_eofs (v : Variant) (r : Round) (s : Server) (some : 0 < r.pollCount) :
    (serve v r.reads s.fds.length (setRevents r.revents s)).numOpen =
      s.numOpen - r.eofs s.fds.length := by
  have sum := serve_keeps (fun s => s.numOpen + s.closefdCalls.length) v r.reads s.fds.length
    (setRevents r.revents s) (serveEntry_numOpen v)
  have made := congrArg List.length (serve_closefdCalls v r.reads s.fds.length (setRevents r.revents s))
  rw [List.length_append, List.length_filterMap_eq_countP] at made
  have counted : (List.range s.fds.length).countP (fun i =>
      ((setRevents r.revents s).fds[i]?.bind (closing (r.reads i))).isSome) =
      r.eofs s.fds.length := by
    rw [Round.eofs, if_pos some]
    apply List.countP_congr
    intro i member
    have bound := List.mem_range.mp member
    simp only [setRevents, List.getElem?_mapIdx, List.getElem?_eq_getElem bound, Option.map_some,
      Option.bind_some, Option.isSome_iff_exists, closing_eq_some, Bool.and_eq_true,
      decide_eq_true_eq]
    simp
  rw [counted] at made
  have before : (setRevents r.revents s).numOpen = s.numOpen := rfl
  omega

/-- What one iteration adds to the two counters. -/
theorem iteration_of_not_leaves (v : Variant) (r : Round) (s : Server) (stays : r.leaves = false) :
    ∃ t, iteration v r s = .again t ∧ t.numOpen = s.numOpen - r.eofs s.fds.length ∧
      t.timeouts = s.timeouts + (if r.timesOut then 1 else 0) ∧ t.fds.length = s.fds.length := by
  simp only [Round.leaves, Bool.or_eq_false_iff, decide_eq_false_iff_not] at stays
  have polled := length_setRevents r.revents s
  simp only [iteration, if_neg stays.1, if_neg stays.2, polled]
  refine ⟨_, rfl, ?_⟩
  by_cases zero : r.pollCount = 0
  · simp only [Round.timesOut, zero, decide_true, if_true, Round.eofs,
      Int.lt_irrefl, if_false]
    refine ⟨?_, rfl, polled⟩
    exact (Int.sub_zero _).symm
  · have some : 0 < r.pollCount := by omega
    simp only [if_neg zero, Round.timesOut, decide_eq_true_eq]
    refine ⟨serve_eofs v r s some, ?_, ?_⟩
    · have kept := serve_keeps Server.timeouts v r.reads s.fds.length (setRevents r.revents s)
        (serveEntry_timeouts v)
      rw [kept]
      exact (Int.add_zero _).symm
    · have kept := congrArg List.length (serve_fd v r.reads s.fds.length (setRevents r.revents s))
      simpa [polled] using kept

theorem iteration_of_leaves (v : Variant) (r : Round) (s : Server) (leaves : r.leaves = true) :
    ∀ t, iteration v r s ≠ .again t := by
  intro t again
  simp only [Round.leaves, Bool.or_eq_true, decide_eq_true_eq] at leaves
  simp only [iteration] at again
  split at again
  · cases again
  next notFailed =>
    rw [if_pos (leaves.resolve_left notFailed)] at again
    cases again

/-! ### The loop of socket.c -/

theorem eofs_of_timesOut (n : Nat) (r : Round) (h : r.timesOut = true) : r.eofs n = 0 := by
  have zero : r.pollCount = 0 := of_decide_eq_true h
  simp [Round.eofs, zero]

theorem mem_pollCalls_self (v : Variant) (rounds : List Round) (s : Server)
    (more : v.guard s.numOpen s.timeouts = true) : s ∈ pollCalls v rounds s := by
  cases rounds <;> simp [pollCalls, more]

/-- With at most three timeouts the guard asks for an open connection. -/
theorem guard_of_few {s : Server} (few : s.timeouts ≤ 3) :
    socketServer.guard s.numOpen s.timeouts = decide (0 < s.numOpen) := by
  have no : ¬ s.timeouts > 3 := by omega
  simp [socketServer, no]

theorem pollCalls_cons_again (v : Variant) (r : Round) (rounds : List Round) (s t : Server)
    (more : v.guard s.numOpen s.timeouts = true) (again : iteration v r s = .again t) :
    pollCalls v (r :: rounds) s = s :: pollCalls v rounds t := by
  rw [pollCalls, if_pos more, again]

theorem pollCalls_cons_leaves (v : Variant) (r : Round) (rounds : List Round) (s : Server)
    (more : v.guard s.numOpen s.timeouts = true) (leaves : r.leaves = true) :
    pollCalls v (r :: rounds) s = [s] := by
  rw [pollCalls, if_pos more]
  cases result : iteration v r s with
  | again t => exact absurd result (iteration_of_leaves v r s leaves t)
  | broke t => rfl
  | failed => rfl

theorem pollCalls_stopped (v : Variant) (rounds : List Round) (s : Server)
    (stopped : v.guard s.numOpen s.timeouts = false) : pollCalls v rounds s = [] := by
  cases rounds <;> simp [pollCalls, stopped]

/-- From these counters on: as long as a connection is open and the loop has not been left,
at most three polls have timed out. -/
def FewTimeouts (n : Nat) (numOpen timeouts : Int) (rounds : List Round) : Prop :=
  ∀ done, done <+: rounds → (∀ r ∈ done, r.leaves = false) → (eofsIn n done : Int) < numOpen →
    timeouts + timeoutsIn done ≤ 3

section Counters

variable {numOpen timeouts : Int} {r : Round} {rounds : List Round}

theorem FewTimeouts.start (h : FewTimeouts n numOpen timeouts rounds) (more : 0 < numOpen) :
    timeouts ≤ 3 := by
  have now := h [] List.nil_prefix nofun (by simpa [eofsIn] using more)
  simpa [timeoutsIn] using now

theorem fewTimeouts_cons_of_leaves (leaves : r.leaves = true) (few : timeouts ≤ 3) :
    FewTimeouts n numOpen timeouts (r :: rounds) := by
  intro done isPrefix stays _
  rcases List.prefix_cons_iff.mp isPrefix with rfl | ⟨later, rfl, -⟩
  · simpa [timeoutsIn] using few
  · rw [stays r List.mem_cons_self] at leaves
    cases leaves

/-- After one round that stays in the loop. -/
theorem fewTimeouts_cons (stays : r.leaves = false) (few : timeouts ≤ 3) :
    FewTimeouts n numOpen timeouts (r :: rounds) ↔
      FewTimeouts n (numOpen - r.eofs n) (timeouts + if r.timesOut then 1 else 0) rounds := by
  have sums (later : List Round) : eofsIn n (r :: later) = r.eofs n + eofsIn n later ∧
      (timeoutsIn (r :: later) : Int) = timeoutsIn later + if r.timesOut then 1 else 0 := by
    refine ⟨rfl, ?_⟩
    rw [timeoutsIn, List.countP_cons, Int.natCast_add]
    cases r.timesOut <;> rfl
  constructor
  · intro h later isPrefix staysLater more
    have bound := h (r :: later) ((List.prefix_cons_inj r).mpr isPrefix)
      (List.forall_mem_cons.mpr ⟨stays, staysLater⟩) (by rw [(sums later).1]; omega)
    rw [(sums later).2] at bound
    omega
  · intro h done isPrefix staysAll more
    rcases List.prefix_cons_iff.mp isPrefix with rfl | ⟨later, rfl, isPrefix'⟩
    · simpa [timeoutsIn] using few
    · rw [(sums later).1] at more
      have bound := h later isPrefix' (fun r' member => staysAll r' (.tail _ member)) (by omega)
      rw [(sums later).2]
      omega

end Counters

theorem stopsInTime_of_closed (rounds : List Round) (s : Server) (few : s.timeouts ≤ 3)
    (closed : ¬ 0 < s.numOpen) :
    StopsInTime (pollCalls socketServer rounds s) ∧
      FewTimeouts s.fds.length s.numOpen s.timeouts rounds := by
  constructor
  · rw [pollCalls_stopped socketServer rounds s (by rw [guard_of_few few]; exact decide_eq_false closed)]
    exact fun t member => by cases member
  · intro done _ _ more
    omega

/-- The fourth timeout leaves the connections as they were, and `poll` is called again. -/
theorem not_stopsInTime_of_fourth (rounds : List Round) (s : Server) (fourth : 3 < s.timeouts) :
    ¬ StopsInTime (pollCalls socketServer rounds s) := by
  intro stops
  have again := stops s (mem_pollCalls_self socketServer rounds s (by
    simp only [socketServer, Bool.or_eq_true, decide_eq_true_eq]
    exact .inr fourth))
  omega

/-- The loop from a state with few timeouts on, by induction over the rounds. -/
theorem stopsInTime_iff_fewTimeouts (rounds : List Round) (s : Server) (few : s.timeouts ≤ 3) :
    StopsInTime (pollCalls socketServer rounds s) ↔
      FewTimeouts s.fds.length s.numOpen s.timeouts rounds := by
  induction rounds generalizing s with
  | nil =>
    by_cases more : 0 < s.numOpen
    · refine iff_of_true ?_ ?_
      · rw [pollCalls, if_pos (by rw [guard_of_few few]; exact decide_eq_true more)]
        exact List.forall_mem_singleton.mpr ⟨more, few⟩
      · intro done isPrefix _ _
        rw [List.prefix_nil.mp isPrefix]
        simpa [timeoutsIn] using few
    · obtain ⟨stops, bounded⟩ := stopsInTime_of_closed [] s few more
      exact iff_of_true stops bounded
  | cons r rounds ih =>
    by_cases more : 0 < s.numOpen
    · have guard : socketServer.guard s.numOpen s.timeouts = true := by
        rw [guard_of_few few]
        exact decide_eq_true more
      cases leaves : r.leaves with
      | true =>
        refine iff_of_true ?_ (fewTimeouts_cons_of_leaves leaves few)
        rw [pollCalls_cons_leaves socketServer r rounds s guard leaves]
        exact List.forall_mem_singleton.mpr ⟨more, few⟩
      | false =>
        obtain ⟨t, again, numOpen, timeouts, length⟩ :=
          iteration_of_not_leaves socketServer r s leaves
        have here : StopsInTime (pollCalls socketServer (r :: rounds) s) ↔
            StopsInTime (pollCalls socketServer rounds t) := by
          rw [pollCalls_cons_again socketServer r rounds s t guard again, StopsInTime,
            List.forall_mem_cons]
          exact and_iff_right ⟨more, few⟩
        rw [here, fewTimeouts_cons leaves few, ← numOpen, ← timeouts, ← length]
        by_cases fewer : t.timeouts ≤ 3
        · exact ih t fewer
        · -- this round was the fourth timeout, and a timeout closes nothing
          have timed : r.timesOut = true := by
            by_contra other
            rw [if_neg other] at timeouts
            omega
          have open_ : 0 < t.numOpen := by
            rw [numOpen, eofs_of_timesOut _ r timed]
            omega
          refine iff_of_false (not_stopsInTime_of_fourth rounds t (by omega)) ?_
          exact fun bounded => fewer (bounded.start open_)
    · obtain ⟨stops, bounded⟩ := stopsInTime_of_closed (r :: rounds) s few more
      exact iff_of_true stops bounded

/-- **Stopping**: socket.c stops polling in time if and only if no more than three polls
time out while a connection is open and no poll has failed or found three events. -/
theorem stops_in_time_iff (accepted : Accepted n) (rounds : List Round) :
    StopsInTime (pollCalls socketServer rounds (start accepted)) ↔
      ∀ done, done <+: rounds → (∀ r ∈ done, r.leaves = false) → eofsIn n done < n →
        timeoutsIn done ≤ 3 := by
  have length : (start accepted).fds.length = n := by simp [start, Accepted.fds]
  rw [stopsInTime_iff_fewTimeouts rounds (start accepted) (by simp [start]), length]
  constructor
  · intro few done isPrefix stays more
    have bound := few done isPrefix stays (Int.ofNat_lt.mpr more)
    simp only [start] at bound
    omega
  · intro few done isPrefix stays more
    have bound := few done isPrefix stays (Int.ofNat_lt.mp more)
    simp only [start]
    omega

/-- A `poll` that times out. -/
def quietRound : Round where
  pollCount := 0
  revents _ := 0
  reads _ := .error

/-- Nobody sends anything: `poll` is called again after the fourth timeout. -/
theorem polls_after_fourth_timeout :
    ¬ ∀ {n : Nat} (accepted : Accepted n) (rounds : List Round),
      StopsInTime (pollCalls socketServer rounds (start accepted)) := by
  intro claim
  have fifth := claim threeClients (List.replicate 4 quietRound) _
    (List.mem_of_getElem? (i := 4) rfl)
  exact absurd fifth.2 (by decide)

/-- The guard is what every call of `poll` has passed. -/
theorem guard_of_pollCalls (v : Variant) (rounds : List Round) (s t : Server)
    (called : t ∈ pollCalls v rounds s) : v.guard t.numOpen t.timeouts = true := by
  induction rounds generalizing s with
  | nil =>
    rw [pollCalls] at called
    split at called
    next more =>
      rw [List.mem_singleton.mp called]
      exact more
    next => cases called
  | cons r rounds ih =>
    rw [pollCalls] at called
    split at called
    next more =>
      rcases List.mem_cons.mp called with rfl | later
      · exact more
      · cases result : iteration v r s with
        | again s' =>
          rw [result] at later
          exact ih s' later
        | broke s' =>
          rw [result] at later
          cases later
        | failed =>
          rw [result] at later
          cases later
    next => cases called

/-- The other server stops in time in every run. -/
theorem socketForkServer_stopsInTime (accepted : Accepted n) (rounds : List Round) :
    StopsInTime (pollCalls socketForkServer rounds (start accepted)) := by
  intro t called
  have guard := guard_of_pollCalls socketForkServer rounds _ t called
  simp only [socketForkServer, Bool.and_eq_true, decide_eq_true_eq] at guard
  omega

end GenericTests.Socket
