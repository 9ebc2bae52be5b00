import GenericTests.Socket.Server

/-!
# Which descriptors are polled

`closefd` closes a descriptor and leaves its `fds` entry alone, and the error branch
clears `events` and `revents` but never `fd`. So the poll set is the accept loop's for
ever, and it is right up to the first end of file only.
-/
namespace GenericTests.Socket

open GenericTests.CString

variable {n : Nat}

/-- The entries `poll` looks at are the accepted sockets that are not closed yet. -/
def OnlyLivePolled (accepted : Accepted n) (s : Server) : Prop :=
  ∀ fd, (∃ entry ∈ s.fds, 0 ≤ entry.fd ∧ entry.fd = fd) ↔
    fd ∈ accepted.fds ∧ fd ∉ s.closefdCalls

/-- In this round some client is found at end of file. -/
def Round.SeesEof (n : Nat) (r : Round) : Prop :=
  0 < r.pollCount ∧ ∃ i < n, r.revents i &&& pollin ≠ 0 ∧ r.reads i = .eof

/-- From `s` to `t` the poll set stays, and the `closefd` calls are on polled descriptors.
There are none exactly if `quiet`. -/
structure Closes (s t : Server) (quiet : Prop) : Prop where
  fds : t.fds.map PollFd.fd = s.fds.map PollFd.fd
  calls : ∃ calls, t.closefdCalls = s.closefdCalls ++ calls ∧
    (∀ fd ∈ calls, fd ∈ s.fds.map PollFd.fd) ∧ (calls = [] ↔ quiet)

theorem Closes.of_same {s t : Server} {quiet : Prop} (hq : quiet)
    (hf : t.fds.map PollFd.fd = s.fds.map PollFd.fd) (hc : t.closefdCalls = s.closefdCalls) :
    Closes s t quiet :=
  ⟨hf, [], by simp [hc], by simp, by simp [hq]⟩

theorem Closes.trans {s t u : Server} {p q : Prop} (h₁ : Closes s t p) (h₂ : Closes t u q) :
    Closes s u (p ∧ q) := by
  obtain ⟨hf₁, c₁, e₁, m₁, q₁⟩ := h₁
  obtain ⟨hf₂, c₂, e₂, m₂, q₂⟩ := h₂
  refine ⟨hf₂.trans hf₁, c₁ ++ c₂, ?_, ?_, ?_⟩
  · rw [e₂, e₁, List.append_assoc]
  · intro fd hfd
    rcases List.mem_append.mp hfd with h | h
    · exact m₁ fd h
    · exact hf₁ ▸ m₂ fd h
  · rw [List.append_eq_nil_iff, q₁, q₂]

/-! ### The inner loop -/

theorem serve_succ (v : Variant) (reads : Nat → ReadResult) (k : Nat) (s : Server) :
    serve v reads (k + 1) s = serveEntry v k (reads k) (serve v reads k s) := by
  simp only [serve, List.range_succ, List.foldl_append, List.foldl_cons, List.foldl_nil]

/-- What no entry changes, the loop does not change. -/
theorem serve_keeps {β : Type} (f : Server → β) (v : Variant) (reads : Nat → ReadResult) (k : Nat)
    (s : Server) (keeps : ∀ i valread t, f (serveEntry v i valread t) = f t) :
    f (serve v reads k s) = f s := by
  induction k with
  | zero => rfl
  | succ k ih => rw [serve_succ, keeps, ih]

/-- The loop has not touched the entries it has not come to. -/
theorem serve_later (v : Variant) (reads : Nat → ReadResult) (k j : Nat) (s : Server)
    (later : k ≤ j) : (serve v reads k s).fds[j]? = s.fds[j]? := by
  induction k with
  | zero => rfl
  | succ k ih =>
    rw [serve_succ, serveEntry_other v k j (reads k) _ (by omega)]
    exact ih (by omega)

theorem serve_fd (v : Variant) (reads : Nat → ReadResult) (k : Nat) (s : Server) :
    (serve v reads k s).fds.map PollFd.fd = s.fds.map PollFd.fd :=
  serve_keeps (fun s => s.fds.map PollFd.fd) v reads k s (serveEntry_fd v)

theorem serve_closefdCalls (v : Variant) (reads : Nat → ReadResult) (k : Nat) (s : Server) :
    (serve v reads k s).closefdCalls =
      s.closefdCalls ++ (List.range k).filterMap fun i => s.fds[i]?.bind (closing (reads i)) := by
  induction k with
  | zero => simp [serve]
  | succ k ih =>
    -- Entry k is served as poll left it.
    have next := serve_later v reads k k s (Nat.le_refl k)
    rw [serve_succ, List.range_succ, List.filterMap_append, ← List.append_assoc, ← ih]
    cases found : s.fds[k]? with
    | none => simp [serveEntry_of_none v k (reads k) _ (next.trans found), found]
    | some entry =>
      rw [(serveEntry_effect v k (reads k) _ entry (next.trans found)).1]
      cases hc : closing (reads k) entry <;> simp [found, hc]

theorem closing_eq_some (valread : ReadResult) (entry : PollFd) (fd : Int) :
    closing valread entry = some fd ↔
      entry.revents &&& pollin ≠ 0 ∧ valread = .eof ∧ entry.fd = fd := by
  by_cases ready : entry.revents &&& pollin ≠ 0
  · cases valread with
    | eof =>
      rw [closing_of_eof entry ready, Option.some_inj]
      exact ⟨fun h => ⟨ready, rfl, h⟩, fun h => h.2.2⟩
    | data bytes => simp [closing]
    | error => simp [closing]
  · rw [closing_of_not_ready valread entry ready]
    constructor
    · intro h
      cases h
    · intro h
      exact absurd h.1 ready

theorem serve_closes (v : Variant) (reads : Nat → ReadResult) (s : Server) :
    Closes s (serve v reads s.fds.length s)
      (¬ ∃ i e, s.fds[i]? = some e ∧ e.revents &&& pollin ≠ 0 ∧ reads i = .eof) := by
  refine ⟨serve_fd v reads _ s, _, serve_closefdCalls v reads _ s, ?_, ?_⟩
  · intro fd hfd
    obtain ⟨i, -, hi⟩ := List.mem_filterMap.mp hfd
    obtain ⟨e, found, closed⟩ := Option.bind_eq_some_iff.mp hi
    obtain ⟨-, -, rfl⟩ := (closing_eq_some _ _ _).mp closed
    exact List.mem_map_of_mem (List.mem_of_getElem? found)
  · -- No call was made exactly if no entry closes its descriptor.
    rw [List.filterMap_eq_nil_iff]
    constructor
    · rintro none ⟨i, e, found, ready, eof⟩
      obtain ⟨bound, -⟩ := List.getElem?_eq_some_iff.mp found
      have kept := none i (List.mem_range.mpr bound)
      rw [found, Option.bind_some, (closing_eq_some (reads i) e e.fd).mpr ⟨ready, eof, rfl⟩] at kept
      cases kept
    · intro quiet i _
      rw [Option.eq_none_iff_forall_ne_some]
      intro fd hfd
      obtain ⟨e, found, closed⟩ := Option.bind_eq_some_iff.mp hfd
      obtain ⟨ready, eof, -⟩ := (closing_eq_some _ _ _).mp closed
      exact quiet ⟨i, e, found, ready, eof⟩

/-! ### The poll loop -/

private theorem setRevents_ready (r : Round) (s : Server) :
    (∃ i e, (setRevents r.revents s).fds[i]? = some e ∧ e.revents &&& pollin ≠ 0 ∧
        r.reads i = .eof) ↔
      ∃ i < s.fds.length, r.revents i &&& pollin ≠ 0 ∧ r.reads i = .eof := by
  simp only [setRevents, List.getElem?_mapIdx, Option.map_eq_some_iff]
  constructor
  · rintro ⟨i, e, ⟨e', found, rfl⟩, ready, eof⟩
    exact ⟨i, (List.getElem?_eq_some_iff.mp found).1, ready, eof⟩
  · rintro ⟨i, bound, ready, eof⟩
    exact ⟨i, _, ⟨_, List.getElem?_eq_getElem bound, rfl⟩, ready, eof⟩

/-- One iteration closes something exactly if it sees an end of file. -/
theorem iteration_closes (v : Variant) (r : Round) (s t : Server)
    (again : iteration v r s = .again t) : Closes s t (¬ r.SeesEof s.fds.length) := by
  have polled : Closes s (setRevents r.revents s) True :=
    .of_same trivial (setRevents_fd r.revents s) rfl
  obtain ⟨notFailed, rfl⟩ := iteration_ends (.inl again)
  split
  next zero =>
    -- a timeout serves nobody, whatever revents holds
    refine .of_same ?_ (setRevents_fd r.revents s) rfl
    intro sees
    have := sees.1
    omega
  next nonzero =>
    have served := polled.trans (serve_closes v r.reads (setRevents r.revents s))
    rw [setRevents_ready, true_and] at served
    have positive : 0 < r.pollCount := by omega
    simpa only [Round.SeesEof, positive, true_and] using served

theorem pollCalls_closes (v : Variant) (rounds : List Round) (s t : Server) (k : Nat)
    (called : (pollCalls v rounds s)[k]? = some t) :
    Closes s t (∀ r ∈ rounds.take k, ¬ r.SeesEof s.fds.length) := by
  -- Each round starts in another state, and the k-th call is the first of the rest.
  induction rounds generalizing s k with
  | nil =>
    simp only [pollCalls] at called
    split at called
    · cases k with
      | zero =>
        cases called
        exact .of_same (by simp) rfl rfl
      | succ k => cases called
    · cases called
  | cons r rounds ih =>
    simp only [pollCalls] at called
    split at called
    · cases k with
      | zero =>
        cases called
        exact .of_same (by simp) rfl rfl
      | succ k =>
        rw [List.getElem?_cons_succ] at called
        cases hi : iteration v r s with
        | again s' =>
          rw [hi] at called
          have first := iteration_closes v r s s' hi
          have rest := ih s' k called
          have length : s'.fds.length = s.fds.length := by
            simpa only [List.length_map] using congrArg List.length first.fds
          rw [length] at rest
          simpa only [List.take_succ_cons, List.forall_mem_cons] using first.trans rest
        | broke s' =>
          rw [hi] at called
          cases called
        | failed =>
          rw [hi] at called
          cases called
    · cases called

private theorem start_fd (accepted : Accepted n) :
    (start accepted).fds.map PollFd.fd = accepted.fds := by
  simp [start, Function.comp_def]

/-- With an unchanged poll set, being right about liveness means having closed nothing. -/
private theorem onlyLivePolled_iff (accepted : Accepted n) (t : Server) (quiet : Prop)
    (h : Closes (start accepted) t quiet) : OnlyLivePolled accepted t ↔ quiet := by
  obtain ⟨fds, calls, hc, mem, hq⟩ := h
  rw [start_fd] at fds mem
  have none : t.closefdCalls = calls := hc
  -- Every accepted descriptor is polled, since none is negative.
  have polled : ∀ fd, (∃ entry ∈ t.fds, 0 ≤ entry.fd ∧ entry.fd = fd) ↔ fd ∈ accepted.fds := by
    intro fd
    rw [← fds]
    constructor
    · rintro ⟨entry, he, -, rfl⟩
      exact List.mem_map_of_mem he
    · intro hfd
      obtain ⟨entry, he, rfl⟩ := List.mem_map.mp hfd
      rw [fds, Accepted.fds, List.mem_ofFn] at hfd
      obtain ⟨i, hi⟩ := hfd
      exact ⟨entry, he, hi ▸ accepted.nonneg i, rfl⟩
  rw [← hq, OnlyLivePolled, none]
  constructor
  · intro live
    -- a closed descriptor would be polled and so, by assumption, not closed
    rw [List.eq_nil_iff_forall_not_mem]
    intro fd hfd
    exact ((live fd).mp ((polled fd).mpr (mem fd hfd))).2 hfd
  · rintro rfl fd
    simpa using polled fd

/-- **Poll set**: at a call of `poll` the polled entries are the live sockets if and only
if no earlier round saw an end of file. -/
theorem onlyLivePolled_iff_no_eof (v : Variant) (accepted : Accepted n) (rounds : List Round)
    (k : Nat) (s : Server) (called : (pollCalls v rounds (start accepted))[k]? = some s) :
    OnlyLivePolled accepted s ↔ ∀ r ∈ rounds.take k, ¬ r.SeesEof n := by
  have length : (start accepted).fds.length = n := by simp [start, Accepted.fds]
  have closes := pollCalls_closes v rounds (start accepted) s k called
  rw [length] at closes
  exact onlyLivePolled_iff accepted s _ closes

/-- `poll` reports the second client only. -/
def secondClient (valread : ReadResult) : Round where
  pollCount := 1
  revents i := if i = 1 then pollin else 0
  reads _ := valread

def greeting : Round := secondClient (.data (ascii "Hello from client 2"))

theorem onlyLivePolled_after_greeting :
    ∃ s, (pollCalls socketServer [greeting] (start threeClients))[1]? = some s ∧
      OnlyLivePolled threeClients s := by
  refine ⟨_, rfl, (onlyLivePolled_iff_no_eof socketServer threeClients [greeting] 1 _ rfl).mpr ?_⟩
  simp [Round.SeesEof, greeting, secondClient]

/-- The second client is at end of file and is closed; the next `poll` looks at its entry
again, in both servers. -/
theorem closed_client_polled :
    (∃ s, (pollCalls socketServer [secondClient .eof] (start threeClients))[1]? = some s ∧
      ¬ OnlyLivePolled threeClients s) ∧
    (∃ s, (pollCalls socketForkServer [secondClient .eof] (start threeClients))[1]? = some s ∧
      ¬ OnlyLivePolled threeClients s) := by
  have stale : ∀ s : Server, s.closefdCalls = [5] → (∃ entry ∈ s.fds, entry.fd = 5) →
      ¬ OnlyLivePolled threeClients s := by
    rintro s closed ⟨entry, he, hfd⟩ live
    have open5 := ((live 5).mp ⟨entry, he, by omega, hfd⟩).2
    simp [closed] at open5
  constructor
  · exact ⟨_, rfl, stale _ rfl ⟨_, List.mem_of_getElem? (i := 1) rfl, rfl⟩⟩
  · exact ⟨_, rfl, stale _ rfl ⟨_, List.mem_of_getElem? (i := 1) rfl, rfl⟩⟩

end GenericTests.Socket
