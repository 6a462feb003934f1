import NetExperiment.Tcp.EpollHandler.SpliceEcho

/-!
# Runs of an echoed connection

When the handler closes a connection, and when it leaves bytes in its pipe
without asking to be called again.
-/

namespace NetExperiment
namespace EpollHandler
namespace Connection

open Foundation

/-!
## Closing only at the end

The counter is the number of bytes in the pipe as long as no splice would block.
A splice to the socket that would block adds one to it, a splice from the socket
that would block takes one away.  All of this is in the arithmetic of C ints.
-/

/-- By how much the counter is ahead of the pipe. -/
def surplus (c : Connection) : Int :=
  (c.outBlocked : Int) - c.inBlocked

structure Counted (c : Connection) : Prop where
  bytes : c.fromSocket = c.toSocket ++ c.pipe
  counter : c.received = toInt32 (c.pipe.length + c.surplus)

theorem counted_new : new.Counted where
  bytes := rfl
  counter := by decide

theorem counted_spliceOut {c : Connection} {r : SpliceOut} (h : c.Counted)
    (hpossible : c.OutPossible r) :
    Counted
      { c.spliceOut r with received := toInt32 (c.received - r.result) } := by
  cases r with
  | blocked =>
      refine ⟨h.bytes, ?_⟩
      show toInt32 (c.received - -1) =
        toInt32 (c.pipe.length + (((c.outBlocked + 1 : Nat) : Int) -
          c.inBlocked))
      rw [h.counter, toInt32_sub]
      congr 1
      simp only [surplus]
      omega
  | moved n =>
      rcases hpossible with ⟨_, hn, _⟩
      constructor
      · show c.fromSocket = c.toSocket ++ c.pipe.take n ++ c.pipe.drop n
        rw [List.append_assoc, List.take_append_drop]
        exact h.bytes
      · show toInt32 (c.received - n) =
          toInt32 ((c.pipe.drop n).length + c.surplus)
        rw [h.counter, toInt32_sub, List.length_drop]
        congr 1
        omega

theorem counted_spliceIn {c : Connection} (r : SpliceIn) (h : c.Counted) :
    Counted
      { c.spliceIn r with received := toInt32 (c.received + r.result) } := by
  cases r with
  | blocked =>
      refine ⟨h.bytes, ?_⟩
      show toInt32 (c.received + -1) =
        toInt32 (c.pipe.length + ((c.outBlocked : Int) -
          ((c.inBlocked + 1 : Nat) : Int)))
      rw [h.counter, toInt32_add]
      congr 1
      simp only [surplus]
      omega
  | moved bytes =>
      constructor
      · show c.fromSocket ++ bytes = c.toSocket ++ (c.pipe ++ bytes)
        rw [h.bytes, List.append_assoc]
      · show toInt32 (c.received + bytes.length) =
          toInt32 ((c.pipe ++ bytes).length + c.surplus)
        rw [h.counter, toInt32_add, List.length_append]
        congr 1
        omega

theorem counted_outputDone {c : Connection} {a : Call} (h : c.Counted)
    (hpossible : a.events.Writable -> c.OutPossible a.out) :
    Counted { c.outputDone a with received := c.outputCounter a } := by
  unfold outputDone outputCounter SpliceEchoHandler.afterOutput
  by_cases hwrite : a.events.Writable
  · simp only [if_pos hwrite]
    exact counted_spliceOut h (hpossible hwrite)
  · simp only [if_neg hwrite]
    exact h

theorem spliceIn_received (c : Connection) (received : Int) (r : SpliceIn) :
    { c with received := received }.spliceIn r =
      { c.spliceIn r with received := received } := by
  cases r <;> rfl

theorem counted_inputDone {c : Connection} {a : Call} (h : c.Counted)
    (hpossible : a.events.Writable -> c.OutPossible a.out) :
    Counted
      { (c.outputDone a).spliceIn a.inp with
        received := c.inputCounter a } := by
  have hin := counted_spliceIn a.inp (counted_outputDone h hpossible)
  rw [spliceIn_received] at hin
  exact hin

def spliced (c : Connection) (a : Call) : Connection :=
  (c.outputDone a).spliceIn a.inp

/-- A closed connection has seen the end of the stream and echoed all of it. -/
def ClosedAtEnd (c : Connection) : Prop :=
  c.live = false -> c.eofSeen = true ∧ c.toSocket = c.fromSocket

/-- The output branch leaves nothing in the pipe, and the splice from the socket
returns 0, or would block after an earlier one returned 0. -/
def AtEnd (c : Connection) (a : Call) : Prop :=
  (c.outputDone a).pipe = [] ∧
    (a.inp = .moved [] ∨ (a.inp = .blocked ∧ c.eofSeen = true))

/-- The condition on one call with EPOLLIN.  Counted with its own splices, the
splices from the socket that would block are fewer than the bytes in the pipe and
the splices to the socket that would block together, unless the call finds the
end of the stream and an empty pipe. -/
def StaysAhead (c : Connection) (a : Call) : Prop :=
  c.live = true -> c.Possible a -> a.events.Readable ->
    0 < toInt32 ((c.spliced a).pipe.length + (c.spliced a).surplus) ∨ c.AtEnd a

instance (c : Connection) (a : Call) : Decidable (c.AtEnd a) :=
  inferInstanceAs (Decidable (_ ∧ (_ ∨ (_ ∧ _))))

instance (c : Connection) (a : Call) : Decidable (c.StaysAhead a) :=
  inferInstanceAs (Decidable (_ -> _ -> _ -> _ ∨ _))

theorem outputDone_eofSeen (c : Connection) (a : Call) :
    (c.outputDone a).eofSeen = c.eofSeen := by
  unfold outputDone
  split
  · cases a.out <;> rfl
  · rfl

theorem atEnd_iff (c : Connection) (a : Call) :
    c.AtEnd a <-> (c.spliced a).eofSeen = true ∧ (c.spliced a).pipe = [] := by
  unfold AtEnd spliced
  rw [← outputDone_eofSeen c a]
  cases a.inp with
  | blocked => simp [spliceIn, and_comm]
  | moved bytes =>
      simp only [spliceIn, Bool.or_eq_true, List.isEmpty_iff,
        List.append_eq_nil_iff, SpliceIn.moved.injEq, reduceCtorEq, false_and,
        or_false]
      constructor
      · intro h
        exact ⟨.inr h.2, h⟩
      · intro h
        exact h.2

theorem inputCounter_eq {c : Connection} {a : Call} (h : c.Counted)
    (hpossible : a.events.Writable -> c.OutPossible a.out) :
    c.inputCounter a =
      toInt32 ((c.spliced a).pipe.length + (c.spliced a).surplus) :=
  (counted_inputDone h hpossible).counter

theorem spliced_echoed_iff {c : Connection} {a : Call} (h : c.Counted)
    (hpossible : a.events.Writable -> c.OutPossible a.out) :
    (c.spliced a).toSocket = (c.spliced a).fromSocket <->
      (c.spliced a).pipe = [] := by
  have hbytes : (c.spliced a).fromSocket =
      (c.spliced a).toSocket ++ (c.spliced a).pipe :=
    (counted_inputDone h hpossible).bytes
  rw [hbytes]
  exact List.self_eq_append_right

theorem spliced_live (c : Connection) (a : Call) :
    (c.spliced a).live = c.live := by
  unfold spliced
  rw [spliceIn_live, outputDone_live]

/-- The calls without a hangup and without an error. -/
abbrev Transfer := { a : Call // ¬ a.events.HungUp }

def transfers : Machine Connection Transfer Empty :=
  machine.comap Subtype.val

theorem step_counted {c : Connection} (a : Transfer)
    (h : c.live = true -> c.Counted) :
    (step c a.val).live = true -> (step c a.val).Counted := by
  have hstep := step_cases c a.val
  generalize step c a.val = next at hstep
  cases hstep with
  | idle _ => exact h
  | hungUp hhung => exact absurd hhung a.property
  | wrote hlive hpossible hhung hwrite _ =>
      intro _
      have hcounted := counted_spliceOut (h hlive) (hpossible.out hhung hwrite)
      exact ⟨hcounted.bytes, hcounted.counter⟩
  | read hlive hpossible hhung _ _ =>
      intro _
      have hcounted := counted_inputDone (h hlive) (hpossible.out hhung)
      exact ⟨hcounted.bytes, hcounted.counter⟩
  | closed _ _ _ _ _ _ =>
      intro hlive
      cases hlive

theorem step_closedAtEnd {c : Connection} {a : Transfer}
    (h : c.live = true -> c.Counted) (hclosed : c.ClosedAtEnd)
    (hahead : c.StaysAhead a.val) : (step c a.val).ClosedAtEnd := by
  have hstep := step_cases c a.val
  generalize step c a.val = next at hstep
  cases hstep with
  | idle _ => exact hclosed
  | hungUp hhung => exact absurd hhung a.property
  | wrote hlive _ _ _ _ =>
      intro hdead
      have hdead : (c.spliceOut a.val.out).live = false := hdead
      rw [spliceOut_live, hlive] at hdead
      cases hdead
  | read hlive _ _ _ _ =>
      intro hdead
      have hdead : (c.spliced a.val).live = false := hdead
      rw [spliced_live, hlive] at hdead
      cases hdead
  | closed _ hlive hpossible hhung hread hcounter =>
      intro _
      have hout := hpossible.out hhung
      rw [inputCounter_eq (h hlive) hout] at hcounter
      rcases hahead hlive hpossible hread with hpositive | hend
      · omega
      · rcases (atEnd_iff c a.val).mp hend with ⟨heof, hpipe⟩
        exact ⟨heof, (spliced_echoed_iff (h hlive) hout).mpr hpipe⟩

theorem staysAhead_of_step {c : Connection} {a : Transfer}
    (h : c.live = true -> c.Counted) (hclosed : (step c a.val).ClosedAtEnd) :
    c.StaysAhead a.val := by
  intro hlive hpossible hread
  have hout := hpossible.out a.property
  rw [← inputCounter_eq (h hlive) hout, atEnd_iff,
    ← spliced_echoed_iff (h hlive) hout]
  have hstep := step_cases c a.val
  generalize step c a.val = next at hstep hclosed
  cases hstep with
  | idle hidle => exact absurd hread (hidle hlive hpossible).2.2
  | hungUp hhung => exact absurd hhung a.property
  | wrote _ _ _ _ hnotRead => exact absurd hread hnotRead
  | read _ _ _ _ hcounter => exact Or.inl (Int.not_le.mp hcounter)
  | closed _ _ _ _ _ _ => exact Or.inr (hclosed rfl)

/-- A run without hangups and errors closes the connection only at the end of the
stream and with all of it echoed, exactly if every call stays ahead. -/
theorem closedAtEnd_iff_staysAhead (acts : List Transfer) :
    transfers.Always ClosedAtEnd new acts <->
      transfers.Along (fun c a => c.StaysAhead a.val) new acts := by
  refine Machine.always_iff_along
    (I := fun c => c.live = true -> c.Counted) ?_ ?_ (fun _ => counted_new) ?_
  · intro c a hc hclosed ha
    exact ⟨step c a.val, rfl, step_counted a hc, step_closedAtEnd hc hclosed ha⟩
  · intro c a next hc _ hnext hclosed
    cases hnext
    exact staysAhead_of_step hc hclosed
  · intro hdead
    cases hdead

-- one byte is echoed, then the client ends
example : transfers.Along (fun c a => c.StaysAhead a.val) new
    [⟨⟨EPOLLIN ||| EPOLLOUT, .moved 0, .moved [97]⟩, by decide⟩,
      ⟨⟨EPOLLOUT, .moved 1, .blocked⟩, by decide⟩,
      ⟨⟨EPOLLIN, .blocked, .moved []⟩, by decide⟩] := by
  decide +kernel

/-- Two bytes are read and one is written back; then the pipe cannot take more
and the connection is closed. -/
theorem closed_before_end :
    exists c, transfers.run new
        [⟨⟨EPOLLIN ||| EPOLLOUT, .moved 0, .moved [97, 98]⟩, by decide⟩,
          ⟨⟨EPOLLOUT, .moved 1, .blocked⟩, by decide⟩,
          ⟨⟨EPOLLIN, .blocked, .blocked⟩, by decide⟩] = .ok c ∧
      c.live = false ∧ c.eofSeen = false ∧ c.pipe = [98] ∧
      c.toSocket = [97] ∧ c.fromSocket = [97, 98] := by
  refine ⟨_, rfl, ?_⟩
  decide +kernel

/-!
## Asking to be called again

The interest mask after a call that only wrote has no output event.
-/

/-- The pipe holds bytes only while the handler waits for output events. -/
def NotStranded (c : Connection) : Prop :=
  c.live = true -> c.pipe ≠ [] -> c.interest.Writable

/-- A call that writes and does not read. -/
def WritesOnly (c : Connection) (a : Call) : Prop :=
  c.live = true ∧ c.Possible a ∧ ¬ a.events.HungUp ∧ a.events.Writable ∧
    ¬ a.events.Readable

/-- The pipe is empty, or the splice to the socket takes all of it. -/
def EmptiesPipe (c : Connection) (a : Call) : Prop :=
  c.pipe = [] ∨ a.out = .moved c.pipe.length

theorem notStranded_new : new.NotStranded := by
  intro _ hpipe
  exact absurd rfl hpipe

theorem spliceOut_pipe_eq_nil_iff {c : Connection} {a : Call}
    (hpossible : c.OutPossible a.out) :
    (c.spliceOut a.out).pipe = [] <-> c.EmptiesPipe a := by
  unfold EmptiesPipe
  cases hout : a.out with
  | blocked =>
      show c.pipe = [] <-> _
      simp
  | moved n =>
      rw [hout] at hpossible
      rcases hpossible with ⟨_, hn, _⟩
      show c.pipe.drop n = [] <-> _
      rw [List.drop_eq_nil_iff, SpliceOut.moved.injEq]
      constructor
      · intro hlength
        exact Or.inr (Nat.le_antisymm hn hlength)
      · intro h
        rcases h with h | h
        · rw [h]
          exact Nat.zero_le n
        · exact Nat.le_of_eq h.symm

theorem step_notStranded {c : Connection} {a : Call} (h : c.NotStranded)
    (hempties : c.WritesOnly a -> c.EmptiesPipe a) : (step c a).NotStranded := by
  have hstep := step_cases c a
  generalize step c a = next at hstep
  cases hstep with
  | idle _ => exact h
  | hungUp _ =>
      intro hlive
      cases hlive
  | wrote hlive hpossible hhung hwrite hread =>
      have hpipe := (spliceOut_pipe_eq_nil_iff (hpossible.out hhung hwrite)).mpr
        (hempties ⟨hlive, hpossible, hhung, hwrite, hread⟩)
      intro _ hbytes
      exact absurd hpipe hbytes
  | read _ _ _ _ _ =>
      intro _ _
      show SpliceEchoHandler.writeInterest.Writable
      decide
  | closed _ _ _ _ _ _ =>
      intro hlive
      cases hlive

theorem emptiesPipe_of_step {c : Connection} {a : Call}
    (hstranded : (step c a).NotStranded) (hwrites : c.WritesOnly a) :
    c.EmptiesPipe a := by
  rcases hwrites with ⟨hlive, hpossible, hhung, hwrite, hread⟩
  rw [← spliceOut_pipe_eq_nil_iff (hpossible.out hhung hwrite)]
  have hstep := step_cases c a
  generalize step c a = next at hstep hstranded
  cases hstep with
  | idle hidle => exact absurd hwrite (hidle hlive hpossible).2.1
  | hungUp hhung' => exact absurd hhung' hhung
  | wrote _ _ _ _ _ =>
      by_contra hpipe
      have hwritable : SpliceEchoHandler.readInterest.Writable :=
        hstranded ((spliceOut_live c a.out).trans hlive) hpipe
      exact absurd hwritable (by decide)
  | read _ _ _ hread' _ => exact absurd hread' hread
  | closed _ _ _ _ hread' _ => exact absurd hread' hread

/-- No state of a run strands bytes in the pipe, exactly if every call that only
writes empties the pipe. -/
theorem notStranded_iff_empties (acts : List Call) :
    machine.Always NotStranded new acts <->
      machine.Along (fun c a => c.WritesOnly a -> c.EmptiesPipe a) new acts := by
  refine Machine.always_iff_along (I := fun _ => True) ?_ ?_ trivial
    notStranded_new
  · intro c a _ hc ha
    exact ⟨step c a, rfl, trivial, step_notStranded hc ha⟩
  · intro c a next _ _ hnext hstranded hwrites
    cases hnext
    exact emptiesPipe_of_step hstranded hwrites

/-- Two bytes are read and one is written back; the other one stays. -/
theorem stranded_after_short_write :
    exists c, machine.run new
        [⟨EPOLLIN ||| EPOLLOUT, .moved 0, .moved [97, 98]⟩,
          ⟨EPOLLOUT, .moved 1, .blocked⟩] = .ok c ∧
      c.live = true ∧ c.pipe = [98] ∧ ¬ c.interest.Writable := by
  refine ⟨_, rfl, ?_⟩
  decide +kernel

end Connection
end EpollHandler
end NetExperiment
