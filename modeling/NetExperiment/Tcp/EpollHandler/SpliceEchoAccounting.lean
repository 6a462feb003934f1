import NetExperiment.Tcp.EpollHandler.SpliceEchoRuns

/-!
# The counter of an echoed connection

The counter of the handler is meant to be the number of bytes in its pipe.  It
is the length that the handler passes to the splice to the socket.  From a state
in which both agree, a call keeps them in agreement exactly if its two splices
would block together or not at all, unless the call closes the connection.  How
many bytes the pipe can hold is left open: the counter is a C int.
-/

namespace NetExperiment
namespace EpollHandler
namespace Connection

open Foundation

/-- While the handler is registered, its counter is the number of bytes in the
pipe, not negative, and the same number as a length. -/
def Accounted (c : Connection) : Prop :=
  c.live = true -> c.received = c.pipe.length ∧ 0 ≤ c.received ∧
    toSize c.received = c.pipe.length

def InRange (c : Connection) : Prop :=
  -0x80000000 ≤ c.received ∧ c.received < 0x80000000

def OutBlocks (a : Call) : Prop :=
  a.events.Writable ∧ a.out = .blocked

def InBlocks (a : Call) : Prop :=
  a.events.Readable ∧ a.inp = .blocked

instance (a : Call) : Decidable (OutBlocks a) :=
  inferInstanceAs (Decidable (_ ∧ _))

instance (a : Call) : Decidable (InBlocks a) :=
  inferInstanceAs (Decidable (_ ∧ _))

/-- Both splices of a call would block or neither, or the call closes the
connection: only the splice from the socket would block and finds at most one
byte in the pipe, or only the splice to the socket would block and the bytes in
the pipe after the other one make the counter too large for an int. -/
def BlocksEvenly (c : Connection) (a : Call) : Prop :=
  c.live = true -> c.Possible a -> ¬ a.events.HungUp ->
    (OutBlocks a <-> InBlocks a) ∨
      (InBlocks a ∧ ¬ OutBlocks a ∧ (c.outputDone a).pipe.length ≤ 1) ∨
      (OutBlocks a ∧ a.events.Readable ∧ ¬ InBlocks a ∧
        0x7fffffff ≤ (c.spliced a).pipe.length)

instance (c : Connection) (a : Call) : Decidable (c.BlocksEvenly a) :=
  inferInstanceAs (Decidable (_ -> _ -> _ -> _ ∨ (_ ∧ _ ∧ _) ∨ (_ ∧ _ ∧ _ ∧ _)))

/-!
## Numbers of a C int
-/

theorem toInt32_inRange (x : Int) :
    -0x80000000 ≤ toInt32 x ∧ toInt32 x < 0x80000000 := by
  have hlow := Int.le_bmod (x := x) (m := 0x100000000) (by decide)
  have hhigh := Int.bmod_lt (x := x) (m := 0x100000000) (by decide)
  unfold toInt32
  omega

theorem toInt32_cases {x : Int} (hlow : -0x80000000 ≤ x)
    (hhigh : x < 0x100000000) :
    (x < 0x80000000 ∧ toInt32 x = x) ∨ (0x80000000 ≤ x ∧ toInt32 x < 0) := by
  by_cases hsmall : x < 0x80000000
  · refine .inl ⟨hsmall, ?_⟩
    unfold toInt32
    exact Int.bmod_eq_of_le_mul_two (by omega) (by omega)
  · refine .inr ⟨Int.not_lt.mp hsmall, ?_⟩
    unfold toInt32
    rw [← Int.sub_bmod_right, Int.bmod_eq_of_le_mul_two] <;> omega

theorem toSize_natCast {n : Nat} (h : n < 0x10000000000000000) :
    toSize (n : Int) = n := by
  have hmod : (n : Int).emod 0x10000000000000000 = n :=
    Int.emod_eq_of_lt (by omega) (by omega)
  unfold toSize
  rw [hmod]
  exact Int.toNat_natCast n

theorem accounted_iff {c : Connection} (h : c.InRange) :
    c.Accounted <-> (c.live = true -> c.received = c.pipe.length) := by
  rcases h with ⟨_, hhigh⟩
  constructor
  · intro haccounted hlive
    exact (haccounted hlive).1
  · intro hcounter hlive
    have hreceived := hcounter hlive
    refine ⟨hreceived, ?_, ?_⟩
    · omega
    · rw [hreceived]
      exact toSize_natCast (by omega)

theorem InRange.step {c : Connection} (h : c.InRange) (a : Call) :
    (step c a).InRange := by
  have hstep := step_cases c a
  generalize Connection.step c a = next at hstep
  cases hstep with
  | idle _ => exact h
  | hungUp _ => exact h
  | wrote _ _ _ _ _ => exact toInt32_inRange _
  | read _ _ _ _ _ => exact toInt32_inRange _
  | closed _ _ _ _ _ _ => exact toInt32_inRange _

/-!
## The counter after each branch

A splice that would block returns one less than nothing.
-/

theorem Possible.inp {c : Connection} {a : Call} (h : c.Possible a)
    (hhung : ¬ a.events.HungUp) (hread : a.events.Readable) :
    a.inp.Possible :=
  (h.resolve_left hhung).2 hread

theorem spliceOut_counter {c : Connection} {r : SpliceOut}
    (hpossible : c.OutPossible r) :
    (c.pipe.length : Int) - r.result =
      (c.spliceOut r).pipe.length + (if r = .blocked then 1 else 0) := by
  cases r with
  | blocked => exact Int.sub_neg _ _
  | moved n =>
      have hn := hpossible.2.1
      rw [if_neg (fun hblocked => by cases hblocked)]
      show (c.pipe.length : Int) - n = (c.pipe.drop n).length + 0
      rw [List.length_drop]
      omega

theorem spliceIn_counter (c : Connection) (r : SpliceIn) :
    (c.pipe.length : Int) + r.result =
      (c.spliceIn r).pipe.length - (if r = .blocked then 1 else 0) := by
  cases r with
  | blocked => rfl
  | moved bytes =>
      rw [if_neg (fun hblocked => by cases hblocked)]
      show (c.pipe.length : Int) + bytes.length = (c.pipe ++ bytes).length - 0
      rw [List.length_append]
      omega

theorem outputCounter_of_exact {c : Connection} {a : Call} (hrange : c.InRange)
    (h : c.received = c.pipe.length)
    (hpossible : a.events.Writable -> c.OutPossible a.out) :
    c.outputCounter a = toInt32
      ((c.outputDone a).pipe.length + (if OutBlocks a then 1 else 0)) := by
  unfold outputCounter SpliceEchoHandler.afterOutput outputDone
  by_cases hwrite : a.events.Writable
  · have hiff : OutBlocks a <-> a.out = .blocked :=
      ⟨And.right, fun hblocked => ⟨hwrite, hblocked⟩⟩
    rw [if_pos hwrite, if_pos hwrite, h,
      spliceOut_counter (hpossible hwrite), if_congr hiff rfl rfl]
  · have hnot : ¬ OutBlocks a := fun hblocks => hwrite hblocks.1
    rcases hrange with ⟨_, hhigh⟩
    rw [if_neg hwrite, if_neg hwrite, if_neg hnot, h, Int.add_zero]
    rcases toInt32_cases (x := c.pipe.length) (by omega) (by omega) with
      hexact | hlarge
    · exact hexact.2.symm
    · omega

theorem inputCounter_of_exact {c : Connection} {a : Call} (hrange : c.InRange)
    (h : c.received = c.pipe.length) (hpossible : c.Possible a)
    (hhung : ¬ a.events.HungUp) (hread : a.events.Readable) :
    c.inputCounter a = toInt32
      ((c.spliced a).pipe.length + (if OutBlocks a then 1 else 0) -
        (if InBlocks a then 1 else 0)) := by
  have hiff : InBlocks a <-> a.inp = .blocked :=
    ⟨And.right, fun hblocked => ⟨hread, hblocked⟩⟩
  have hin := spliceIn_counter (c.outputDone a) a.inp
  unfold inputCounter spliced
  rw [outputCounter_of_exact hrange h (hpossible.out hhung), toInt32_add,
    if_congr hiff rfl rfl]
  congr 1
  omega

theorem spliced_pipe_of_inBlocks {c : Connection} {a : Call}
    (h : InBlocks a) : (c.spliced a).pipe = (c.outputDone a).pipe := by
  unfold spliced
  rw [h.2]
  rfl

theorem outputDone_pipe_length_le (c : Connection) (a : Call) :
    (c.outputDone a).pipe.length ≤ c.pipe.length := by
  unfold outputDone
  split
  · cases a.out with
    | blocked => exact Nat.le_refl _
    | moved n => exact (List.drop_sublist n c.pipe).length_le
  · exact Nat.le_refl _

theorem spliced_pipe_length_le {c : Connection} {a : Call}
    (h : a.inp.Possible) :
    (c.spliced a).pipe.length ≤ c.pipe.length + dataLen := by
  have hout := outputDone_pipe_length_le c a
  unfold spliced
  cases hinp : a.inp with
  | blocked => exact Nat.le_add_right_of_le hout
  | moved bytes =>
      rw [hinp] at h
      have hmoved : bytes.length ≤ dataLen := h
      show ((c.outputDone a).pipe ++ bytes).length ≤ _
      rw [List.length_append]
      omega

/-!
## One call
-/

theorem outputCounter_exact_iff {c : Connection} {a : Call} (hrange : c.InRange)
    (h : c.received = c.pipe.length)
    (hpossible : a.events.Writable -> c.OutPossible a.out) :
    c.outputCounter a = (c.outputDone a).pipe.length <-> ¬ OutBlocks a := by
  have hlength := outputDone_pipe_length_le c a
  have hhigh := hrange.2
  rw [outputCounter_of_exact hrange h hpossible]
  by_cases hout : OutBlocks a
  · rw [if_pos hout]
    refine ⟨fun hexact => ?_, fun hnot => absurd hout hnot⟩
    rcases toInt32_cases (x := (c.outputDone a).pipe.length + 1) (by omega)
      (by omega) with hsmall | hlarge <;> omega
  · rw [if_neg hout]
    refine ⟨fun _ => hout, fun _ => ?_⟩
    rcases toInt32_cases (x := (c.outputDone a).pipe.length + 0) (by omega)
      (by omega) with hsmall | hlarge <;> omega

/-- After a call that reads, the connection is closed or the counter is exact,
exactly if the splices block evenly. -/
theorem inputCounter_exact_iff {c : Connection} {a : Call} (hrange : c.InRange)
    (h : c.received = c.pipe.length) (hpossible : c.Possible a)
    (hhung : ¬ a.events.HungUp) (hread : a.events.Readable) :
    (0 < c.inputCounter a -> c.inputCounter a = (c.spliced a).pipe.length) <->
      (OutBlocks a <-> InBlocks a) ∨
        (InBlocks a ∧ ¬ OutBlocks a ∧ (c.outputDone a).pipe.length ≤ 1) ∨
        (OutBlocks a ∧ a.events.Readable ∧ ¬ InBlocks a ∧
          0x7fffffff ≤ (c.spliced a).pipe.length) := by
  have hlength : (c.spliced a).pipe.length ≤ c.pipe.length + 4 * 1024 * 1024 :=
    spliced_pipe_length_le (hpossible.inp hhung hread)
  have hhigh := hrange.2
  rw [inputCounter_of_exact hrange h hpossible hhung hread]
  have hcases := toInt32_cases (x := (c.spliced a).pipe.length +
    (if OutBlocks a then 1 else 0) - (if InBlocks a then 1 else 0))
    (by split <;> split <;> omega) (by split <;> split <;> omega)
  generalize toInt32 _ = counter at hcases ⊢
  by_cases hout : OutBlocks a <;> by_cases hin : InBlocks a
  · simp only [hout, hin, if_true, true_or, iff_true] at hcases ⊢
    omega
  · simp only [hout, hin, hread, if_true, if_false, iff_false, not_true,
      false_and, not_false_eq_true, true_and, false_or] at hcases ⊢
    omega
  · have hwritten := outputDone_pipe_length_le c a
    rw [spliced_pipe_of_inBlocks hin] at hcases ⊢
    simp only [hout, hin, if_true, if_false, iff_true, false_and,
      not_false_eq_true, true_and, false_or, or_false] at hcases ⊢
    omega
  · simp only [hout, hin, if_false, true_or, iff_true] at hcases ⊢
    omega

theorem step_accounted_iff {c : Connection} {a : Call} (hrange : c.InRange)
    (h : c.Accounted) : (step c a).Accounted <-> c.BlocksEvenly a := by
  rw [accounted_iff (hrange.step a)]
  have hstep := step_cases c a
  generalize step c a = next at hstep
  cases hstep with
  | idle hidle =>
      refine ⟨?_, fun _ hlive => (h hlive).1⟩
      intro _ hlive hpossible _
      rcases hidle hlive hpossible with ⟨_, hwrite, hread⟩
      exact .inl ⟨fun hout => absurd hout.1 hwrite,
        fun hin => absurd hin.1 hread⟩
  | hungUp hhung =>
      constructor
      · intro _ _ _ hnot
        exact absurd hhung hnot
      · intro _ hdead
        cases hdead
  | wrote hlive hpossible hhung hwrite hread =>
      have hcounter := outputCounter_exact_iff hrange (h hlive).1
        (hpossible.out hhung)
      unfold outputCounter SpliceEchoHandler.afterOutput outputDone at hcounter
      rw [if_pos hwrite, if_pos hwrite] at hcounter
      have hin : ¬ InBlocks a := fun hblocks => hread hblocks.1
      constructor
      · intro hexact _ _ _
        have hout := hcounter.mp
          (hexact ((spliceOut_live c a.out).trans hlive))
        exact .inl ⟨fun hblocks => absurd hblocks hout,
          fun hblocks => absurd hblocks hin⟩
      · intro hevenly _
        refine hcounter.mpr (fun hout => ?_)
        rcases hevenly hlive hpossible hhung with hboth | hone | hlarge
        · exact hin (hboth.mp hout)
        · exact hin hone.1
        · exact hread hlarge.2.1
  | read hlive hpossible hhung hread hpositive =>
      have hcounter := inputCounter_exact_iff hrange (h hlive).1 hpossible hhung
        hread
      constructor
      · intro hexact _ _ _
        exact hcounter.mp
          (fun _ => hexact ((spliced_live c a).trans hlive))
      · intro hevenly _
        exact hcounter.mpr (hevenly hlive hpossible hhung)
          (Int.not_le.mp hpositive)
  | closed _ hlive hpossible hhung hread hnonpositive =>
      have hcounter := inputCounter_exact_iff hrange (h hlive).1 hpossible hhung
        hread
      constructor
      · intro _ _ _ _
        exact hcounter.mp
          (fun hpositive => absurd hnonpositive (Int.not_le.mpr hpositive))
      · intro _ hdead
        cases hdead

/-- The counter is the number of bytes in the pipe in every state of a run,
exactly if every call on a live connection blocks evenly. -/
theorem accounted_iff_blocksEvenly (acts : List Call) :
    machine.Always Accounted new acts <->
      machine.Along BlocksEvenly new acts := by
  have hnew : new.InRange := ⟨by decide, by decide⟩
  refine Machine.always_iff_along (I := InRange) ?_ ?_ hnew
    ((accounted_iff hnew).mpr (fun _ => rfl))
  · intro c a hrange hc ha
    exact ⟨step c a, rfl, hrange.step a, (step_accounted_iff hrange hc).mpr ha⟩
  · intro c a next hrange hc hnext haccounted
    cases hnext
    exact (step_accounted_iff hrange hc).mp haccounted

-- one byte is echoed, then the client ends
example : machine.Along BlocksEvenly new
    [⟨EPOLLIN ||| EPOLLOUT, .moved 0, .moved [97]⟩,
      ⟨EPOLLOUT, .moved 1, .blocked⟩, ⟨EPOLLIN, .blocked, .moved []⟩] := by
  decide +kernel

/-- Two bytes are read, and the socket takes none of them: the counter is one
ahead of the pipe. -/
theorem counter_ahead_of_pipe :
    exists c, machine.run new
        [⟨EPOLLIN ||| EPOLLOUT, .moved 0, .moved [97, 98]⟩,
          ⟨EPOLLOUT, .blocked, .blocked⟩] = .ok c ∧
      c.live = true ∧ c.pipe = [97, 98] ∧ c.received = 3 ∧ ¬ c.Accounted := by
  have hend : okWith (fun c : Connection =>
      decide (c.live = true ∧ c.pipe = [97, 98] ∧ c.received = 3))
      (machine.run new [⟨EPOLLIN ||| EPOLLOUT, .moved 0, .moved [97, 98]⟩,
        ⟨EPOLLOUT, .blocked, .blocked⟩]) = true := by
    decide +kernel
  rcases exists_of_okWith hend with ⟨c, hrun, hc⟩
  rcases of_decide_eq_true hc with ⟨hlive, hpipe, hreceived⟩
  refine ⟨c, hrun, hlive, hpipe, hreceived, ?_⟩
  intro haccounted
  have hcounter := (haccounted hlive).1
  rw [hpipe, hreceived] at hcounter
  cases hcounter

end Connection
end EpollHandler
end NetExperiment
