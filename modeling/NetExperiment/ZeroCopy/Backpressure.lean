import NetExperiment.ZeroCopy.EchoServer

/-!
# Backpressure of the buffered echo server

A connection either reads, with an output buffer below the limit, or it is
paused, with more than half of the limit still to be written.  The callback
slots, the watermark and the enabled directions all tell which of the two it
is.
-/

namespace NetExperiment
namespace EchoServer

open Foundation
open Libevent

variable {ptr : Type}

structure Reads (bev : Bev ptr) : Prop where
  enabled : bev.enabledRead = true
  readcb : bev.readcb = some .sockertReadCb2
  writecb : bev.writecb = none
  output : bev.output.length < MAX_OUTPUT

structure Paused (bev : Bev ptr) : Prop where
  disabled : bev.enabledRead = false
  readcb : bev.readcb = none
  writecb : bev.writecb = some .drainedWritecb
  low : bev.wmWriteLow = MAX_OUTPUT / 2
  output : MAX_OUTPUT / 2 < bev.output.length

/-- A connection that is served: it reads or is paused, nothing is left in its
input buffer, and it is written at any time. -/
structure Balanced (bev : Bev ptr) : Prop where
  mode : Reads bev ∨ Paused bev
  input : bev.input = []
  writes : bev.enabledWrite = true
  eventcb : bev.eventcb = some .eventCb2

theorem MAX_OUTPUT_half_lt : MAX_OUTPUT / 2 < MAX_OUTPUT := by
  decide

/-!
## Reading and writing
-/

theorem Balanced.reads_of_enabled {bev : Bev ptr} (h : Balanced bev)
    (henabled : bev.enabledRead = true) : Reads bev := by
  rcases h.mode with hreads | hpaused
  · exact hreads
  · rw [hpaused.disabled] at henabled
    cases henabled

theorem afterRead_output (b : ptr) (bev : Bev ptr) :
    (afterRead b bev).output = bev.output ++ bev.input := by
  unfold afterRead
  split <;> rfl

theorem balanced_afterRead {bev : Bev ptr} (h : Balanced bev)
    (henabled : bev.enabledRead = true) (b : ptr) (bytes : List Byte) :
    Balanced (afterRead b
      (bev.onChannel (Channel.socketRead false bytes))) := by
  have hreads := h.reads_of_enabled henabled
  unfold afterRead
  split
  · rename_i hfull
    refine ⟨.inr ⟨?_, rfl, rfl, rfl, ?_⟩, rfl, ?_, rfl⟩
    · exact Bool.and_false _
    · exact Nat.lt_of_lt_of_le MAX_OUTPUT_half_lt hfull
    · show (bev.enabledWrite && true) = true
      rw [h.writes]
      rfl
  · rename_i hroom
    exact ⟨.inl ⟨henabled, hreads.readcb, hreads.writecb,
      Nat.lt_of_not_le hroom⟩, rfl, h.writes, h.eventcb⟩

theorem balanced_socketWrite {bev : Bev ptr} (h : Balanced bev) {n : Nat}
    (hwait : bev.writecb = none ∨
      ¬ (bev.output.drop n).length ≤ bev.wmWriteLow) :
    Balanced (bev.onChannel (Channel.socketWrite false n)) := by
  refine ⟨?_, h.input, h.writes, h.eventcb⟩
  rcases h.mode with hreads | hpaused
  · have hless : (bev.output.drop n).length < MAX_OUTPUT :=
      Nat.lt_of_le_of_lt (List.drop_sublist n bev.output).length_le
        hreads.output
    exact .inl ⟨hreads.enabled, hreads.readcb, hreads.writecb, hless⟩
  · right
    refine ⟨hpaused.disabled, hpaused.readcb, hpaused.writecb, hpaused.low, ?_⟩
    rcases hwait with hnone | hmore
    · rw [hpaused.writecb] at hnone
      cases hnone
    · rw [hpaused.low] at hmore
      exact Nat.lt_of_not_le hmore

theorem reads_drained {bev : Bev ptr}
    (hless : bev.output.length < MAX_OUTPUT) : Reads (drained bev) :=
  ⟨Bool.or_true _, rfl, rfl, hless⟩

theorem balanced_drained {bev : Bev ptr} (hinput : bev.input = [])
    (hwrites : bev.enabledWrite = true)
    (hless : bev.output.length < MAX_OUTPUT) : Balanced (drained bev) := by
  refine ⟨.inl (reads_drained hless), hinput, ?_, rfl⟩
  show (bev.enabledWrite || false) = true
  rw [hwrites]
  rfl

/-!
## What an event on the socket does
-/

variable [DecidableEq ptr]

theorem step_read {b : ptr} {s : World ptr} {bev : Bev ptr}
    (hlive : s.bevs b = .live bev) (h : Balanced bev) (bytes : List Byte) :
    exists next bev', (machine b).step s (.read bytes) = .ok next ∧
      next.bevs b = .live bev' ∧ Balanced bev' ∧
      (bev.enabledRead = true -> bev'.output = bev.output ++ bytes) := by
  have hstep : (machine b).step s (.read bytes) =
      s.dispatchLive program b bev (.read bytes) := Loop.dispatch_live _ hlive
  rw [hstep]
  simp only [Loop.dispatchLive]
  by_cases hread : bev.enabledRead = true ∧ bytes ≠ []
  · rw [if_pos hread, (h.reads_of_enabled hread.1).readcb]
    refine ⟨_, _, sockertReadCb2_live bev.cbarg (Loop.setBev_bevs_self _ _ _),
      Loop.setBev_bevs_self _ _ _, balanced_afterRead h hread.1 b bytes, ?_⟩
    intro _
    rw [afterRead_output]
    show bev.output ++ (bev.input ++ bytes) = _
    rw [h.input, List.nil_append]
  · rw [if_neg hread]
    refine ⟨s, bev, rfl, hlive, h, ?_⟩
    intro henabled
    have hnil : bytes = [] := by
      by_contra hbytes
      exact hread ⟨henabled, hbytes⟩
    rw [hnil, List.append_nil]

theorem step_write {b : ptr} {s : World ptr} {bev : Bev ptr}
    (hlive : s.bevs b = .live bev) (h : Balanced bev) {n : Nat}
    (hn : 0 < n ∧ n ≤ bev.output.length) :
    exists next bev', (machine b).step s (.write n) = .ok next ∧
      next.bevs b = .live bev' ∧ Balanced bev' ∧
      ((bev.output.drop n).length ≤ MAX_OUTPUT / 2 -> Reads bev') := by
  have hstep : (machine b).step s (.write n) =
      s.dispatchLive program b bev (.write n) := Loop.dispatch_live _ hlive
  rw [hstep]
  simp only [Loop.dispatchLive]
  rw [if_pos ⟨h.writes, hn⟩]
  rcases h.mode with hreads | hpaused
  · have hbalanced := balanced_socketWrite (n := n) h (.inl hreads.writecb)
    have hnext : Reads (bev.onChannel (Channel.socketWrite false n)) :=
      hbalanced.reads_of_enabled hreads.enabled
    rw [hreads.writecb]
    refine ⟨s.writeBytes b bev n, _, ?_, Loop.setBev_bevs_self _ _ _,
      hbalanced, fun _ => hnext⟩
    split <;> rfl
  · by_cases hlow : (bev.output.drop n).length ≤ bev.wmWriteLow
    · have hless : (bev.output.drop n).length < MAX_OUTPUT := by
        rw [hpaused.low] at hlow
        exact Nat.lt_of_le_of_lt hlow MAX_OUTPUT_half_lt
      rw [if_pos hlow, hpaused.writecb]
      refine ⟨_, _, drainedWritecb_live bev.cbarg (Loop.setBev_bevs_self _ _ _),
        Loop.setBev_bevs_self _ _ _, ?_, ?_⟩
      · exact balanced_drained h.input h.writes hless
      · intro _
        exact reads_drained hless
    · rw [if_neg hlow]
      refine ⟨_, _, rfl, Loop.setBev_bevs_self _ _ _,
        balanced_socketWrite h (.inr hlow), ?_⟩
      intro hhalf
      rw [hpaused.low] at hlow
      exact absurd hhalf hlow

theorem step_event {b : ptr} {s : World ptr} {bev : Bev ptr}
    (hlive : s.bevs b = .live bev) (h : Balanced bev) (what : What) :
    exists next, (machine b).step s (.event what) = .ok next ∧
      (next = s ∨ next.bevs b = .freed) := by
  have hstep : (machine b).step s (.event what) =
      s.dispatchLive program b bev (.event what) :=
    Loop.dispatch_live _ hlive
  rw [hstep]
  simp only [Loop.dispatchLive]
  split
  · rw [h.eventcb]
    exact ⟨_, eventCb2_live what bev.cbarg (Loop.setBev_bevs_self _ _ _),
      .inr (Function.update_self _ _ _)⟩
  · exact ⟨s, rfl, .inl rfl⟩

/-!
## Whole runs
-/

def Flows (b : ptr) (s : World ptr) : Prop :=
  (exists bev, s.bevs b = .live bev ∧ Balanced bev) ∨ s.bevs b = .freed

/-- What the pauses of a live connection look like.  Reading is disabled exactly
if the callback slots and the watermark say so, and then much is still to be
written; nothing is left in the input buffer; and a write that leaves half of
the limit resumes reading. -/
structure Regulated (b : ptr) (s : World ptr) (bev : Bev ptr) : Prop where
  paused : bev.enabledRead = false <->
    bev.writecb = some .drainedWritecb ∧ bev.wmWriteLow = MAX_OUTPUT / 2 ∧
      bev.readcb = none
  pausedOutput : bev.enabledRead = false ->
    MAX_OUTPUT / 2 < bev.output.length
  readOutput : bev.enabledRead = true -> bev.output.length < MAX_OUTPUT
  input : bev.input = []
  resumes : forall n, 0 < n -> n ≤ bev.output.length ->
    (bev.output.drop n).length ≤ MAX_OUTPUT / 2 ->
    exists next bev', (machine b).step s (.write n) = .ok next ∧
      next.bevs b = .live bev' ∧ bev'.enabledRead = true ∧
      bev'.readcb = some .sockertReadCb2

theorem Balanced.regulated {b : ptr} {s : World ptr} {bev : Bev ptr}
    (h : Balanced bev) (hlive : s.bevs b = .live bev) :
    Regulated b s bev := by
  refine ⟨?_, ?_, ?_, h.input, ?_⟩
  · rcases h.mode with hreads | hpaused
    · rw [hreads.enabled, hreads.writecb]
      constructor
      · intro hdisabled
        cases hdisabled
      · intro hwaits
        cases hwaits.1
    · exact ⟨fun _ => ⟨hpaused.writecb, hpaused.low, hpaused.readcb⟩,
        fun _ => hpaused.disabled⟩
  · intro hdisabled
    rcases h.mode with hreads | hpaused
    · rw [hreads.enabled] at hdisabled
      cases hdisabled
    · exact hpaused.output
  · intro henabled
    exact (h.reads_of_enabled henabled).output
  · intro n hpos hle hhalf
    rcases step_write hlive h ⟨hpos, hle⟩ with
      ⟨next, bev', hnext, hlive', _, hreads⟩
    exact ⟨next, bev', hnext, hlive', (hreads hhalf).enabled,
      (hreads hhalf).readcb⟩

theorem Flows.step {b : ptr} {s : World ptr} (h : Flows b s)
    (r : Readiness) :
    exists next, (machine b).step s r = .ok next ∧ Flows b next := by
  rcases h with ⟨bev, hlive, hbalanced⟩ | hfreed
  · cases r with
    | read bytes =>
        rcases step_read hlive hbalanced bytes with
          ⟨next, bev', hnext, hlive', hbalanced', _⟩
        exact ⟨next, hnext, .inl ⟨bev', hlive', hbalanced'⟩⟩
    | write n =>
        by_cases hn : 0 < n ∧ n ≤ bev.output.length
        · rcases step_write hlive hbalanced hn with
            ⟨next, bev', hnext, hlive', hbalanced', _⟩
          exact ⟨next, hnext, .inl ⟨bev', hlive', hbalanced'⟩⟩
        · refine ⟨s, ?_, .inl ⟨bev, hlive, hbalanced⟩⟩
          refine (Loop.dispatch_live _ hlive).trans ?_
          exact if_neg (fun hwrite => hn hwrite.2)
    | event what =>
        rcases step_event hlive hbalanced what with ⟨next, hnext, hsame | hover⟩
        · subst hsame
          exact ⟨next, hnext, .inl ⟨bev, hlive, hbalanced⟩⟩
        · exact ⟨next, hnext, .inr hover⟩
  · exact ⟨s, Loop.dispatch_freed r hfreed, .inr hfreed⟩

theorem acceptCb2_balanced (b : ptr) (s : World ptr) :
    exists s0 bev, acceptCb2 b s = .ok s0 ∧ s0.bevs b = .live bev ∧
      Balanced bev ∧ bev.enabledRead = true ∧ bev.output = [] := by
  have hroom : 0 < MAX_OUTPUT := by
    decide
  exact ⟨_, _, acceptCb2_eq b s, Loop.setBev_bevs_self _ _ _,
    ⟨.inl ⟨rfl, rfl, rfl, hroom⟩, rfl, rfl, rfl⟩, rfl, rfl⟩

theorem acceptCb2_flows (b : ptr) (s : World ptr) :
    exists s0, acceptCb2 b s = .ok s0 ∧ Flows b s0 := by
  rcases acceptCb2_balanced b s with ⟨s0, bev, hstart, hlive, hbalanced, _⟩
  exact ⟨s0, hstart, .inl ⟨bev, hlive, hbalanced⟩⟩

/-- An accepted connection is live, and over any number of pauses it is regulated
for as long as it is live. -/
theorem regulated_of_run (b : ptr) (s : World ptr) (acts : List Readiness) :
    exists s0 bev0, acceptCb2 b s = .ok s0 ∧ s0.bevs b = .live bev0 ∧
      (machine b).Always
        (fun t => forall bev, t.bevs b = .live bev -> Regulated b t bev)
        s0 acts := by
  rcases acceptCb2_balanced b s with ⟨s0, bev0, hstart, hlive, hbalanced, _⟩
  refine ⟨s0, bev0, hstart, hlive, ?_⟩
  refine Machine.always_of_step (I := Flows b) ?_ (fun _ r ht => ht.step r)
    (.inl ⟨bev0, hlive, hbalanced⟩) acts
  intro t ht bev hlive
  rcases ht with ⟨bev', hlive', hbalanced⟩ | hfreed
  · rw [hlive] at hlive'
    cases hlive'
    exact hbalanced.regulated hlive
  · rw [hlive] at hfreed
    cases hfreed

/-- A client that sends the limit or more in one piece is paused, and read again
once all of it is written back. -/
theorem paused_until_written (b : ptr) (s : World ptr) {bytes : List Byte}
    (h : MAX_OUTPUT ≤ bytes.length) :
    exists s0 s1 s2 bev1 bev2, acceptCb2 b s = .ok s0 ∧
      (machine b).run s0 [.read bytes] = .ok s1 ∧
      s1.bevs b = .live bev1 ∧ Paused bev1 ∧
      (machine b).run s1 [.write bytes.length] = .ok s2 ∧
      s2.bevs b = .live bev2 ∧ Reads bev2 := by
  rcases acceptCb2_balanced b s with
    ⟨s0, bev0, hstart, hlive, hbalanced, henabled, hempty⟩
  rcases step_read hlive hbalanced bytes with
    ⟨s1, bev1, hread, hlive1, hbalanced1, hecho⟩
  have houtput : bev1.output = bytes := by
    rw [hecho henabled, hempty, List.nil_append]
  have hpositive : 0 < bytes.length := Nat.lt_of_lt_of_le (by decide) h
  rcases step_write hlive1 hbalanced1 (n := bytes.length)
    ⟨hpositive, Nat.le_of_eq (congrArg List.length houtput.symm)⟩ with
    ⟨s2, bev2, hwrite, hlive2, _, hresumes⟩
  refine ⟨s0, s1, s2, bev1, bev2, hstart, Machine.run_cons_of_ok [] hread,
    hlive1, ?_, Machine.run_cons_of_ok [] hwrite, hlive2, hresumes ?_⟩
  · rcases hbalanced1.mode with hreads | hpaused
    · have hless := hreads.output
      rw [houtput] at hless
      exact absurd h (Nat.not_le_of_lt hless)
    · exact hpaused
  · rw [houtput, List.drop_length]
    exact Nat.zero_le _

end EchoServer
end NetExperiment
