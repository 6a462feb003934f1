import NetExperiment.Relay.Core

/-!
# Invariants of the relay

Three facts about every run of the relay: no byte is lost, duplicated or sent
back while both endpoints are open; the buffering is bounded and every pause
ends; and the survivor of a pair is closed only after everything read from the
other endpoint has been written to it.
-/

namespace NetExperiment
namespace Relay

open Foundation
open Libevent

/-!
## Fields after a forward and a resume
-/

theorem moved_self (x : Side) (ends : Side -> Endpoint) :
    moved x ends x = { ends x with input := [] } := by
  simp [moved, Endpoint.onChannel]

theorem moved_other (x : Side) (ends : Side -> Endpoint) :
    moved x ends x.other =
      { ends x.other with
        output := (ends x.other).output ++ (ends x).input } := by
  simp [moved, Endpoint.onChannel]

theorem forward_self (maxOutput : Nat) (x : Side) (ends : Side -> Endpoint) :
    forward maxOutput x ends x =
      if maxOutput ≤ ((ends x.other).output ++ (ends x).input).length then
        { ends x with input := [], enabledRead := false }
      else { ends x with input := [] } := by
  unfold forward
  rw [moved_other]
  split
  · simp [paused, moved_self, Endpoint.onChannel, Channel.disable]
  · exact moved_self x ends

theorem forward_other (maxOutput : Nat) (x : Side) (ends : Side -> Endpoint) :
    forward maxOutput x ends x.other =
      if maxOutput ≤ ((ends x.other).output ++ (ends x).input).length then
        { ends x.other with
          output := (ends x.other).output ++ (ends x).input
          wmWriteLow := maxOutput / 2
          wmWriteHigh := maxOutput
          draining := true }
      else
        { ends x.other with
          output := (ends x.other).output ++ (ends x).input } := by
  unfold forward
  rw [moved_other]
  split
  · simp [paused, moved_other, Endpoint.onChannel,
      Channel.setwatermarkWrite]
  · exact moved_other x ends

theorem forward_self_input (maxOutput : Nat) (x : Side)
    (ends : Side -> Endpoint) :
    (forward maxOutput x ends x).input = [] := by
  rw [forward_self]
  split <;> rfl

theorem forward_self_output (maxOutput : Nat) (x : Side)
    (ends : Side -> Endpoint) :
    (forward maxOutput x ends x).output = (ends x).output := by
  rw [forward_self]
  split <;> rfl

theorem forward_other_input (maxOutput : Nat) (x : Side)
    (ends : Side -> Endpoint) :
    (forward maxOutput x ends x.other).input = (ends x.other).input := by
  rw [forward_other]
  split <;> rfl

theorem forward_other_output (maxOutput : Nat) (x : Side)
    (ends : Side -> Endpoint) :
    (forward maxOutput x ends x.other).output =
      (ends x.other).output ++ (ends x).input := by
  rw [forward_other]
  split <;> rfl

theorem forward_eventcbPending (maxOutput : Nat) (x z : Side)
    (ends : Side -> Endpoint) :
    (forward maxOutput x ends z).eventcbPending =
      (ends z).eventcbPending := by
  rcases Side.eq_or_eq_other x z with hz | hz
  · rw [hz, forward_self]
    split <;> rfl
  · rw [hz, forward_other]
    split <;> rfl

theorem resume_self (y : Side) (ends : Side -> Endpoint) :
    resume y ends y =
      { ends y with wmWriteLow := 0, wmWriteHigh := 0, draining := false } := by
  simp [resume, Endpoint.onChannel, Channel.setwatermarkWrite]

theorem resume_other (y : Side) (ends : Side -> Endpoint) :
    resume y ends y.other = { ends y.other with enabledRead := true } := by
  simp [resume, Endpoint.onChannel, Channel.enable]

/-!
## No byte is lost

In each direction the bytes read from one socket are the bytes written to the
other one, followed by what waits in the two buffers between them.
-/

def Intact (ends : Side -> Endpoint) (sockets : Side -> Socket) : Prop :=
  forall x, (sockets x).received =
    (sockets x.other).sent ++ (ends x.other).output ++ (ends x).input

theorem intact_new : Intact (fun _ => Endpoint.new) (fun _ => Socket.new) := by
  intro x
  rfl

theorem intact_of_buffers {ends ends' : Side -> Endpoint}
    {sockets : Side -> Socket} (h : Intact ends sockets)
    (hinput : forall z, (ends' z).input = (ends z).input)
    (houtput : forall z, (ends' z).output = (ends z).output) :
    Intact ends' sockets := by
  intro z
  rw [hinput, houtput]
  exact h z

theorem update_onChannel_input (ends : Side -> Endpoint) (x z : Side)
    (f : Channel -> Channel) (hf : forall c, (f c).input = c.input) :
    (Function.update ends x ((ends x).onChannel f) z).input =
      (ends z).input := by
  by_cases hz : z = x
  · rw [hz, Function.update_self]
    exact hf _
  · rw [Function.update_of_ne hz]

theorem update_onChannel_output (ends : Side -> Endpoint) (x z : Side)
    (f : Channel -> Channel) (hf : forall c, (f c).output = c.output) :
    (Function.update ends x ((ends x).onChannel f) z).output =
      (ends z).output := by
  by_cases hz : z = x
  · rw [hz, Function.update_self]
    exact hf _
  · rw [Function.update_of_ne hz]

theorem intact_onChannel {ends : Side -> Endpoint}
    {sockets : Side -> Socket} (h : Intact ends sockets) (x : Side)
    (f : Channel -> Channel) (hinput : forall c, (f c).input = c.input)
    (houtput : forall c, (f c).output = c.output) :
    Intact (Function.update ends x ((ends x).onChannel f)) sockets :=
  intact_of_buffers h
    (fun z => update_onChannel_input ends x z f hinput)
    (fun z => update_onChannel_output ends x z f houtput)

theorem intact_socketRead {ends : Side -> Endpoint}
    {sockets : Side -> Socket} (h : Intact ends sockets) (x : Side)
    (bytes : List Byte) :
    Intact
      (Function.update ends x
        ((ends x).onChannel (Channel.socketRead true bytes)))
      (Function.update sockets x
        { sockets x with received := (sockets x).received ++ bytes }) := by
  intro z
  rcases Side.eq_or_eq_other x z with hz | hz
  · subst hz
    simp [Endpoint.onChannel, Channel.socketRead, h z]
  · subst hz
    have hback := h x.other
    rw [Side.other_other] at hback
    simp [Endpoint.onChannel, Channel.socketRead, hback]

theorem intact_socketWrite {ends : Side -> Endpoint}
    {sockets : Side -> Socket} (h : Intact ends sockets) (x : Side)
    (n : Nat) :
    Intact
      (Function.update ends x
        ((ends x).onChannel (Channel.socketWrite (ends x).draining n)))
      (Function.update sockets x
        { sockets x with
          sent := (sockets x).sent ++ (ends x).output.take n }) := by
  intro z
  rcases Side.eq_or_eq_other x z with hz | hz
  · subst hz
    simp [Endpoint.onChannel, Channel.socketWrite, h z]
  · subst hz
    have hback := h x.other
    rw [Side.other_other] at hback
    have hsplit : (ends x).output.take n ++ (ends x).output.drop n =
        (ends x).output := List.take_append_drop n (ends x).output
    simp only [Side.other_other, Function.update_self,
      Function.update_of_ne (Side.other_ne x), Endpoint.onChannel,
      Channel.socketWrite]
    rw [hback, List.append_assoc (sockets x).sent ((ends x).output.take n),
      hsplit]

theorem intact_forward {ends : Side -> Endpoint}
    {sockets : Side -> Socket} (h : Intact ends sockets)
    (maxOutput : Nat) (x : Side) :
    Intact (forward maxOutput x ends) sockets := by
  intro z
  rcases Side.eq_or_eq_other x z with hz | hz
  · subst hz
    rw [forward_other_output, forward_self_input, h z]
    simp
  · subst hz
    have hback := h x.other
    rw [Side.other_other] at hback
    rw [Side.other_other, forward_self_output, forward_other_input, hback]

theorem intact_resume {ends : Side -> Endpoint}
    {sockets : Side -> Socket} (h : Intact ends sockets) (y : Side) :
    Intact (resume y ends) sockets := by
  apply intact_of_buffers h
  · intro z
    rcases Side.eq_or_eq_other y z with hz | hz
    · rw [hz, resume_self]
    · rw [hz, resume_other]
  · intro z
    rcases Side.eq_or_eq_other y z with hz | hz
    · rw [hz, resume_self]
    · rw [hz, resume_other]

theorem RelayingStep.intact {maxOutput : Nat} {ends ends' : Side -> Endpoint}
    {sockets : Side -> Socket} {x : Side} {o : Occurrence} {s : State}
    (hstep : RelayingStep maxOutput ends sockets x o s)
    (h : Intact ends sockets) (hphase : s.phase = .relaying ends') :
    Intact ends' s.sockets := by
  cases hstep with
  | idle _ =>
      cases hphase
      exact h
  | read bytes _ =>
      cases hphase
      exact intact_socketRead h x bytes
  | write n =>
      cases hphase
      exact intact_socketWrite h x n
  | report what =>
      cases hphase
      exact intact_onChannel h x _ (fun _ => rfl) (fun _ => rfl)
  | forwarded =>
      cases hphase
      have htaken := intact_onChannel h x Channel.takeReadcb
        (fun _ => rfl) (fun _ => rfl)
      exact intact_forward htaken maxOutput x
  | resumed _ _ =>
      cases hphase
      have htaken := intact_onChannel h x Channel.takeWritecb
        (fun _ => rfl) (fun _ => rfl)
      exact intact_resume htaken x
  | handled =>
      cases hphase
      exact intact_onChannel h x _ (fun _ => rfl) (fun _ => rfl)
  | finished _ =>
      simp only [finish] at hphase
      split at hphase <;> cases hphase

def State.IntactWhileOpen (s : State) : Prop :=
  forall ends, s.phase = .relaying ends -> Intact ends s.sockets

theorem intactWhileOpen_new : State.new.IntactWhileOpen := by
  intro ends hphase
  cases hphase
  exact intact_new

theorem ClosingStep.not_relaying {y : Side} {c : Channel}
    {sockets : Side -> Socket} {o : Occurrence} {s : State}
    (hstep : ClosingStep y c sockets o s) (ends : Side -> Endpoint) :
    s.phase ≠ .relaying ends := by
  cases hstep <;> intro hphase <;> cases hphase

theorem step_relaying {maxOutput : Nat} {s : State} {a : Action Side}
    {ends' : Side -> Endpoint}
    (hphase : (step maxOutput s a).phase = .relaying ends') :
    exists ends, s.phase = .relaying ends ∧
      RelayingStep maxOutput ends s.sockets a.target a.occurrence
        (step maxOutput s a) := by
  cases hs : s.phase with
  | relaying ends =>
      refine ⟨ends, rfl, ?_⟩
      have hcases :=
        stepRelaying_cases maxOutput ends s.sockets a.target a.occurrence
      simpa only [step, hs] using hcases
  | closing y c =>
      exfalso
      simp only [step, hs] at hphase
      split at hphase
      · exact (stepClosing_cases y c s.sockets a.occurrence).not_relaying
          ends' hphase
      · rw [hs] at hphase
        cases hphase
  | closed =>
      exfalso
      simp only [step, hs] at hphase
      cases hphase

theorem RelayingStep.relaying_of_quiet {maxOutput : Nat}
    {ends : Side -> Endpoint} {sockets : Side -> Socket} {x : Side}
    {o : Occurrence} {s : State}
    (hstep : RelayingStep maxOutput ends sockets x o s)
    (hquiet : o = .deferredEvent -> ¬ (ends x).eventcbPending.Fatal) :
    exists ends', s.phase = .relaying ends' := by
  cases hstep with
  | finished hfatal => exact absurd hfatal (hquiet rfl)
  | _ => exact ⟨_, rfl⟩

theorem step_relaying_of_quiet {maxOutput : Nat} {s : State}
    {a : Action Side} {ends : Side -> Endpoint}
    (hphase : s.phase = .relaying ends)
    (hquiet : forall x, ¬ s.DeliversFatal x a) :
    exists ends', (step maxOutput s a).phase = .relaying ends' := by
  have hsafe : a.occurrence = .deferredEvent ->
      ¬ (ends a.target).eventcbPending.Fatal := by
    intro ho hfatal
    refine hquiet a.target ⟨rfl, ho, ?_⟩
    simp only [State.eventcbPending, hphase]
    exact hfatal
  simp only [step, hphase]
  exact (stepRelaying_cases maxOutput ends s.sockets a.target
    a.occurrence).relaying_of_quiet hsafe

theorem step_intactWhileOpen {maxOutput : Nat} {s : State} (a : Action Side)
    (h : s.IntactWhileOpen) : (step maxOutput s a).IntactWhileOpen := by
  intro ends' hphase
  rcases step_relaying hphase with ⟨ends, hs, hstep⟩
  exact hstep.intact (h ends hs) hphase

/-!
## Flow control

The direction from the socket of one endpoint to the socket of the other one.
The source is read only while little is queued for the sink, and a source that
is held back will be read again: either the sink still has much to write, or its
write callback is scheduled.
-/

structure Flow (maxOutput : Nat) (source sink : Endpoint) : Prop where
  bounded : source.enabledRead = true -> sink.output.length < maxOutput
  paused_iff : source.enabledRead = false <-> sink.draining = true
  watermark : sink.draining = true -> sink.wmWriteLow = maxOutput / 2
  drained : sink.draining = true -> source.input = []
  scheduled : sink.writecbPending = true ->
    sink.draining = true ∧ sink.output.length ≤ maxOutput / 2
  wakeup : sink.draining = true ->
    maxOutput / 2 < sink.output.length ∨ sink.writecbPending = true

def FlowControlled (maxOutput : Nat) (ends : Side -> Endpoint) : Prop :=
  forall x, Flow maxOutput (ends x) (ends x.other)

theorem flowControlled_new {maxOutput : Nat} (hmax : 0 < maxOutput) :
    FlowControlled maxOutput (fun _ => Endpoint.new) := by
  intro x
  constructor
  case bounded =>
    intro _
    exact hmax
  all_goals simp [Endpoint.new, Channel.new, Channel.enable]

theorem Flow.congr {maxOutput : Nat} {source source' sink sink' : Endpoint}
    (h : Flow maxOutput source sink)
    (hread : source'.enabledRead = source.enabledRead)
    (hinput : sink.draining = true -> source'.input = [])
    (houtput : sink'.output = sink.output)
    (hdraining : sink'.draining = sink.draining)
    (hlow : sink'.wmWriteLow = sink.wmWriteLow)
    (hpending : sink'.writecbPending = sink.writecbPending) :
    Flow maxOutput source' sink' where
  bounded := by
    rw [hread, houtput]
    exact h.bounded
  paused_iff := by
    rw [hread, hdraining]
    exact h.paused_iff
  watermark := by
    rw [hdraining, hlow]
    exact h.watermark
  drained := by
    rw [hdraining]
    exact hinput
  scheduled := by
    rw [hpending, hdraining, houtput]
    exact h.scheduled
  wakeup := by
    rw [hpending, hdraining, houtput]
    exact h.wakeup

theorem flowControlled_update {maxOutput : Nat} {ends : Side -> Endpoint}
    (x : Side) {e : Endpoint}
    (hsource : Flow maxOutput e (ends x.other))
    (hsink : Flow maxOutput (ends x.other) e) :
    FlowControlled maxOutput (Function.update ends x e) := by
  intro z
  rcases Side.eq_or_eq_other x z with hz | hz
  · subst hz
    rw [Function.update_self, Function.update_of_ne (Side.other_ne z)]
    exact hsource
  · subst hz
    rw [Side.other_other, Function.update_self,
      Function.update_of_ne (Side.other_ne x)]
    exact hsink

theorem FlowControlled.back {maxOutput : Nat} {ends : Side -> Endpoint}
    (h : FlowControlled maxOutput ends) (x : Side) :
    Flow maxOutput (ends x.other) (ends x) := by
  have hback := h x.other
  rw [Side.other_other] at hback
  exact hback

/-- Taking a callback off the schedule, other than the write callback, does not
matter to flow control, and neither does an event that ends nothing. -/
theorem flowControlled_onChannel {maxOutput : Nat} {ends : Side -> Endpoint}
    (h : FlowControlled maxOutput ends) (x : Side) (f : Channel -> Channel)
    (hread : (f (ends x).toChannel).enabledRead = (ends x).enabledRead)
    (hinput : (f (ends x).toChannel).input = (ends x).input)
    (houtput : (f (ends x).toChannel).output = (ends x).output)
    (hlow : (f (ends x).toChannel).wmWriteLow = (ends x).wmWriteLow)
    (hpending : (f (ends x).toChannel).writecbPending =
      (ends x).writecbPending) :
    FlowControlled maxOutput
      (Function.update ends x ((ends x).onChannel f)) := by
  apply flowControlled_update
  · have hempty : (ends x.other).draining = true ->
        (f (ends x).toChannel).input = [] := by
      intro hdraining
      exact hinput.trans ((h x).drained hdraining)
    exact (h x).congr hread hempty rfl rfl rfl rfl
  · exact (h.back x).congr rfl (h.back x).drained houtput rfl hlow hpending

theorem flowControlled_socketRead {maxOutput : Nat} {ends : Side -> Endpoint}
    (h : FlowControlled maxOutput ends) (x : Side) (bytes : List Byte)
    (henabled : (ends x).enabledRead = true) :
    FlowControlled maxOutput
      (Function.update ends x
        ((ends x).onChannel (Channel.socketRead true bytes))) := by
  apply flowControlled_update
  · -- a source that is read is not held back
    have hempty : (ends x.other).draining = true ->
        (ends x).input ++ bytes = [] := by
      intro hdraining
      have hpaused := (h x).paused_iff.mpr hdraining
      rw [henabled] at hpaused
      cases hpaused
    exact (h x).congr rfl hempty rfl rfl rfl rfl
  · exact (h.back x).congr rfl (h.back x).drained rfl rfl rfl rfl

theorem flow_socketWrite {maxOutput : Nat} {source sink : Endpoint}
    (h : Flow maxOutput source sink) (n : Nat) :
    Flow maxOutput source
      (sink.onChannel (Channel.socketWrite sink.draining n)) where
  bounded := by
    intro henabled
    have hlt := h.bounded henabled
    have hle : (sink.output.drop n).length ≤ sink.output.length := by
      simp
    exact Nat.lt_of_le_of_lt hle hlt
  paused_iff := h.paused_iff
  watermark := h.watermark
  drained := h.drained
  scheduled := by
    intro hpending
    have hcase : sink.writecbPending = true ∨
        (sink.draining = true ∧
          (sink.output.drop n).length ≤ sink.wmWriteLow) := by
      simpa [Endpoint.onChannel, Channel.socketWrite] using hpending
    have hle : (sink.output.drop n).length ≤ sink.output.length := by
      simp
    rcases hcase with hold | hnew
    · rcases h.scheduled hold with ⟨hdraining, hshort⟩
      exact ⟨hdraining, Nat.le_trans hle hshort⟩
    · refine ⟨hnew.1, ?_⟩
      have hlow := h.watermark hnew.1
      rw [hlow] at hnew
      exact hnew.2
  wakeup := by
    intro hdraining
    have hlow := h.watermark hdraining
    by_cases hshort : (sink.output.drop n).length ≤ maxOutput / 2
    · apply Or.inr
      have hdrain : sink.draining = true := hdraining
      simp only [Endpoint.onChannel, Channel.socketWrite, hdrain, hlow,
        decide_eq_true hshort, Bool.and_self, Bool.or_true]
    · exact Or.inl (Nat.lt_of_not_le hshort)

theorem flowControlled_socketWrite {maxOutput : Nat} {ends : Side -> Endpoint}
    (h : FlowControlled maxOutput ends) (x : Side) (n : Nat) :
    FlowControlled maxOutput
      (Function.update ends x
        ((ends x).onChannel (Channel.socketWrite (ends x).draining n))) := by
  apply flowControlled_update
  · exact (h x).congr rfl (h x).drained rfl rfl rfl rfl
  · exact flow_socketWrite (h.back x) n

theorem flowControlled_forward {maxOutput : Nat} {ends : Side -> Endpoint}
    (hmax : 0 < maxOutput) (h : FlowControlled maxOutput ends) (x : Side) :
    FlowControlled maxOutput (forward maxOutput x ends) := by
  have hforth := h x
  have hback := h.back x
  have hhalf : maxOutput / 2 < maxOutput := Nat.div_lt_self hmax (by decide)
  intro z
  rcases Side.eq_or_eq_other x z with hz | hz
  · subst hz
    rw [forward_self, forward_other]
    have hpaused : (ends z.other).draining = true ->
        ((ends z.other).output ++ (ends z).input) = (ends z.other).output := by
      intro hdraining
      rw [hforth.drained hdraining, List.append_nil]
    split
    · rename_i hfull
      constructor
      case bounded => intro hread; cases hread
      case paused_iff => exact ⟨fun _ => rfl, fun _ => rfl⟩
      case watermark => intro _; rfl
      case drained => intro _; rfl
      case scheduled =>
        -- a sink whose write callback is scheduled is too short to be full
        intro hpending
        rcases hforth.scheduled hpending with ⟨hdraining, hshort⟩
        rw [hpaused hdraining] at hfull
        omega
      case wakeup => intro _; exact Or.inl (Nat.lt_of_lt_of_le hhalf hfull)
    · rename_i hroom
      constructor
      case bounded => intro _; exact Nat.lt_of_not_le hroom
      case paused_iff => exact hforth.paused_iff
      case watermark => exact hforth.watermark
      case drained => intro _; rfl
      case scheduled =>
        intro hpending
        rcases hforth.scheduled hpending with ⟨hdraining, hshort⟩
        refine ⟨hdraining, ?_⟩
        show ((ends z.other).output ++ (ends z).input).length ≤ maxOutput / 2
        rw [hpaused hdraining]
        exact hshort
      case wakeup =>
        intro hdraining
        show maxOutput / 2 <
          ((ends z.other).output ++ (ends z).input).length ∨ _
        rw [hpaused hdraining]
        exact hforth.wakeup hdraining
  · subst hz
    -- the other direction keeps everything flow control looks at
    rw [Side.other_other, forward_self, forward_other]
    split
    · exact hback.congr rfl hback.drained rfl rfl rfl rfl
    · exact hback.congr rfl hback.drained rfl rfl rfl rfl

theorem flowControlled_resume {maxOutput : Nat} {ends : Side -> Endpoint}
    (hmax : 0 < maxOutput) (h : FlowControlled maxOutput ends) (y : Side)
    (hpending : (ends y).writecbPending = true) :
    FlowControlled maxOutput
      (resume y
        (Function.update ends y ((ends y).onChannel Channel.takeWritecb))) := by
  have hforth := h y
  rcases (h.back y).scheduled hpending with ⟨_, hshort⟩
  have hhalf : maxOutput / 2 < maxOutput := Nat.div_lt_self hmax (by decide)
  intro z
  rcases Side.eq_or_eq_other y z with hz | hz
  · subst hz
    rw [resume_self, resume_other, Function.update_self,
      Function.update_of_ne (Side.other_ne z)]
    exact hforth.congr rfl hforth.drained rfl rfl rfl rfl
  · subst hz
    rw [Side.other_other, resume_self, resume_other, Function.update_self,
      Function.update_of_ne (Side.other_ne y)]
    constructor
    case bounded => intro _; exact Nat.lt_of_le_of_lt hshort hhalf
    case paused_iff =>
      constructor
      · intro hread
        cases hread
      · intro hdrain
        cases hdrain
    case watermark => intro hdrain; cases hdrain
    case drained => intro hdrain; cases hdrain
    case scheduled => intro hagain; cases hagain
    case wakeup => intro hdrain; cases hdrain

/-!
## Pending events

An event callback finds an end of file or an error only if one was reported.
-/

theorem update_eventcbPending (ends : Side -> Endpoint) (x z : Side)
    (f : Channel -> Channel)
    (hf : forall c, (f c).eventcbPending = c.eventcbPending) :
    (Function.update ends x ((ends x).onChannel f) z).eventcbPending =
      (ends z).eventcbPending := by
  by_cases hz : z = x
  · rw [hz, Function.update_self]
    exact hf _
  · rw [Function.update_of_ne hz]

theorem not_fatal_report {c : Channel} {what : What} (installed : Bool)
    (hold : ¬ c.eventcbPending.Fatal) (hnew : ¬ what.Fatal) :
    ¬ (c.report installed what).eventcbPending.Fatal := by
  cases installed with
  | false => exact hold
  | true =>
      intro h
      rcases (What.fatal_or _ _).mp h with h | h
      · exact hold h
      · exact hnew h

theorem RelayingStep.not_fatal {maxOutput : Nat} {ends ends' : Side -> Endpoint}
    {sockets : Side -> Socket} {x : Side} {o : Occurrence} {s : State}
    (hstep : RelayingStep maxOutput ends sockets x o s)
    (hphase : s.phase = .relaying ends') (z : Side)
    (h : ¬ (ends z).eventcbPending.Fatal)
    (hreport : forall what : What, x = z -> o = .report what -> ¬ what.Fatal) :
    ¬ (ends' z).eventcbPending.Fatal := by
  cases hstep with
  | idle _ =>
      cases hphase
      exact h
  | read bytes _ =>
      cases hphase
      rw [update_eventcbPending ends x z (Channel.socketRead true bytes)
        (fun _ => rfl)]
      exact h
  | write n =>
      cases hphase
      rw [update_eventcbPending ends x z
        (Channel.socketWrite (ends x).draining n) (fun _ => rfl)]
      exact h
  | report what =>
      cases hphase
      by_cases hz : z = x
      · subst hz
        rw [Function.update_self]
        exact not_fatal_report true h (hreport what rfl rfl)
      · rw [Function.update_of_ne hz]
        exact h
  | forwarded =>
      cases hphase
      rw [forward_eventcbPending,
        update_eventcbPending ends x z Channel.takeReadcb (fun _ => rfl)]
      exact h
  | resumed _ _ =>
      cases hphase
      have htaken := update_eventcbPending ends x z Channel.takeWritecb
        (fun _ => rfl)
      rcases Side.eq_or_eq_other x z with hz | hz
      · subst hz
        rw [resume_self]
        show ¬ (Function.update ends z _ z).eventcbPending.Fatal
        rw [htaken]
        exact h
      · subst hz
        rw [resume_other]
        show ¬ (Function.update ends x _ x.other).eventcbPending.Fatal
        rw [htaken]
        exact h
  | handled =>
      cases hphase
      by_cases hz : z = x
      · subst hz
        rw [Function.update_self]
        exact What.not_fatal_zero
      · rw [Function.update_of_ne hz]
        exact h
  | finished _ =>
      simp only [finish] at hphase
      split at hphase <;> cases hphase

/-!
## Flow control along a run
-/

/-- Both endpoints are open, no end of file or error has been reported, and
both directions are under flow control. -/
def State.Controlled (maxOutput : Nat) (s : State) : Prop :=
  exists ends, s.phase = .relaying ends ∧ FlowControlled maxOutput ends ∧
    forall x, ¬ (ends x).eventcbPending.Fatal

theorem controlled_new {maxOutput : Nat} (hmax : 0 < maxOutput) :
    State.new.Controlled maxOutput :=
  ⟨_, rfl, flowControlled_new hmax, fun _ => What.not_fatal_zero⟩

theorem RelayingStep.flowControlled {maxOutput : Nat}
    {ends : Side -> Endpoint} {sockets : Side -> Socket} {x : Side}
    {o : Occurrence} {s : State}
    (hstep : RelayingStep maxOutput ends sockets x o s)
    (hmax : 0 < maxOutput) (h : FlowControlled maxOutput ends)
    (hquiet : ¬ (ends x).eventcbPending.Fatal)
    (hreport : forall what : What, o = .report what -> ¬ what.Fatal) :
    exists ends', s.phase = .relaying ends' ∧
      FlowControlled maxOutput ends' := by
  cases hstep with
  | idle _ => exact ⟨_, rfl, h⟩
  | read bytes henabled =>
      exact ⟨_, rfl, flowControlled_socketRead h x bytes henabled⟩
  | write n => exact ⟨_, rfl, flowControlled_socketWrite h x n⟩
  | report what =>
      have hread := Channel.report_enabledRead true (ends x).toChannel
        (hreport what rfl)
      exact ⟨_, rfl, flowControlled_onChannel h x _ hread rfl rfl rfl rfl⟩
  | forwarded =>
      have htaken := flowControlled_onChannel h x Channel.takeReadcb
        rfl rfl rfl rfl rfl
      exact ⟨_, rfl, flowControlled_forward hmax htaken x⟩
  | resumed _ hpending =>
      exact ⟨_, rfl, flowControlled_resume hmax h x hpending⟩
  | handled =>
      exact ⟨_, rfl, flowControlled_onChannel h x _ rfl rfl rfl rfl rfl⟩
  | finished hfatal => exact absurd hfatal hquiet

theorem step_controlled {maxOutput : Nat} {s : State} {a : Action Side}
    (hmax : 0 < maxOutput) (h : s.Controlled maxOutput)
    (hreport : forall x, ¬ a.ReportsFatal x) :
    (step maxOutput s a).Controlled maxOutput := by
  rcases h with ⟨ends, hs, hflow, hquiet⟩
  have hstep :=
    stepRelaying_cases maxOutput ends s.sockets a.target a.occurrence
  have hnext : step maxOutput s a =
      stepRelaying maxOutput ends s.sockets a.target a.occurrence := by
    simp only [step, hs]
  have hsafe : forall what : What, a.occurrence = .report what ->
      ¬ what.Fatal := by
    intro what hoccurrence hfatal
    exact hreport a.target ⟨rfl, what, hoccurrence, hfatal⟩
  rw [hnext]
  rcases hstep.flowControlled hmax hflow (hquiet a.target) hsafe with
    ⟨ends', hphase, hflow'⟩
  refine ⟨ends', hphase, hflow', ?_⟩
  intro z
  exact hstep.not_fatal hphase z (hquiet z) (fun what _ => hsafe what)

theorem run_held {maxOutput : Nat} (hpos : 0 < maxOutput) (x : Side)
    {bytes : List Byte} (h : maxOutput ≤ bytes.length) :
    exists ends sockets, (machine maxOutput).run State.new
        [⟨x, .socketRead bytes⟩, ⟨x, .deferredRead⟩] =
      .ok { phase := .relaying ends, sockets := sockets } ∧
      (ends x).enabledRead = false := by
  have hnonempty : bytes ≠ [] := by
    intro hnil
    rw [hnil] at h
    exact absurd h (Nat.not_le_of_lt hpos)
  have hread : step maxOutput State.new ⟨x, .socketRead bytes⟩ =
      { phase := .relaying (Function.update (fun _ => Endpoint.new) x
          (Endpoint.new.onChannel (Channel.socketRead true bytes)))
        sockets := Function.update (fun _ => Socket.new) x
          { Socket.new with received := Socket.new.received ++ bytes } } :=
    if_pos ⟨rfl, hnonempty⟩
  have hpending : (Function.update (fun _ => Endpoint.new) x
      (Endpoint.new.onChannel (Channel.socketRead true bytes))
      x).readcbPending = true := by
    rw [Function.update_self]
    rfl
  have hrun := Machine.run_cons_of_ok (M := machine maxOutput)
    [⟨x, .deferredRead⟩] (congrArg Except.ok hread)
  refine ⟨_, _, hrun.trans (Machine.run_cons_of_ok []
    (congrArg Except.ok (if_pos hpending))), ?_⟩
  rw [forward_self, if_pos]
  simpa [Endpoint.onChannel, Channel.takeReadcb, Channel.socketRead,
    Endpoint.new, Channel.new, Channel.enable] using h

/-!
## Flushing before the close

An endpoint whose event callback never runs for an end of file or an error can
only be closed because the other one ended.  From then on it has either
something to write or a scheduled write callback, and it is closed when all is
written.
-/

inductive State.Flushing (y : Side) : State -> Prop where
  | relaying {ends : Side -> Endpoint} {sockets : Side -> Socket} :
      Intact ends sockets ->
      State.Flushing y { phase := .relaying ends, sockets := sockets }
  | closing {c : Channel} {sockets : Side -> Socket} :
      (sockets y.other).received = (sockets y).sent ++ c.output ->
      (c.output = [] -> c.writecbPending = true) ->
      State.Flushing y { phase := .closing y c, sockets := sockets }
  | closed {sockets : Side -> Socket} :
      (sockets y.other).received = (sockets y).sent ->
      State.Flushing y { phase := .closed, sockets := sockets }

theorem flushing_new (y : Side) : State.new.Flushing y :=
  State.Flushing.relaying intact_new

theorem finish_flushing {maxOutput : Nat} {ends : Side -> Endpoint}
    {sockets : Side -> Socket} {y : Side} (h : Intact ends sockets) :
    State.Flushing y
      { phase := finish maxOutput y.other ends, sockets := sockets } := by
  have hreceived := h y.other
  have houtput := forward_other_output maxOutput y.other ends
  rw [Side.other_other] at hreceived houtput
  rw [List.append_assoc, ← houtput] at hreceived
  simp only [finish, Side.other_other]
  split
  · rename_i hlength
    refine State.Flushing.closing hreceived ?_
    intro hempty
    exact absurd (congrArg List.length hempty) hlength
  · rename_i hlength
    apply State.Flushing.closed
    have hempty : (forward maxOutput y.other ends y).output = [] :=
      List.eq_nil_of_length_eq_zero (not_not.mp hlength)
    rw [hreceived, hempty, List.append_nil]

theorem RelayingStep.flushing {maxOutput : Nat} {ends : Side -> Endpoint}
    {sockets : Side -> Socket} {x y : Side} {o : Occurrence} {s : State}
    (hstep : RelayingStep maxOutput ends sockets x o s)
    (h : Intact ends sockets)
    (hquiet : x = y -> o = .deferredEvent -> ¬ (ends y).eventcbPending.Fatal) :
    s.Flushing y := by
  by_cases hopen : exists ends', s.phase = .relaying ends'
  · rcases hopen with ⟨ends', hphase⟩
    have hintact := hstep.intact h hphase
    cases s
    cases hphase
    exact State.Flushing.relaying hintact
  · cases hstep with
    | finished hfatal =>
        rcases Side.eq_or_eq_other y x with hx | hx
        · rw [hx] at hfatal
          exact absurd hfatal (hquiet hx rfl)
        · subst hx
          apply finish_flushing
          exact intact_onChannel h y.other Channel.takeEventcb
            (fun _ => rfl) (fun _ => rfl)
    | _ => exact absurd ⟨_, rfl⟩ hopen

theorem socketWrite_scheduled (c : Channel) (n : Nat)
    (hempty : (c.socketWrite true n).output = []) :
    (c.socketWrite true n).writecbPending = true := by
  have hlength : (c.output.drop n).length ≤ c.wmWriteLow := by
    have hdrop : c.output.drop n = [] := hempty
    rw [hdrop]
    exact Nat.zero_le _
  simp only [Channel.socketWrite, decide_eq_true hlength, Bool.and_self,
    Bool.or_true]

theorem ClosingStep.flushing {c : Channel} {sockets : Side -> Socket}
    {y : Side} {o : Occurrence} {s : State}
    (hstep : ClosingStep y c sockets o s)
    (hreceived : (sockets y.other).received = (sockets y).sent ++ c.output)
    (hwakeup : c.output = [] -> c.writecbPending = true)
    (hquiet : o = .deferredEvent -> ¬ c.eventcbPending.Fatal) :
    s.Flushing y := by
  cases hstep with
  | idle _ => exact State.Flushing.closing hreceived hwakeup
  | read bytes =>
      refine State.Flushing.closing ?_ hwakeup
      rw [Function.update_of_ne (Side.other_ne y), Function.update_self]
      exact hreceived
  | write n =>
      refine State.Flushing.closing ?_ ?_
      · rw [Function.update_of_ne (Side.other_ne y), Function.update_self]
        show _ = (sockets y).sent ++ c.output.take n ++ c.output.drop n
        rw [List.append_assoc, List.take_append_drop]
        exact hreceived
      · exact socketWrite_scheduled c n
  | report what => exact State.Flushing.closing hreceived hwakeup
  | flushed hlength =>
      apply State.Flushing.closed
      rw [hreceived, List.eq_nil_of_length_eq_zero hlength, List.append_nil]
  | waited hlength =>
      refine State.Flushing.closing hreceived ?_
      intro hempty
      exact absurd (congrArg List.length hempty) hlength
  | handled => exact State.Flushing.closing hreceived hwakeup
  | dropped hfatal => exact absurd hfatal (hquiet rfl)

theorem step_flushing {maxOutput : Nat} {y : Side} {s : State}
    {a : Action Side} (h : s.Flushing y) (hquiet : ¬ s.DeliversFatal y a) :
    (step maxOutput s a).Flushing y := by
  cases h with
  | relaying hintact =>
      refine (stepRelaying_cases maxOutput _ _ a.target a.occurrence).flushing
        hintact ?_
      intro htarget hoccurrence hfatal
      exact hquiet ⟨htarget, hoccurrence, hfatal⟩
  | closing hreceived hwakeup =>
      simp only [step]
      split
      · rename_i htarget
        refine (stepClosing_cases y _ _ a.occurrence).flushing hreceived
          hwakeup ?_
        intro hoccurrence hfatal
        refine hquiet ⟨htarget, hoccurrence, ?_⟩
        rw [State.eventcbPending_closing]
        exact hfatal
      · exact State.Flushing.closing hreceived hwakeup
  | closed hreceived => exact State.Flushing.closed hreceived

/-!
## Endpoints that are gone

The socket of a closed endpoint gets nothing any more.
-/

inductive State.Gone (x : Side) (bytes : List Byte) : State -> Prop where
  | closing {c : Channel} {sockets : Side -> Socket} :
      (sockets x).sent = bytes ->
      State.Gone x bytes { phase := .closing x.other c, sockets := sockets }
  | closed {sockets : Side -> Socket} :
      (sockets x).sent = bytes ->
      State.Gone x bytes { phase := .closed, sockets := sockets }

theorem State.Gone.sent_eq {x : Side} {bytes : List Byte} {s : State}
    (h : s.Gone x bytes) : (s.sockets x).sent = bytes := by
  cases h with
  | closing hsent => exact hsent
  | closed hsent => exact hsent

theorem finish_gone (maxOutput : Nat) (x : Side) (ends : Side -> Endpoint)
    (sockets : Side -> Socket) :
    State.Gone x (sockets x).sent
      { phase := finish maxOutput x ends, sockets := sockets } := by
  unfold finish
  split
  · exact State.Gone.closing rfl
  · exact State.Gone.closed rfl

theorem ClosingStep.gone {x : Side} {bytes : List Byte} {c : Channel}
    {sockets : Side -> Socket} {o : Occurrence} {s : State}
    (hstep : ClosingStep x.other c sockets o s)
    (hsent : (sockets x).sent = bytes) : s.Gone x bytes := by
  cases hstep with
  | idle _ => exact State.Gone.closing hsent
  | read _ =>
      apply State.Gone.closing
      rw [Function.update_of_ne (Side.ne_other x)]
      exact hsent
  | write _ =>
      apply State.Gone.closing
      rw [Function.update_of_ne (Side.ne_other x)]
      exact hsent
  | report _ => exact State.Gone.closing hsent
  | flushed _ => exact State.Gone.closed hsent
  | waited _ => exact State.Gone.closing hsent
  | handled => exact State.Gone.closing hsent
  | dropped _ => exact State.Gone.closed hsent

theorem step_gone {maxOutput : Nat} {x : Side} {bytes : List Byte} {s : State}
    (a : Action Side) (h : s.Gone x bytes) :
    (step maxOutput s a).Gone x bytes := by
  cases h with
  | closing hsent =>
      simp only [step]
      split
      · exact (stepClosing_cases x.other _ _ a.occurrence).gone hsent
      · exact State.Gone.closing hsent
  | closed hsent => exact State.Gone.closed hsent

/-!
## After the first end

Once an end of file or an error was handled, at most one endpoint is left.  It
is not read any more, and its write callback is scheduled when it has nothing
left to write.
-/

inductive State.Ended : State -> Prop where
  | closing {y : Side} {c : Channel} {sockets : Side -> Socket} :
      c.enabledRead = false ->
      (c.output = [] -> c.writecbPending = true) ->
      State.Ended { phase := .closing y c, sockets := sockets }
  | closed {sockets : Side -> Socket} :
      State.Ended { phase := .closed, sockets := sockets }

theorem finish_ended (maxOutput : Nat) (x : Side) (ends : Side -> Endpoint)
    (sockets : Side -> Socket) :
    State.Ended { phase := finish maxOutput x ends, sockets := sockets } := by
  unfold finish
  split
  · rename_i hlength
    refine State.Ended.closing (Bool.and_false _) ?_
    intro hempty
    exact absurd (congrArg List.length hempty) hlength
  · exact State.Ended.closed

theorem ClosingStep.ended {y : Side} {c : Channel} {sockets : Side -> Socket}
    {o : Occurrence} {s : State} (hstep : ClosingStep y c sockets o s)
    (hread : c.enabledRead = false)
    (hwakeup : c.output = [] -> c.writecbPending = true) : s.Ended := by
  cases hstep with
  | idle _ => exact State.Ended.closing hread hwakeup
  | read _ => exact State.Ended.closing hread hwakeup
  | write n => exact State.Ended.closing hread (socketWrite_scheduled c n)
  | report what =>
      refine State.Ended.closing ?_ hwakeup
      show (c.enabledRead && _) = false
      rw [hread]
      exact Bool.false_and _
  | flushed _ => exact State.Ended.closed
  | waited hlength =>
      refine State.Ended.closing hread ?_
      intro hempty
      exact absurd (congrArg List.length hempty) hlength
  | handled => exact State.Ended.closing hread hwakeup
  | dropped _ => exact State.Ended.closed

theorem step_ended {maxOutput : Nat} {s : State} (a : Action Side)
    (h : s.Ended) : (step maxOutput s a).Ended := by
  cases h with
  | closing hread hwakeup =>
      simp only [step]
      split
      · exact (stepClosing_cases _ _ _ a.occurrence).ended hread hwakeup
      · exact State.Ended.closing hread hwakeup
  | closed => exact State.Ended.closed

def State.OpenOrEnded (s : State) : Prop :=
  (exists ends, s.phase = .relaying ends) ∨ s.Ended

theorem openOrEnded_new : State.new.OpenOrEnded :=
  .inl ⟨_, rfl⟩

theorem RelayingStep.openOrEnded {maxOutput : Nat} {ends : Side -> Endpoint}
    {sockets : Side -> Socket} {x : Side} {o : Occurrence} {s : State}
    (hstep : RelayingStep maxOutput ends sockets x o s) : s.OpenOrEnded := by
  cases hstep with
  | finished _ => exact .inr (finish_ended maxOutput x _ sockets)
  | _ => exact .inl ⟨_, rfl⟩

theorem step_openOrEnded {maxOutput : Nat} {s : State} (a : Action Side)
    (h : s.OpenOrEnded) : (step maxOutput s a).OpenOrEnded := by
  rcases h with ⟨ends, hphase⟩ | h
  · simp only [step, hphase]
    exact (stepRelaying_cases maxOutput ends s.sockets a.target
      a.occurrence).openOrEnded
  · exact .inr (step_ended a h)

theorem step_ended_of_deliversFatal {maxOutput : Nat} {s : State}
    {a : Action Side} {x : Side} (h : s.OpenOrEnded)
    (hfatal : s.DeliversFatal x a) : (step maxOutput s a).Ended := by
  rcases h with ⟨ends, hphase⟩ | h
  · rcases a with ⟨z, o⟩
    rcases hfatal with ⟨htarget, hoccurrence, hpending⟩
    have hz : z = x := htarget
    have ho : o = .deferredEvent := hoccurrence
    subst hz ho
    simp only [State.eventcbPending, hphase] at hpending
    simp only [step, hphase, stepRelaying]
    rw [if_pos hpending]
    exact finish_ended maxOutput z _ s.sockets
  · exact step_ended a h

end Relay
end NetExperiment
