import NetExperiment.Relay.Embedding

/-!
# A relay that is left to itself

When no bytes arrive and no events are found any more, the relay works off what
it has been given: it writes its output, and it runs the callbacks that are
scheduled.  The order is not fixed.  In every order the work comes to an end,
and then all that was read has been delivered, or both endpoints are closed.
-/

namespace NetExperiment
namespace Relay

open Foundation
open Libevent

/-- The relay has been given this work. -/
def State.Busy (s : State) (a : Action Side) : Prop :=
  match s.phase with
  | .relaying ends =>
      (ends a.target).toChannel.Busy true (ends a.target).draining true
        a.occurrence
  | .closing y c => a.target = y ∧ c.Busy false true true a.occurrence
  | .closed => False

def Phase.work : Phase -> Nat
  | .relaying ends => (ends .accepted).work + (ends .upstream).work
  | .closing _ c => c.work
  | .closed => 0

theorem work_relaying (ends : Side -> Endpoint) (x : Side) :
    (Phase.relaying ends).work = (ends x).work + (ends x.other).work := by
  cases x with
  | accepted => rfl
  | upstream => exact Nat.add_comm _ _

/-!
## Work comes to an end
-/

theorem work_socketWrite {c : Channel} {n : Nat} (installed : Bool)
    (hn : 0 < n) (hlength : n ≤ c.output.length) :
    (c.socketWrite installed n).work < c.work := by
  have hpending := Bool.toNat_le (c.socketWrite installed n).writecbPending
  have hwork : (c.socketWrite installed n).work =
      2 * (c.input.length + (c.output.drop n).length) +
        c.readcbPending.toNat +
        (c.socketWrite installed n).writecbPending.toNat +
        (c.eventcbPending != 0).toNat := rfl
  rw [hwork, List.length_drop]
  unfold Channel.work
  omega

theorem work_takeReadcb {c : Channel} (h : c.readcbPending = true) :
    c.takeReadcb.work + 1 = c.work := by
  unfold Channel.work
  rw [h]
  simp only [Channel.takeReadcb, Bool.toNat_true, Bool.toNat_false]
  omega

theorem work_takeWritecb {c : Channel} (h : c.writecbPending = true) :
    c.takeWritecb.work + 1 = c.work := by
  unfold Channel.work
  rw [h]
  simp only [Channel.takeWritecb, Bool.toNat_true, Bool.toNat_false]
  omega

theorem work_takeEventcb {c : Channel} (h : c.eventcbPending ≠ 0) :
    c.takeEventcb.work + 1 = c.work := by
  have hpending : (c.eventcbPending != 0) = true := bne_iff_ne.mpr h
  unfold Channel.work
  rw [hpending]
  rfl

theorem work_forward (maxOutput : Nat) (x : Side) (ends : Side -> Endpoint) :
    (Phase.relaying (forward maxOutput x ends)).work =
      (Phase.relaying ends).work := by
  rw [work_relaying _ x, work_relaying _ x]
  have hself : (forward maxOutput x ends x).work + 2 * (ends x).input.length =
      (ends x).work := by
    rw [forward_self]
    unfold Channel.work
    split
    · simp only [List.length_nil]
      omega
    · simp only [List.length_nil]
      omega
  have hother : (forward maxOutput x ends x.other).work =
      (ends x.other).work + 2 * (ends x).input.length := by
    rw [forward_other]
    unfold Channel.work
    split
    · simp only [List.length_append]
      omega
    · simp only [List.length_append]
      omega
  omega

theorem work_resume (y : Side) (ends : Side -> Endpoint) :
    (Phase.relaying (resume y ends)).work = (Phase.relaying ends).work := by
  rw [work_relaying _ y, work_relaying _ y, resume_self, resume_other]
  rfl

theorem work_onChannel (ends : Side -> Endpoint) (x : Side)
    (f : Channel -> Channel) :
    (Phase.relaying (Function.update ends x ((ends x).onChannel f))).work +
        (ends x).work =
      (Phase.relaying ends).work + (f (ends x).toChannel).work := by
  have hchannel : ((ends x).onChannel f).work = (f (ends x).toChannel).work :=
    rfl
  rw [work_relaying _ x, work_relaying _ x, Function.update_self,
    Function.update_of_ne (Side.other_ne x), hchannel]
  omega

theorem work_finish (maxOutput : Nat) (x : Side) (ends : Side -> Endpoint) :
    (finish maxOutput x ends).work ≤ (Phase.relaying ends).work := by
  have hforward := work_forward maxOutput x ends
  rw [work_relaying _ x] at hforward
  unfold finish
  split
  · show ((forward maxOutput x ends x.other).disable true false).work ≤ _
    have hsame :
        ((forward maxOutput x ends x.other).disable true false).work =
          (forward maxOutput x ends x.other).work := rfl
    omega
  · exact Nat.zero_le _

theorem work_stepRelaying {maxOutput : Nat} {ends : Side -> Endpoint}
    {sockets : Side -> Socket} {x : Side} {o : Occurrence}
    (h : (ends x).toChannel.Busy true (ends x).draining true o) :
    (stepRelaying maxOutput ends sockets x o).phase.work <
      (Phase.relaying ends).work := by
  cases o with
  | socketRead bytes => cases h
  | socketWrite n =>
      rcases h with ⟨hwrite, hn, hlength⟩
      have hless := work_socketWrite (ends x).draining hn hlength
      have hupdate := work_onChannel ends x
        (Channel.socketWrite (ends x).draining n)
      simp only [stepRelaying]
      rw [if_pos ⟨hwrite, hn, hlength⟩]
      show (Phase.relaying _).work < _
      omega
  | report what => cases h
  | deferredRead =>
      have hless := work_takeReadcb h.2
      have hupdate := work_onChannel ends x Channel.takeReadcb
      simp only [stepRelaying]
      rw [if_pos h.2]
      show (Phase.relaying (forward maxOutput x _)).work < _
      rw [work_forward]
      omega
  | deferredWrite =>
      rcases h with ⟨hdraining, hpending⟩
      have hless := work_takeWritecb hpending
      have hupdate := work_onChannel ends x Channel.takeWritecb
      simp only [stepRelaying]
      rw [if_pos ⟨hdraining, hpending⟩]
      show (Phase.relaying (resume x _)).work < _
      rw [work_resume]
      omega
  | deferredEvent =>
      have hless := work_takeEventcb h.2
      have hupdate := work_onChannel ends x Channel.takeEventcb
      simp only [stepRelaying]
      split
      · have hfinish := work_finish maxOutput x
          (Function.update ends x ((ends x).onChannel Channel.takeEventcb))
        show (finish maxOutput x _).work < _
        omega
      · show (Phase.relaying _).work < _
        omega

theorem work_stepClosing {y : Side} {c : Channel} {sockets : Side -> Socket}
    {o : Occurrence} (h : c.Busy false true true o) :
    (stepClosing y c sockets o).phase.work < c.work := by
  cases o with
  | socketRead bytes => cases h
  | socketWrite n =>
      rcases h with ⟨hwrite, hn, hlength⟩
      simp only [stepClosing]
      rw [if_pos ⟨hwrite, hn, hlength⟩]
      exact work_socketWrite true hn hlength
  | report what => cases h
  | deferredRead => cases h.1
  | deferredWrite =>
      have hless := work_takeWritecb h.2
      simp only [stepClosing]
      rw [if_pos h.2]
      split
      · show 0 < c.work
        omega
      · show c.takeWritecb.work < c.work
        omega
  | deferredEvent =>
      have hless := work_takeEventcb h.2
      simp only [stepClosing]
      split
      · show 0 < c.work
        omega
      · show c.takeEventcb.work < c.work
        omega

theorem work_step (maxOutput : Nat) {s : State} {a : Action Side}
    (h : s.Busy a) :
    (step maxOutput s a).phase.work < s.phase.work := by
  unfold State.Busy at h
  unfold step
  cases hphase : s.phase with
  | relaying ends =>
      rw [hphase] at h
      exact work_stepRelaying h
  | closing y c =>
      rw [hphase] at h
      simp only
      rw [if_pos h.1]
      exact work_stepClosing h.2
  | closed =>
      rw [hphase] at h
      cases h

/-!
## Nothing is forgotten

Input waits for a scheduled read callback, and output can be written unless an
end or an error is about to be handled.
-/

def Writable (c : Channel) : Prop :=
  c.enabledWrite = true ∨ c.eventcbPending.Fatal

structure Attended (c : Channel) : Prop where
  input : c.input ≠ [] -> c.readcbPending = true
  output : Writable c

inductive State.Awake : State -> Prop where
  | relaying {ends : Side -> Endpoint} {sockets : Side -> Socket} :
      (forall x, Attended (ends x).toChannel) ->
      State.Awake { phase := .relaying ends, sockets := sockets }
  | closing {y : Side} {c : Channel} {sockets : Side -> Socket} :
      Writable c -> (c.output = [] -> c.writecbPending = true) ->
      State.Awake { phase := .closing y c, sockets := sockets }
  | closed {sockets : Side -> Socket} :
      State.Awake { phase := .closed, sockets := sockets }

theorem awake_new : State.new.Awake :=
  .relaying fun _ => ⟨fun h => absurd rfl h, .inl rfl⟩

theorem fatal_report {c : Channel} (what : What)
    (h : c.eventcbPending.Fatal) :
    (c.report true what).eventcbPending.Fatal :=
  (What.fatal_or _ _).mpr (.inl h)

theorem Writable.report {c : Channel} (h : Writable c) (what : What) :
    Writable (c.report true what) := by
  rcases h with h | h
  · by_cases hstops : what.Fatal ∧ what &&& BEV_EVENT_WRITING ≠ 0
    · exact .inr ((What.fatal_or _ _).mpr (.inr hstops.1))
    · left
      show (c.enabledWrite && !decide _) = true
      rw [h, decide_eq_false hstops]
      rfl
  · exact .inr (fatal_report what h)

theorem Writable.takeEventcb {c : Channel} (h : Writable c)
    (hnot : ¬ c.eventcbPending.Fatal) : Writable c.takeEventcb :=
  .inl (h.resolve_right hnot)

section Relaying

variable {maxOutput : Nat} {ends : Side -> Endpoint} {sockets : Side -> Socket}

theorem attended_update (h : forall x, Attended (ends x).toChannel)
    (x : Side) {e : Endpoint} (he : Attended e.toChannel) (z : Side) :
    Attended (Function.update ends x e z).toChannel := by
  by_cases hz : z = x
  · rw [hz, Function.update_self]
    exact he
  · rw [Function.update_of_ne hz]
    exact h z

theorem attended_forward_other {x : Side}
    (h : Attended (ends x.other).toChannel) :
    Attended (forward maxOutput x ends x.other).toChannel := by
  rw [forward_other]
  split
  · exact ⟨h.input, h.output⟩
  · exact ⟨h.input, h.output⟩

theorem attended_forward {x : Side}
    (hother : Attended (ends x.other).toChannel)
    (hself : Writable (ends x).toChannel) (z : Side) :
    Attended (forward maxOutput x ends z).toChannel := by
  rcases Side.eq_or_eq_other x z with hz | hz
  · rw [hz, forward_self]
    split
    · exact ⟨fun hinput => absurd rfl hinput, hself⟩
    · exact ⟨fun hinput => absurd rfl hinput, hself⟩
  · rw [hz]
    exact attended_forward_other hother

theorem attended_resume (h : forall x, Attended (ends x).toChannel)
    (y z : Side) : Attended (resume y ends z).toChannel := by
  rcases Side.eq_or_eq_other y z with hz | hz
  · rw [hz, resume_self]
    exact ⟨(h y).input, (h y).output⟩
  · rw [hz, resume_other]
    exact ⟨(h y.other).input, (h y.other).output⟩

theorem awake_finish {x : Side}
    (h : Attended (ends x.other).toChannel) :
    State.Awake
      { phase := finish maxOutput x ends, sockets := sockets } := by
  unfold finish
  split
  · rename_i hlength
    have hattended : Attended (forward maxOutput x ends x.other).toChannel :=
      attended_forward_other h
    refine .closing ?_ ?_
    · rcases hattended.output with hwrite | hfatal
      · left
        show ((forward maxOutput x ends x.other).enabledWrite && !false) = true
        rw [hwrite]
        rfl
      · exact .inr hfatal
    · intro hempty
      exact absurd (congrArg List.length hempty) hlength
  · exact .closed

theorem awake_stepRelaying
    (h : forall x, Attended (ends x).toChannel) (x : Side)
    (o : Occurrence) :
    (stepRelaying maxOutput ends sockets x o).Awake := by
  cases o with
  | socketRead bytes =>
      simp only [stepRelaying]
      split
      · refine .relaying (attended_update h x ⟨?_, (h x).output⟩)
        intro _
        exact Bool.or_true _
      · exact .relaying h
  | socketWrite n =>
      simp only [stepRelaying]
      split
      · exact .relaying (attended_update h x ⟨(h x).input, (h x).output⟩)
      · exact .relaying h
  | report what =>
      exact .relaying
        (attended_update h x ⟨(h x).input, (h x).output.report what⟩)
  | deferredRead =>
      simp only [stepRelaying]
      split
      · refine .relaying (attended_forward ?_ ?_)
        · rw [Function.update_of_ne (Side.other_ne x)]
          exact h x.other
        · rw [Function.update_self]
          exact (h x).output
      · exact .relaying h
  | deferredWrite =>
      simp only [stepRelaying]
      split
      · refine .relaying (attended_resume (attended_update h x ?_) x)
        exact ⟨(h x).input, (h x).output⟩
      · exact .relaying h
  | deferredEvent =>
      simp only [stepRelaying]
      split
      · apply awake_finish
        rw [Function.update_of_ne (Side.other_ne x)]
        exact h x.other
      · rename_i hnot
        exact .relaying (attended_update h x
          ⟨(h x).input, (h x).output.takeEventcb hnot⟩)

end Relaying

theorem awake_stepClosing {y : Side} {c : Channel}
    {sockets : Side -> Socket} (hwritable : Writable c)
    (hwakeup : c.output = [] -> c.writecbPending = true) (o : Occurrence) :
    (stepClosing y c sockets o).Awake := by
  cases o with
  | socketRead bytes =>
      simp only [stepClosing]
      split
      · exact .closing hwritable hwakeup
      · exact .closing hwritable hwakeup
  | socketWrite n =>
      simp only [stepClosing]
      split
      · exact .closing hwritable (socketWrite_scheduled c n)
      · exact .closing hwritable hwakeup
  | report what => exact .closing (hwritable.report what) hwakeup
  | deferredRead => exact .closing hwritable hwakeup
  | deferredWrite =>
      simp only [stepClosing]
      split
      · split
        · exact .closed
        · rename_i hlength
          refine .closing hwritable ?_
          intro hempty
          exact absurd (congrArg List.length hempty) hlength
      · exact .closing hwritable hwakeup
  | deferredEvent =>
      simp only [stepClosing]
      split
      · exact .closed
      · rename_i hnot
        exact .closing (hwritable.takeEventcb hnot) hwakeup

theorem step_awake {maxOutput : Nat} {s : State} (a : Action Side)
    (h : s.Awake) : (step maxOutput s a).Awake := by
  cases h with
  | relaying hends => exact awake_stepRelaying hends a.target a.occurrence
  | closing hwritable hwakeup =>
      simp only [step]
      split
      · exact awake_stepClosing hwritable hwakeup a.occurrence
      · exact .closing hwritable hwakeup
  | closed => exact .closed

/-!
## Flow control until the end

Flow control is kept as long as no end or error waits for its callback, and such
an event waits until the relay ends.
-/

theorem resume_eventcbPending (y z : Side) (ends : Side -> Endpoint) :
    (resume y ends z).eventcbPending = (ends z).eventcbPending := by
  rcases Side.eq_or_eq_other y z with hz | hz
  · rw [hz, resume_self]
  · rw [hz, resume_other]

theorem fatal_stepRelaying {maxOutput : Nat} {ends ends' : Side -> Endpoint}
    {sockets : Side -> Socket} {x z : Side} {o : Occurrence}
    (h : (ends z).eventcbPending.Fatal)
    (hphase : (stepRelaying maxOutput ends sockets x o).phase =
      .relaying ends') : (ends' z).eventcbPending.Fatal := by
  cases o with
  | socketRead bytes =>
      simp only [stepRelaying] at hphase
      split at hphase
      · cases hphase
        rw [update_eventcbPending ends x z (Channel.socketRead true bytes)
          (fun _ => rfl)]
        exact h
      · cases hphase
        exact h
  | socketWrite n =>
      simp only [stepRelaying] at hphase
      split at hphase
      · cases hphase
        rw [update_eventcbPending ends x z
          (Channel.socketWrite (ends x).draining n) (fun _ => rfl)]
        exact h
      · cases hphase
        exact h
  | deferredRead =>
      simp only [stepRelaying] at hphase
      split at hphase
      · cases hphase
        rw [forward_eventcbPending,
          update_eventcbPending ends x z Channel.takeReadcb (fun _ => rfl)]
        exact h
      · cases hphase
        exact h
  | deferredWrite =>
      simp only [stepRelaying] at hphase
      split at hphase
      · cases hphase
        rw [resume_eventcbPending,
          update_eventcbPending ends x z Channel.takeWritecb (fun _ => rfl)]
        exact h
      · cases hphase
        exact h
  | deferredEvent =>
      simp only [stepRelaying] at hphase
      split at hphase
      · simp only [finish] at hphase
        split at hphase <;> cases hphase
      · rename_i hnot
        cases hphase
        have hz : z ≠ x := fun heq => hnot (heq ▸ h)
        rw [Function.update_of_ne hz]
        exact h
  | report what =>
      cases hphase
      by_cases hz : z = x
      · subst hz
        rw [Function.update_self]
        exact fatal_report what h
      · rw [Function.update_of_ne hz]
        exact h

def State.Regulated (maxOutput : Nat) (s : State) : Prop :=
  forall ends, s.phase = .relaying ends ->
    (forall x, ¬ (ends x).eventcbPending.Fatal) ->
    FlowControlled maxOutput ends

theorem step_regulated {maxOutput : Nat} {s : State} (hmax : 0 < maxOutput)
    (a : Action Side) (h : s.Regulated maxOutput) :
    (step maxOutput s a).Regulated maxOutput := by
  intro ends' hphase hquiet
  rcases step_relaying hphase with ⟨ends, hs, hstep⟩
  have hbefore : forall z, ¬ (ends z).eventcbPending.Fatal := by
    intro z hfatal
    have hnext : (stepRelaying maxOutput ends s.sockets a.target
        a.occurrence).phase = .relaying ends' := by
      simpa only [step, hs] using hphase
    exact hquiet z (fatal_stepRelaying hfatal hnext)
  have hreport : forall what : What, a.occurrence = .report what ->
      ¬ what.Fatal := by
    intro what ho hfatal
    simp only [step, hs, ho, stepRelaying] at hphase
    cases hphase
    refine hquiet a.target ?_
    rw [Function.update_self]
    exact (What.fatal_or _ _).mpr (.inr hfatal)
  rcases hstep.flowControlled hmax (h ends hs hbefore) (hbefore a.target)
    hreport with ⟨reached, hreached, hflow⟩
  rw [hphase] at hreached
  cases hreached
  exact hflow

/-!
## When the work is done
-/

/-- All that was read has been delivered and both endpoints are read again, or
both are closed. -/
def State.Settled (s : State) : Prop :=
  s.phase = .closed ∨
    exists ends, s.phase = .relaying ends ∧
      forall x, (ends x).enabledRead = true ∧ (ends x).input = [] ∧
        (ends x).output = [] ∧
        (s.sockets x).received = (s.sockets x.other).sent

theorem settled_of_relaying {maxOutput : Nat} {s : State}
    {ends : Side -> Endpoint} (hphase : s.phase = .relaying ends)
    (hattended : forall x, Attended (ends x).toChannel)
    (hregulated : s.Regulated maxOutput) (hintact : s.IntactWhileOpen)
    (hidle : forall a, ¬ s.Busy a) : s.Settled := by
  have hnot : forall x o, ¬ (ends x).toChannel.Busy true (ends x).draining
      true o := by
    intro x o hbusy
    refine hidle ⟨x, o⟩ ?_
    unfold State.Busy
    rw [hphase]
    exact hbusy
  have hevent : forall x, (ends x).eventcbPending = 0 := by
    intro x
    by_contra hne
    exact hnot x .deferredEvent ⟨rfl, hne⟩
  have hquiet : forall x, ¬ (ends x).eventcbPending.Fatal := by
    intro x
    rw [hevent]
    exact What.not_fatal_zero
  have houtput : forall x, (ends x).output = [] := by
    intro x
    by_contra hne
    exact hnot x (.socketWrite (ends x).output.length)
      ⟨(hattended x).output.resolve_right (hquiet x),
        List.length_pos_iff.mpr hne, Nat.le_refl _⟩
  have hinput : forall x, (ends x).input = [] := by
    intro x
    by_contra hne
    exact hnot x .deferredRead ⟨rfl, (hattended x).input hne⟩
  have hflow := hregulated ends hphase hquiet
  refine .inr ⟨ends, hphase, ?_⟩
  intro x
  refine ⟨?_, hinput x, houtput x, ?_⟩
  · by_contra hpaused
    have hdraining := (hflow x).paused_iff.mp
      (eq_false_of_ne_true hpaused)
    rcases (hflow x).wakeup hdraining with hlong | hpending
    · rw [houtput] at hlong
      exact absurd hlong (Nat.not_lt_zero _)
    · exact hnot x.other .deferredWrite ⟨hdraining, hpending⟩
  · have hreceived := hintact ends hphase x
    rw [hinput, houtput, List.append_nil, List.append_nil] at hreceived
    exact hreceived

theorem settled_of_idle {maxOutput : Nat} {s : State} (hawake : s.Awake)
    (hregulated : s.Regulated maxOutput) (hintact : s.IntactWhileOpen)
    (hidle : forall a, ¬ s.Busy a) : s.Settled := by
  cases hawake with
  | relaying hattended =>
      exact settled_of_relaying rfl hattended hregulated hintact hidle
  | @closing y c sockets hwritable hwakeup =>
      exfalso
      have hnot : forall o, ¬ c.Busy false true true o :=
        fun o hbusy => hidle ⟨y, o⟩ ⟨rfl, hbusy⟩
      have hevent : c.eventcbPending = 0 := by
        by_contra hne
        exact hnot .deferredEvent ⟨rfl, hne⟩
      have hwrite : c.enabledWrite = true := by
        apply hwritable.resolve_right
        rw [hevent]
        exact What.not_fatal_zero
      have houtput : c.output = [] := by
        by_contra hne
        exact hnot (.socketWrite c.output.length)
          ⟨hwrite, List.length_pos_iff.mpr hne, Nat.le_refl _⟩
      exact hnot .deferredWrite ⟨rfl, hwakeup houtput⟩
  | closed => exact .inl rfl

structure State.Sound (maxOutput : Nat) (s : State) : Prop where
  awake : s.Awake
  regulated : s.Regulated maxOutput
  intact : s.IntactWhileOpen

theorem sound_new {maxOutput : Nat} (hmax : 0 < maxOutput) :
    State.new.Sound maxOutput := by
  refine ⟨awake_new, ?_, intactWhileOpen_new⟩
  intro ends hphase _
  cases hphase
  exact flowControlled_new hmax

theorem sound_closed (maxOutput : Nat) (sockets : Side -> Socket) :
    State.Sound maxOutput { phase := .closed, sockets := sockets } := by
  refine ⟨.closed, ?_, ?_⟩
  · intro ends hphase
    cases hphase
  · intro ends hphase
    cases hphase

theorem step_sound {maxOutput : Nat} {s : State} (hmax : 0 < maxOutput)
    (a : Action Side) (h : s.Sound maxOutput) :
    (step maxOutput s a).Sound maxOutput :=
  ⟨step_awake a h.awake, step_regulated hmax a h.regulated,
    step_intactWhileOpen a h.intact⟩

theorem sound_of_step {maxOutput : Nat} (hmax : 0 < maxOutput) (s : State)
    (a : Action Side) (next : State) (h : s.Sound maxOutput)
    (hstep : (machine maxOutput).step s a = .ok next) :
    next.Sound maxOutput := by
  cases hstep
  exact step_sound hmax a h

/-!
## Programs that keep a relay

A program whose steps are those of the relay works off what it has been given in
the same way.
-/

/-- Two bufferevents have delivered all that was read and are read again, or
both are freed. -/
def Delivered {ptr dataCb eventCb arg memory : Type} (place : Side -> ptr)
    (s : Loop ptr dataCb eventCb arg memory) : Prop :=
  (forall x, s.bevs (place x) = .freed) ∨
    forall x, exists bev, s.bevs (place x) = .live bev ∧
      bev.enabledRead = true ∧ bev.input = [] ∧ bev.output = [] ∧
      (s.sockets (place x)).received = (s.sockets (place x.other)).sent

namespace Layout

variable {ptr dataCb eventCb arg memory fault : Type}
  {L : Layout ptr dataCb eventCb arg memory}
  {background : Loop ptr dataCb eventCb arg memory} {r : State}

theorem not_busy_of_freed {place : Side -> ptr}
    {s : Loop ptr dataCb eventCb arg memory}
    (h : forall x, s.bevs (place x) = .freed) (a : Action Side) :
    ¬ s.Busy (a.map place) := by
  intro hbusy
  rcases hbusy with ⟨bev, hbev, _⟩
  cases (h a.target).symm.trans hbev

theorem busy_embed {a : Action Side} :
    (L.embed background r).Busy (a.map L.bufferAt) <-> r.Busy a := by
  have hcell : (L.embed background r).bevs (L.bufferAt a.target) =
      L.bevsOf r.phase a.target := embed_bevs a.target
  unfold Loop.Busy State.Busy
  show (exists bev, (L.embed background r).bevs (L.bufferAt a.target) =
    .live bev ∧ _) <-> _
  rw [hcell]
  cases r.phase with
  | relaying ends =>
      have hslot : (L.relayingBev a.target (ends a.target)).writecb.isSome =
          (ends a.target).draining := by
        unfold relayingBev
        cases (ends a.target).draining <;> rfl
      constructor
      · intro h
        rcases h with ⟨bev, hbev, hbusy⟩
        cases hbev
        rw [hslot] at hbusy
        exact hbusy
      · intro h
        refine ⟨_, rfl, ?_⟩
        rw [hslot]
        exact h
  | closing y c =>
      constructor
      · intro h
        rcases h with ⟨bev, hbev, hbusy⟩
        simp only [bevsOf] at hbev
        split at hbev
        · rename_i htarget
          cases hbev
          exact ⟨htarget, hbusy⟩
        · cases hbev
      · intro h
        exact ⟨_, if_pos h.1, h.2⟩
  | closed =>
      constructor
      · intro h
        rcases h with ⟨bev, hbev, _⟩
        cases hbev
      · intro h
        cases h

theorem work_embed :
    (L.embed background r).work (L.bufferAt .accepted) +
      (L.embed background r).work (L.bufferAt .upstream) = r.phase.work := by
  unfold Loop.work
  rw [embed_bevs, embed_bevs]
  cases r.phase with
  | relaying ends => rfl
  | closing y c =>
      cases y with
      | accepted => rfl
      | upstream => exact Nat.zero_add _
  | closed => rfl

theorem delivered_embed (h : r.Settled) :
    Delivered L.bufferAt (L.embed background r) := by
  rcases h with hphase | ⟨ends, hphase, hends⟩
  · left
    intro x
    rw [embed_bevs, hphase]
    rfl
  · right
    intro x
    rcases hends x with ⟨hread, hinput, houtput, hreceived⟩
    refine ⟨L.relayingBev x (ends x), ?_, hread, hinput, houtput, ?_⟩
    · rw [embed_bevs, hphase]
      rfl
    · rw [embed_sockets, embed_sockets]
      exact hreceived

variable {maxOutput : Nat}
  {M : Machine (Loop ptr dataCb eventCb arg memory) (Action Side) fault}

/-- In whatever order a program works off what it has been given, it stops, and
when nothing is left to do, all has been delivered. -/
theorem works_off (hmax : 0 < maxOutput)
    (hsimulates : M.Simulates (machine maxOutput) (L.embed background))
    (hsound : r.Sound maxOutput)
    {last : Loop ptr dataCb eventCb arg memory} {acts : List (Action Side)}
    (hbusy : M.Along (fun s a => s.Busy (a.map L.bufferAt))
      (L.embed background r) acts)
    (hrun : M.run (L.embed background r) acts = .ok last) :
    acts.length ≤ (L.embed background r).work (L.bufferAt .accepted) +
        (L.embed background r).work (L.bufferAt .upstream) ∧
      ((forall a : Action Side, ¬ last.Busy (a.map L.bufferAt)) ->
        Delivered L.bufferAt last) := by
  have hstep : forall (s : Loop ptr dataCb eventCb arg memory)
      (a : Action Side) (next : Loop ptr dataCb eventCb arg memory),
      (exists r, s = L.embed background r ∧ r.Sound maxOutput) ->
      s.Busy (a.map L.bufferAt) -> M.step s a = .ok next ->
      (exists r, next = L.embed background r ∧ r.Sound maxOutput) ∧
        next.work (L.bufferAt .accepted) + next.work (L.bufferAt .upstream) <
          s.work (L.bufferAt .accepted) + s.work (L.bufferAt .upstream) := by
    intro s a next hs hbusy hnext
    rcases hs with ⟨r, rfl, hr⟩
    rcases hsimulates r a next hnext with ⟨r', hr', rfl⟩
    cases hr'
    rw [work_embed, work_embed]
    exact ⟨⟨_, rfl, step_sound hmax a hr⟩,
      work_step maxOutput (busy_embed.mp hbusy)⟩
  refine ⟨Machine.length_le_of_along _ hstep ⟨r, rfl, hsound⟩ hbusy hrun, ?_⟩
  intro hidle
  rcases Machine.run_invariant
    (fun s a next hs ha hnext => (hstep s a next hs ha hnext).1)
    ⟨r, rfl, hsound⟩ hbusy hrun with ⟨final, rfl, hfinal⟩
  refine delivered_embed (settled_of_idle hfinal.awake hfinal.regulated
    hfinal.intact ?_)
  intro a ha
  exact hidle a (busy_embed.mpr ha)

end Layout

end Relay
end NetExperiment
