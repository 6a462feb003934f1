import NetExperiment.Libevent.Rules
import NetExperiment.Tcp.TcpProxy.Runs

/-!
# Pausing and resuming

The read callback pauses a side when too much is queued for the other one, and
gives the other one a write callback that is meant to resume it.  Until a side
ends, the callback slots of the two bufferevents take few values: either both
are as the accept callback left them, or one side is paused.  From the latter
values there is no way back.
-/

namespace NetExperiment
namespace TcpProxy

open Foundation
open Libevent
open Relay

variable {ptr : Type}

/-!
## Callback slots
-/

structure Wired (place : Allocation ptr) (x : Side)
    (bev : Bufferevent DataCb EventCb (VoidPtr ptr)) : Prop where
  readcb : bev.readcb = some .evReadCb
  writecb : bev.writecb = none
  eventcb : bev.eventcb = some .evEventCb
  cbarg : bev.cbarg = some (.evContext (place.contextAt x))

/-- The slots of a side that another one is paused for: the argument is the
context of the paused side, and after a write callback a bufferevent. -/
structure Clogged (place : Allocation ptr) (x : Side)
    (bev : Bufferevent DataCb EventCb (VoidPtr ptr)) : Prop where
  readcb : bev.readcb = some .evReadCb
  eventcb : bev.eventcb = some .evEventCb
  cbarg : bev.writecb = some .evWriteCb ∧
      bev.cbarg = some (.evContext (place.contextAt x)) ∨
    bev.writecb = none ∧
      bev.cbarg = some (.bufferevent (place.bufferAt x.other))

def Stuck (place : Allocation ptr) (x z : Side)
    (bev : Bufferevent DataCb EventCb (VoidPtr ptr)) : Prop :=
  (z = x -> Wired place x bev ∧ bev.enabledRead = false) ∧
    (z = x.other -> Clogged place x bev)

def Pausing (place : Allocation ptr) (x z : Side)
    (bev : Bufferevent DataCb EventCb (VoidPtr ptr)) : Prop :=
  (z = x -> Wired place x bev) ∧ (z = x.other -> Clogged place x bev)

section Slots

variable {place : Allocation ptr} {x z : Side}
  {bev : Bufferevent DataCb EventCb (VoidPtr ptr)}

theorem Wired.onChannel (h : Wired place x bev) (f : Channel -> Channel) :
    Wired place x (bev.onChannel f) :=
  ⟨h.readcb, h.writecb, h.eventcb, h.cbarg⟩

theorem Clogged.onChannel (h : Clogged place x bev) (f : Channel -> Channel) :
    Clogged place x (bev.onChannel f) :=
  ⟨h.readcb, h.eventcb, h.cbarg⟩

theorem steady_wired (place : Allocation ptr) : Loop.Steady (Wired place) :=
  fun _ _ f _ h => h.onChannel f

theorem steady_pausing (place : Allocation ptr) (x : Side) :
    Loop.Steady (Pausing place x) := by
  intro z bev f _ h
  exact ⟨fun hz => (h.1 hz).onChannel f, fun hz => (h.2 hz).onChannel f⟩

theorem steady_stuck (place : Allocation ptr) (x : Side) :
    Loop.Steady (Stuck place x) := by
  intro z bev f hf h
  refine ⟨?_, fun hz => (h.2 hz).onChannel f⟩
  intro hz
  exact ⟨(h.1 hz).1.onChannel f, hf _ (h.1 hz).2⟩

theorem Stuck.readcb (h : Stuck place x z bev) :
    bev.readcb = some .evReadCb := by
  rcases Side.eq_or_eq_other x z with hz | hz
  · exact (h.1 hz).1.readcb
  · exact (h.2 hz).readcb

theorem Stuck.eventcb (h : Stuck place x z bev) :
    bev.eventcb = some .evEventCb := by
  rcases Side.eq_or_eq_other x z with hz | hz
  · exact (h.1 hz).1.eventcb
  · exact (h.2 hz).eventcb

theorem Stuck.cbarg (h : Stuck place x z bev) :
    bev.cbarg = some (.evContext (place.contextAt x)) ∨
      bev.cbarg = some (.bufferevent (place.bufferAt x.other)) := by
  rcases Side.eq_or_eq_other x z with hz | hz
  · exact .inl (h.1 hz).1.cbarg
  · rcases (h.2 hz).cbarg with hcontext | hwild
    · exact .inl hcontext.2
    · exact .inr hwild.2

theorem Stuck.writecb (h : Stuck place x z bev) {cb : DataCb}
    (hcb : bev.writecb = some cb) :
    z = x.other ∧ cb = .evWriteCb ∧
      bev.cbarg = some (.evContext (place.contextAt x)) := by
  rcases Side.eq_or_eq_other x z with hz | hz
  · have hnone := hcb.symm.trans (h.1 hz).1.writecb
    cases hnone
  · rcases (h.2 hz).cbarg with hcontext | hwild
    · have hsame := hcb.symm.trans hcontext.1
      cases hsame
      exact ⟨hz, rfl, hcontext.2⟩
    · have hnone := hcb.symm.trans hwild.1
      cases hnone

theorem clogged_setcb (bev : Bufferevent DataCb EventCb (VoidPtr ptr)) :
    Clogged place x (bev.setcb (some .evReadCb) (some .evWriteCb)
      (some .evEventCb) (some (.evContext (place.contextAt x)))) :=
  ⟨rfl, rfl, .inl ⟨rfl, rfl⟩⟩

end Slots

/-!
## Callbacks
-/

section Callbacks

variable [DecidableEq ptr] {place : Allocation ptr} {m : Memory ptr}
  (hlinked : Linked place m) {maxOutput : Nat}
  {H H' H'' : Side -> Bufferevent DataCb EventCb (VoidPtr ptr) -> Prop}
  {s : World ptr}

include hlinked in
/-- The read callback of one side, called with the context of a side `x`.  It
moves bytes, and perhaps it gives the target of the context the context itself
and stops reading. -/
theorem evReadCb_holds (h : Loop.Holds place.bufferAt m H s)
    (hsteady : Loop.Steady H) (hsteady' : Loop.Steady H') (z x : Side)
    (htarget : forall bev, H' x.other (Bufferevent.setcb (some .evReadCb)
      (some .evWriteCb) (some .evEventCb)
      (some (.evContext (place.contextAt x))) bev))
    (hkept : forall w, w ≠ x.other -> forall bev, H w bev -> H' w bev)
    (hdisabled : forall bev, H' z bev ->
      H'' z (bev.onChannel (Channel.disable true false)))
    (hkept' : forall w, w ≠ z -> forall bev, H' w bev -> H'' w bev) :
    Ensures (evReadCb maxOutput (place.bufferAt z)
        (some (.evContext (place.contextAt x))) s)
      (fun t => Loop.Holds place.bufferAt m H t ∨
        Loop.Holds place.bufferAt m H'' t) := by
  have hbefore : Linked place s.memory := h.memory ▸ hlinked
  rcases h.live z with ⟨bev, hlive, _⟩
  unfold evReadCb defaultReadCb
  rw [derefContext_linked hbefore, ok_bind, derefProxy_linked hbefore, ok_bind,
    getTargetBuffer_linked hbefore, ok_bind, Loop.inputLength_live hlive,
    ok_bind]
  refine (h.evbufferAddBuffer place.injective hsteady x.other z).bind ?_
  intro t ht
  have hmoved : Linked place t.memory := ht.memory ▸ hlinked
  rcases ht.live x.other with ⟨sink, hsink, _⟩
  rw [Loop.outputLength_live hsink, ok_bind]
  split
  · -- the partner of the context is the context itself
    rw [getPartner_linked hmoved, ok_bind]
    refine (ht.modifyBev place.injective (fun bev _ => htarget bev)
      hkept).bind ?_
    intro t ht
    refine (ht.onChannel place.injective hsteady' x.other
      (f := Channel.setwatermarkWrite (maxOutput / 2) maxOutput)
      (fun _ hc => hc)).bind ?_
    intro t ht
    exact (ht.modifyBev place.injective hdisabled hkept').mono
      (fun _ => .inr)
  · exact .ok (.inl ht)

include hlinked in
theorem evReadCb_wired (h : Loop.Holds place.bufferAt m (Wired place) s)
    (x : Side) :
    Ensures (evReadCb maxOutput (place.bufferAt x)
        (some (.evContext (place.contextAt x))) s)
      (fun t => Loop.Holds place.bufferAt m (Wired place) t ∨
        Loop.Holds place.bufferAt m (Stuck place x) t) := by
  refine evReadCb_holds hlinked h (steady_wired place)
    (steady_pausing place x) x x ?_ ?_ ?_ ?_
  · intro bev
    exact ⟨fun hx => absurd hx (Side.other_ne x),
      fun _ => clogged_setcb bev⟩
  · intro w hw bev hbev
    rcases Side.eq_or_eq_other x w with hx | hother
    · subst hx
      exact ⟨fun _ => hbev, fun hother => absurd hother hw⟩
    · exact absurd hother hw
  · intro bev hbev
    refine ⟨fun _ => ⟨(hbev.1 rfl).onChannel _, ?_⟩,
      fun hx => absurd hx (Side.ne_other x)⟩
    exact Bool.and_false _
  · intro w hw bev hbev
    exact ⟨fun hx => absurd hx hw, hbev.2⟩

include hlinked in
theorem evReadCb_stuck {x : Side}
    (h : Loop.Holds place.bufferAt m (Stuck place x) s) (z : Side) :
    Ensures (evReadCb maxOutput (place.bufferAt z)
        (some (.evContext (place.contextAt x))) s)
      (Loop.Holds place.bufferAt m (Stuck place x)) := by
  refine (evReadCb_holds hlinked h (steady_stuck place x)
    (steady_stuck place x) z x ?_ (fun _ _ _ hbev => hbev) ?_
    (fun _ _ _ hbev => hbev)).mono ?_
  · intro bev
    exact ⟨fun hx => absurd hx (Side.other_ne x),
      fun _ => clogged_setcb bev⟩
  · intro bev hbev
    exact steady_stuck place x z bev _ (quieter_and _ fun _ => rfl) hbev
  · intro t ht
    rcases ht with hsame | hsame
    · exact hsame
    · exact hsame

include hlinked in
/-- The write callback of the other side enables the other side itself, and
leaves a bufferevent as the callback argument. -/
theorem evWriteCb_stuck {x : Side}
    (h : Loop.Holds place.bufferAt m (Stuck place x) s) :
    Ensures (evWriteCb (place.bufferAt x.other)
        (some (.evContext (place.contextAt x))) s)
      (Loop.Holds place.bufferAt m (Stuck place x)) := by
  have hbefore : Linked place s.memory := h.memory ▸ hlinked
  have hothers : forall w, w ≠ x.other -> forall bev,
      Stuck place x w bev -> Stuck place x w bev :=
    fun _ _ _ hbev => hbev
  unfold evWriteCb defaultWriteCb
  rw [derefContext_linked hbefore, ok_bind, derefProxy_linked hbefore, ok_bind,
    getTargetBuffer_linked hbefore, ok_bind]
  refine (h.modifyBev place.injective (fun bev _ => ?_) hothers).bind ?_
  · exact ⟨fun hx => absurd hx (Side.other_ne x),
      fun _ => ⟨rfl, rfl, .inr ⟨rfl, rfl⟩⟩⟩
  · intro t ht
    refine (ht.onChannel place.injective (steady_stuck place x) x.other
      (f := Channel.setwatermarkWrite 0 0) (fun _ hc => hc)).bind ?_
    intro t ht
    -- the side that is enabled is the other one, whose slots say nothing
    -- about reading
    refine ht.modifyBev place.injective (fun bev hbev => ?_) hothers
    exact ⟨fun hx => absurd hx (Side.other_ne x),
      fun hx => (hbev.2 hx).onChannel _⟩

end Callbacks

/-!
## Steps
-/

def Slotted (place : Allocation ptr) (m : Memory ptr) (s : World ptr) : Prop :=
  Loop.Holds place.bufferAt m (Wired place) s ∨
    exists x, Loop.Holds place.bufferAt m (Stuck place x) s

section Steps

variable [DecidableEq ptr] {place : Allocation ptr} {m : Memory ptr}
  (hlinked : Linked place m) {maxOutput : Nat} {s : World ptr}

include hlinked in
theorem step_wired (h : Loop.Holds place.bufferAt m (Wired place) s)
    {a : Action Side}
    (hquiet : forall x, ¬ s.DeliversFatal (place.bufferAt x)
      (a.map place.bufferAt)) :
    Ensures ((place.machine maxOutput).step s a) (Slotted place m) := by
  rcases a with ⟨z, o⟩
  show Ensures (Loop.step (program maxOutput) s
    { target := place.bufferAt z, occurrence := o }) _
  refine h.step place.injective (steady_wired place) ?hkeep ?hread ?hwrite
    ?hevent
  case hkeep => exact fun _ ht => .inl ht
  case hread =>
    intro bev cb t hbev hcb ht
    have hsame := hcb.symm.trans hbev.readcb
    cases hsame
    rw [hbev.cbarg]
    refine (evReadCb_wired hlinked ht z).mono ?_
    intro t' ht'
    rcases ht' with hwired | hstuck
    · exact .inl hwired
    · exact .inr ⟨z, hstuck⟩
  case hwrite =>
    intro bev cb t hbev hcb _
    have hnone := hcb.symm.trans hbev.writecb
    cases hnone
  case hevent =>
    intro bev cb t hbev hcb ho hlive ht
    have hnot : ¬ bev.eventcbPending.Fatal :=
      fun hfatal => hquiet z ⟨rfl, ho, bev, hlive, hfatal⟩
    cases cb
    rw [hbev.cbarg]
    show Ensures (evEventCb maxOutput _ _ _ t) _
    rw [evEventCb_not_fatal (ht.memory ▸ hlinked) hnot _ z]
    exact .ok (.inl ht)

include hlinked in
theorem step_stuck {x : Side}
    (h : Loop.Holds place.bufferAt m (Stuck place x) s) {a : Action Side}
    (hquiet : forall x, ¬ s.DeliversFatal (place.bufferAt x)
      (a.map place.bufferAt)) :
    Ensures ((place.machine maxOutput).step s a)
      (Loop.Holds place.bufferAt m (Stuck place x)) := by
  rcases a with ⟨z, o⟩
  show Ensures (Loop.step (program maxOutput) s
    { target := place.bufferAt z, occurrence := o }) _
  refine h.step place.injective (steady_stuck place x) ?hkeep ?hread ?hwrite
    ?hevent
  case hkeep => exact fun _ ht => ht
  case hread =>
    intro bev cb t hbev hcb ht
    have hsame := hcb.symm.trans hbev.readcb
    cases hsame
    rcases hbev.cbarg with hcontext | hwild
    · rw [hcontext]
      exact evReadCb_stuck hlinked ht z
    · -- a bufferevent is read as an event context, which is a fault
      rw [hwild]
      exact .error _ _
  case hwrite =>
    intro bev cb t hbev hcb ht
    rcases hbev.writecb hcb with ⟨rfl, rfl, hcontext⟩
    rw [hcontext]
    exact evWriteCb_stuck hlinked ht
  case hevent =>
    intro bev cb t hbev hcb ho hlive ht
    have hnot : ¬ bev.eventcbPending.Fatal :=
      fun hfatal => hquiet z ⟨rfl, ho, bev, hlive, hfatal⟩
    cases cb
    rcases hbev.cbarg with hcontext | hwild
    · rw [hcontext]
      show Ensures (evEventCb maxOutput _ _ _ t) _
      rw [evEventCb_not_fatal (ht.memory ▸ hlinked) hnot _ x]
      exact .ok ht
    · rw [hwild]
      exact .error _ _

end Steps

/-!
## Resuming
-/

/-- Side `x` is not read and the other side has the write callback.  Only the
read callback installs it, when it stops reading `x`. -/
def Paused (place : Allocation ptr) (x : Side) (s : World ptr) : Prop :=
  exists bev sink, s.bevs (place.bufferAt x) = .live bev ∧
    bev.enabledRead = false ∧
    s.bevs (place.bufferAt x.other) = .live sink ∧
    sink.writecb = some .evWriteCb

def RunsWriteCb (place : Allocation ptr) (y : Side) (s : World ptr)
    (a : Action Side) : Prop :=
  a = ⟨y, .deferredWrite⟩ ∧ exists bev,
    s.bevs (place.bufferAt y) = .live bev ∧ bev.writecb = some .evWriteCb ∧
    bev.writecbPending = true

/-- Side `x` is read, and the callback argument of the other side is an event
context. -/
def Resumed (place : Allocation ptr) (x : Side) (s : World ptr) : Prop :=
  (exists bev, s.bevs (place.bufferAt x) = .live bev ∧
    bev.enabledRead = true) ∧
  exists sink p c, s.bevs (place.bufferAt x.other) = .live sink ∧
    sink.cbarg = some (.evContext p) ∧ s.memory.contexts p = .live c

/-- A write callback runs for a side that the other side is paused for. -/
def Drained (place : Allocation ptr) (x : Side) (s : World ptr)
    (a : Action Side) : Prop :=
  Paused place x s ∧ RunsWriteCb place x.other s a

variable [DecidableEq ptr]

/-- If the action runs a write callback for a side that the other side is
paused for, it resumes the paused side. -/
def Resumes (place : Allocation ptr) (s : World ptr) (a : Action Side) : Prop :=
  forall x, Drained place x s a ->
    exists next, (place.machine MAX_OUTPUT).step s a = .ok next ∧
      Resumed place x next

section Runs

variable {place : Allocation ptr} {m : Memory ptr} (hlinked : Linked place m)
  {s : World ptr} {x : Side}

omit [DecidableEq ptr] in
theorem Slotted.stuck (h : Slotted place m s) (hpaused : Paused place x s) :
    Loop.Holds place.bufferAt m (Stuck place x) s := by
  rcases hpaused with ⟨_, sink, _, _, hsink, hcb⟩
  rcases h with hwired | ⟨y, hstuck⟩
  · rcases hwired.live x.other with ⟨bev, hlive, hbev⟩
    rw [hlive] at hsink
    cases hsink
    have hnone := hcb.symm.trans hbev.writecb
    cases hnone
  · rcases hstuck.live x.other with ⟨bev, hlive, hbev⟩
    rw [hlive] at hsink
    cases hsink
    have hside := congrArg Side.other (hbev.writecb hcb).1
    rw [Side.other_other, Side.other_other] at hside
    rw [hside]
    exact hstuck

omit [DecidableEq ptr] in
theorem not_resumed_of_stuck
    (h : Loop.Holds place.bufferAt m (Stuck place x) s) :
    ¬ Resumed place x s := by
  intro hresumed
  rcases hresumed.1 with ⟨bev, hlive, henabled⟩
  rcases h.live x with ⟨bev', hlive', hbev⟩
  rw [hlive] at hlive'
  cases hlive'
  have hdisabled := (hbev.1 rfl).2.symm.trans henabled
  cases hdisabled

include hlinked in
theorem not_resumes (h : Slotted place m s) {a : Action Side}
    (hdrained : Drained place x s a) : ¬ Resumes place s a := by
  intro hresumes
  rcases hresumes x hdrained with ⟨next, hstep, hresumed⟩
  rcases hdrained with ⟨hpaused, ha, _⟩
  have hquiet : forall z, ¬ s.DeliversFatal (place.bufferAt z)
      (a.map place.bufferAt) := by
    intro z hfatal
    subst ha
    cases hfatal.2.1
  exact not_resumed_of_stuck
    (step_stuck hlinked (h.stuck hpaused) hquiet next hstep) hresumed

include hlinked in
theorem step_slotted (h : Slotted place m s) {a : Action Side}
    (hquiet : forall x, ¬ s.DeliversFatal (place.bufferAt x)
      (a.map place.bufferAt)) :
    Ensures ((place.machine MAX_OUTPUT).step s a) (Slotted place m) := by
  rcases h with hwired | ⟨x, hstuck⟩
  · exact step_wired hlinked hwired hquiet
  · exact (step_stuck hlinked hstuck hquiet).mono (fun _ h => .inr ⟨x, h⟩)

theorem slotted_start {setOriginDestAddr : Bool} {socketConnect : Int}
    {background s0 : World ptr}
    (hstart : defaultAcceptCb place setOriginDestAddr socketConnect
      (newProxy place.proxy background) = .ok (true, s0)) :
    Slotted place (place.memoryAfter background.memory) s0 := by
  rw [defaultAcceptCb_embed hstart]
  refine .inl ⟨rfl, ?_⟩
  intro x
  exact ⟨_, Layout.embed_bevs (L := place.layout _) x, rfl, rfl, rfl, rfl⟩

end Runs

/-- Before an end of file or an error is handled, a side that was paused is
never read again. -/
theorem paused_for_good {place : Allocation ptr}
    {setOriginDestAddr : Bool} {socketConnect : Int}
    {background s0 s t : World ptr} {acts later : List (Action Side)}
    (hstart : defaultAcceptCb place setOriginDestAddr socketConnect
      (newProxy place.proxy background) = .ok (true, s0))
    (hquiet : (place.machine MAX_OUTPUT).Along
      (fun s a => forall x, ¬ s.DeliversFatal (place.bufferAt x)
        (a.map place.bufferAt)) s0 acts)
    (hrun : (place.machine MAX_OUTPUT).run s0 acts = .ok s)
    {x : Side} (hpaused : Paused place x s)
    (hlater : (place.machine MAX_OUTPUT).Along
      (fun s a => forall x, ¬ s.DeliversFatal (place.bufferAt x)
        (a.map place.bufferAt)) s later)
    (hrest : (place.machine MAX_OUTPUT).run s later = .ok t) :
    exists bev, t.bevs (place.bufferAt x) = .live bev ∧
      bev.enabledRead = false := by
  have hlinked := linked_memoryAfter place background.memory
  have hslots : Slotted place (place.memoryAfter background.memory) s :=
    Machine.run_invariant
      (fun _ _ next h hq hstep => step_slotted hlinked h hq next hstep)
      (slotted_start hstart) hquiet hrun
  have hstuck : Loop.Holds place.bufferAt
      (place.memoryAfter background.memory) (Stuck place x) t :=
    Machine.run_invariant
      (fun _ _ next h hq hstep => step_stuck hlinked h hq next hstep)
      (hslots.stuck hpaused) hlater hrest
  rcases hstuck.live x with ⟨bev, hlive, hbev⟩
  exact ⟨bev, hlive, (hbev.1 rfl).2⟩

/-- As long as no end of file or error is handled, the write callbacks resume
what was paused exactly if none of them runs for a side that the other one is
paused for. -/
theorem resumes_iff_never_drained {place : Allocation ptr}
    {setOriginDestAddr : Bool} {socketConnect : Int}
    {background s0 : World ptr} {acts : List (Action Side)}
    (hstart : defaultAcceptCb place setOriginDestAddr socketConnect
      (newProxy place.proxy background) = .ok (true, s0))
    (hquiet : (place.machine MAX_OUTPUT).Along
      (fun s a => forall x, ¬ s.DeliversFatal (place.bufferAt x)
        (a.map place.bufferAt)) s0 acts) :
    (place.machine MAX_OUTPUT).Along (Resumes place) s0 acts <->
      (place.machine MAX_OUTPUT).Along
        (fun s a => forall x, ¬ Drained place x s a) s0 acts := by
  have hlinked := linked_memoryAfter place background.memory
  have hslots := Machine.along_invariant
    (fun _ _ next h hq hstep => step_slotted hlinked h hq next hstep)
    (slotted_start hstart) hquiet
  refine Machine.along_congr ?_ hslots
  intro s a hs
  constructor
  · intro hresumes x hdrained
    exact not_resumes hlinked hs.1 hdrained hresumes
  · intro hnone x hdrained
    exact absurd hdrained (hnone x)

/-- A side is paused, and no write callback runs yet. -/
theorem resumes_of_choke :
    exists s0, defaultAcceptCb localPlace true 0
        (newProxy localPlace.proxy World.empty) = .ok (true, s0) ∧
      (localPlace.machine MAX_OUTPUT).Along (Resumes localPlace) s0
        chokeTrace := by
  rcases exists_localStart with ⟨s0, hstart⟩
  have hread : forall a, a ∈ chokeTrace ->
      a.occurrence ≠ .deferredEvent ∧ a.occurrence ≠ .deferredWrite := by
    intro a ha
    simp only [chokeTrace, List.mem_cons, List.not_mem_nil, or_false] at ha
    rcases ha with rfl | rfl
    all_goals
      constructor
      · intro hevent
        cases hevent
      · intro hwrite
        cases hwrite
  refine ⟨s0, hstart, (resumes_iff_never_drained hstart
    (quiet_of_no_event (fun a ha => (hread a ha).1) s0)).mpr ?_⟩
  refine Machine.along_of_forall_mem ?_ s0
  intro s a ha x hdrained
  exact (hread a ha).2 (congrArg Action.occurrence hdrained.2.1)

theorem step_drains {place : Allocation ptr} {maxOutput n : Nat} {x : Side}
    {s : World ptr} (hpaused : Paused place x s)
    {sink : Bufferevent DataCb EventCb (VoidPtr ptr)}
    (hsink : s.bevs (place.bufferAt x.other) = .live sink)
    (hguard : sink.enabledWrite = true ∧ 0 < n ∧ n ≤ sink.output.length)
    (hlow : (sink.output.drop n).length ≤ sink.wmWriteLow) :
    exists next, (place.machine maxOutput).step s
        ⟨x.other, .socketWrite n⟩ = .ok next ∧
      Drained place x next ⟨x.other, .deferredWrite⟩ := by
  rcases hpaused with ⟨bev, sink', hbev, hdisabled, hsink', hcb⟩
  rw [hsink] at hsink'
  cases hsink'
  have hne : place.bufferAt x ≠ place.bufferAt x.other :=
    fun heq => Side.ne_other x (place.injective heq)
  have hself : forall f, (s.setBev (place.bufferAt x.other)
      (sink.onChannel f)).bevs (place.bufferAt x) = .live bev :=
    fun _ => (Function.update_of_ne hne _ _).trans hbev
  have hstep : Loop.step (program maxOutput) s
      { target := place.bufferAt x.other, occurrence := .socketWrite n } = _ :=
    Loop.step_live (.socketWrite n) hsink
  simp only [Loop.stepLive, if_pos hguard] at hstep
  refine ⟨_, hstep, ⟨bev, _, hself _, hdisabled,
    Loop.setBev_bevs_self s _ _, hcb⟩, rfl, _, Loop.setBev_bevs_self s _ _,
    hcb, ?_⟩
  show (sink.writecbPending || (sink.writecb.isSome && decide _)) = true
  rw [hcb, decide_eq_true hlow]
  exact Bool.or_true _

theorem run_drains {place : Allocation ptr} {m : Memory ptr}
    (hlinked : Linked place m) (background : World ptr) (x : Side)
    {bytes : List Byte} (h : MAX_OUTPUT ≤ bytes.length) :
    exists s, (place.machine MAX_OUTPUT).run
        ((place.layout m).embed background Relay.State.new)
        ([⟨x, .socketRead bytes⟩, ⟨x, .deferredRead⟩] ++
          [⟨x.other, .socketWrite bytes.length⟩]) = .ok s ∧
      Drained place x s ⟨x.other, .deferredWrite⟩ := by
  rcases run_choked hlinked background x h with
    ⟨ends, sockets, hrun, hdisabled, hother⟩
  have hself : (chokedLoop place m background ends sockets x).bevs
      (place.bufferAt x) = _ := chokedLoop_bevs_self background sockets x
  have hsink : (chokedLoop place m background ends sockets x).bevs
      (place.bufferAt x.other) = _ := chokedLoop_bevs_other background sockets x
  rw [hother] at hsink
  have hpaused : Paused place x
      (chokedLoop place m background ends sockets x) :=
    ⟨_, _, hself, hdisabled, hsink, rfl⟩
  have hpositive : 0 < bytes.length := Nat.lt_of_lt_of_le (by decide) h
  have hempty : (bytes.drop bytes.length).length ≤ MAX_OUTPUT / 2 := by
    rw [List.drop_length]
    exact Nat.zero_le _
  rcases step_drains hpaused hsink ⟨rfl, hpositive, Nat.le_refl _⟩ hempty with
    ⟨next, hstep, hdrained⟩
  refine ⟨next, ?_, hdrained⟩
  rw [Machine.run_append hrun]
  exact Machine.run_cons_of_ok [] hstep

/-- The client sends as much as the limit in one piece, and all of it is written
to the server. -/
def drainTrace : List (Action Side) :=
  chokeTrace ++ [⟨.upstream, .socketWrite MAX_OUTPUT⟩]

/-- The write callback does not resume the client. -/
theorem write_callback_resumes_nothing :
    exists s0 s, defaultAcceptCb localPlace true 0
        (newProxy localPlace.proxy World.empty) = .ok (true, s0) ∧
      (forall a, a ∈ drainTrace -> a.occurrence ≠ .deferredEvent) ∧
      (localPlace.machine MAX_OUTPUT).run s0 drainTrace = .ok s ∧
      Drained localPlace .accepted s ⟨.upstream, .deferredWrite⟩ ∧
      ¬ Resumes localPlace s ⟨.upstream, .deferredWrite⟩ := by
  rcases exists_localStart with ⟨s0, hstart⟩
  have hlinked := linked_memoryAfter localPlace (World.empty : World Nat).memory
  have hlength : (List.replicate MAX_OUTPUT (0 : Byte)).length = MAX_OUTPUT :=
    List.length_replicate
  have hquiet : forall a, a ∈ drainTrace ->
      a.occurrence ≠ .deferredEvent := by
    intro a ha hoccurrence
    simp only [drainTrace, chokeTrace, List.mem_append, List.mem_cons,
      List.not_mem_nil, or_false] at ha
    rcases ha with (rfl | rfl) | rfl <;> cases hoccurrence
  rcases run_drains hlinked World.empty .accepted (Nat.le_of_eq hlength.symm)
    with ⟨s, hrun, hdrained⟩
  rw [← defaultAcceptCb_embed hstart, hlength] at hrun
  have hslots : Slotted localPlace (localPlace.memoryAfter _) s :=
    Machine.run_invariant
      (fun _ _ next h hq hstep => step_slotted hlinked h hq next hstep)
      (slotted_start hstart) (quiet_of_no_event hquiet s0) hrun
  exact ⟨s0, s, hstart, hquiet, hrun, hdrained,
    not_resumes hlinked hslots hdrained⟩

end TcpProxy
end NetExperiment
