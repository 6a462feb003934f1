import NetExperiment.Relay.Embedding
import NetExperiment.Tcp.TcpProxy.Core

/-!
# The proxy with event contexts and the relay

The callbacks of a proxy take the steps of the relay until too much is queued
for one side.  From then on the argument of that side is the wrong context.  When
a side ends, the survivor is given the context of the ended side, which names
the survivor itself as the target.
-/

namespace NetExperiment
namespace TcpProxy

open Foundation
open Libevent
open Relay

variable {ptr : Type} [DecidableEq ptr]

def Allocation.bufferAt (place : Allocation ptr) : Side -> ptr
  | .accepted => place.bIn
  | .upstream => place.bOut

omit [DecidableEq ptr] in
theorem Allocation.injective (place : Allocation ptr) :
    Function.Injective place.bufferAt := by
  intro x z h
  cases x with
  | accepted =>
      cases z with
      | accepted => rfl
      | upstream => exact absurd h place.distinct
  | upstream =>
      cases z with
      | accepted => exact absurd h.symm place.distinct
      | upstream => rfl

def Allocation.contextAt (place : Allocation ptr) : Side -> ptr
  | .accepted => place.outContext
  | .upstream => place.inContext

def Allocation.contextOf (place : Allocation ptr) : Side -> EvContext ptr
  | .accepted => { target := 1, proxy := some place.proxy }
  | .upstream => { target := 0, proxy := some place.proxy }

def Allocation.proxyObject (place : Allocation ptr) : Proxy ptr where
  bOut := .assigned (some place.bOut)
  bIn := .assigned (some place.bIn)
  inContext := some place.inContext
  outContext := some place.outContext

/-- The proxy object and its two contexts are in place. -/
structure Linked (place : Allocation ptr) (m : Memory ptr) : Prop where
  proxy : m.proxies place.proxy = .live place.proxyObject
  context : forall x, m.contexts (place.contextAt x) =
    .live (place.contextOf x)

section Contexts

variable {place : Allocation ptr} {s : World ptr}

omit [DecidableEq ptr] in
theorem derefContext_linked (h : Linked place s.memory) (x : Side) :
    derefContext (some (.evContext (place.contextAt x))) s =
      .ok (place.contextOf x) :=
  Heap.read_live _ (h.context x)

omit [DecidableEq ptr] in
theorem derefProxy_linked (h : Linked place s.memory) (x : Side) :
    derefProxy (place.contextOf x) s = .ok place.proxyObject := by
  cases x with
  | accepted => exact Heap.read_live _ h.proxy
  | upstream => exact Heap.read_live _ h.proxy

omit [DecidableEq ptr] in
theorem getTargetBuffer_linked (h : Linked place s.memory) (x : Side) :
    getTargetBuffer (place.contextOf x) s =
      .ok (some (place.bufferAt x.other)) := by
  cases x with
  | accepted =>
      simp only [getTargetBuffer, Allocation.contextOf]
      rw [Heap.read_live _ h.proxy]
      rfl
  | upstream =>
      simp only [getTargetBuffer, Allocation.contextOf]
      rw [Heap.read_live _ h.proxy]
      rfl

omit [DecidableEq ptr] in
/-- The partner of a context is the context itself. -/
theorem getPartner_linked (h : Linked place s.memory) (x : Side) :
    getPartner (place.contextOf x) s = .ok (some (place.contextAt x)) := by
  cases x with
  | accepted =>
      simp only [getPartner, Allocation.contextOf]
      rw [Heap.read_live _ h.proxy]
      rfl
  | upstream =>
      simp only [getPartner, Allocation.contextOf]
      rw [Heap.read_live _ h.proxy]
      rfl

end Contexts

/-- The survivor of a pair has the context of the side that ended. -/
def Allocation.layout (place : Allocation ptr) (m : Memory ptr) :
    Layout ptr DataCb EventCb (VoidPtr ptr) (Memory ptr) where
  bufferAt := place.bufferAt
  injective := place.injective
  readcb := .evReadCb
  drainedWritecb := .evWriteCb
  closeOnFinishedWritecb := .closeOnFinishedWritecb
  eventcb := .evEventCb
  relayingArg := fun x => some (.evContext (place.contextAt x))
  closingArg := fun y => some (.evContext (place.contextAt y.other))
  relayingMemory := m
  closingMemory := fun _ => m
  closedMemory := m

/-!
## Callbacks while both sides are open
-/

section Relaying

variable {place : Allocation ptr} {m : Memory ptr} (hlinked : Linked place m)
  (background : World ptr) {maxOutput : Nat}
  {ends : Side -> Endpoint} (sockets : Side -> Socket)

/-- Two sides of which one was given the context of the other one. -/
noncomputable def chokedLoop (place : Allocation ptr) (m : Memory ptr)
    (background : World ptr) (ends : Side -> Endpoint)
    (sockets : Side -> Socket) (x : Side) : World ptr :=
  (place.layout m).overlay background
    (Function.update ((place.layout m).bevsOf (.relaying ends)) x.other
      (.live { (place.layout m).relayingBev x.other (ends x.other) with
        cbarg := some (.evContext (place.contextAt x)) }))
    sockets m

omit [DecidableEq ptr] in
theorem chokedLoop_bevs_self (x : Side) :
    (chokedLoop place m background ends sockets x).bevs (place.bufferAt x) =
      .live ((place.layout m).relayingBev x (ends x)) :=
  (Layout.overlay_bevs x).trans (Function.update_of_ne (Side.ne_other x) _ _)

omit [DecidableEq ptr] in
theorem chokedLoop_bevs_other (x : Side) :
    (chokedLoop place m background ends sockets x).bevs
        (place.bufferAt x.other) =
      .live { (place.layout m).relayingBev x.other (ends x.other) with
        cbarg := some (.evContext (place.contextAt x)) } :=
  (Layout.overlay_bevs x.other).trans (Function.update_self _ _ _)

include hlinked in
theorem evReadCb_relaying (x : Side) :
    evReadCb maxOutput ((place.layout m).bufferAt x)
        (some (.evContext (place.contextAt x)))
        ((place.layout m).relayingLoop background ends sockets) =
      if maxOutput ≤ (moved x ends x.other).output.length then
        (do
          let s <- ((place.layout m).relayingLoop background (moved x ends)
            sockets).buffereventSetcb ((place.layout m).bufferAt x.other)
              (some .evReadCb) (some .evWriteCb) (some .evEventCb)
              (some (.evContext (place.contextAt x)))
          let s <- s.buffereventSetwatermarkWrite
            ((place.layout m).bufferAt x.other) (maxOutput / 2) maxOutput
          s.buffereventDisable ((place.layout m).bufferAt x) true false)
      else .ok ((place.layout m).relayingLoop background (moved x ends)
        sockets) := by
  have hbefore : Linked place
      ((place.layout m).relayingLoop background ends sockets).memory := hlinked
  have hafter : Linked place ((place.layout m).relayingLoop background
      (moved x ends) sockets).memory := hlinked
  have htarget := getTargetBuffer_linked hbefore x
  unfold evReadCb defaultReadCb
  rw [derefContext_linked hbefore, ok_bind, derefProxy_linked hbefore, ok_bind,
    htarget, ok_bind, Layout.inputLength_relaying, ok_bind]
  simp only
  refine Eq.trans (congrArg (· >>= _)
    ((place.layout m).evbufferAddBuffer_relaying background ends sockets x)) ?_
  rw [ok_bind]
  refine Eq.trans (congrArg (· >>= _)
    ((place.layout m).outputLength_relaying background (moved x ends) sockets
      x.other)) ?_
  rw [ok_bind, getPartner_linked hafter, ok_bind]
  rfl

include hlinked in
theorem evReadCb_forward (x : Side)
    (h : ¬ maxOutput ≤ (moved x ends x.other).output.length) :
    evReadCb maxOutput ((place.layout m).bufferAt x)
        (some (.evContext (place.contextAt x)))
        ((place.layout m).relayingLoop background ends sockets) =
      .ok ((place.layout m).relayingLoop background (forward maxOutput x ends)
        sockets) := by
  rw [evReadCb_relaying hlinked, if_neg h]
  unfold forward
  rw [if_neg h]

include hlinked in
/-- When too much is queued, the other side is given the context of this side,
which names the other side itself as the target. -/
theorem evReadCb_choke (x : Side)
    (h : maxOutput ≤ (moved x ends x.other).output.length) :
    evReadCb maxOutput ((place.layout m).bufferAt x)
        (some (.evContext (place.contextAt x)))
        ((place.layout m).relayingLoop background ends sockets) =
      .ok (chokedLoop place m background (forward maxOutput x ends) sockets
        x) := by
  have hother : (place.layout m).bevsOf (.relaying (moved x ends)) x.other =
      .live ((place.layout m).relayingBev x.other (moved x ends x.other)) := rfl
  have hself : (place.layout m).bevsOf (.relaying (moved x ends)) x =
      .live ((place.layout m).relayingBev x (moved x ends x)) := rfl
  rw [evReadCb_relaying hlinked, if_pos h]
  unfold Loop.buffereventSetcb Loop.buffereventSetwatermarkWrite
    Loop.buffereventDisable Layout.relayingLoop Layout.embed
  rw [Layout.overlay_modifyBev _ hother, ok_bind,
    Layout.overlay_modifyBev _ (Function.update_self _ _ _), ok_bind,
    Layout.overlay_modifyBev _ ((Function.update_of_ne (Side.ne_other x) _
      _).trans ((Function.update_of_ne (Side.ne_other x) _ _).trans hself))]
  unfold chokedLoop forward paused
  rw [if_pos h]
  congr 2
  apply Side.funext_other x
  · simp [Layout.bevsOf, Layout.relayingBev, Endpoint.onChannel,
      Bufferevent.onChannel]
  · simp [Layout.relayingBev, Endpoint.onChannel, Bufferevent.onChannel,
      Bufferevent.setcb, Allocation.layout]

include hlinked in
theorem exists_evReadCb (x : Side) :
    exists bev, evReadCb maxOutput ((place.layout m).bufferAt x)
        (some (.evContext (place.contextAt x)))
        ((place.layout m).relayingLoop background ends sockets) =
      .ok ((place.layout m).overlay background
        (Function.update ((place.layout m).bevsOf
          (.relaying (forward maxOutput x ends))) x.other (.live bev))
        sockets m) ∧
      bev.toChannel = (forward maxOutput x ends x.other).toChannel := by
  by_cases h : maxOutput ≤ (moved x ends x.other).output.length
  · exact ⟨_, evReadCb_choke hlinked background sockets x h, rfl⟩
  · refine ⟨(place.layout m).relayingBev x.other
      (forward maxOutput x ends x.other), ?_, rfl⟩
    have hsame : Function.update ((place.layout m).bevsOf
        (.relaying (forward maxOutput x ends))) x.other
        (.live ((place.layout m).relayingBev x.other
          (forward maxOutput x ends x.other))) =
        (place.layout m).bevsOf (.relaying (forward maxOutput x ends)) :=
      Function.update_eq_self x.other _
    rw [evReadCb_forward hlinked background sockets x h, hsame]
    rfl

include hlinked in
theorem closePartner_flush (x : Side)
    (h : (forward maxOutput x ends x.other).output.length ≠ 0) :
    closePartner maxOutput ((place.layout m).bufferAt x)
        ((place.layout m).bufferAt x.other)
        (some (.evContext (place.contextAt x)))
        ((place.layout m).relayingLoop background ends sockets) =
      .ok ((place.layout m).overlay background
        (Function.update ((place.layout m).bevsOf
          (.relaying (forward maxOutput x ends))) x.other
          (.live ((place.layout m).closingBev x.other
            ((forward maxOutput x ends x.other).disable true false))))
        sockets m) := by
  rcases exists_evReadCb hlinked background sockets x with
    ⟨bev, hread, hchannel⟩
  have hlength : bev.output.length ≠ 0 := by
    rw [hchannel]
    exact h
  have hlive := Function.update_self x.other (Cell.live bev)
    ((place.layout m).bevsOf (.relaying (forward maxOutput x ends)))
  unfold closePartner Loop.buffereventSetcb Loop.buffereventDisable
  rw [hread, ok_bind,
    Loop.outputLength_live ((Layout.overlay_bevs x.other).trans hlive),
    ok_bind, if_pos hlength, Layout.overlay_modifyBev _ hlive, ok_bind,
    Layout.overlay_modifyBev _ (Function.update_self _ _ _),
    Function.update_idem, Function.update_idem]
  simp only [Bufferevent.onChannel, Bufferevent.setcb, Layout.closingBev,
    Allocation.layout, Side.other_other, hchannel]

include hlinked in
theorem closePartner_free (x : Side)
    (h : (forward maxOutput x ends x.other).output.length = 0) :
    closePartner maxOutput ((place.layout m).bufferAt x)
        ((place.layout m).bufferAt x.other)
        (some (.evContext (place.contextAt x)))
        ((place.layout m).relayingLoop background ends sockets) =
      .ok ((place.layout m).overlay background
        (Function.update ((place.layout m).bevsOf
          (.relaying (forward maxOutput x ends))) x.other .freed)
        sockets m) := by
  rcases exists_evReadCb hlinked background sockets x with
    ⟨bev, hread, hchannel⟩
  have hlength : ¬ bev.output.length ≠ 0 := by
    rw [hchannel]
    exact not_not.mpr h
  have hlive := Function.update_self x.other (Cell.live bev)
    ((place.layout m).bevsOf (.relaying (forward maxOutput x ends)))
  unfold closePartner
  rw [hread, ok_bind,
    Loop.outputLength_live ((Layout.overlay_bevs x.other).trans hlive),
    ok_bind, if_neg hlength, Layout.overlay_free hlive,
    Function.update_idem]

include hlinked in
theorem evEventCb_relaying_fatal {what : What} (hfatal : what.Fatal)
    (x : Side) :
    evEventCb maxOutput ((place.layout m).bufferAt x) what
        (some (.evContext (place.contextAt x)))
        ((place.layout m).relayingLoop background ends sockets) =
      .ok ((place.layout m).embed background
        { phase := finish maxOutput x ends, sockets := sockets }) := by
  have hbefore : Linked place
      ((place.layout m).relayingLoop background ends sockets).memory := hlinked
  have htarget := getTargetBuffer_linked hbefore x
  have hself : (place.layout m).bevsOf (.relaying (forward maxOutput x ends)) x =
      .live ((place.layout m).relayingBev x (forward maxOutput x ends x)) := rfl
  unfold evEventCb defaultEventCb
  rw [derefContext_linked hbefore, ok_bind, derefProxy_linked hbefore, ok_bind,
    ok_bind, htarget, ok_bind, if_pos hfatal]
  simp only
  unfold finish
  split
  · rename_i hfull
    refine Eq.trans (congrArg (· >>= _)
      (closePartner_flush hlinked background sockets x hfull)) ?_
    rw [ok_bind, Layout.overlay_free
      ((Function.update_of_ne (Side.ne_other x) _ _).trans hself)]
    exact congrArg Except.ok
      ((place.layout m).survivor_of_update background sockets x rfl _)
  · rename_i hempty
    refine Eq.trans (congrArg (· >>= _)
      (closePartner_free hlinked background sockets x (not_not.mp hempty))) ?_
    rw [ok_bind, Layout.overlay_free
      ((Function.update_of_ne (Side.ne_other x) _ _).trans hself)]
    exact congrArg Except.ok
      ((place.layout m).closed_of_update background sockets x rfl)

theorem evEventCb_not_fatal {s : World ptr}
    (h : Linked place s.memory) {what : What} (hnot : ¬ what.Fatal) (b : ptr)
    (x : Side) :
    evEventCb maxOutput b what (some (.evContext (place.contextAt x))) s =
      .ok s := by
  unfold evEventCb defaultEventCb
  rw [derefContext_linked h, ok_bind, derefProxy_linked h, ok_bind, ok_bind,
    getTargetBuffer_linked h, ok_bind, if_neg hnot]
  rfl

end Relaying

/-!
## Callbacks of the survivor
-/

section Closing

variable {place : Allocation ptr} {m : Memory ptr} (hlinked : Linked place m)
  (background : World ptr) {maxOutput : Nat} (y : Side)
  (sockets : Side -> Socket)

theorem closeOnFinishedWritecb_survivor (c : Channel)
    (ctx : Option (VoidPtr ptr)) :
    closeOnFinishedWritecb ((place.layout m).bufferAt y) ctx
        ((place.layout m).survivorLoop background y sockets
          ((place.layout m).closingBev y c)) =
      .ok ((place.layout m).embed background
        { phase := if c.output.length = 0 then .closed else .closing y c
          sockets := sockets }) := by
  unfold closeOnFinishedWritecb
  rw [Loop.outputLength_live ((place.layout m).survivor_live background y
    sockets ((place.layout m).closingBev y c)), ok_bind]
  by_cases hempty : c.output.length = 0
  · have hbev : ((place.layout m).closingBev y c).output.length = 0 := hempty
    rw [if_pos hbev, if_pos hempty]
    exact (place.layout m).free_survivor background y sockets _
  · have hbev : ¬ ((place.layout m).closingBev y c).output.length = 0 := hempty
    rw [if_neg hbev, if_neg hempty]
    rfl

omit [DecidableEq ptr] in
include hlinked in
theorem getTargetBuffer_survivor
    (bev : Bufferevent DataCb EventCb (VoidPtr ptr)) :
    getTargetBuffer (place.contextOf y.other)
        ((place.layout m).survivorLoop background y sockets bev) =
      .ok (some ((place.layout m).bufferAt y)) := by
  have hmemory : Linked place
      ((place.layout m).survivorLoop background y sockets bev).memory := hlinked
  have htarget := getTargetBuffer_linked hmemory y.other
  rw [Side.other_other] at htarget
  exact htarget

include hlinked in
theorem exists_evReadCb_survivor
    (bev : Bufferevent DataCb EventCb (VoidPtr ptr)) :
    exists bev', evReadCb maxOutput ((place.layout m).bufferAt y)
        (some (.evContext (place.contextAt y.other)))
        ((place.layout m).survivorLoop background y sockets bev) =
      .ok ((place.layout m).survivorLoop background y sockets bev') ∧
      bev'.output = bev.output ++ bev.input := by
  have hmemory : forall b, Linked place
      ((place.layout m).survivorLoop background y sockets b).memory :=
    fun _ => hlinked
  have hlive := (place.layout m).survivor_live background y sockets
  unfold evReadCb defaultReadCb Loop.evbufferAddBuffer Loop.buffereventSetcb
    Loop.buffereventSetwatermarkWrite Loop.buffereventDisable
  rw [derefContext_linked (hmemory bev), ok_bind,
    derefProxy_linked (hmemory bev), ok_bind,
    getTargetBuffer_survivor hlinked background y sockets bev, ok_bind,
    Loop.inputLength_live (hlive bev), ok_bind]
  simp only
  rw [Heap.read_live _ (hlive bev), ok_bind, Layout.modifyBev_survivor, ok_bind,
    Layout.modifyBev_survivor, ok_bind, Loop.outputLength_live (hlive _),
    ok_bind]
  split
  · rw [getPartner_linked (hmemory _), ok_bind, Layout.modifyBev_survivor,
      ok_bind, Layout.modifyBev_survivor, ok_bind, Layout.modifyBev_survivor]
    exact ⟨_, rfl, rfl⟩
  · exact ⟨_, rfl, rfl⟩

include hlinked in
theorem evEventCb_survivor {what : What} (hfatal : what.Fatal)
    (bev : Bufferevent DataCb EventCb (VoidPtr ptr)) :
    evEventCb maxOutput ((place.layout m).bufferAt y) what
        (some (.evContext (place.contextAt y.other)))
        ((place.layout m).survivorLoop background y sockets bev) =
      (do
        let s <- closePartner maxOutput ((place.layout m).bufferAt y)
          ((place.layout m).bufferAt y)
          (some (.evContext (place.contextAt y.other)))
          ((place.layout m).survivorLoop background y sockets bev)
        s.buffereventFree ((place.layout m).bufferAt y)) := by
  have hmemory : Linked place
      ((place.layout m).survivorLoop background y sockets bev).memory := hlinked
  unfold evEventCb defaultEventCb
  rw [derefContext_linked hmemory, ok_bind, derefProxy_linked hmemory, ok_bind,
    ok_bind, getTargetBuffer_survivor hlinked background y sockets bev, ok_bind,
    if_pos hfatal]

include hlinked in
theorem evEventCb_survivor_flushing {what : What} (hfatal : what.Fatal)
    (bev : Bufferevent DataCb EventCb (VoidPtr ptr))
    (h : bev.output ++ bev.input ≠ []) :
    evEventCb maxOutput ((place.layout m).bufferAt y) what
        (some (.evContext (place.contextAt y.other)))
        ((place.layout m).survivorLoop background y sockets bev) =
      .ok ((place.layout m).embed background
        { phase := .closed, sockets := sockets }) := by
  rcases exists_evReadCb_survivor hlinked background y sockets bev with
    ⟨bev', hread, houtput⟩
  have hlength : bev'.output.length ≠ 0 := by
    rw [houtput]
    exact fun hzero => h (List.eq_nil_of_length_eq_zero hzero)
  rw [evEventCb_survivor hlinked background y sockets hfatal]
  unfold closePartner Loop.buffereventSetcb Loop.buffereventDisable
  rw [hread, ok_bind, Loop.outputLength_live
      ((place.layout m).survivor_live background y sockets bev'), ok_bind,
    if_pos hlength, Layout.modifyBev_survivor, ok_bind,
    Layout.modifyBev_survivor, ok_bind]
  exact (place.layout m).free_survivor background y sockets _

include hlinked in
/-- A survivor that ends with both buffers empty is freed as the target of its
context and then as the bufferevent of the event. -/
theorem evEventCb_survivor_drained {what : What} (hfatal : what.Fatal)
    (bev : Bufferevent DataCb EventCb (VoidPtr ptr))
    (h : bev.output ++ bev.input = []) :
    evEventCb maxOutput ((place.layout m).bufferAt y) what
        (some (.evContext (place.contextAt y.other)))
        ((place.layout m).survivorLoop background y sockets bev) =
      .error (.doubleFree .bufferevent ((place.layout m).bufferAt y)) := by
  rcases exists_evReadCb_survivor hlinked background y sockets bev with
    ⟨bev', hread, houtput⟩
  have hlength : ¬ bev'.output.length ≠ 0 := by
    rw [houtput, h]
    exact not_not.mpr rfl
  rw [evEventCb_survivor hlinked background y sockets hfatal]
  unfold closePartner
  rw [hread, ok_bind, Loop.outputLength_live
      ((place.layout m).survivor_live background y sockets bev'), ok_bind,
    if_neg hlength, Layout.free_survivor, ok_bind]
  exact Layout.overlay_free_freed rfl

end Closing

/-!
## Steps

Two kinds of step are not those of the relay: a read callback that queues too
much, and the end of a survivor whose buffers are empty.
-/

def Allocation.machine (place : Allocation ptr) (maxOutput : Nat) :
    Machine (World ptr) (Action Side) (Fault Resource ptr) :=
  (Loop.machine (program maxOutput)).comap (Action.map place.bufferAt)

/-- A read callback runs that brings the queue of the other side to the
limit. -/
def Chokes (maxOutput : Nat) (r : Relay.State) (a : Action Side) : Prop :=
  a.occurrence = .deferredRead ∧ exists ends, r.phase = .relaying ends ∧
    (ends a.target).readcbPending = true ∧
    maxOutput ≤ ((ends a.target.other).output ++
      (ends a.target).input).length

/-- An end of file or an error is handled for a survivor that has nothing in
its buffers. -/
def EndsDrained (r : Relay.State) (a : Action Side) : Prop :=
  a.occurrence = .deferredEvent ∧ exists c, r.phase = .closing a.target c ∧
    c.eventcbPending.Fatal ∧ c.output ++ c.input = []

def Unchoked (r : Relay.State) : Prop :=
  forall ends, r.phase = .relaying ends -> forall x, (ends x).draining = false

section Steps

variable {place : Allocation ptr} {m : Memory ptr} (hlinked : Linked place m)
  (background : World ptr) {maxOutput : Nat}

theorem moved_taken_length (ends : Side -> Endpoint) (x : Side) :
    (moved x (Function.update ends x ((ends x).onChannel Channel.takeReadcb))
      x.other).output.length =
      ((ends x.other).output ++ (ends x).input).length := by
  rw [moved_other, Function.update_self,
    Function.update_of_ne (Side.other_ne x)]
  rfl

include hlinked in
theorem step_relaying {ends : Side -> Endpoint} (sockets : Side -> Socket)
    {x : Side} {o : Occurrence}
    (hchoke : ¬ Chokes maxOutput
      { phase := .relaying ends, sockets := sockets } ⟨x, o⟩)
    (hopen : (ends x).draining = false) :
    Loop.step (program maxOutput)
        ((place.layout m).relayingLoop background ends sockets)
        { target := (place.layout m).bufferAt x, occurrence := o } =
      .ok ((place.layout m).embed background
        (stepRelaying maxOutput ends sockets x o)) := by
  apply (place.layout m).step_relaying
  case hread =>
    intro ho hpending
    apply evReadCb_forward hlinked
    rw [moved_taken_length]
    exact fun hfull => hchoke ⟨ho, ends, rfl, hpending, hfull⟩
  case hwrite =>
    intro _ hdraining _
    rw [hopen] at hdraining
    cases hdraining
  case hevent =>
    intro _ _
    simp only [stepRelaying]
    split
    · rename_i hfatal
      exact evEventCb_relaying_fatal hlinked background sockets hfatal x
    · rename_i hnot
      exact evEventCb_not_fatal hlinked hnot _ x

include hlinked in
theorem step_closing {y : Side} {c : Channel} (sockets : Side -> Socket)
    {o : Occurrence}
    (hdrained : ¬ EndsDrained
      { phase := .closing y c, sockets := sockets } ⟨y, o⟩) :
    Loop.step (program maxOutput)
        ((place.layout m).embed background
          { phase := .closing y c, sockets := sockets })
        { target := (place.layout m).bufferAt y, occurrence := o } =
      .ok ((place.layout m).embed background (stepClosing y c sockets o)) := by
  apply (place.layout m).step_closing
  case hwrite =>
    intro _ hpending
    refine Eq.trans (closeOnFinishedWritecb_survivor background y sockets
      c.takeWritecb ((place.layout m).closingArg y)) ?_
    simp only [stepClosing]
    rw [if_pos hpending]
    by_cases hempty : c.output.length = 0
    · have htaken : c.takeWritecb.output.length = 0 := hempty
      rw [if_pos htaken, if_pos hempty]
    · have htaken : ¬ c.takeWritecb.output.length = 0 := hempty
      rw [if_neg htaken, if_neg hempty]
  case hevent =>
    intro ho _
    simp only [stepClosing]
    split
    · rename_i hfatal
      apply evEventCb_survivor_flushing hlinked background y sockets hfatal
      exact fun hempty => hdrained ⟨ho, c, rfl, hfatal, hempty⟩
    · rename_i hnot
      exact evEventCb_not_fatal hlinked hnot _ y.other

include hlinked in
theorem step_embed {r : Relay.State} {a : Action Side}
    (hchoke : ¬ Chokes maxOutput r a) (hdrained : ¬ EndsDrained r a)
    (hopen : Unchoked r) :
    (place.machine maxOutput).step ((place.layout m).embed background r) a =
      .ok ((place.layout m).embed background (Relay.step maxOutput r a)) := by
  rcases r with ⟨phase, sockets⟩
  rcases a with ⟨x, o⟩
  cases phase with
  | relaying ends =>
      exact step_relaying hlinked background sockets hchoke (hopen ends rfl x)
  | closing y c =>
      by_cases htarget : x = y
      · subst htarget
        simp only [Relay.step, if_true]
        exact step_closing hlinked background sockets hdrained
      · simp only [Relay.step, if_neg htarget]
        exact (place.layout m).step_gone_endpoint background (if_neg htarget)
  | closed => exact (place.layout m).step_gone_endpoint background rfl

include hlinked in
theorem step_choked {ends : Side -> Endpoint} (sockets : Side -> Socket)
    {x : Side} (hpending : (ends x).readcbPending = true)
    (h : maxOutput ≤ ((ends x.other).output ++ (ends x).input).length) :
    (place.machine maxOutput).step
        ((place.layout m).relayingLoop background ends sockets)
        ⟨x, .deferredRead⟩ =
      .ok (chokedLoop place m background (forward maxOutput x
        (Function.update ends x ((ends x).onChannel Channel.takeReadcb)))
        sockets x) := by
  have hlive := (place.layout m).relaying_live background ends sockets x
  have htaken := (place.layout m).setBev_relaying background ends sockets x
    ((ends x).onChannel Channel.takeReadcb)
  have hfull : maxOutput ≤ (moved x (Function.update ends x
      ((ends x).onChannel Channel.takeReadcb)) x.other).output.length := by
    rw [moved_taken_length]
    exact h
  rw [← evReadCb_choke hlinked background sockets x hfull, ← htaken]
  have hbev : ((place.layout m).relayingBev x (ends x)).readcbPending =
      true := hpending
  show Loop.step (program maxOutput)
    ((place.layout m).relayingLoop background ends sockets)
    { target := (place.layout m).bufferAt x, occurrence := .deferredRead } = _
  rw [Loop.step_live .deferredRead hlive,
    Loop.stepLive_deferredRead rfl hbev]
  rfl

include hlinked in
theorem step_endsDrained {r : Relay.State} {a : Action Side}
    (h : EndsDrained r a) :
    (place.machine maxOutput).step ((place.layout m).embed background r) a =
      .error (.doubleFree .bufferevent (place.bufferAt a.target)) := by
  rcases r with ⟨phase, sockets⟩
  rcases a with ⟨y, o⟩
  rcases h with ⟨ho, c, hphase, hfatal, hempty⟩
  have hdeferred : o = .deferredEvent := ho
  have hclosing : phase = .closing y c := hphase
  subst hdeferred hclosing
  have hzero : ((place.layout m).closingBev y c).eventcbPending ≠ 0 := by
    intro hzero
    have hc : c.eventcbPending = 0 := hzero
    rw [hc] at hfatal
    exact What.not_fatal_zero hfatal
  show Loop.step (program maxOutput)
    ((place.layout m).survivorLoop background y sockets
      ((place.layout m).closingBev y c))
    { target := (place.layout m).bufferAt y, occurrence := .deferredEvent } = _
  rw [Loop.step_live .deferredEvent ((place.layout m).survivor_live background
      y sockets ((place.layout m).closingBev y c)),
    Loop.stepLive_deferredEvent rfl hzero, Layout.setBev_survivor]
  exact evEventCb_survivor_drained hlinked background y sockets hfatal _ hempty

end Steps

end TcpProxy
end NetExperiment
