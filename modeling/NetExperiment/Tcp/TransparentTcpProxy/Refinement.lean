import NetExperiment.Relay.Embedding
import NetExperiment.Tcp.TransparentTcpProxy.Core

/-!
# The proxy as a relay

Every step of a started pair of proxy objects is the step of the relay, as long
as no end of file or error is handled for the survivor of the pair.  In that one
case the callback deletes the object of the other side a second time.
-/

namespace NetExperiment
namespace TransparentTcpProxy

open Foundation
open Libevent
open Relay

variable {ptr : Type} [DecidableEq ptr]

/-!
## Pairs of objects
-/

def Allocation.Distinct (place : Allocation ptr) : Prop :=
  place.proxy ≠ place.partner ∧ place.buffer ≠ place.partnerBuffer

instance (place : Allocation ptr) : Decidable place.Distinct :=
  inferInstanceAs (Decidable (_ ∧ _))

def Allocation.objectAt (place : Allocation ptr) : Side -> ptr
  | .accepted => place.proxy
  | .upstream => place.partner

def Allocation.bufferAt (place : Allocation ptr) : Side -> ptr
  | .accepted => place.buffer
  | .upstream => place.partnerBuffer

structure Pair (place : Allocation ptr) where
  distinct : place.Distinct
  proxy : Side -> Proxy ptr
  partner_eq : forall x,
    (proxy x).partner = .assigned (some (place.objectAt x.other))
  buffer_eq : forall x, (proxy x).buffer = .assigned (some (place.bufferAt x))

omit [DecidableEq ptr] in
theorem Pair.object_injective {place : Allocation ptr} (pair : Pair place) :
    Function.Injective place.objectAt := by
  intro x z h
  rcases Side.eq_or_eq_other x z with hz | hz
  · exact hz.symm
  · subst hz
    cases x with
    | accepted => exact absurd h pair.distinct.1
    | upstream => exact absurd h.symm pair.distinct.1

omit [DecidableEq ptr] in
theorem Pair.buffer_injective {place : Allocation ptr} (pair : Pair place) :
    Function.Injective place.bufferAt := by
  intro x z h
  rcases Side.eq_or_eq_other x z with hz | hz
  · exact hz.symm
  · subst hz
    cases x with
    | accepted => exact absurd h pair.distinct.2
    | upstream => exact absurd h.symm pair.distinct.2

/-!
## The memory of a pair

The four pointers of a pair are looked at by side.  Whatever else is in memory
is a background that stays as it is.
-/

noncomputable def overlay {place : Allocation ptr} (_ : Pair place)
    (background : World ptr)
    (bevs : Side -> Cell (Bufferevent DataCb EventCb ptr))
    (sockets : Side -> Socket) (objects : Side -> Cell (Proxy ptr)) :
    World ptr where
  bevs := Function.extend place.bufferAt bevs background.bevs
  sockets := Function.extend place.bufferAt sockets background.sockets
  memory := Function.extend place.objectAt objects background.memory

section Overlay

variable {place : Allocation ptr} {pair : Pair place} {background : World ptr}
  {bevs : Side -> Cell (Bufferevent DataCb EventCb ptr)}
  {sockets : Side -> Socket} {objects : Side -> Cell (Proxy ptr)}

omit [DecidableEq ptr] in
@[simp] theorem overlay_bevs (x : Side) :
    (overlay pair background bevs sockets objects).bevs (place.bufferAt x) =
      bevs x :=
  pair.buffer_injective.extend_apply bevs background.bevs x

omit [DecidableEq ptr] in
@[simp] theorem overlay_sockets (x : Side) :
    (overlay pair background bevs sockets objects).sockets (place.bufferAt x) =
      sockets x :=
  pair.buffer_injective.extend_apply sockets background.sockets x

omit [DecidableEq ptr] in
@[simp] theorem overlay_memory (x : Side) :
    (overlay pair background bevs sockets objects).memory (place.objectAt x) =
      objects x :=
  pair.object_injective.extend_apply objects background.memory x

omit [DecidableEq ptr] in
theorem overlay_deref {x : Side} {o : Proxy ptr} (h : objects x = .live o) :
    deref (some (place.objectAt x))
      (overlay pair background bevs sockets objects) = .ok o :=
  Heap.read_live _ (by rw [overlay_memory, h])

theorem overlay_deleteProxy {x : Side}
    {bev : Bufferevent DataCb EventCb ptr}
    (hobject : objects x = .live (pair.proxy x)) (hbev : bevs x = .live bev) :
    deleteProxy (some (place.objectAt x))
        (overlay pair background bevs sockets objects) =
      .ok (overlay pair background (Function.update bevs x .freed) sockets
        (Function.update objects x .freed)) := by
  have hlive : (overlay pair background bevs sockets objects).bevs
      (place.bufferAt x) = .live bev := by rw [overlay_bevs, hbev]
  rw [deleteProxy_live (by rw [overlay_memory, hobject]) (pair.buffer_eq x)
    hlive]
  unfold overlay
  simp only [Heap.update_extend pair.buffer_injective,
    Heap.update_extend pair.object_injective]

theorem overlay_deleteProxy_freed {x : Side} (h : objects x = .freed) :
    deleteProxy (some (place.objectAt x))
        (overlay pair background bevs sockets objects) =
      .error (.doubleFree .object (place.objectAt x)) :=
  deleteProxy_freed (by rw [overlay_memory, h])

end Overlay

/-!
## The states of a pair
-/

def relayingBev (place : Allocation ptr) (x : Side) (e : Endpoint) :
    Bufferevent DataCb EventCb ptr where
  toChannel := e.toChannel
  readcb := some .readcb
  writecb := if e.draining then some .drainedWritecb else none
  eventcb := some .eventcb
  cbarg := some (place.objectAt x.other)

def closingBev (place : Allocation ptr) (y : Side) (c : Channel) :
    Bufferevent DataCb EventCb ptr where
  toChannel := c
  readcb := none
  writecb := some .closeOnFinishedWritecb
  eventcb := some .eventcb
  cbarg := some (place.objectAt y)

def bevsOf (place : Allocation ptr) :
    Phase -> Side -> Cell (Bufferevent DataCb EventCb ptr)
  | .relaying ends => fun x => .live (relayingBev place x (ends x))
  | .closing y c => fun x =>
      if x = y then .live (closingBev place y c) else .freed
  | .closed => fun _ => .freed

def objectsOf {place : Allocation ptr} (pair : Pair place) :
    Phase -> Side -> Cell (Proxy ptr)
  | .relaying _ => fun x => .live (pair.proxy x)
  | .closing y _ => fun x => if x = y then .live (pair.proxy x) else .freed
  | .closed => fun _ => .freed

/-- The memory of the program when the pair is in a state of the relay. -/
noncomputable def embed {place : Allocation ptr} (pair : Pair place)
    (background : World ptr)
    (r : Relay.State) : World ptr :=
  overlay pair background (bevsOf place r.phase) r.sockets
    (objectsOf pair r.phase)

/-- The pair as a layout of the relay.  Its memory are the two objects. -/
noncomputable def Pair.layout {place : Allocation ptr} (pair : Pair place)
    (background : World ptr) :
    Layout ptr DataCb EventCb ptr (Heap ptr (Proxy ptr)) where
  bufferAt := place.bufferAt
  injective := pair.buffer_injective
  readcb := .readcb
  drainedWritecb := .drainedWritecb
  closeOnFinishedWritecb := .closeOnFinishedWritecb
  eventcb := .eventcb
  relayingArg := fun x => some (place.objectAt x.other)
  closingArg := fun y => some (place.objectAt y)
  relayingMemory := Function.extend place.objectAt
    (fun x => .live (pair.proxy x)) background.memory
  closingMemory := fun y => Function.extend place.objectAt
    (fun x => if x = y then .live (pair.proxy x) else .freed) background.memory
  closedMemory := Function.extend place.objectAt (fun _ => .freed)
    background.memory

omit [DecidableEq ptr] in
theorem layout_embed {place : Allocation ptr} (pair : Pair place)
    (background : World ptr) (r : Relay.State) :
    (pair.layout background).embed background r = embed pair background r := by
  rcases r with ⟨phase, sockets⟩
  cases phase <;> rfl

section Relaying

variable {place : Allocation ptr} (pair : Pair place) (background : World ptr)
  (maxOutput : Nat)
  (ends : Side -> Endpoint) (sockets : Side -> Socket)

noncomputable abbrev relayingWorld : World ptr :=
  embed pair background { phase := .relaying ends, sockets := sockets }

theorem onChannel_relaying (x : Side) (f : Channel -> Channel) :
    (relayingWorld pair background ends sockets).modifyBev (place.bufferAt x)
        (Bufferevent.onChannel f) =
      .ok (relayingWorld pair background
        (Function.update ends x ((ends x).onChannel f)) sockets) :=
  (pair.layout background).onChannel_relaying background ends sockets x f

theorem setcb_relaying (x : Side) (draining : Bool) :
    (relayingWorld pair background ends sockets).buffereventSetcb
        (place.bufferAt x) (some .readcb)
        (if draining then some .drainedWritecb else none) (some .eventcb)
        (some (place.objectAt x.other)) =
      .ok (relayingWorld pair background
        (Function.update ends x { ends x with draining := draining })
        sockets) :=
  (pair.layout background).setcb_relaying background ends sockets x draining

omit [DecidableEq ptr] in
theorem deref_relaying (x : Side) :
    deref (some (place.objectAt x))
      (relayingWorld pair background ends sockets) = .ok (pair.proxy x) :=
  overlay_deref rfl

omit [DecidableEq ptr] in
theorem outputLength_relaying (x : Side) :
    (relayingWorld pair background ends sockets).outputLength
      (place.bufferAt x) = .ok (ends x).output.length :=
  (pair.layout background).outputLength_relaying background ends sockets x

omit [DecidableEq ptr] in
theorem inputLength_relaying (x : Side) :
    (relayingWorld pair background ends sockets).inputLength
      (place.bufferAt x) = .ok (ends x).input.length :=
  (pair.layout background).inputLength_relaying background ends sockets x

theorem evbufferAddBuffer_relaying (x : Side) :
    (relayingWorld pair background ends sockets).evbufferAddBuffer
        (place.bufferAt x.other) (place.bufferAt x) =
      .ok (relayingWorld pair background (moved x ends) sockets) :=
  (pair.layout background).evbufferAddBuffer_relaying background ends sockets x

theorem readcb_relaying (x : Side) :
    readcb maxOutput (place.bufferAt x) (some (place.objectAt x.other))
        (relayingWorld pair background ends sockets) =
      .ok (relayingWorld pair background (forward maxOutput x ends)
        sockets) := by
  unfold readcb
  rw [inputLength_relaying, ok_bind, deref_relaying, ok_bind,
    pair.buffer_eq, Member.get_assigned, ok_bind]
  simp only
  rw [evbufferAddBuffer_relaying, ok_bind, outputLength_relaying, ok_bind,
    pair.partner_eq, Side.other_other, Member.get_assigned, ok_bind]
  unfold forward
  split
  · -- the other side gets the drained callback, with this side as argument
    have hpause := (pair.layout background).pause_relaying background
      (moved x ends) sockets maxOutput x
    simp only [Pair.layout, Side.other_other] at hpause
    exact hpause
  · rfl

theorem drainedWritecb_relaying (y : Side) :
    drainedWritecb (place.bufferAt y) (some (place.objectAt y.other))
        (relayingWorld pair background ends sockets) =
      .ok (relayingWorld pair background (resume y ends) sockets) := by
  have hsetcb := setcb_relaying pair background ends sockets y false
  simp only [Bool.false_eq_true, if_false] at hsetcb
  unfold drainedWritecb Loop.buffereventSetwatermarkWrite
    Loop.buffereventEnable
  rw [hsetcb, ok_bind, onChannel_relaying, ok_bind, deref_relaying, ok_bind,
    pair.buffer_eq, Member.get_assigned, ok_bind]
  simp only
  rw [onChannel_relaying]
  unfold resume
  simp [Endpoint.onChannel]

theorem closePartner_flush (x : Side)
    (h : (forward maxOutput x ends x.other).output.length ≠ 0) :
    closePartner maxOutput (place.bufferAt x) (some (place.objectAt x.other))
        (relayingWorld pair background ends sockets) =
      .ok (overlay pair background
        (Function.update (bevsOf place (.relaying (forward maxOutput x ends)))
          x.other (.live (closingBev place x.other
            ((forward maxOutput x ends x.other).disable true false))))
        sockets (objectsOf pair (.relaying (forward maxOutput x ends)))) := by
  unfold closePartner bufferOf
  rw [readcb_relaying, ok_bind, deref_relaying, ok_bind, pair.buffer_eq,
    Member.get_assigned, ok_bind]
  simp only [ok_bind]
  rw [outputLength_relaying, ok_bind, if_pos h]
  exact (pair.layout background).flush_relaying background
    (forward maxOutput x ends) sockets x

theorem closePartner_delete (x : Side)
    (h : (forward maxOutput x ends x.other).output.length = 0) :
    closePartner maxOutput (place.bufferAt x) (some (place.objectAt x.other))
        (relayingWorld pair background ends sockets) =
      .ok (overlay pair background
        (Function.update (bevsOf place (.relaying (forward maxOutput x ends)))
          x.other .freed)
        sockets
        (Function.update (objectsOf pair (.relaying (forward maxOutput x ends)))
          x.other .freed)) := by
  have hlive : bevsOf place (.relaying (forward maxOutput x ends)) x.other =
      .live (relayingBev place x.other (forward maxOutput x ends x.other)) :=
    rfl
  unfold closePartner bufferOf
  rw [readcb_relaying, ok_bind, deref_relaying, ok_bind, pair.buffer_eq,
    Member.get_assigned, ok_bind]
  simp only [ok_bind]
  rw [outputLength_relaying, ok_bind, if_neg (not_not.mpr h)]
  exact overlay_deleteProxy rfl hlive

theorem eventcb_relaying_fatal {what : What} (hfatal : what.Fatal)
    (x : Side) :
    eventcb maxOutput (place.bufferAt x) what (some (place.objectAt x.other))
        (relayingWorld pair background ends sockets) =
      .ok (embed pair background
        { phase := finish maxOutput x ends, sockets := sockets }) := by
  have hlive : bevsOf place (.relaying (forward maxOutput x ends)) x =
      .live (relayingBev place x (forward maxOutput x ends x)) := rfl
  simp only [eventcb, partnerOf, Option.isSome_some, if_true, if_pos hfatal]
  rw [deref_relaying, ok_bind, pair.partner_eq, Side.other_other]
  simp only [pure_eq_ok, ok_bind, Member.get_assigned]
  unfold finish
  split
  · rename_i hfull
    rw [closePartner_flush pair background maxOutput ends sockets x hfull,
      ok_bind, overlay_deleteProxy rfl
        ((Function.update_of_ne (Side.ne_other x) _ _).trans hlive)]
    unfold embed
    congr 2
    · apply Side.funext_other x
      · simp [bevsOf]
      · simp [bevsOf]
    · apply Side.funext_other x
      · simp [objectsOf]
      · simp [objectsOf]
  · rename_i hempty
    rw [closePartner_delete pair background maxOutput ends sockets x
        (not_not.mp hempty), ok_bind, overlay_deleteProxy
        (Function.update_of_ne (Side.ne_other x) _ _)
        ((Function.update_of_ne (Side.ne_other x) _ _).trans hlive)]
    unfold embed
    congr 2
    · apply Side.funext_other x
      · simp [bevsOf]
      · simp [bevsOf]
    · apply Side.funext_other x
      · simp [objectsOf]
      · simp [objectsOf]

theorem eventcb_relaying_not_fatal {what : What}
    (h : ¬ what.Fatal) (x : Side) :
    eventcb maxOutput (place.bufferAt x) what (some (place.objectAt x.other))
        (relayingWorld pair background ends sockets) =
      .ok (relayingWorld pair background ends sockets) := by
  simp only [eventcb, partnerOf, if_neg h]
  rw [deref_relaying]
  rfl

theorem step_relayingWorld (x : Side) (o : Occurrence) :
    Loop.step (program maxOutput) (relayingWorld pair background ends sockets)
        { target := place.bufferAt x, occurrence := o } =
      .ok (embed pair background
        (stepRelaying maxOutput ends sockets x o)) := by
  rw [← layout_embed pair background (stepRelaying maxOutput ends sockets x o)]
  apply (pair.layout background).step_relaying
  case hread =>
    intro _ _
    exact readcb_relaying pair background maxOutput _ sockets x
  case hwrite =>
    intro _ _ _
    exact drainedWritecb_relaying pair background _ sockets x
  case hevent =>
    intro _ _
    rw [layout_embed]
    simp only [stepRelaying]
    split
    · rename_i hfatal
      exact eventcb_relaying_fatal pair background maxOutput _ sockets hfatal x
    · rename_i hnot
      exact eventcb_relaying_not_fatal pair background maxOutput _ sockets
        hnot x

end Relaying

section Closing

variable {place : Allocation ptr} (pair : Pair place) (background : World ptr)
  (maxOutput : Nat)
  (y : Side) (sockets : Side -> Socket)

noncomputable def survivorWorld (bev : Bufferevent DataCb EventCb ptr) :
    World ptr :=
  overlay pair background (fun x => if x = y then .live bev else .freed) sockets
    (fun x => if x = y then .live (pair.proxy x) else .freed)

variable (bev : Bufferevent DataCb EventCb ptr)

omit [DecidableEq ptr] in
theorem survivorWorld_bevs :
    (survivorWorld pair background y sockets bev).bevs (place.bufferAt y) =
      .live bev :=
  (overlay_bevs y).trans (if_pos rfl)

theorem modifyBev_survivor
    (f : Bufferevent DataCb EventCb ptr -> Bufferevent DataCb EventCb ptr) :
    (survivorWorld pair background y sockets bev).modifyBev (place.bufferAt y)
        f =
      .ok (survivorWorld pair background y sockets (f bev)) :=
  (pair.layout background).modifyBev_survivor background y sockets bev f

omit [DecidableEq ptr] in
theorem deref_survivor :
    deref (some (place.objectAt y))
        (survivorWorld pair background y sockets bev) =
      .ok (pair.proxy y) :=
  overlay_deref (if_pos rfl)

theorem deleteProxy_survivor :
    deleteProxy (some (place.objectAt y))
        (survivorWorld pair background y sockets bev) =
      .ok (embed pair background { phase := .closed, sockets := sockets }) := by
  unfold survivorWorld
  rw [overlay_deleteProxy (if_pos rfl) (if_pos rfl)]
  unfold embed
  congr 2
  · apply Side.funext_other y
    · simp [bevsOf]
    · simp [bevsOf]
  · apply Side.funext_other y
    · simp [objectsOf]
    · simp [objectsOf]

theorem deleteProxy_other :
    deleteProxy (some (place.objectAt y.other))
        (survivorWorld pair background y sockets bev) =
      .error (.doubleFree .object (place.objectAt y.other)) :=
  overlay_deleteProxy_freed (if_neg (Side.other_ne y))

theorem readcb_survivor :
    exists bev', readcb maxOutput (place.bufferAt y) (some (place.objectAt y))
        (survivorWorld pair background y sockets bev) =
      .ok (survivorWorld pair background y sockets bev') := by
  unfold readcb Loop.evbufferAddBuffer Loop.buffereventSetcb
    Loop.buffereventSetwatermarkWrite Loop.buffereventDisable
  rw [Loop.inputLength_live (survivorWorld_bevs pair background y sockets bev),
    ok_bind,
    deref_survivor, ok_bind, pair.buffer_eq, Member.get_assigned, ok_bind]
  simp only
  rw [Heap.read_live _ (survivorWorld_bevs pair background y sockets bev),
    ok_bind,
    modifyBev_survivor, ok_bind, modifyBev_survivor, ok_bind,
    Loop.outputLength_live (survivorWorld_bevs pair background y sockets _),
    ok_bind]
  split
  · rw [pair.partner_eq, Member.get_assigned, ok_bind, modifyBev_survivor,
      ok_bind, modifyBev_survivor, ok_bind, modifyBev_survivor]
    exact ⟨_, rfl⟩
  · exact ⟨_, rfl⟩

/-- An end of file or an error of the survivor deletes the object of the other
side once more. -/
theorem eventcb_survivor_fatal {what : What} (hfatal : what.Fatal) :
    eventcb maxOutput (place.bufferAt y) what (some (place.objectAt y))
        (survivorWorld pair background y sockets bev) =
      .error (.doubleFree .object (place.objectAt y.other)) := by
  rcases readcb_survivor pair background maxOutput y sockets bev with
    ⟨bev', hread⟩
  simp only [eventcb, partnerOf, closePartner, bufferOf, Option.isSome_some,
    if_true, if_pos hfatal]
  unfold Loop.buffereventSetcb Loop.buffereventDisable
  rw [deref_survivor, ok_bind, pair.partner_eq, hread]
  simp only [pure_eq_ok, ok_bind, Member.get_assigned]
  rw [deref_survivor, ok_bind, pair.buffer_eq, Member.get_assigned, ok_bind]
  simp only [ok_bind]
  rw [Loop.outputLength_live
      (survivorWorld_bevs pair background y sockets bev'),
    ok_bind]
  split
  · rw [modifyBev_survivor, ok_bind, modifyBev_survivor, ok_bind]
    exact deleteProxy_other pair background y sockets _
  · rw [deleteProxy_survivor, ok_bind]
    exact overlay_deleteProxy_freed rfl

theorem eventcb_survivor_not_fatal {what : What} (h : ¬ what.Fatal) :
    eventcb maxOutput (place.bufferAt y) what (some (place.objectAt y))
        (survivorWorld pair background y sockets bev) =
      .ok (survivorWorld pair background y sockets bev) := by
  simp only [eventcb, partnerOf, if_neg h]
  rw [deref_survivor]
  rfl

theorem closeOnFinishedWritecb_survivor (c : Channel) :
    closeOnFinishedWritecb (place.bufferAt y) (some (place.objectAt y))
        (survivorWorld pair background y sockets (closingBev place y c)) =
      .ok (embed pair background
        { phase := if c.output.length = 0 then .closed else .closing y c
          sockets := sockets }) := by
  unfold closeOnFinishedWritecb
  rw [Loop.outputLength_live
    (survivorWorld_bevs pair background y sockets (closingBev place y c)),
    ok_bind]
  by_cases hempty : c.output.length = 0
  · have hbev : (closingBev place y c).output.length = 0 := hempty
    rw [if_pos hbev, if_pos hempty, deleteProxy_survivor]
  · have hbev : ¬ (closingBev place y c).output.length = 0 := hempty
    rw [if_neg hbev, if_neg hempty]
    rfl

theorem step_closing (c : Channel) (o : Occurrence)
    (h : ¬ (o = .deferredEvent ∧ c.eventcbPending.Fatal)) :
    Loop.step (program maxOutput)
        (embed pair background { phase := .closing y c, sockets := sockets })
        { target := place.bufferAt y, occurrence := o } =
      .ok (embed pair background (stepClosing y c sockets o)) := by
  rw [← layout_embed pair background (stepClosing y c sockets o)]
  apply (pair.layout background).step_closing
  case hwrite =>
    intro _ hpending
    rw [layout_embed]
    refine Eq.trans (closeOnFinishedWritecb_survivor pair background y sockets
      c.takeWritecb) ?_
    simp only [stepClosing]
    rw [if_pos hpending]
    by_cases hempty : c.output.length = 0
    · have htaken : c.takeWritecb.output.length = 0 := hempty
      rw [if_pos htaken, if_pos hempty]
    · have htaken : ¬ c.takeWritecb.output.length = 0 := hempty
      rw [if_neg htaken, if_neg hempty]
  case hevent =>
    intro hevent _
    have hnot : ¬ c.eventcbPending.Fatal := fun hfatal => h ⟨hevent, hfatal⟩
    rw [layout_embed]
    simp only [stepClosing]
    rw [if_neg hnot]
    exact eventcb_survivor_not_fatal pair background maxOutput y sockets _ hnot

theorem step_closing_fatal (c : Channel) (h : c.eventcbPending.Fatal) :
    Loop.step (program maxOutput)
        (embed pair background { phase := .closing y c, sockets := sockets })
        { target := place.bufferAt y, occurrence := .deferredEvent } =
      .error (.doubleFree .object (place.objectAt y.other)) := by
  have hzero : (closingBev place y c).eventcbPending ≠ 0 := by
    intro hzero
    have hc : c.eventcbPending = 0 := hzero
    rw [hc] at h
    exact What.not_fatal_zero h
  have htaken : (survivorWorld pair background y sockets
      (closingBev place y c)).setBev (place.bufferAt y)
        (closingBev place y c.takeEventcb) =
      survivorWorld pair background y sockets
        (closingBev place y c.takeEventcb) :=
    (pair.layout background).setBev_survivor background y sockets _ _
  show Loop.step _ (survivorWorld pair background y sockets
    (closingBev place y c)) _ = _
  rw [Loop.step_live _ (survivorWorld_bevs pair background y sockets _),
    Loop.stepLive_deferredEvent rfl hzero]
  refine Eq.trans ?_ (eventcb_survivor_fatal pair background maxOutput y sockets
    (closingBev place y c.takeEventcb) h)
  rw [← htaken]
  rfl

end Closing

/-!
## Simulation

The one step that the program does not take over from the relay is an end of
file or an error delivered to the survivor of a pair.
-/

def Allocation.machine (place : Allocation ptr) (maxOutput : Nat) :
    Machine (World ptr) (Action Side) (Fault Resource ptr) :=
  (Loop.machine (program maxOutput)).comap (Action.map place.bufferAt)

def SurvivorEnds (r : Relay.State) (a : Action Side) : Prop :=
  a.occurrence = .deferredEvent ∧
    exists c, r.phase = .closing a.target c ∧ c.eventcbPending.Fatal

theorem step_embed {place : Allocation ptr} (pair : Pair place)
    (background : World ptr) (maxOutput : Nat) (r : Relay.State) (a : Action Side)
    (h : ¬ SurvivorEnds r a) :
    (place.machine maxOutput).step (embed pair background r) a =
      .ok (embed pair background (Relay.step maxOutput r a)) := by
  rcases r with ⟨phase, sockets⟩
  rcases a with ⟨x, o⟩
  cases phase with
  | relaying ends =>
      exact step_relayingWorld pair background maxOutput ends sockets x o
  | closing y c =>
      by_cases htarget : x = y
      · subst htarget
        have hnot : ¬ (o = .deferredEvent ∧ c.eventcbPending.Fatal) :=
          fun hboth => h ⟨hboth.1, c, rfl, hboth.2⟩
        simp only [Relay.step, if_true]
        exact step_closing pair background maxOutput x sockets c o hnot
      · have hfreed : (embed pair background
            { phase := .closing y c, sockets := sockets }).bevs
            (place.bufferAt x) = .freed :=
          (overlay_bevs x).trans (if_neg htarget)
        simp only [Relay.step, if_neg htarget]
        show Loop.step _ _ (Action.map place.bufferAt _) = _
        simp only [Loop.step, Action.map, hfreed]
  | closed =>
      have hfreed : (embed pair background
          { phase := .closed, sockets := sockets }).bevs (place.bufferAt x) =
            .freed := overlay_bevs x
      show Loop.step _ _ (Action.map place.bufferAt _) = _
      simp only [Loop.step, Action.map, hfreed]
      rfl

theorem step_embed_survivorEnds {place : Allocation ptr} (pair : Pair place)
    (background : World ptr) (maxOutput : Nat) (r : Relay.State) (a : Action Side)
    (h : SurvivorEnds r a) :
    (place.machine maxOutput).step (embed pair background r) a =
      .error (.doubleFree .object (place.objectAt a.target.other)) := by
  rcases r with ⟨phase, sockets⟩
  rcases a with ⟨x, o⟩
  rcases h with ⟨ho, c, hphase, hfatal⟩
  have hdeferred : o = .deferredEvent := ho
  have hclosing : phase = .closing x c := hphase
  subst hdeferred hclosing
  exact step_closing_fatal pair background maxOutput x sockets c hfatal

theorem simulates {place : Allocation ptr} (pair : Pair place)
    (background : World ptr) (maxOutput : Nat) :
    Machine.Simulates (place.machine maxOutput) (Relay.machine maxOutput)
      (embed pair background) := by
  intro r a s hstep
  refine ⟨Relay.step maxOutput r a, rfl, ?_⟩
  by_cases h : SurvivorEnds r a
  · rw [step_embed_survivorEnds pair background maxOutput r a h] at hstep
    cases hstep
  · rw [step_embed pair background maxOutput r a h] at hstep
    cases hstep
    rfl

end TransparentTcpProxy
end NetExperiment
