import NetExperiment.Relay.Invariants

/-!
# Programs that keep a relay

A program that implements the relay on an event loop keeps one bufferevent for
each endpoint.  The callbacks it installs and the arguments it gives them are a
`Layout`; they decide what its memory looks like in each state of the relay.

The network does to such a memory what it does to the relay, whatever the
program.  What is left to show for a program is what each of its callbacks does
in the states in which it can run.
-/

namespace NetExperiment
namespace Relay

open Foundation
open Libevent

theorem extend_sides {ptr beta : Type} [DecidableEq ptr] {place : Side -> ptr}
    (hplace : Function.Injective place) (part : Side -> beta)
    (rest : ptr -> beta) :
    Function.extend place part rest =
      Function.update
        (Function.update rest (place .accepted) (part .accepted))
        (place .upstream) (part .upstream) := by
  funext p
  by_cases howned : exists x, place x = p
  · rcases howned with ⟨x, rfl⟩
    rw [hplace.extend_apply]
    cases x with
    | accepted =>
        have hne : place .accepted ≠ place .upstream := fun h =>
          Side.ne_other .accepted (hplace h)
        rw [Function.update_of_ne hne, Function.update_self]
    | upstream => rw [Function.update_self]
  · have hupstream : p ≠ place .upstream := fun h => howned ⟨_, h.symm⟩
    have haccepted : p ≠ place .accepted := fun h => howned ⟨_, h.symm⟩
    rw [Function.extend_apply' _ _ _ howned, Function.update_of_ne hupstream,
      Function.update_of_ne haccepted]

/-- Where a program keeps the endpoints and which callbacks and arguments it
gives them in each phase. -/
structure Layout (ptr dataCb eventCb arg memory : Type) where
  bufferAt : Side -> ptr
  injective : Function.Injective bufferAt
  readcb : dataCb
  drainedWritecb : dataCb
  closeOnFinishedWritecb : dataCb
  eventcb : eventCb
  relayingArg : Side -> Option arg
  closingArg : Side -> Option arg
  relayingMemory : memory
  closingMemory : Side -> memory
  closedMemory : memory

namespace Layout

variable {ptr dataCb eventCb arg memory : Type}

def relayingBev (L : Layout ptr dataCb eventCb arg memory) (x : Side)
    (e : Endpoint) : Bufferevent dataCb eventCb arg where
  toChannel := e.toChannel
  readcb := some L.readcb
  writecb := if e.draining then some L.drainedWritecb else none
  eventcb := some L.eventcb
  cbarg := L.relayingArg x

def closingBev (L : Layout ptr dataCb eventCb arg memory) (y : Side)
    (c : Channel) : Bufferevent dataCb eventCb arg where
  toChannel := c
  readcb := none
  writecb := some L.closeOnFinishedWritecb
  eventcb := some L.eventcb
  cbarg := L.closingArg y

def bevsOf (L : Layout ptr dataCb eventCb arg memory) :
    Phase -> Side -> Cell (Bufferevent dataCb eventCb arg)
  | .relaying ends => fun x => .live (L.relayingBev x (ends x))
  | .closing y c => fun x => if x = y then .live (L.closingBev y c) else .freed
  | .closed => fun _ => .freed

def memoryOf (L : Layout ptr dataCb eventCb arg memory) : Phase -> memory
  | .relaying _ => L.relayingMemory
  | .closing y _ => L.closingMemory y
  | .closed => L.closedMemory

/-!
## Two bufferevents over a background
-/

/-- The bufferevents and socket histories of the pair over those of the rest of
the program. -/
noncomputable def overlay (L : Layout ptr dataCb eventCb arg memory)
    (background : Loop ptr dataCb eventCb arg memory)
    (bevs : Side -> Cell (Bufferevent dataCb eventCb arg))
    (sockets : Side -> Socket) (m : memory) :
    Loop ptr dataCb eventCb arg memory where
  bevs := Function.extend L.bufferAt bevs background.bevs
  sockets := Function.extend L.bufferAt sockets background.sockets
  memory := m

section Overlay

variable {L : Layout ptr dataCb eventCb arg memory}
  {background : Loop ptr dataCb eventCb arg memory}
  {bevs : Side -> Cell (Bufferevent dataCb eventCb arg)}
  {sockets : Side -> Socket} {m : memory}

@[simp] theorem overlay_bevs (x : Side) :
    (L.overlay background bevs sockets m).bevs (L.bufferAt x) = bevs x :=
  L.injective.extend_apply bevs background.bevs x

@[simp] theorem overlay_sockets (x : Side) :
    (L.overlay background bevs sockets m).sockets (L.bufferAt x) = sockets x :=
  L.injective.extend_apply sockets background.sockets x

variable [DecidableEq ptr]

theorem overlay_new (L : Layout ptr dataCb eventCb arg memory)
    (background : Loop ptr dataCb eventCb arg memory) :
    (background.buffereventSocketNew (L.bufferAt .accepted)).buffereventSocketNew
        (L.bufferAt .upstream) =
      L.overlay background (fun _ => .live Bufferevent.new)
        (fun _ => Socket.new) background.memory := by
  unfold overlay
  rw [extend_sides L.injective, extend_sides L.injective]
  rfl

theorem overlay_setBev (x : Side) (bev : Bufferevent dataCb eventCb arg) :
    (L.overlay background bevs sockets m).setBev (L.bufferAt x) bev =
      L.overlay background (Function.update bevs x (.live bev)) sockets m := by
  unfold Loop.setBev overlay
  simp only [Heap.update_extend L.injective]

theorem overlay_setSocket (x : Side) (socket : Socket) :
    (L.overlay background bevs sockets m).setSocket (L.bufferAt x) socket =
      L.overlay background bevs (Function.update sockets x socket) m := by
  unfold Loop.setSocket overlay
  simp only [Heap.update_extend L.injective]

theorem overlay_modifyBev {x : Side} {bev : Bufferevent dataCb eventCb arg}
    (f : Bufferevent dataCb eventCb arg -> Bufferevent dataCb eventCb arg)
    (h : bevs x = .live bev) :
    (L.overlay background bevs sockets m).modifyBev (L.bufferAt x) f =
      .ok (L.overlay background (Function.update bevs x (.live (f bev)))
        sockets m) := by
  have hlive : (L.overlay background bevs sockets m).bevs (L.bufferAt x) =
      .live bev := by rw [overlay_bevs, h]
  rw [Loop.modifyBev_live f hlive, overlay_setBev]

theorem overlay_free {x : Side} {bev : Bufferevent dataCb eventCb arg}
    (h : bevs x = .live bev) :
    (L.overlay background bevs sockets m).buffereventFree (L.bufferAt x) =
      .ok (L.overlay background (Function.update bevs x .freed) sockets m) := by
  have hlive : (L.overlay background bevs sockets m).bevs (L.bufferAt x) =
      .live bev := by rw [overlay_bevs, h]
  rw [Loop.buffereventFree_live hlive]
  unfold overlay
  simp only [Heap.update_extend L.injective]

theorem overlay_free_freed {x : Side} (h : bevs x = .freed) :
    (L.overlay background bevs sockets m).buffereventFree (L.bufferAt x) =
      .error (.doubleFree .bufferevent (L.bufferAt x)) := by
  unfold Loop.buffereventFree
  rw [Heap.free_freed _ ((overlay_bevs x).trans h)]
  rfl

end Overlay

/-- The memory of the program when the pair is in a state of the relay. -/
noncomputable def embed (L : Layout ptr dataCb eventCb arg memory)
    (background : Loop ptr dataCb eventCb arg memory) (r : State) :
    Loop ptr dataCb eventCb arg memory :=
  L.overlay background (L.bevsOf r.phase) r.sockets (L.memoryOf r.phase)

section Embed

variable {L : Layout ptr dataCb eventCb arg memory}
  {background : Loop ptr dataCb eventCb arg memory} {r : State}

theorem embed_bevs (x : Side) :
    (L.embed background r).bevs (L.bufferAt x) = L.bevsOf r.phase x :=
  overlay_bevs x

theorem embed_sockets (x : Side) :
    (L.embed background r).sockets (L.bufferAt x) = r.sockets x :=
  overlay_sockets x

theorem embed_free [DecidableEq ptr] {x : Side}
    {bev : Bufferevent dataCb eventCb arg}
    (h : L.bevsOf r.phase x = .live bev) :
    (L.embed background r).buffereventFree (L.bufferAt x) =
      .ok (L.overlay background (Function.update (L.bevsOf r.phase) x .freed)
        r.sockets (L.memoryOf r.phase)) :=
  overlay_free h

theorem embed_free_freed [DecidableEq ptr] {x : Side}
    (h : L.bevsOf r.phase x = .freed) :
    (L.embed background r).buffereventFree (L.bufferAt x) =
      .error (.doubleFree .bufferevent (L.bufferAt x)) :=
  overlay_free_freed h

theorem bevsOf_live_or_freed (phase : Phase) (x : Side) :
    (exists bev, L.bevsOf phase x = .live bev) ∨
      L.bevsOf phase x = .freed := by
  cases phase with
  | relaying ends => exact .inl ⟨_, rfl⟩
  | closing y c =>
      by_cases hx : x = y
      · exact .inl ⟨_, if_pos hx⟩
      · exact .inr (if_neg hx)
  | closed => exact .inr rfl

theorem exists_freed {phase : Phase}
    (h : forall ends, phase ≠ .relaying ends) :
    exists x, L.bevsOf phase x = .freed := by
  cases phase with
  | relaying ends => exact absurd rfl (h ends)
  | closing y c => exact ⟨y.other, if_neg (Side.other_ne y)⟩
  | closed => exact ⟨.accepted, rfl⟩

theorem eventcbPending_of_live {x : Side}
    {bev : Bufferevent dataCb eventCb arg}
    (h : L.bevsOf r.phase x = .live bev) :
    r.eventcbPending x = bev.eventcbPending := by
  unfold State.eventcbPending
  cases hphase : r.phase with
  | relaying ends =>
      rw [hphase] at h
      cases h
      rfl
  | closing y c =>
      rw [hphase] at h
      by_cases hx : x = y
      · simp only [bevsOf, if_pos hx] at h
        cases h
        exact if_pos hx.symm
      · simp only [bevsOf, if_neg hx] at h
        cases h
  | closed =>
      rw [hphase] at h
      cases h

theorem live_of_eventcbPending {x : Side} (h : r.eventcbPending x ≠ 0) :
    exists bev, L.bevsOf r.phase x = .live bev := by
  unfold State.eventcbPending at h
  split at h
  · rename_i ends hphase
    rw [hphase]
    exact ⟨_, rfl⟩
  · rename_i y c hphase
    split at h
    · rename_i hy
      rw [hphase]
      exact ⟨_, if_pos hy.symm⟩
    · exact absurd rfl h
  · exact absurd rfl h

theorem deliversFatal_embed {x : Side} {a : Action Side} :
    (L.embed background r).DeliversFatal (L.bufferAt x) (a.map L.bufferAt) <->
      r.DeliversFatal x a := by
  constructor
  · intro h
    rcases h with ⟨htarget, hoccurrence, bev, hbev, hfatal⟩
    rw [embed_bevs] at hbev
    refine ⟨L.injective htarget, hoccurrence, ?_⟩
    rw [eventcbPending_of_live hbev]
    exact hfatal
  · intro h
    rcases h with ⟨htarget, hoccurrence, hfatal⟩
    have hpending : r.eventcbPending x ≠ 0 := by
      intro hzero
      rw [hzero] at hfatal
      exact What.not_fatal_zero hfatal
    rcases live_of_eventcbPending (L := L) hpending with ⟨bev, hbev⟩
    rw [eventcbPending_of_live hbev] at hfatal
    refine ⟨congrArg L.bufferAt htarget, hoccurrence, bev, ?_, hfatal⟩
    rw [embed_bevs]
    exact hbev

end Embed

/-!
## While both endpoints are open
-/

section Relaying

variable [DecidableEq ptr] (L : Layout ptr dataCb eventCb arg memory)
  (background : Loop ptr dataCb eventCb arg memory)
  (ends : Side -> Endpoint) (sockets : Side -> Socket)

noncomputable abbrev relayingLoop : Loop ptr dataCb eventCb arg memory :=
  L.embed background { phase := .relaying ends, sockets := sockets }

omit [DecidableEq ptr] in
theorem relaying_live (x : Side) :
    (L.relayingLoop background ends sockets).bevs (L.bufferAt x) =
      .live (L.relayingBev x (ends x)) :=
  overlay_bevs x

omit [DecidableEq ptr] in
theorem update_relayingBev (x : Side) (e : Endpoint) :
    Function.update (L.bevsOf (.relaying ends)) x
        (.live (L.relayingBev x e)) =
      L.bevsOf (.relaying (Function.update ends x e)) := by
  funext z
  by_cases hz : z = x
  · rw [hz]
    simp [bevsOf]
  · simp [bevsOf, hz]

theorem setBev_relaying (x : Side) (e : Endpoint) :
    (L.relayingLoop background ends sockets).setBev (L.bufferAt x)
        (L.relayingBev x e) =
      L.relayingLoop background (Function.update ends x e) sockets := by
  unfold relayingLoop embed
  rw [overlay_setBev, update_relayingBev]
  rfl

theorem modifyBev_relaying {x : Side} {e : Endpoint}
    {f : Bufferevent dataCb eventCb arg -> Bufferevent dataCb eventCb arg}
    (h : f (L.relayingBev x (ends x)) = L.relayingBev x e) :
    (L.relayingLoop background ends sockets).modifyBev (L.bufferAt x) f =
      .ok (L.relayingLoop background (Function.update ends x e) sockets) := by
  rw [Loop.modifyBev_live f (L.relaying_live background ends sockets x), h,
    setBev_relaying]

theorem onChannel_relaying (x : Side) (f : Channel -> Channel) :
    (L.relayingLoop background ends sockets).modifyBev (L.bufferAt x)
        (Bufferevent.onChannel f) =
      .ok (L.relayingLoop background
        (Function.update ends x ((ends x).onChannel f)) sockets) := by
  apply modifyBev_relaying
  rfl

theorem setcb_relaying (x : Side) (draining : Bool) :
    (L.relayingLoop background ends sockets).buffereventSetcb (L.bufferAt x)
        (some L.readcb) (if draining then some L.drainedWritecb else none)
        (some L.eventcb) (L.relayingArg x) =
      .ok (L.relayingLoop background
        (Function.update ends x { ends x with draining := draining })
        sockets) := by
  unfold Loop.buffereventSetcb
  apply modifyBev_relaying
  rfl

omit [DecidableEq ptr] in
theorem outputLength_relaying (x : Side) :
    (L.relayingLoop background ends sockets).outputLength (L.bufferAt x) =
      .ok (ends x).output.length :=
  Loop.outputLength_live (L.relaying_live background ends sockets x)

omit [DecidableEq ptr] in
theorem inputLength_relaying (x : Side) :
    (L.relayingLoop background ends sockets).inputLength (L.bufferAt x) =
      .ok (ends x).input.length :=
  Loop.inputLength_live (L.relaying_live background ends sockets x)

theorem evbufferAddBuffer_relaying (x : Side) :
    (L.relayingLoop background ends sockets).evbufferAddBuffer
        (L.bufferAt x.other) (L.bufferAt x) =
      .ok (L.relayingLoop background (moved x ends) sockets) := by
  unfold Loop.evbufferAddBuffer
  rw [Heap.read_live _ (L.relaying_live background ends sockets x), ok_bind,
    L.modifyBev_relaying background ends sockets (e :=
      (ends x.other).onChannel fun c =>
        { c with output := c.output ++ (ends x).input }) rfl, ok_bind]
  apply modifyBev_relaying
  rw [Function.update_of_ne (Side.ne_other x)]
  rfl

theorem pause_relaying (maxOutput : Nat) (x : Side) :
    (do
      let s <- (L.relayingLoop background ends sockets).buffereventSetcb
        (L.bufferAt x.other) (some L.readcb) (some L.drainedWritecb)
        (some L.eventcb) (L.relayingArg x.other)
      let s <- s.buffereventSetwatermarkWrite (L.bufferAt x.other)
        (maxOutput / 2) maxOutput
      s.buffereventDisable (L.bufferAt x) true false) =
      .ok (L.relayingLoop background (paused maxOutput x ends) sockets) := by
  have hsetcb := L.setcb_relaying background ends sockets x.other true
  simp only [if_true] at hsetcb
  unfold Loop.buffereventSetwatermarkWrite Loop.buffereventDisable
  rw [hsetcb, ok_bind, onChannel_relaying, ok_bind, onChannel_relaying]
  unfold paused
  simp [Endpoint.onChannel]

theorem resume_relaying (y : Side) :
    (do
      let s <- (L.relayingLoop background ends sockets).buffereventSetcb
        (L.bufferAt y) (some L.readcb) none (some L.eventcb) (L.relayingArg y)
      let s <- s.buffereventSetwatermarkWrite (L.bufferAt y) 0 0
      s.buffereventEnable (L.bufferAt y.other) true false) =
      .ok (L.relayingLoop background (resume y ends) sockets) := by
  have hsetcb := L.setcb_relaying background ends sockets y false
  simp only [Bool.false_eq_true, if_false] at hsetcb
  unfold Loop.buffereventSetwatermarkWrite Loop.buffereventEnable
  rw [hsetcb, ok_bind, onChannel_relaying, ok_bind, onChannel_relaying]
  unfold resume
  simp [Endpoint.onChannel]

theorem free_relaying (x : Side) :
    (do
      let s <- (L.relayingLoop background ends sockets).buffereventFree
        (L.bufferAt x.other)
      s.buffereventFree (L.bufferAt x)) =
      .ok (L.overlay background (L.bevsOf .closed) sockets
        L.relayingMemory) := by
  have hself : L.bevsOf (.relaying ends) x =
      .live (L.relayingBev x (ends x)) := rfl
  have hother : L.bevsOf (.relaying ends) x.other =
      .live (L.relayingBev x.other (ends x.other)) := rfl
  unfold relayingLoop embed
  rw [overlay_free hother, ok_bind, overlay_free
    ((Function.update_of_ne (Side.ne_other x) _ _).trans hself)]
  congr 2
  apply Side.funext_other x
  · simp [bevsOf]
  · simp [bevsOf]

theorem flush_relaying (x : Side) :
    (do
      let s <- (L.relayingLoop background ends sockets).buffereventSetcb
        (L.bufferAt x.other) none (some L.closeOnFinishedWritecb)
        (some L.eventcb) (L.closingArg x.other)
      s.buffereventDisable (L.bufferAt x.other) true false) =
      .ok (L.overlay background
        (Function.update (L.bevsOf (.relaying ends)) x.other
          (.live (L.closingBev x.other
            ((ends x.other).disable true false))))
        sockets L.relayingMemory) := by
  have hlive : L.bevsOf (.relaying ends) x.other =
      .live (L.relayingBev x.other (ends x.other)) := rfl
  unfold Loop.buffereventSetcb Loop.buffereventDisable relayingLoop embed
  rw [overlay_modifyBev _ hlive, ok_bind,
    overlay_modifyBev _ (Function.update_self _ _ _), Function.update_idem]
  rfl

theorem start_overlay :
    (do
      let s <- (L.overlay background (fun _ => .live Bufferevent.new)
        (fun _ => Socket.new) L.relayingMemory).buffereventSetcb
          (L.bufferAt .accepted) (some L.readcb) none (some L.eventcb)
          (L.relayingArg .accepted)
      let s <- s.buffereventSetcb (L.bufferAt .upstream) (some L.readcb) none
        (some L.eventcb) (L.relayingArg .upstream)
      let s <- s.buffereventEnable (L.bufferAt .accepted) true true
      s.buffereventEnable (L.bufferAt .upstream) true true) =
      .ok (L.embed background State.new) := by
  unfold Loop.buffereventSetcb Loop.buffereventEnable
  rw [overlay_modifyBev _ rfl, ok_bind, overlay_modifyBev _ rfl, ok_bind,
    overlay_modifyBev _ rfl, ok_bind, overlay_modifyBev _ rfl]
  unfold embed
  congr 2
  funext z
  cases z <;> rfl

end Relaying

/-!
## When only one endpoint is left
-/

section Closing

variable [DecidableEq ptr] (L : Layout ptr dataCb eventCb arg memory)
  (background : Loop ptr dataCb eventCb arg memory)
  (y : Side) (sockets : Side -> Socket)

noncomputable def survivorLoop (bev : Bufferevent dataCb eventCb arg) :
    Loop ptr dataCb eventCb arg memory :=
  L.overlay background (fun x => if x = y then .live bev else .freed) sockets
    (L.closingMemory y)

variable (bev : Bufferevent dataCb eventCb arg)

omit [DecidableEq ptr] in
theorem survivor_live :
    (L.survivorLoop background y sockets bev).bevs (L.bufferAt y) =
      .live bev :=
  (overlay_bevs y).trans (if_pos rfl)

theorem setBev_survivor (bev' : Bufferevent dataCb eventCb arg) :
    (L.survivorLoop background y sockets bev).setBev (L.bufferAt y) bev' =
      L.survivorLoop background y sockets bev' := by
  unfold survivorLoop
  rw [overlay_setBev]
  congr 1
  apply Side.funext_other y
  · simp
  · simp

theorem modifyBev_survivor
    (f : Bufferevent dataCb eventCb arg -> Bufferevent dataCb eventCb arg) :
    (L.survivorLoop background y sockets bev).modifyBev (L.bufferAt y) f =
      .ok (L.survivorLoop background y sockets (f bev)) := by
  rw [Loop.modifyBev_live f (L.survivor_live background y sockets bev),
    setBev_survivor]

theorem free_survivor :
    (L.survivorLoop background y sockets bev).buffereventFree (L.bufferAt y) =
      .ok (L.overlay background (L.bevsOf .closed) sockets
        (L.closingMemory y)) := by
  unfold survivorLoop
  rw [overlay_free (if_pos rfl)]
  congr 2
  apply Side.funext_other y
  · simp [bevsOf]
  · simp [bevsOf]

omit [DecidableEq ptr] in
theorem survivor_of_update {ends : Side -> Endpoint} (x : Side)
    (h : L.closingMemory x.other = L.relayingMemory) (c : Channel) :
    L.overlay background
        (Function.update
          (Function.update (L.bevsOf (.relaying ends)) x.other
            (.live (L.closingBev x.other c))) x .freed)
        sockets L.relayingMemory =
      L.embed background { phase := .closing x.other c, sockets := sockets } := by
  rw [← h]
  unfold embed
  congr 1
  apply Side.funext_other x
  · simp [bevsOf]
  · simp [bevsOf]

omit [DecidableEq ptr] in
theorem closed_of_update {ends : Side -> Endpoint} (x : Side)
    (h : L.closedMemory = L.relayingMemory) :
    L.overlay background
        (Function.update
          (Function.update (L.bevsOf (.relaying ends)) x.other .freed) x .freed)
        sockets L.relayingMemory =
      L.embed background { phase := .closed, sockets := sockets } := by
  rw [← h]
  unfold embed
  congr 1
  apply Side.funext_other x
  · simp [bevsOf]
  · simp [bevsOf]

end Closing

/-!
## Steps

An action on an endpoint is the action of the relay, if the callback that it
runs does what the relay does.
-/

section Steps

variable [DecidableEq ptr] (L : Layout ptr dataCb eventCb arg memory)
  {prog : Loop.Program ptr dataCb eventCb arg memory}
  (background : Loop ptr dataCb eventCb arg memory) {maxOutput : Nat}

theorem step_relaying {ends : Side -> Endpoint} {sockets : Side -> Socket}
    {x : Side} {o : Occurrence}
    (hread : o = .deferredRead -> (ends x).readcbPending = true ->
      prog.data L.readcb (L.bufferAt x) (L.relayingArg x)
          (L.relayingLoop background (Function.update ends x
            ((ends x).onChannel Channel.takeReadcb)) sockets) =
        .ok (L.relayingLoop background (forward maxOutput x
          (Function.update ends x ((ends x).onChannel Channel.takeReadcb)))
          sockets))
    (hwrite : o = .deferredWrite -> (ends x).draining = true ->
      (ends x).writecbPending = true ->
      prog.data L.drainedWritecb (L.bufferAt x) (L.relayingArg x)
          (L.relayingLoop background (Function.update ends x
            ((ends x).onChannel Channel.takeWritecb)) sockets) =
        .ok (L.relayingLoop background (resume x
          (Function.update ends x ((ends x).onChannel Channel.takeWritecb)))
          sockets))
    (hevent : o = .deferredEvent -> (ends x).eventcbPending ≠ 0 ->
      prog.event L.eventcb (L.bufferAt x) (ends x).eventcbPending
          (L.relayingArg x)
          (L.relayingLoop background (Function.update ends x
            ((ends x).onChannel Channel.takeEventcb)) sockets) =
        .ok (L.embed background
          (stepRelaying maxOutput ends sockets x .deferredEvent))) :
    Loop.step prog (L.relayingLoop background ends sockets)
        { target := L.bufferAt x, occurrence := o } =
      .ok (L.embed background (stepRelaying maxOutput ends sockets x o)) := by
  have hset := L.setBev_relaying background ends sockets x
  have hsocket : (L.relayingLoop background ends sockets).sockets
      (L.bufferAt x) = sockets x := overlay_sockets x
  have hinstalled : (L.relayingBev x (ends x)).writecb.isSome =
      (ends x).draining := by
    unfold relayingBev
    cases (ends x).draining <;> rfl
  rw [Loop.step_live o (L.relaying_live background ends sockets x)]
  cases o with
  | socketRead bytes =>
      by_cases hguard : (ends x).enabledRead = true ∧ bytes ≠ []
      · have hbev : (L.relayingBev x (ends x)).enabledRead = true ∧
            bytes ≠ [] := hguard
        have hnext := hset ((ends x).onChannel (Channel.socketRead true bytes))
        simp only [Loop.stepLive, stepRelaying]
        rw [if_pos hbev, if_pos hguard, hsocket]
        refine congrArg Except.ok ?_
        refine Eq.trans (congrArg (fun s => Loop.setSocket s _ _) hnext) ?_
        exact overlay_setSocket x _
      · have hbev : ¬ ((L.relayingBev x (ends x)).enabledRead = true ∧
            bytes ≠ []) := hguard
        simp only [Loop.stepLive, stepRelaying]
        rw [if_neg hbev, if_neg hguard]
  | socketWrite n =>
      by_cases hguard : (ends x).enabledWrite = true ∧ 0 < n ∧
          n ≤ (ends x).output.length
      · have hbev : (L.relayingBev x (ends x)).enabledWrite = true ∧
            0 < n ∧ n ≤ (L.relayingBev x (ends x)).output.length := hguard
        have hnext := hset ((ends x).onChannel
          (Channel.socketWrite (ends x).draining n))
        simp only [Loop.stepLive, stepRelaying]
        rw [if_pos hbev, if_pos hguard, hinstalled, hsocket]
        refine congrArg Except.ok ?_
        refine Eq.trans (congrArg (fun s => Loop.setSocket s _ _) hnext) ?_
        exact overlay_setSocket x _
      · have hbev : ¬ ((L.relayingBev x (ends x)).enabledWrite = true ∧
            0 < n ∧ n ≤ (L.relayingBev x (ends x)).output.length) := hguard
        simp only [Loop.stepLive, stepRelaying]
        rw [if_neg hbev, if_neg hguard]
  | report what =>
      exact congrArg Except.ok
        (hset ((ends x).onChannel (Channel.report true what)))
  | deferredRead =>
      have htaken := hset ((ends x).onChannel Channel.takeReadcb)
      simp only [stepRelaying]
      split
      · rename_i hpending
        rw [← hread rfl hpending, ← htaken]
        exact if_pos hpending
      · rename_i hpending
        exact if_neg hpending
  | deferredWrite =>
      by_cases hguard : (ends x).draining = true ∧
          (ends x).writecbPending = true
      · have hcb : (L.relayingBev x (ends x)).writecb =
            some L.drainedWritecb := by
          unfold relayingBev
          rw [if_pos hguard.1]
        have htaken := hset ((ends x).onChannel Channel.takeWritecb)
        rw [Loop.stepLive_deferredWrite hcb hguard.2]
        simp only [stepRelaying]
        rw [if_pos hguard, ← hwrite rfl hguard.1 hguard.2, ← htaken]
        rfl
      · have hidle : ¬ ((L.relayingBev x (ends x)).writecb.isSome = true ∧
            (L.relayingBev x (ends x)).writecbPending = true) := by
          rw [hinstalled]
          exact hguard
        rw [Loop.stepLive_deferredWrite_idle hidle]
        simp only [stepRelaying]
        rw [if_neg hguard]
  | deferredEvent =>
      have htaken := hset ((ends x).onChannel Channel.takeEventcb)
      by_cases hzero : (ends x).eventcbPending = 0
      · have hsame : (ends x).onChannel Channel.takeEventcb = ends x := by
          unfold Endpoint.onChannel Channel.takeEventcb
          rw [← hzero]
        have hnot : ¬ (ends x).eventcbPending.Fatal := by
          rw [hzero]
          exact What.not_fatal_zero
        rw [Loop.stepLive_deferredEvent_idle hzero]
        simp only [stepRelaying]
        rw [if_neg hnot, hsame, Function.update_eq_self]
      · rw [Loop.stepLive_deferredEvent rfl hzero, ← hevent rfl hzero,
          ← htaken]
        rfl

theorem step_closing {y : Side} {c : Channel} {sockets : Side -> Socket}
    {o : Occurrence}
    (hwrite : o = .deferredWrite -> c.writecbPending = true ->
      prog.data L.closeOnFinishedWritecb (L.bufferAt y) (L.closingArg y)
          (L.survivorLoop background y sockets
            (L.closingBev y c.takeWritecb)) =
        .ok (L.embed background (stepClosing y c sockets .deferredWrite)))
    (hevent : o = .deferredEvent -> c.eventcbPending ≠ 0 ->
      prog.event L.eventcb (L.bufferAt y) c.eventcbPending (L.closingArg y)
          (L.survivorLoop background y sockets
            (L.closingBev y c.takeEventcb)) =
        .ok (L.embed background (stepClosing y c sockets .deferredEvent))) :
    Loop.step prog
        (L.embed background { phase := .closing y c, sockets := sockets })
        { target := L.bufferAt y, occurrence := o } =
      .ok (L.embed background (stepClosing y c sockets o)) := by
  have hset := L.setBev_survivor background y sockets (L.closingBev y c)
  have hsocket : (L.survivorLoop background y sockets
      (L.closingBev y c)).sockets (L.bufferAt y) = sockets y :=
    overlay_sockets y
  show Loop.step prog (L.survivorLoop background y sockets (L.closingBev y c))
    _ = _
  rw [Loop.step_live o
    (L.survivor_live background y sockets (L.closingBev y c))]
  cases o with
  | socketRead bytes =>
      by_cases hguard : c.enabledRead = true ∧ bytes ≠ []
      · have hbev : (L.closingBev y c).enabledRead = true ∧ bytes ≠ [] :=
          hguard
        simp only [Loop.stepLive, stepClosing]
        rw [if_pos hbev, if_pos hguard, hset, hsocket]
        exact congrArg Except.ok (overlay_setSocket y _)
      · have hbev : ¬ ((L.closingBev y c).enabledRead = true ∧ bytes ≠ []) :=
          hguard
        simp only [Loop.stepLive, stepClosing]
        rw [if_neg hbev, if_neg hguard]
        rfl
  | socketWrite n =>
      by_cases hguard : c.enabledWrite = true ∧ 0 < n ∧ n ≤ c.output.length
      · have hbev : (L.closingBev y c).enabledWrite = true ∧ 0 < n ∧
            n ≤ (L.closingBev y c).output.length := hguard
        simp only [Loop.stepLive, stepClosing]
        rw [if_pos hbev, if_pos hguard, hset, hsocket]
        exact congrArg Except.ok (overlay_setSocket y _)
      · have hbev : ¬ ((L.closingBev y c).enabledWrite = true ∧ 0 < n ∧
            n ≤ (L.closingBev y c).output.length) := hguard
        simp only [Loop.stepLive, stepClosing]
        rw [if_neg hbev, if_neg hguard]
        rfl
  | report what =>
      simp only [Loop.stepLive, stepClosing]
      rw [hset]
      rfl
  | deferredRead => rfl
  | deferredWrite =>
      by_cases hpending : c.writecbPending = true
      · rw [Loop.stepLive_deferredWrite rfl hpending, hset]
        exact hwrite rfl hpending
      · have hidle : ¬ ((L.closingBev y c).writecb.isSome = true ∧
            (L.closingBev y c).writecbPending = true) :=
          fun hboth => hpending hboth.2
        rw [Loop.stepLive_deferredWrite_idle hidle]
        simp only [stepClosing]
        rw [if_neg hpending]
        rfl
  | deferredEvent =>
      by_cases hzero : c.eventcbPending = 0
      · have hsame : c.takeEventcb = c := by
          unfold Channel.takeEventcb
          rw [← hzero]
        have hnot : ¬ c.eventcbPending.Fatal := by
          rw [hzero]
          exact What.not_fatal_zero
        rw [Loop.stepLive_deferredEvent_idle hzero]
        simp only [stepClosing]
        rw [if_neg hnot, hsame]
        rfl
      · rw [Loop.stepLive_deferredEvent rfl hzero, hset]
        exact hevent rfl hzero

theorem step_gone_endpoint {r : State} {x : Side} {o : Occurrence}
    (h : L.bevsOf r.phase x = .freed) :
    Loop.step prog (L.embed background r)
        { target := L.bufferAt x, occurrence := o } =
      .ok (L.embed background r) := by
  simp only [Loop.step, embed_bevs, h]

end Steps

end Layout
end Relay
end NetExperiment
