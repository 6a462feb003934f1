import NetExperiment.Relay.Embedding
import NetExperiment.Tcp.LeProxy.Core

/-!
# le_proxy as a relay

Every step of a linked pair of bufferevents is the step of the relay, also when
an end of file or an error is handled for the survivor of the pair.
-/

namespace NetExperiment
namespace LeProxy

open Foundation
open Libevent
open Relay

variable {ptr : Type} [DecidableEq ptr]

def Allocation.bufferAt (place : Allocation ptr) : Side -> ptr
  | .accepted => place.bIn
  | .upstream => place.bOut

omit [DecidableEq ptr] in
theorem Allocation.injective (place : Allocation ptr) :
    Function.Injective place.bufferAt := by
  intro x z h
  cases x with
  | accepted =>
      cases z with
      | accepted => rfl
      | upstream => exact absurd h place.distinct
  | upstream =>
      cases z with
      | accepted => exact absurd h.symm place.distinct
      | upstream => rfl

def Allocation.layout (place : Allocation ptr) :
    Layout ptr DataCb EventCb ptr Unit where
  bufferAt := place.bufferAt
  injective := place.injective
  readcb := .readcb
  drainedWritecb := .drainedWritecb
  closeOnFinishedWritecb := .closeOnFinishedWritecb
  eventcb := .eventcb
  relayingArg := fun x => some (place.bufferAt x.other)
  closingArg := fun _ => none
  relayingMemory := ()
  closingMemory := fun _ => ()
  closedMemory := ()

/-!
## Callbacks
-/

section Callbacks

variable (place : Allocation ptr) (background : World ptr) (maxOutput : Nat)
  (ends : Side -> Endpoint) (sockets : Side -> Socket)

theorem readcb_relaying (x : Side) :
    readcb maxOutput (place.layout.bufferAt x)
        (some (place.layout.bufferAt x.other))
        (place.layout.relayingLoop background ends sockets) =
      .ok (place.layout.relayingLoop background (forward maxOutput x ends)
        sockets) := by
  have hpause := place.layout.pause_relaying background (moved x ends) sockets
    maxOutput x
  unfold readcb
  rw [Layout.inputLength_relaying, ok_bind]
  simp only
  rw [Layout.evbufferAddBuffer_relaying, ok_bind, Layout.outputLength_relaying,
    ok_bind]
  unfold forward
  split
  · simp only [Allocation.layout, Side.other_other] at hpause
    exact hpause
  · rfl

theorem drainedWritecb_relaying (y : Side) :
    drainedWritecb (place.layout.bufferAt y)
        (some (place.layout.bufferAt y.other))
        (place.layout.relayingLoop background ends sockets) =
      .ok (place.layout.relayingLoop background (resume y ends) sockets) :=
  place.layout.resume_relaying background ends sockets y

omit [DecidableEq ptr] in
theorem printErrors_live {s : World ptr} {b : ptr}
    {bev : Bufferevent DataCb EventCb ptr} (what : What)
    (h : s.bevs b = .live bev) : printErrors b what s = .ok () := by
  unfold printErrors
  split
  · rw [Heap.read_live _ h]
    rfl
  · rfl

theorem closePartner_flush (x : Side)
    (h : (forward maxOutput x ends x.other).output.length ≠ 0) :
    closePartner maxOutput (place.layout.bufferAt x)
        (place.layout.bufferAt x.other)
        (place.layout.relayingLoop background ends sockets) =
      .ok (place.layout.overlay background
        (Function.update
          (place.layout.bevsOf (.relaying (forward maxOutput x ends))) x.other
          (.live (place.layout.closingBev x.other
            ((forward maxOutput x ends x.other).disable true false))))
        sockets ()) := by
  unfold closePartner
  rw [readcb_relaying, ok_bind, Layout.outputLength_relaying, ok_bind,
    if_pos h]
  exact place.layout.flush_relaying background (forward maxOutput x ends)
    sockets x

theorem closePartner_free (x : Side)
    (h : (forward maxOutput x ends x.other).output.length = 0) :
    closePartner maxOutput (place.layout.bufferAt x)
        (place.layout.bufferAt x.other)
        (place.layout.relayingLoop background ends sockets) =
      .ok (place.layout.overlay background
        (Function.update
          (place.layout.bevsOf (.relaying (forward maxOutput x ends))) x.other
          .freed)
        sockets ()) := by
  unfold closePartner
  rw [readcb_relaying, ok_bind, Layout.outputLength_relaying, ok_bind,
    if_neg (not_not.mpr h)]
  exact Layout.overlay_free rfl

theorem eventcb_relaying_fatal {what : What} (hfatal : what.Fatal) (x : Side) :
    eventcb maxOutput (place.layout.bufferAt x) what
        (some (place.layout.bufferAt x.other))
        (place.layout.relayingLoop background ends sockets) =
      .ok (place.layout.embed background
        { phase := finish maxOutput x ends, sockets := sockets }) := by
  have hlive := place.layout.relaying_live background ends sockets x
  have hself : place.layout.bevsOf (.relaying (forward maxOutput x ends)) x =
      .live (place.layout.relayingBev x (forward maxOutput x ends x)) := rfl
  unfold eventcb
  rw [if_pos hfatal, printErrors_live what hlive, ok_bind]
  simp only
  unfold finish
  split
  · rename_i hfull
    rw [closePartner_flush place background maxOutput ends sockets x hfull,
      ok_bind, Layout.overlay_free
        ((Function.update_of_ne (Side.ne_other x) _ _).trans hself)]
    exact congrArg Except.ok
      (place.layout.survivor_of_update background sockets x rfl _)
  · rename_i hempty
    rw [closePartner_free place background maxOutput ends sockets x
        (not_not.mp hempty), ok_bind, Layout.overlay_free
        ((Function.update_of_ne (Side.ne_other x) _ _).trans hself)]
    exact congrArg Except.ok
      (place.layout.closed_of_update background sockets x rfl)

theorem closeOnFinishedWritecb_survivor (y : Side) (c : Channel) :
    closeOnFinishedWritecb (place.layout.bufferAt y) none
        (place.layout.survivorLoop background y sockets
          (place.layout.closingBev y c)) =
      .ok (place.layout.embed background
        { phase := if c.output.length = 0 then .closed else .closing y c
          sockets := sockets }) := by
  unfold closeOnFinishedWritecb
  rw [Loop.outputLength_live (place.layout.survivor_live background y sockets
    (place.layout.closingBev y c)), ok_bind]
  by_cases hempty : c.output.length = 0
  · have hbev : (place.layout.closingBev y c).output.length = 0 := hempty
    rw [if_pos hbev, if_pos hempty]
    exact place.layout.free_survivor background y sockets _
  · have hbev : ¬ (place.layout.closingBev y c).output.length = 0 := hempty
    rw [if_neg hbev, if_neg hempty]
    rfl

/-- The survivor has no partner: when it ends it is freed as it is. -/
theorem eventcb_survivor_fatal {what : What} (hfatal : what.Fatal) (y : Side)
    (bev : Bufferevent DataCb EventCb ptr) :
    eventcb maxOutput (place.layout.bufferAt y) what none
        (place.layout.survivorLoop background y sockets bev) =
      .ok (place.layout.embed background
        { phase := .closed, sockets := sockets }) := by
  unfold eventcb
  rw [if_pos hfatal, printErrors_live what
    (place.layout.survivor_live background y sockets bev), ok_bind]
  exact place.layout.free_survivor background y sockets bev

end Callbacks

/-!
## Steps
-/

def Allocation.machine (place : Allocation ptr) (maxOutput : Nat) :
    Machine (World ptr) (Action Side) (Fault Resource ptr) :=
  (Loop.machine (program maxOutput)).comap (Action.map place.bufferAt)

section Steps

variable (place : Allocation ptr) (background : World ptr) (maxOutput : Nat)

theorem step_relaying (ends : Side -> Endpoint) (sockets : Side -> Socket)
    (x : Side) (o : Occurrence) :
    Loop.step (program maxOutput)
        (place.layout.relayingLoop background ends sockets)
        { target := place.bufferAt x, occurrence := o } =
      .ok (place.layout.embed background
        (stepRelaying maxOutput ends sockets x o)) := by
  apply place.layout.step_relaying
  case hread =>
    intro _ _
    exact readcb_relaying place background maxOutput _ sockets x
  case hwrite =>
    intro _ _ _
    exact drainedWritecb_relaying place background _ sockets x
  case hevent =>
    intro _ _
    simp only [stepRelaying]
    split
    · rename_i hfatal
      exact eventcb_relaying_fatal place background maxOutput _ sockets hfatal x
    · rename_i hnot
      exact if_neg hnot

theorem step_closing (y : Side) (c : Channel) (sockets : Side -> Socket)
    (o : Occurrence) :
    Loop.step (program maxOutput)
        (place.layout.embed background
          { phase := .closing y c, sockets := sockets })
        { target := place.bufferAt y, occurrence := o } =
      .ok (place.layout.embed background (stepClosing y c sockets o)) := by
  apply place.layout.step_closing
  case hwrite =>
    intro _ hpending
    refine Eq.trans (closeOnFinishedWritecb_survivor place background sockets y
      c.takeWritecb) ?_
    simp only [stepClosing]
    rw [if_pos hpending]
    by_cases hempty : c.output.length = 0
    · have htaken : c.takeWritecb.output.length = 0 := hempty
      rw [if_pos htaken, if_pos hempty]
    · have htaken : ¬ c.takeWritecb.output.length = 0 := hempty
      rw [if_neg htaken, if_neg hempty]
  case hevent =>
    intro _ _
    simp only [stepClosing]
    split
    · rename_i hfatal
      exact eventcb_survivor_fatal place background maxOutput sockets hfatal y _
    · rename_i hnot
      exact if_neg hnot

theorem step_embed (r : Relay.State) (a : Action Side) :
    (place.machine maxOutput).step (place.layout.embed background r) a =
      .ok (place.layout.embed background (Relay.step maxOutput r a)) := by
  rcases r with ⟨phase, sockets⟩
  rcases a with ⟨x, o⟩
  cases phase with
  | relaying ends =>
      exact step_relaying place background maxOutput ends sockets x o
  | closing y c =>
      by_cases htarget : x = y
      · subst htarget
        simp only [Relay.step, if_true]
        exact step_closing place background maxOutput x c sockets o
      · simp only [Relay.step, if_neg htarget]
        exact place.layout.step_gone_endpoint background (if_neg htarget)
  | closed => exact place.layout.step_gone_endpoint background rfl

theorem run_embed (r : Relay.State) (acts : List (Action Side)) :
    exists last, (Relay.machine maxOutput).run r acts = .ok last ∧
      (place.machine maxOutput).run (place.layout.embed background r) acts =
        .ok (place.layout.embed background last) := by
  induction acts generalizing r with
  | nil => exact ⟨r, rfl, rfl⟩
  | cons a rest ih =>
      rcases ih (Relay.step maxOutput r a) with ⟨last, habstract, hconcrete⟩
      refine ⟨last, habstract, ?_⟩
      rw [Machine.run_cons_of_ok rest
        (step_embed place background maxOutput r a)]
      exact hconcrete

end Steps

/-!
## Accepting a connection
-/

section Accept

variable (place : Allocation ptr) (background : World ptr)

theorem acceptCb_started {socketConnect : Int} (h : ¬ socketConnect < 0) :
    acceptCb place socketConnect background =
      .ok (place.layout.embed background Relay.State.new) := by
  have hnew := place.layout.overlay_new background
  have hstart := place.layout.start_overlay background
  unfold acceptCb
  rw [if_neg h]
  refine Eq.trans ?_ hstart
  exact congrArg (fun s : World ptr => do
    let s <- s.buffereventSetcb place.bIn (some .readcb) none (some .eventcb)
      (some place.bOut)
    let s <- s.buffereventSetcb place.bOut (some .readcb) none (some .eventcb)
      (some place.bIn)
    let s <- s.buffereventEnable place.bIn true true
    s.buffereventEnable place.bOut true true) hnew

theorem acceptCb_failed {socketConnect : Int} (h : socketConnect < 0) :
    acceptCb place socketConnect background =
      .ok (place.layout.embed background
        { phase := .closed, sockets := fun _ => Socket.new }) := by
  have hnew := place.layout.overlay_new background
  unfold acceptCb
  rw [if_pos h]
  refine Eq.trans (congrArg (fun s : World ptr => do
    let s <- s.buffereventFree place.bOut
    s.buffereventFree place.bIn) hnew) ?_
  refine Eq.trans (congrArg (fun r : Result ptr (World ptr) => do
    let s <- r
    s.buffereventFree place.bIn)
    (Layout.overlay_free (x := .upstream) rfl)) ?_
  refine Eq.trans (Layout.overlay_free (x := .accepted) rfl) ?_
  unfold Layout.embed
  congr 2
  funext z
  cases z <;> rfl

end Accept

end LeProxy
end NetExperiment
