import NetExperiment.Libevent.Loop

/-!
# The relay of le_proxy

The callbacks of `le_proxy`, without SSL.  A connection is a pair of linked
bufferevents.  While both are open, the callback argument of each is the other
one; the survivor of a pair has the null pointer as its argument.

The pointers handed out by the allocator and the result of the connect call are
arguments.
-/

namespace NetExperiment
namespace LeProxy

open Foundation
open Libevent

def MAX_OUTPUT : Nat := 512 * 1024

inductive DataCb where
  | readcb
  | drainedWritecb
  | closeOnFinishedWritecb
deriving DecidableEq, Repr

inductive EventCb where
  | eventcb
deriving DecidableEq, Repr

abbrev World (ptr : Type) := Loop ptr DataCb EventCb ptr Unit

abbrev Result (ptr alpha : Type) := Except (Fault Resource ptr) alpha

variable {ptr : Type} [DecidableEq ptr]

def World.empty : World ptr where
  bevs := Heap.empty
  sockets := fun _ => Socket.new
  memory := ()

/-!
## Callbacks
-/

def readcb (maxOutput : Nat) (bev : ptr) (ctx : Option ptr) (s : World ptr) :
    Result ptr (World ptr) := do
  let len <- s.inputLength bev
  match ctx with
  | none => s.evbufferDrainInput bev len
  | some partner =>
      let s <- s.evbufferAddBuffer partner bev
      let queued <- s.outputLength partner
      if maxOutput ≤ queued then
        let s <- s.buffereventSetcb partner (some .readcb)
          (some .drainedWritecb) (some .eventcb) (some bev)
        let s <- s.buffereventSetwatermarkWrite partner (maxOutput / 2)
          maxOutput
        s.buffereventDisable bev true false
      else return s

def drainedWritecb (bev : ptr) (ctx : Option ptr) (s : World ptr) :
    Result ptr (World ptr) := do
  let s <- s.buffereventSetcb bev (some .readcb) none (some .eventcb) ctx
  let s <- s.buffereventSetwatermarkWrite bev 0 0
  match ctx with
  | none => return s
  | some partner => s.buffereventEnable partner true false

def closeOnFinishedWritecb (bev : ptr) (_ctx : Option ptr) (s : World ptr) :
    Result ptr (World ptr) := do
  let len <- s.outputLength bev
  if len = 0 then s.buffereventFree bev else return s

/-- The loop that prints the OpenSSL errors of a bufferevent.  A bufferevent on
a plain socket has none, so it only looks at the bufferevent. -/
def printErrors (bev : ptr) (what : What) (s : World ptr) :
    Result ptr Unit :=
  if what &&& BEV_EVENT_ERROR ≠ 0 then do
    let _ <- s.bevs.read Resource.bufferevent bev
    return ()
  else return ()

/-- What the event callback does to the partner of a side that has ended: flush
the input of the side, then close the partner at once or after its output. -/
def closePartner (maxOutput : Nat) (bev partner : ptr) (s : World ptr) :
    Result ptr (World ptr) := do
  let s <- readcb maxOutput bev (some partner) s
  let queued <- s.outputLength partner
  if queued ≠ 0 then
    let s <- s.buffereventSetcb partner none (some .closeOnFinishedWritecb)
      (some .eventcb) none
    s.buffereventDisable partner true false
  else s.buffereventFree partner

def eventcb (maxOutput : Nat) (bev : ptr) (what : What) (ctx : Option ptr)
    (s : World ptr) : Result ptr (World ptr) :=
  if what.Fatal then do
    printErrors bev what s
    match ctx with
    | none => s.buffereventFree bev
    | some partner =>
        let s <- closePartner maxOutput bev partner s
        s.buffereventFree bev
  else .ok s

def program (maxOutput : Nat) :
    Loop.Program ptr DataCb EventCb ptr Unit where
  data
    | .readcb => readcb maxOutput
    | .drainedWritecb => drainedWritecb
    | .closeOnFinishedWritecb => closeOnFinishedWritecb
  event
    | .eventcb => eventcb maxOutput

/-!
## Accepting a connection
-/

structure Allocation (ptr : Type) where
  bIn : ptr
  bOut : ptr
  distinct : bIn ≠ bOut

/-- Create the two bufferevents, connect the second one and link them.  The
asserted success of the allocations is taken for granted. -/
def acceptCb (place : Allocation ptr) (socketConnect : Int) (s : World ptr) :
    Result ptr (World ptr) := do
  let s := s.buffereventSocketNew place.bIn
  let s := s.buffereventSocketNew place.bOut
  if socketConnect < 0 then
    let s <- s.buffereventFree place.bOut
    s.buffereventFree place.bIn
  else
    let s <- s.buffereventSetcb place.bIn (some .readcb) none (some .eventcb)
      (some place.bOut)
    let s <- s.buffereventSetcb place.bOut (some .readcb) none (some .eventcb)
      (some place.bIn)
    let s <- s.buffereventEnable place.bIn true true
    s.buffereventEnable place.bOut true true

end LeProxy
end NetExperiment
