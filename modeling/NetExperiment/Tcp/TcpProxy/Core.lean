import NetExperiment.Libevent.Loop

/-!
# The TCP proxy with event contexts

The callbacks and member functions of `TcpProxy`.  One proxy object keeps both
bufferevents of a connection.  The callback argument of a bufferevent is meant
to be an event context, a small object that names the bufferevent to forward to
through the proxy object.  A holder owns the proxy objects and destroys them.

The pointers handed out by the allocator and the results of system calls are
arguments.
-/

namespace NetExperiment
namespace TcpProxy

open Foundation
open Libevent

def MAX_OUTPUT : Nat := 4 * 1024 * 1024

inductive DataCb where
  | evReadCb
  | evWriteCb
  | closeOnFinishedWritecb
deriving DecidableEq, Repr

inductive EventCb where
  | evEventCb
deriving DecidableEq, Repr

/-- A callback argument is a pointer without a type.  The callbacks cast it to
an event context, whatever it points to. -/
inductive VoidPtr (ptr : Type) where
  | evContext (p : ptr)
  | bufferevent (b : ptr)
deriving DecidableEq, Repr

structure EvContext (ptr : Type) where
  target : Int
  proxy : Option ptr
deriving DecidableEq, Repr

structure Proxy (ptr : Type) where
  bOut : Member (Option ptr)
  bIn : Member (Option ptr)
  inContext : Option ptr
  outContext : Option ptr
deriving DecidableEq, Repr

structure Memory (ptr : Type) where
  proxies : Heap ptr (Proxy ptr)
  contexts : Heap ptr (EvContext ptr)
  hmap : List ptr

abbrev World (ptr : Type) :=
  Loop ptr DataCb EventCb (VoidPtr ptr) (Memory ptr)

abbrev Result (ptr alpha : Type) := Except (Fault Resource ptr) alpha

variable {ptr : Type} [DecidableEq ptr]

def World.empty : World ptr where
  bevs := Heap.empty
  sockets := fun _ => Socket.new
  memory := { proxies := Heap.empty, contexts := Heap.empty, hmap := [] }

/-!
## Event contexts
-/

/-- The cast of a callback argument, and the object behind it.  A bufferevent
read as an event context yields nothing that can be relied on. -/
def derefContext (ctx : Option (VoidPtr ptr)) (s : World ptr) :
    Result ptr (EvContext ptr) :=
  match ctx with
  | none => .error (.nullPointer .object)
  | some (.evContext p) => s.memory.contexts.read Resource.object p
  | some (.bufferevent b) => .error (.wildPointer .object b)

def derefProxy (c : EvContext ptr) (s : World ptr) :
    Result ptr (Proxy ptr) :=
  match c.proxy with
  | none => .error (.nullPointer .object)
  | some p => s.memory.proxies.read Resource.object p

def getTargetBuffer (c : EvContext ptr) (s : World ptr) :
    Result ptr (Option ptr) :=
  match c.proxy with
  | none => .ok none
  | some p => do
      let o <- s.memory.proxies.read Resource.object p
      if c.target ≠ 0 then o.bOut.get Resource.bufferevent
      else o.bIn.get Resource.bufferevent

def getPartner (c : EvContext ptr) (s : World ptr) :
    Result ptr (Option ptr) :=
  match c.proxy with
  | none => .ok none
  | some p => do
      let o <- s.memory.proxies.read Resource.object p
      if c.target ≠ 0 then return o.outContext
      else return o.inContext

/-!
## Callbacks
-/

def defaultReadCb (maxOutput : Nat) (bev : ptr) (c : EvContext ptr)
    (s : World ptr) : Result ptr (World ptr) := do
  let partner <- getTargetBuffer c s
  let len <- s.inputLength bev
  match partner with
  | none => s.evbufferDrainInput bev len
  | some partner =>
      let s <- s.evbufferAddBuffer partner bev
      let queued <- s.outputLength partner
      if maxOutput ≤ queued then
        let ctx <- getPartner c s
        let s <- s.buffereventSetcb partner (some .evReadCb) (some .evWriteCb)
          (some .evEventCb) (ctx.map .evContext)
        let s <- s.buffereventSetwatermarkWrite partner (maxOutput / 2)
          maxOutput
        s.buffereventDisable bev true false
      else return s

/-- The argument that is installed here is the bufferevent of the partner and
not an event context. -/
def defaultWriteCb (bev : ptr) (c : EvContext ptr) (s : World ptr) :
    Result ptr (World ptr) := do
  let partner <- getTargetBuffer c s
  let s <- s.buffereventSetcb bev (some .evReadCb) none (some .evEventCb)
    (partner.map .bufferevent)
  let s <- s.buffereventSetwatermarkWrite bev 0 0
  match partner with
  | none => return s
  | some partner => s.buffereventEnable partner true false

def defaultEventCb (_bev : ptr) (_what : What) (_c : EvContext ptr)
    (s : World ptr) : Result ptr (World ptr) :=
  .ok s

/-- The proxy object calls its default functions. -/
def evReadCb (maxOutput : Nat) (bev : ptr) (ctx : Option (VoidPtr ptr))
    (s : World ptr) : Result ptr (World ptr) := do
  let c <- derefContext ctx s
  let _ <- derefProxy c s
  defaultReadCb maxOutput bev c s

def evWriteCb (bev : ptr) (ctx : Option (VoidPtr ptr)) (s : World ptr) :
    Result ptr (World ptr) := do
  let c <- derefContext ctx s
  let _ <- derefProxy c s
  defaultWriteCb bev c s

def closeOnFinishedWritecb (bev : ptr) (_ctx : Option (VoidPtr ptr))
    (s : World ptr) : Result ptr (World ptr) := do
  let len <- s.outputLength bev
  if len = 0 then s.buffereventFree bev else return s

/-- What the event callback does to the partner of a side that has ended: flush
the input of the side, then close the partner at once or after its output. -/
def closePartner (maxOutput : Nat) (bev partner : ptr)
    (ctx : Option (VoidPtr ptr)) (s : World ptr) : Result ptr (World ptr) := do
  let s <- evReadCb maxOutput bev ctx s
  let queued <- s.outputLength partner
  if queued ≠ 0 then
    let s <- s.buffereventSetcb partner none (some .closeOnFinishedWritecb)
      (some .evEventCb) ctx
    s.buffereventDisable partner true false
  else s.buffereventFree partner

def evEventCb (maxOutput : Nat) (bev : ptr) (what : What)
    (ctx : Option (VoidPtr ptr)) (s : World ptr) : Result ptr (World ptr) := do
  let c <- derefContext ctx s
  let _ <- derefProxy c s
  let s <- defaultEventCb bev what c s
  let partner <- getTargetBuffer c s
  if what.Fatal then
    match partner with
    | none => s.buffereventFree bev
    | some partner =>
        let s <- closePartner maxOutput bev partner ctx s
        s.buffereventFree bev
  else return s

def program (maxOutput : Nat) :
    Loop.Program ptr DataCb EventCb (VoidPtr ptr) (Memory ptr) where
  data
    | .evReadCb => evReadCb maxOutput
    | .evWriteCb => evWriteCb
    | .closeOnFinishedWritecb => closeOnFinishedWritecb
  event
    | .evEventCb => evEventCb maxOutput

/-!
## Setting up and destroying a proxy
-/

structure Allocation (ptr : Type) where
  proxy : ptr
  bIn : ptr
  bOut : ptr
  inContext : ptr
  outContext : ptr
  distinct : bIn ≠ bOut
  distinctContexts : inContext ≠ outContext

def newProxy (p : ptr) (s : World ptr) : World ptr :=
  { s with
    memory := { s.memory with
      proxies := s.memory.proxies.alloc p
        { bOut := .unassigned
          bIn := .unassigned
          inContext := none
          outContext := none } } }

def assign (p : ptr) (f : Proxy ptr -> Proxy ptr) (s : World ptr) :
    Result ptr (World ptr) := do
  let proxies <- s.memory.proxies.modify Resource.object p f
  return { s with memory := { s.memory with proxies := proxies } }

def newEvContext (p : ptr) (target : Int) (proxy : ptr) (s : World ptr) :
    World ptr :=
  { s with
    memory := { s.memory with
      contexts := s.memory.contexts.alloc p
        { target := target, proxy := some proxy } } }

/-- Set up the two sides of a proxy object.  The function that looks up the
original destination has no return statement, so what it returns is an argument
here.  This function has none at its end either; the result says whether it got
there. -/
def defaultAcceptCb (place : Allocation ptr) (setOriginDestAddr : Bool)
    (socketConnect : Int) (s : World ptr) : Result ptr (Bool × World ptr) := do
  let this := place.proxy
  let s := s.buffereventSocketNew place.bIn
  let s <- assign this (fun o => { o with bIn := .assigned (some place.bIn) }) s
  let s := s.buffereventSocketNew place.bOut
  let s <- assign this
    (fun o => { o with bOut := .assigned (some place.bOut) }) s
  if setOriginDestAddr = false then return (false, s)
  else if socketConnect < 0 then return (false, s)
  else
    let s := newEvContext place.outContext 1 this s
    let s <- assign this
      (fun o => { o with outContext := some place.outContext }) s
    let s := newEvContext place.inContext 0 this s
    let s <- assign this
      (fun o => { o with inContext := some place.inContext }) s
    let s <- s.buffereventSetcb place.bIn (some .evReadCb) none
      (some .evEventCb) (some (.evContext place.outContext))
    let s <- s.buffereventSetcb place.bOut (some .evReadCb) none
      (some .evEventCb) (some (.evContext place.inContext))
    let s <- s.buffereventEnable place.bIn true true
    let s <- s.buffereventEnable place.bOut true true
    return (true, s)

def deleteContext (p : Option ptr) (s : World ptr) :
    Result ptr (World ptr) :=
  match p with
  | none => .ok s
  | some p => do
      let contexts <- s.memory.contexts.free Resource.object p
      return { s with memory := { s.memory with contexts := contexts } }

def bufferOf (m : Member (Option ptr)) : Result ptr ptr := do
  let b <- m.get Resource.bufferevent
  match b with
  | none => .error (.nullPointer .bufferevent)
  | some b => .ok b

/-- What is left of a proxy object after the body of its destructor: the
contexts that it owns, then its own memory. -/
def deleteMembers (p : ptr) (o : Proxy ptr) (s : World ptr) :
    Result ptr (World ptr) := do
  let s <- deleteContext o.outContext s
  let s <- deleteContext o.inContext s
  let proxies <- s.memory.proxies.free Resource.object p
  return { s with memory := { s.memory with proxies := proxies } }

/-- Delete a proxy object.  The destructor frees both bufferevents, whether or
not a callback did so before. -/
def deleteProxy (p : ptr) (s : World ptr) : Result ptr (World ptr) := do
  let o <- s.memory.proxies.read Resource.object p
  let bOut <- bufferOf o.bOut
  let s <- s.buffereventFree bOut
  let bIn <- bufferOf o.bIn
  let s <- s.buffereventFree bIn
  deleteMembers p o s

/-- The holder takes over a proxy object.  The key is its address; an object
whose key is taken is not inserted and so deleted. -/
def append (p : ptr) (s : World ptr) : Result ptr (World ptr) :=
  if p ∈ s.memory.hmap then deleteProxy p s
  else .ok { s with memory := { s.memory with hmap := p :: s.memory.hmap } }

def remove (p : ptr) (s : World ptr) : Result ptr (World ptr) :=
  if p ∈ s.memory.hmap then do
    let s <- deleteProxy p s
    return { s with
      memory := { s.memory with hmap := s.memory.hmap.erase p } }
  else .ok s

end TcpProxy
end NetExperiment
