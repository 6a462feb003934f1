import NetExperiment.Libevent.Loop

/-!
# The transparent TCP proxy

The callbacks and member functions of `TransparentTcpProxy`.  A connection is a
pair of proxy objects that point to each other, each with a bufferevent of its
own.  While a pair relays, the callback argument of a bufferevent is the object
of the other side; while a side flushes its last output, it is the side's own
object.

The model is generic in the type of pointers.  The pointers handed out by the
allocator and the results of system calls are arguments.
-/

namespace NetExperiment
namespace TransparentTcpProxy

open Foundation
open Libevent

def MAX_OUTPUT : Nat := 4 * 1024 * 1024

inductive DataCb where
  | readcb
  | drainedWritecb
  | closeOnFinishedWritecb
deriving DecidableEq, Repr

inductive EventCb where
  | eventcb
deriving DecidableEq, Repr

structure Sockaddr where
  sinAddr : BitVec 32
  sinPort : BitVec 16
deriving DecidableEq, Repr

structure Proxy (ptr : Type) where
  partner : Member (Option ptr)
  addr : Member Sockaddr
  srcLen : Nat
  fd : Member Int
  buffer : Member (Option ptr)
deriving DecidableEq, Repr

abbrev World (ptr : Type) :=
  Loop ptr DataCb EventCb ptr (Heap ptr (Proxy ptr))

abbrev Result (ptr alpha : Type) :=
  Except (Fault Resource ptr) alpha

variable {ptr : Type} [DecidableEq ptr]

def World.empty : World ptr where
  bevs := Heap.empty
  sockets := fun _ => Socket.new
  memory := Heap.empty

/-!
## Objects
-/

def deref (p : Option ptr) (s : World ptr) : Result ptr (Proxy ptr) :=
  match p with
  | none => .error (.nullPointer .object)
  | some p => s.memory.read Resource.object p

def assign (p : ptr) (f : Proxy ptr -> Proxy ptr) (s : World ptr) :
    Result ptr (World ptr) := do
  let memory <- s.memory.modify Resource.object p f
  return { s with memory := memory }

def bufferOf (o : Proxy ptr) : Result ptr ptr := do
  let buffer <- o.buffer.get Resource.bufferevent
  match buffer with
  | none => .error (.nullPointer .bufferevent)
  | some b => .ok b

/-- A new object has its address length set and the rest of these members
left unassigned. -/
def newProxy (p : ptr) (s : World ptr) : World ptr :=
  { s with
    memory := s.memory.alloc p
      { partner := .unassigned
        addr := .unassigned
        srcLen := 128
        fd := .unassigned
        buffer := .unassigned } }

/-- Delete an object.  The destructor frees the bufferevent of the object;
deleting a null pointer does nothing. -/
def deleteProxy (p : Option ptr) (s : World ptr) :
    Result ptr (World ptr) :=
  match p with
  | none => .ok s
  | some p => do
      let memory <- s.memory.free Resource.object p
      let o <- s.memory.read Resource.object p
      let b <- bufferOf o
      let s <- s.buffereventFree b
      return { s with memory := memory }

theorem deleteProxy_live {s : World ptr} {p b : ptr} {o : Proxy ptr}
    {bev : Bufferevent DataCb EventCb ptr} (hobject : s.memory p = .live o)
    (hbuffer : o.buffer = .assigned (some b)) (hbev : s.bevs b = .live bev) :
    deleteProxy (some p) s =
      .ok { s with
        bevs := Function.update s.bevs b .freed
        memory := Function.update s.memory p .freed } := by
  simp only [deleteProxy, bufferOf]
  rw [Heap.free_live _ hobject, ok_bind, Heap.read_live _ hobject, ok_bind,
    hbuffer, Member.get_assigned, ok_bind]
  simp only [ok_bind]
  rw [Loop.buffereventFree_live hbev]
  rfl

theorem deleteProxy_freed {s : World ptr} {p : ptr}
    (h : s.memory p = .freed) :
    deleteProxy (some p) s = .error (.doubleFree .object p) := by
  simp only [deleteProxy]
  rw [Heap.free_freed _ h]
  rfl

def freeProxy (proxy : Option ptr) (s : World ptr) :
    Result ptr (World ptr) := do
  let o <- deref proxy s
  let partner <- o.partner.get Resource.object
  let s <- deleteProxy partner s
  deleteProxy proxy s

/-!
## Callbacks
-/

def readcb (maxOutput : Nat) (bev : ptr) (ctx : Option ptr) (s : World ptr) :
    Result ptr (World ptr) := do
  let len <- s.inputLength bev
  let partner <- deref ctx s
  let buffer <- partner.buffer.get Resource.bufferevent
  match buffer with
  | none =>
      -- the other side has no bufferevent: drop the input and the pair
      let s <- s.evbufferDrainInput bev len
      freeProxy ctx s
  | some buffer =>
      let s <- s.evbufferAddBuffer buffer bev
      let queued <- s.outputLength buffer
      if maxOutput ≤ queued then
        let partnerPartner <- partner.partner.get Resource.object
        let s <- s.buffereventSetcb buffer (some .readcb)
          (some .drainedWritecb) (some .eventcb) partnerPartner
        let s <- s.buffereventSetwatermarkWrite buffer (maxOutput / 2)
          maxOutput
        s.buffereventDisable bev true false
      else return s

def drainedWritecb (bev : ptr) (ctx : Option ptr) (s : World ptr) :
    Result ptr (World ptr) := do
  let s <- s.buffereventSetcb bev (some .readcb) none (some .eventcb) ctx
  let s <- s.buffereventSetwatermarkWrite bev 0 0
  let partner <- deref ctx s
  let buffer <- partner.buffer.get Resource.bufferevent
  match buffer with
  | none => return s
  | some buffer => s.buffereventEnable buffer true false

def closeOnFinishedWritecb (bev : ptr) (ctx : Option ptr) (s : World ptr) :
    Result ptr (World ptr) := do
  let len <- s.outputLength bev
  if len = 0 then deleteProxy ctx s else return s

/-- The local variable of the event callback for the partner's partner.  It
stays unassigned when there is no partner. -/
def partnerOf (ctx : Option ptr) (s : World ptr) :
    Result ptr (Member (Option ptr)) :=
  match ctx with
  | none => .ok .unassigned
  | some _ => do
      let partner <- deref ctx s
      return partner.partner

/-- What the event callback does to the partner of a side that has ended: flush
the input of the side, then close the partner at once or after its output. -/
def closePartner (maxOutput : Nat) (bev : ptr) (ctx : Option ptr)
    (s : World ptr) : Result ptr (World ptr) := do
  let s <- readcb maxOutput bev ctx s
  let partner <- deref ctx s
  let buffer <- bufferOf partner
  let queued <- s.outputLength buffer
  if queued ≠ 0 then
    let s <- s.buffereventSetcb buffer none (some .closeOnFinishedWritecb)
      (some .eventcb) ctx
    s.buffereventDisable buffer true false
  else deleteProxy ctx s

def eventcb (maxOutput : Nat) (bev : ptr) (what : What) (ctx : Option ptr)
    (s : World ptr) : Result ptr (World ptr) := do
  let p2 <- partnerOf ctx s
  if what.Fatal then
    let s <- if ctx.isSome then closePartner maxOutput bev ctx s else .ok s
    let p2 <- p2.get Resource.object
    deleteProxy p2 s
  else return s

def program (maxOutput : Nat) :
    Loop.Program ptr DataCb EventCb ptr (Heap ptr (Proxy ptr)) where
  data
    | .readcb => readcb maxOutput
    | .drainedWritecb => drainedWritecb
    | .closeOnFinishedWritecb => closeOnFinishedWritecb
  event
    | .eventcb => eventcb maxOutput

/-!
## Accepting a connection
-/

/-- What the system calls made for one incoming connection return.  A failed
lookup returns no address. -/
structure SystemResults where
  soOriginalDst : Option (Sockaddr × Nat)
  ipOrigdstaddr : Option (Sockaddr × Nat)
  socketConnect : Int
  upstreamFd : Int
deriving DecidableEq, Repr

structure Allocation (ptr : Type) where
  proxy : ptr
  partner : ptr
  buffer : ptr
  partnerBuffer : ptr

structure Incoming where
  fd : Int
  addr : Sockaddr
  slen : Nat
deriving DecidableEq, Repr

def Proxy.withAddress (dst : Sockaddr × Nat) (o : Proxy ptr) : Proxy ptr :=
  { o with addr := .assigned dst.1, srcLen := dst.2 }

/-- Create the partner object and look up its address, for iptables and then
for tproxy.  Returns the partner, or null when there is no original
destination. -/
def initTransparentPartner (this partner : ptr) (r : SystemResults)
    (s : World ptr) : Result ptr (Option ptr × World ptr) := do
  let s := newProxy partner s
  let s <- assign this
    (fun o => { o with partner := .assigned (some partner) }) s
  let s <- assign partner
    (fun o => { o with partner := .assigned (some this) }) s
  match r.soOriginalDst with
  | some dst =>
      let s <- assign partner (Proxy.withAddress dst) s
      return (some partner, s)
  | none =>
      match r.ipOrigdstaddr with
      | some dst =>
          let s <- assign partner (Proxy.withAddress dst) s
          -- a lookup that yields port 0 counts as a failure
          if 0 < dst.1.sinPort.toNat then return (some partner, s)
          else return (none, s)
      | none => return (none, s)

def connectToUpstream (this buffer : ptr) (r : SystemResults)
    (s : World ptr) : Result ptr (Bool × World ptr) := do
  let s := s.buffereventSocketNew buffer
  let s <- assign this (fun o => { o with buffer := .assigned (some buffer) }) s
  if r.socketConnect < 0 then return (false, s)
  else
    let s <- assign this (fun o => { o with fd := .assigned r.upstreamFd }) s
    return (true, s)

def start (this : ptr) (s : World ptr) : Result ptr (World ptr) := do
  let o <- deref (some this) s
  let buffer <- bufferOf o
  let partner <- o.partner.get Resource.object
  let s <- s.buffereventSetcb buffer (some .readcb) none (some .eventcb) partner
  s.buffereventEnable buffer true true

def defaultAcceptCb (place : Allocation ptr) (conn : Incoming)
    (r : SystemResults) (s : World ptr) : Result ptr (Bool × World ptr) := do
  let this := place.proxy
  let s <- assign this
    (fun o => { o with
      fd := .assigned conn.fd
      addr := .assigned conn.addr
      srcLen := conn.slen }) s
  let s := s.buffereventSocketNew place.buffer
  let s <- assign this
    (fun o => { o with buffer := .assigned (some place.buffer) }) s
  let (found, s) <- initTransparentPartner this place.partner r s
  match found with
  | none => return (false, s)
  | some partner =>
      let (connected, s) <- connectToUpstream partner place.partnerBuffer r s
      if connected then
        let s <- start this s
        let s <- start partner s
        return (true, s)
      else return (false, s)

/-- The function the listener calls for each incoming connection. -/
def acceptConnection (place : Allocation ptr) (conn : Incoming)
    (r : SystemResults) (s : World ptr) : Result ptr (Bool × World ptr) := do
  let s := newProxy place.proxy s
  let (accepted, s) <- defaultAcceptCb place conn r s
  if accepted then return (true, s)
  else
    let proxy <- deref (some place.proxy) s
    let partner <- proxy.partner.get Resource.object
    let s <- deleteProxy partner s
    let s <- deleteProxy (some place.proxy) s
    return (false, s)

end TransparentTcpProxy
end NetExperiment
