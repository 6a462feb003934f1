import NetExperiment.Tcp.TcpProxy.Runs

/-!
# Lifetime of the bufferevents of a proxy

The two bufferevents of a proxy are freed by the event callback, by the closing
callback and by the destructor of the proxy object, which the holder runs when
it removes the object.  None of them records that it did so.
-/

namespace NetExperiment
namespace TcpProxy

open Foundation
open Libevent
open Relay

variable {ptr : Type} [DecidableEq ptr]

inductive Act where
  | io (a : Action Side)
  | remove
deriving DecidableEq, Repr

def Allocation.ownedMachine (place : Allocation ptr) (maxOutput : Nat) :
    Machine (World ptr) Act (Fault Resource ptr) where
  step := fun s act =>
    match act with
    | .io a => (place.machine maxOutput).step s a
    | .remove => remove place.proxy s

def Allocation.memoryOwned (place : Allocation ptr) (m : Memory ptr) :
    Memory ptr :=
  { place.memoryAfter m with hmap := place.proxy :: m.hmap }

abbrev Allocation.ownedLayout (place : Allocation ptr)
    (background : World ptr) :
    Layout ptr DataCb EventCb (VoidPtr ptr) (Memory ptr) :=
  place.layout (place.memoryOwned background.memory)

theorem linked_memoryOwned (place : Allocation ptr) (m : Memory ptr) :
    Linked place (place.memoryOwned m) where
  proxy := (linked_memoryAfter place m).proxy
  context := (linked_memoryAfter place m).context

theorem append_embed {place : Allocation ptr} {setOriginDestAddr : Bool}
    {socketConnect : Int} {background s0 s1 : World ptr}
    (hstart : defaultAcceptCb place setOriginDestAddr socketConnect
      (newProxy place.proxy background) = .ok (true, s0))
    (hfresh : place.proxy ∉ background.memory.hmap)
    (happend : append place.proxy s0 = .ok s1) :
    s1 = (place.ownedLayout background).embed background
      Relay.State.new := by
  rw [defaultAcceptCb_embed hstart] at happend
  unfold append at happend
  have habsent : place.proxy ∉ ((place.layout (place.memoryAfter
      background.memory)).embed background Relay.State.new).memory.hmap :=
    hfresh
  rw [if_neg habsent] at happend
  cases happend
  rfl

/-!
## Destroying the proxy object
-/

def Allocation.memoryRemoved (place : Allocation ptr) (m : Memory ptr) :
    Memory ptr where
  proxies := Function.update (place.memoryOwned m).proxies place.proxy .freed
  contexts := Function.update
    (Function.update (place.memoryOwned m).contexts place.outContext .freed)
    place.inContext .freed
  hmap := m.hmap

noncomputable def removedLoop (place : Allocation ptr) (background : World ptr)
    (sockets : Side -> Socket) : World ptr :=
  (place.ownedLayout background).overlay background
    (fun _ => .freed) sockets (place.memoryRemoved background.memory)

theorem deleteContext_live {s : World ptr} {p : ptr} {c : EvContext ptr}
    (h : s.memory.contexts p = .live c) :
    deleteContext (some p) s = .ok { s with
      memory := { s.memory with
        contexts := Function.update s.memory.contexts p .freed } } := by
  simp only [deleteContext]
  rw [Heap.free_live _ h]
  rfl

theorem deleteMembers_owned {place : Allocation ptr} {s : World ptr}
    {m : Memory ptr} (h : s.memory = place.memoryOwned m) :
    deleteMembers place.proxy place.proxyObject s =
      .ok { s with
        memory := { place.memoryRemoved m with
          hmap := place.proxy :: m.hmap } } := by
  have hlinked := linked_memoryOwned place m
  have hout : s.memory.contexts place.outContext =
      .live (place.contextOf .accepted) := by
    rw [h]
    exact hlinked.context .accepted
  have hin : Function.update s.memory.contexts place.outContext .freed
      place.inContext = .live (place.contextOf .upstream) := by
    rw [Function.update_of_ne place.distinctContexts, h]
    exact hlinked.context .upstream
  have hproxy : s.memory.proxies place.proxy = .live place.proxyObject := by
    rw [h]
    exact hlinked.proxy
  simp only [deleteMembers, Allocation.proxyObject]
  rw [deleteContext_live hout, ok_bind, deleteContext_live hin, ok_bind,
    Heap.free_live _ hproxy, ok_bind, h]
  rfl

theorem deleteProxy_linked {place : Allocation ptr} {s : World ptr}
    (h : s.memory.proxies place.proxy = .live place.proxyObject) :
    deleteProxy place.proxy s = (do
      let s <- s.buffereventFree place.bOut
      let s <- s.buffereventFree place.bIn
      deleteMembers place.proxy place.proxyObject s) := by
  unfold deleteProxy
  rw [Heap.read_live _ h, ok_bind]
  rfl

theorem remove_relaying (place : Allocation ptr) (background : World ptr)
    (ends : Side -> Endpoint) (sockets : Side -> Socket) :
    remove place.proxy ((place.ownedLayout background).relayingLoop background
        ends sockets) =
      .ok (removedLoop place background sockets) := by
  have hlinked := linked_memoryOwned place background.memory
  have hheld : place.proxy ∈ ((place.ownedLayout background).relayingLoop
      background ends sockets).memory.hmap := List.mem_cons_self
  have hfree := (place.ownedLayout background).free_relaying background ends
    sockets .accepted
  have hdelete : deleteProxy place.proxy ((place.ownedLayout
      background).relayingLoop background ends sockets) =
      deleteMembers place.proxy place.proxyObject
        ((place.ownedLayout background).overlay background
          (fun _ => .freed) sockets (place.memoryOwned background.memory)) := by
    rw [deleteProxy_linked hlinked.proxy, ← bind_assoc]
    exact congrArg (· >>= deleteMembers place.proxy place.proxyObject) hfree
  unfold remove
  rw [if_pos hheld, hdelete, deleteMembers_owned rfl, ok_bind]
  simp only [List.erase_cons_head]
  rfl

theorem embed_memory_owned (place : Allocation ptr) (background : World ptr)
    (r : Relay.State) :
    ((place.ownedLayout background).embed background r).memory =
      place.memoryOwned background.memory := by
  unfold Layout.embed Layout.overlay Layout.memoryOf
  cases r.phase <;> rfl

/-- When a side is gone already, the destructor frees it again. -/
theorem remove_ended (place : Allocation ptr) (background : World ptr)
    {r : Relay.State} (h : forall ends, r.phase ≠ .relaying ends) :
    exists x, remove place.proxy
        ((place.ownedLayout background).embed background r) =
      .error (.doubleFree .bufferevent (place.bufferAt x)) := by
  have hmemory := embed_memory_owned place background r
  have hheld : place.proxy ∈
      ((place.ownedLayout background).embed background r).memory.hmap := by
    rw [hmemory]
    exact List.mem_cons_self
  have hproxy : ((place.ownedLayout background).embed background
      r).memory.proxies place.proxy = .live place.proxyObject := by
    rw [hmemory]
    exact (linked_memoryOwned place background.memory).proxy
  unfold remove
  rw [if_pos hheld, deleteProxy_linked hproxy]
  rcases Layout.bevsOf_live_or_freed (L := place.ownedLayout background)
    r.phase .upstream with ⟨bev, hout⟩ | hout
  · -- then the other side is the one that is gone
    have hin : (place.ownedLayout background).bevsOf r.phase .accepted =
        .freed := by
      rcases Layout.exists_freed (L := place.ownedLayout background) h with
        ⟨x, hx⟩
      cases x with
      | accepted => exact hx
      | upstream =>
          rw [hout] at hx
          cases hx
    refine ⟨.accepted, ?_⟩
    have hfirst : ((place.ownedLayout background).embed background
        r).buffereventFree place.bOut = _ := Layout.embed_free hout
    rw [hfirst, ok_bind]
    have hsecond : ((place.ownedLayout background).overlay background
        (Function.update ((place.ownedLayout background).bevsOf r.phase)
          .upstream .freed) r.sockets
        ((place.ownedLayout background).memoryOf r.phase)).buffereventFree
          place.bIn = .error (.doubleFree .bufferevent place.bIn) :=
      Layout.overlay_free_freed (x := .accepted)
        ((Function.update_of_ne (Side.ne_other .accepted) _ _).trans hin)
    rw [hsecond]
    rfl
  · refine ⟨.upstream, ?_⟩
    have hfirst : ((place.ownedLayout background).embed background
        r).buffereventFree place.bOut =
        .error (.doubleFree .bufferevent place.bOut) :=
      Layout.embed_free_freed hout
    rw [hfirst]
    rfl

theorem step_removed {place : Allocation ptr} {background : World ptr}
    (hfresh : place.proxy ∉ background.memory.hmap) {maxOutput : Nat}
    (sockets : Side -> Socket) (act : Act) :
    (place.ownedMachine maxOutput).step (removedLoop place background sockets)
        act =
      .ok (removedLoop place background sockets) := by
  cases act with
  | io a =>
      have hfreed : (removedLoop place background sockets).bevs
          (place.bufferAt a.target) = .freed := Layout.overlay_bevs a.target
      show Loop.step _ _ (Action.map place.bufferAt a) = _
      simp only [Loop.step, Action.map, hfreed]
  | remove =>
      have habsent : place.proxy ∉
          (removedLoop place background sockets).memory.hmap := hfresh
      exact if_neg habsent

/-!
## Runs
-/

/-- An end of file or an error is handled for a bufferevent that was left to
flush its output and has both buffers empty. -/
def EndsWhileDrained (place : Allocation ptr) (s : World ptr) (a : Action Side) :
    Prop :=
  a.occurrence = .deferredEvent ∧
    exists bev, s.bevs (place.bufferAt a.target) = .live bev ∧
      bev.writecb = some .closeOnFinishedWritecb ∧ bev.eventcbPending.Fatal ∧
      bev.output = [] ∧ bev.input = []

/-- The holder removes a proxy object of which a bufferevent was freed
before. -/
def RemovesLate (place : Allocation ptr) (s : World ptr) : Prop :=
  place.proxy ∈ s.memory.hmap ∧
    exists x, ¬ (s.bevs (place.bufferAt x)).IsLive

/-- What must not happen for the bufferevents to be freed only once. -/
def Act.Safe (place : Allocation ptr) (s : World ptr) : Act -> Prop
  | .io a => ¬ EndsWhileDrained place s a
  | .remove => ¬ RemovesLate place s

/-- What must not happen for the callback arguments to stay right. -/
def Act.Unchoking (place : Allocation ptr) (s : World ptr) : Act -> Prop
  | .io a => ¬ Backpressure place s a
  | .remove => True

omit [DecidableEq ptr] in
theorem endsWhileDrained_embed {place : Allocation ptr} {m : Memory ptr}
    {background : World ptr} {r : Relay.State} {a : Action Side} :
    EndsWhileDrained place ((place.layout m).embed background r) a <->
      EndsDrained r a := by
  have hcell : forall x, ((place.layout m).embed background r).bevs
      (place.bufferAt x) = (place.layout m).bevsOf r.phase x :=
    Layout.embed_bevs
  unfold EndsWhileDrained EndsDrained
  rw [hcell]
  refine and_congr_right (fun _ => ?_)
  cases r.phase with
  | relaying ends =>
      constructor
      · intro h
        rcases h with ⟨bev, hbev, hwritecb, _⟩
        cases hbev
        cases hdraining : (ends a.target).draining <;>
          simp [Layout.relayingBev, Allocation.layout, hdraining] at hwritecb
      · intro h
        rcases h with ⟨c, hphase, _⟩
        cases hphase
  | closing y c =>
      by_cases htarget : a.target = y
      · subst htarget
        constructor
        · intro h
          rcases h with ⟨bev, hbev, _, hfatal, houtput, hinput⟩
          simp only [Layout.bevsOf, if_true] at hbev
          cases hbev
          exact ⟨c, rfl, hfatal, List.append_eq_nil_iff.mpr ⟨houtput, hinput⟩⟩
        · intro h
          rcases h with ⟨d, hphase, hfatal, hempty⟩
          cases hphase
          rcases List.append_eq_nil_iff.mp hempty with ⟨houtput, hinput⟩
          exact ⟨_, if_pos rfl, rfl, hfatal, houtput, hinput⟩
      · constructor
        · intro h
          rcases h with ⟨bev, hbev, _⟩
          simp only [Layout.bevsOf, if_neg htarget] at hbev
          cases hbev
        · intro h
          rcases h with ⟨d, hphase, _⟩
          cases hphase
          exact absurd rfl htarget
  | closed =>
      constructor
      · intro h
        rcases h with ⟨bev, hbev, _⟩
        cases hbev
      · intro h
        rcases h with ⟨c, hphase, _⟩
        cases hphase

/-- The proxy object is there and its bufferevents are in a state of the relay,
or everything is gone. -/
def Owned (place : Allocation ptr) (background s : World ptr) : Prop :=
  (exists r, s = (place.ownedLayout background).embed background r ∧
    Unchoked r) ∨
  exists sockets, s = removedLoop place background sockets

theorem step_owned {place : Allocation ptr} {background : World ptr}
    (hfresh : place.proxy ∉ background.memory.hmap) {s : World ptr} {act : Act}
    (hs : Owned place background s) (hchoke : act.Unchoking place s)
    (hsafe : act.Safe place s) :
    exists next, (place.ownedMachine MAX_OUTPUT).step s act = .ok next ∧
      Owned place background next := by
  have hlinked := linked_memoryOwned place background.memory
  rcases hs with ⟨r, rfl, hopen⟩ | ⟨sockets, rfl⟩
  · cases act with
    | io a =>
        have hfew : ¬ Chokes MAX_OUTPUT r a :=
          fun h => hchoke (backpressure_embed.mpr h)
        have hdrained : ¬ EndsDrained r a :=
          fun h => hsafe (endsWhileDrained_embed.mpr h)
        exact ⟨_, step_embed hlinked background hfew hdrained hopen,
          .inl ⟨_, rfl, step_unchoked hopen hfew⟩⟩
    | remove =>
        by_cases hphase : exists ends, r.phase = .relaying ends
        · rcases r with ⟨phase, sockets⟩
          rcases hphase with ⟨ends, hrelaying⟩
          have hends : phase = .relaying ends := hrelaying
          subst hends
          exact ⟨_, remove_relaying place background ends sockets,
            .inr ⟨sockets, rfl⟩⟩
        · refine absurd ⟨?_, ?_⟩ hsafe
          · rw [embed_memory_owned]
            exact List.mem_cons_self
          · rcases Layout.exists_freed (L := place.ownedLayout background)
              (fun ends h => hphase ⟨ends, h⟩) with ⟨x, hx⟩
            refine ⟨x, ?_⟩
            have hcell : ((place.ownedLayout background).embed background
                r).bevs (place.bufferAt x) = .freed :=
              (Layout.embed_bevs x).trans hx
            rw [hcell]
            exact Cell.not_isLive_freed
  · exact ⟨_, step_removed hfresh sockets act, .inr ⟨sockets, rfl⟩⟩

theorem safe_of_step {place : Allocation ptr} {background : World ptr}
    (hfresh : place.proxy ∉ background.memory.hmap) {s next : World ptr}
    {act : Act} (hs : Owned place background s)
    (hstep : (place.ownedMachine MAX_OUTPUT).step s act = .ok next) :
    act.Safe place s := by
  have hlinked := linked_memoryOwned place background.memory
  rcases hs with ⟨r, rfl, hopen⟩ | ⟨sockets, rfl⟩
  · cases act with
    | io a =>
        intro hends
        have hio : (place.machine MAX_OUTPUT).step
            ((place.ownedLayout background).embed background r) a =
            .ok next := hstep
        rw [step_endsDrained hlinked background
          (endsWhileDrained_embed.mp hends)] at hio
        cases hio
    | remove =>
        intro hlate
        rcases hlate with ⟨_, x, hgone⟩
        have hphase : forall ends, r.phase ≠ .relaying ends := by
          intro ends hphase
          have hcell : ((place.ownedLayout background).embed background
              r).bevs (place.bufferAt x) =
              (place.ownedLayout background).bevsOf r.phase x :=
            Layout.embed_bevs x
          rw [hcell, hphase] at hgone
          exact hgone (Cell.isLive_live _)
        rcases remove_ended place background hphase with ⟨z, herror⟩
        have hsame := herror.symm.trans hstep
        cases hsame
  · cases act with
    | io a =>
        intro hends
        rcases hends with ⟨_, bev, hbev, _⟩
        have hfreed : (removedLoop place background sockets).bevs
            (place.bufferAt a.target) = .freed := Layout.overlay_bevs a.target
        rw [hfreed] at hbev
        cases hbev
    | remove =>
        intro hlate
        exact hfresh hlate.1

/-- As long as no read callback brings the output of the other side to the
limit, each bufferevent is freed at most once and not used afterwards, exactly
if no end of file or error is handled for a survivor with empty buffers and the
proxy object is removed only while both bufferevents are live. -/
theorem run_ok_iff_safe {place : Allocation ptr} {setOriginDestAddr : Bool}
    {socketConnect : Int} {background s0 s1 : World ptr} {acts : List Act}
    (hfresh : place.proxy ∉ background.memory.hmap)
    (hstart : defaultAcceptCb place setOriginDestAddr socketConnect
      (newProxy place.proxy background) = .ok (true, s0))
    (happend : append place.proxy s0 = .ok s1)
    (hflow : (place.ownedMachine MAX_OUTPUT).Along (Act.Unchoking place) s1
      acts) :
    (exists s, (place.ownedMachine MAX_OUTPUT).run s1 acts = .ok s) <->
      (place.ownedMachine MAX_OUTPUT).Along (Act.Safe place) s1 acts := by
  have hinit : Owned place background s1 :=
    .inl ⟨_, append_embed hstart hfresh happend, unchoked_new⟩
  refine Machine.run_ok_iff_along_of (I := Owned place background) ?_ ?_ hinit
    hflow
  · intro s act hs hchoke hsafe
    exact step_owned hfresh hs hchoke hsafe
  · intro s act next hs _ hstep
    exact safe_of_step hfresh hs hstep

/-!
A connection from a local client in the hands of a holder, for runs on fixed
inputs.
-/

def localOwned : Result Nat (World Nat) := do
  let (_, s) <- defaultAcceptCb localPlace true 0
    (newProxy localPlace.proxy World.empty)
  append localPlace.proxy s

def ownedCheck (acts : List Act) (check : Result Nat (World Nat) -> Bool) :
    Bool :=
  match localOwned with
  | .ok s1 => check ((localPlace.ownedMachine MAX_OUTPUT).run s1 acts)
  | .error _ => false

theorem exists_of_ownedCheck {acts : List Act}
    {check : Result Nat (World Nat) -> Bool}
    (h : ownedCheck acts check = true) :
    exists s0 s1, defaultAcceptCb localPlace true 0
        (newProxy localPlace.proxy World.empty) = .ok (true, s0) ∧
      append localPlace.proxy s0 = .ok s1 ∧
      check ((localPlace.ownedMachine MAX_OUTPUT).run s1 acts) = true := by
  rcases exists_localStart with ⟨s0, hstart⟩
  unfold ownedCheck localOwned at h
  rw [hstart, ok_bind] at h
  cases hs1 : append localPlace.proxy s0 with
  | ok s1 =>
      simp only [hs1] at h
      exact ⟨s0, s1, hstart, hs1, h⟩
  | error e =>
      simp only [hs1] at h
      cases h

def flushTrace : List Act :=
  [.io ⟨.accepted, .socketRead [65]⟩, .io ⟨.accepted, .deferredRead⟩,
    .io ⟨.accepted, .report (BEV_EVENT_EOF ||| BEV_EVENT_READING)⟩,
    .io ⟨.accepted, .deferredEvent⟩, .io ⟨.upstream, .socketWrite 1⟩]

/-- The closing callback frees the server side, and then the holder removes the
proxy object, which frees both sides again.  An end of the server side that is
handled before the closing callback frees it twice as well. -/
theorem proxy_doubleFree :
    exists s0 s1, defaultAcceptCb localPlace true 0
        (newProxy localPlace.proxy World.empty) = .ok (true, s0) ∧
      append localPlace.proxy s0 = .ok s1 ∧
      (localPlace.ownedMachine MAX_OUTPUT).run s1 (flushTrace ++
        [.io ⟨.upstream, .deferredWrite⟩, .remove]) =
        .error (.doubleFree .bufferevent localPlace.bOut) ∧
      (localPlace.ownedMachine MAX_OUTPUT).run s1 (flushTrace ++
        [.io ⟨.upstream, .report (BEV_EVENT_EOF ||| BEV_EVENT_READING)⟩,
          .io ⟨.upstream, .deferredEvent⟩]) =
        .error (.doubleFree .bufferevent localPlace.bOut) := by
  have hremove : ownedCheck (flushTrace ++
      [.io ⟨.upstream, .deferredWrite⟩, .remove])
      (errorIs (.doubleFree .bufferevent localPlace.bOut)) = true := by
    decide +kernel
  have hevent : ownedCheck (flushTrace ++
      [.io ⟨.upstream, .report (BEV_EVENT_EOF ||| BEV_EVENT_READING)⟩,
        .io ⟨.upstream, .deferredEvent⟩])
      (errorIs (.doubleFree .bufferevent localPlace.bOut)) = true := by
    decide +kernel
  rcases exists_of_ownedCheck hremove with ⟨s0, s1, hstart, happend, herror⟩
  rcases exists_of_ownedCheck hevent with
    ⟨s0', s1', hstart', happend', herror'⟩
  rw [hstart] at hstart'
  cases hstart'
  rw [happend] at happend'
  cases happend'
  exact ⟨s0, s1, hstart, happend, eq_of_errorIs herror, eq_of_errorIs herror'⟩

end TcpProxy
end NetExperiment
