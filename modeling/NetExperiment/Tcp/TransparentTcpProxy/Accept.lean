import NetExperiment.Tcp.TransparentTcpProxy.Refinement

/-!
# Accepting connections

What the accept function leaves in memory for each combination of results of
the system calls: a started pair, or nothing but released objects, or a fault
in the cleanup when the original destination is not known.
-/

namespace NetExperiment
namespace TransparentTcpProxy

open Foundation
open Libevent
open Relay

variable {ptr : Type} [DecidableEq ptr]

/-- The original destination: from the first lookup, or from the second one if
that yields a port. -/
def originalDestination (r : SystemResults) : Option (Sockaddr × Nat) :=
  match r.soOriginalDst with
  | some dst => some dst
  | none =>
      match r.ipOrigdstaddr with
      | some dst => if 0 < dst.1.sinPort.toNat then some dst else none
      | none => none

/-!
## The stages
-/

def newPartner (this : ptr) : Proxy ptr where
  partner := .assigned (some this)
  addr := .unassigned
  srcLen := 128
  fd := .unassigned
  buffer := .unassigned

def foundPartner (this : ptr) (dst : Sockaddr × Nat) : Proxy ptr :=
  Proxy.withAddress dst (newPartner this)

def linkedWorld (this partner : ptr) (o o' : Proxy ptr) (s : World ptr) :
    World ptr :=
  { s with
    memory := Function.update
      (Function.update s.memory this
        (.live { o with partner := .assigned (some partner) }))
      partner (.live o') }

theorem linkedWorld_this {this partner : ptr} (hne : this ≠ partner)
    (o o' : Proxy ptr) (s : World ptr) :
    (linkedWorld this partner o o' s).memory this =
      .live { o with partner := .assigned (some partner) } := by
  simp only [linkedWorld, Function.update_of_ne hne, Function.update_self]

theorem linkedWorld_partner (this partner : ptr) (o o' : Proxy ptr)
    (s : World ptr) :
    (linkedWorld this partner o o' s).memory partner = .live o' :=
  Function.update_self _ _ _

theorem initTransparentPartner_eq {this partner : ptr} {o : Proxy ptr}
    {r : SystemResults} {s : World ptr}
    (hne : this ≠ partner) (hthis : s.memory this = .live o) :
    initTransparentPartner this partner r s =
      match r.soOriginalDst, r.ipOrigdstaddr with
      | some dst, _ =>
          .ok (some partner,
            linkedWorld this partner o (foundPartner this dst) s)
      | none, some dst =>
          .ok (if 0 < dst.1.sinPort.toNat then some partner else none,
            linkedWorld this partner o (foundPartner this dst) s)
      | none, none =>
          .ok (none, linkedWorld this partner o (newPartner this) s) := by
  have hcomm : forall c d, Function.update (Function.update s.memory partner c)
      this d = Function.update (Function.update s.memory this d) partner c :=
    fun c d => Function.update_comm hne.symm c d s.memory
  unfold initTransparentPartner
  simp only [newProxy, Heap.alloc, assign, Heap.modify, hne, hthis, hcomm,
    Function.update_self, Function.update_idem, Function.update_of_ne, ne_eq,
    not_false_eq_true, ok_bind, pure_eq_ok]
  cases r.soOriginalDst with
  | some dst => rfl
  | none =>
      cases r.ipOrigdstaddr with
      | some dst =>
          by_cases hport : 0 < dst.1.sinPort.toNat
          · simp only [if_pos hport]
            rfl
          · simp only [if_neg hport]
            rfl
      | none => rfl

theorem initTransparentPartner_found {this partner : ptr} {o : Proxy ptr}
    {r : SystemResults} {dst : Sockaddr × Nat} {s : World ptr}
    (hne : this ≠ partner) (hthis : s.memory this = .live o)
    (hdst : originalDestination r = some dst) :
    initTransparentPartner this partner r s =
      .ok (some partner,
        linkedWorld this partner o (foundPartner this dst) s) := by
  rw [initTransparentPartner_eq hne hthis]
  unfold originalDestination at hdst
  cases hfirst : r.soOriginalDst with
  | some first =>
      rw [hfirst] at hdst
      cases hdst
      rfl
  | none =>
      rw [hfirst] at hdst
      cases hsecond : r.ipOrigdstaddr with
      | none =>
          rw [hsecond] at hdst
          cases hdst
      | some second =>
          rw [hsecond] at hdst
          simp only at hdst
          split at hdst
          · rename_i hport
            cases hdst
            simp only [if_pos hport]
          · cases hdst

theorem initTransparentPartner_unknown {this partner : ptr} {o : Proxy ptr}
    {r : SystemResults} {s : World ptr}
    (hne : this ≠ partner) (hthis : s.memory this = .live o)
    (hdst : originalDestination r = none) :
    exists o' : Proxy ptr, o'.buffer = .unassigned ∧
      initTransparentPartner this partner r s =
        .ok (none, linkedWorld this partner o o' s) := by
  rw [initTransparentPartner_eq hne hthis]
  unfold originalDestination at hdst
  cases hfirst : r.soOriginalDst with
  | some first =>
      rw [hfirst] at hdst
      cases hdst
  | none =>
      rw [hfirst] at hdst
      cases hsecond : r.ipOrigdstaddr with
      | none => exact ⟨newPartner this, rfl, rfl⟩
      | some second =>
          rw [hsecond] at hdst
          simp only at hdst
          split at hdst
          · cases hdst
          · rename_i hport
            refine ⟨foundPartner this second, rfl, ?_⟩
            simp only [if_neg hport]

theorem start_live {this b p : ptr} {o : Proxy ptr}
    {bev : Bufferevent DataCb EventCb ptr} {s : World ptr}
    (hthis : s.memory this = .live o)
    (hbuffer : o.buffer = .assigned (some b))
    (hpartner : o.partner = .assigned (some p)) (hbev : s.bevs b = .live bev) :
    start this s =
      .ok (s.setBev b ((bev.setcb (some .readcb) none (some .eventcb)
        (some p)).onChannel (Channel.enable true true))) := by
  unfold start deref bufferOf Loop.buffereventSetcb Loop.buffereventEnable
  simp only [Heap.read_live _ hthis, hbuffer, hpartner, Member.get_assigned,
    ok_bind]
  rw [Loop.modifyBev_live _ hbev, ok_bind,
    Loop.modifyBev_live _ (Loop.setBev_bevs_self _ _ _), Loop.setBev_setBev]

/-!
Memory in terms of the four pointers of a connection.
-/

def acceptedProxy (place : Allocation ptr) (conn : Incoming) : Proxy ptr where
  partner := .unassigned
  addr := .assigned conn.addr
  srcLen := conn.slen
  fd := .assigned conn.fd
  buffer := .assigned (some place.buffer)

def acceptedWorld (place : Allocation ptr) (conn : Incoming) (s : World ptr) :
    World ptr where
  bevs := Function.update s.bevs place.buffer (.live Bufferevent.new)
  sockets := Function.update s.sockets place.buffer Socket.new
  memory := Function.update s.memory place.proxy
    (.live (acceptedProxy place conn))

def partneredWorld (place : Allocation ptr) (conn : Incoming)
    (partner : Proxy ptr) (s : World ptr) : World ptr :=
  { acceptedWorld place conn s with
    memory := Function.update
      (Function.update s.memory place.proxy
        (.live { acceptedProxy place conn with
          partner := .assigned (some place.partner) }))
      place.partner (.live partner) }

def connectionWorld (place : Allocation ptr) (o o' : Cell (Proxy ptr))
    (c c' : Cell (Bufferevent DataCb EventCb ptr)) (s : World ptr) :
    World ptr where
  bevs := Function.update (Function.update s.bevs place.buffer c)
    place.partnerBuffer c'
  sockets := Function.update (Function.update s.sockets place.buffer Socket.new)
    place.partnerBuffer Socket.new
  memory := Function.update (Function.update s.memory place.proxy o)
    place.partner o'

theorem defaultAcceptCb_eq (place : Allocation ptr) (conn : Incoming)
    (r : SystemResults) (s : World ptr) :
    defaultAcceptCb place conn r (newProxy place.proxy s) = (do
      let (found, s) <- initTransparentPartner place.proxy place.partner r
        (acceptedWorld place conn s)
      match found with
      | none => return (false, s)
      | some partner =>
          let (connected, s) <-
            connectToUpstream partner place.partnerBuffer r s
          if connected then
            let s <- start place.proxy s
            let s <- start partner s
            return (true, s)
          else return (false, s)) := by
  unfold defaultAcceptCb
  simp only [newProxy, Heap.alloc, assign, Heap.modify,
    Loop.buffereventSocketNew, Function.update_self, Function.update_idem,
    ok_bind, pure_eq_ok]
  rfl

theorem initTransparentPartner_accepted {place : Allocation ptr}
    (hplace : place.Distinct) (conn : Incoming) {r : SystemResults}
    {dst : Sockaddr × Nat} (s : World ptr)
    (hdst : originalDestination r = some dst) :
    initTransparentPartner place.proxy place.partner r
        (acceptedWorld place conn s) =
      .ok (some place.partner,
        partneredWorld place conn (foundPartner place.proxy dst) s) := by
  rw [initTransparentPartner_found hplace.1 (Function.update_self _ _ _) hdst]
  simp [linkedWorld, acceptedWorld, partneredWorld]

def upstreamProxy (place : Allocation ptr) (dst : Sockaddr × Nat)
    (fd : Member Int) : Proxy ptr :=
  { foundPartner place.proxy dst with
    fd := fd
    buffer := .assigned (some place.partnerBuffer) }

theorem connectToUpstream_eq (place : Allocation ptr) (conn : Incoming)
    (r : SystemResults) (dst : Sockaddr × Nat) (s : World ptr) :
    connectToUpstream place.partner place.partnerBuffer r
        (partneredWorld place conn (foundPartner place.proxy dst) s) =
      .ok (!decide (r.socketConnect < 0),
        connectionWorld place
          (.live { acceptedProxy place conn with
            partner := .assigned (some place.partner) })
          (.live (upstreamProxy place dst
            (if r.socketConnect < 0 then .unassigned
              else .assigned r.upstreamFd)))
          (.live Bufferevent.new) (.live Bufferevent.new) s) := by
  unfold connectToUpstream
  split
  · rename_i hconnect
    simp [hconnect, assign, Heap.modify, Loop.buffereventSocketNew, Heap.alloc,
      partneredWorld, acceptedWorld, connectionWorld, upstreamProxy]
    rfl
  · rename_i hconnect
    simp [hconnect, assign, Heap.modify, Loop.buffereventSocketNew, Heap.alloc,
      partneredWorld, acceptedWorld, connectionWorld, upstreamProxy]

/-!
## A connection that is started
-/

def startedPair {place : Allocation ptr} (hplace : place.Distinct)
    (conn : Incoming) (dst : Sockaddr × Nat) (fd : Int) : Pair place where
  distinct := hplace
  proxy
    | .accepted =>
        { acceptedProxy place conn with
          partner := .assigned (some place.partner) }
    | .upstream => upstreamProxy place dst (.assigned fd)
  partner_eq := by
    intro x
    cases x <;> rfl
  buffer_eq := by
    intro x
    cases x <;> rfl

/-!
The cells of a connection can be looked up and replaced.
-/

section ConnectionWorld

variable {place : Allocation ptr} (hplace : place.Distinct)
  {o o' : Cell (Proxy ptr)} {c c' : Cell (Bufferevent DataCb EventCb ptr)}
  {s : World ptr}

include hplace

theorem connectionWorld_proxy :
    (connectionWorld place o o' c c' s).memory place.proxy = o := by
  simp [connectionWorld, hplace.1]

omit hplace in
theorem connectionWorld_partner :
    (connectionWorld place o o' c c' s).memory place.partner = o' := by
  simp [connectionWorld]

theorem connectionWorld_buffer :
    (connectionWorld place o o' c c' s).bevs place.buffer = c := by
  simp [connectionWorld, hplace.2]

omit hplace in
theorem connectionWorld_partnerBuffer :
    (connectionWorld place o o' c c' s).bevs place.partnerBuffer = c' := by
  simp [connectionWorld]

theorem connectionWorld_setBev_buffer
    (bev : Bufferevent DataCb EventCb ptr) :
    (connectionWorld place o o' c c' s).setBev place.buffer bev =
      connectionWorld place o o' (.live bev) c' s := by
  unfold connectionWorld Loop.setBev
  rw [Function.update_comm hplace.2.symm, Function.update_idem]

omit hplace in
theorem connectionWorld_setBev_partnerBuffer
    (bev : Bufferevent DataCb EventCb ptr) :
    (connectionWorld place o o' c c' s).setBev place.partnerBuffer bev =
      connectionWorld place o o' c (.live bev) s := by
  unfold connectionWorld Loop.setBev
  rw [Function.update_idem]

omit hplace in
theorem deleteProxy_partner {p : Proxy ptr}
    {bev : Bufferevent DataCb EventCb ptr}
    (hbuffer : p.buffer = .assigned (some place.partnerBuffer)) :
    deleteProxy (some place.partner)
        (connectionWorld place o (.live p) c (.live bev) s) =
      .ok (connectionWorld place o .freed c .freed s) := by
  rw [deleteProxy_live connectionWorld_partner hbuffer
    connectionWorld_partnerBuffer]
  simp only [connectionWorld, Function.update_idem]

theorem deleteProxy_proxy {p : Proxy ptr}
    {bev : Bufferevent DataCb EventCb ptr}
    (hbuffer : p.buffer = .assigned (some place.buffer)) :
    deleteProxy (some place.proxy)
        (connectionWorld place (.live p) o' (.live bev) c' s) =
      .ok (connectionWorld place .freed o' .freed c' s) := by
  rw [deleteProxy_live (connectionWorld_proxy hplace) hbuffer
    (connectionWorld_buffer hplace)]
  unfold connectionWorld
  rw [Function.update_comm hplace.2.symm, Function.update_idem,
    Function.update_comm hplace.1.symm, Function.update_idem]

end ConnectionWorld

theorem acceptConnection_started {place : Allocation ptr}
    (hplace : place.Distinct) (conn : Incoming) {r : SystemResults}
    {dst : Sockaddr × Nat} (s : World ptr)
    (hdst : originalDestination r = some dst)
    (hconnect : ¬ r.socketConnect < 0) :
    acceptConnection place conn r s =
      .ok (true, embed (startedPair hplace conn dst r.upstreamFd) s
        Relay.State.new) := by
  simp only [acceptConnection, defaultAcceptCb_eq,
    initTransparentPartner_accepted hplace conn s hdst, ok_bind,
    connectToUpstream_eq, decide_eq_false hconnect, Bool.not_false, if_true,
    if_neg hconnect]
  rw [start_live (connectionWorld_proxy hplace) rfl rfl
      (connectionWorld_buffer hplace), ok_bind,
    connectionWorld_setBev_buffer hplace,
    start_live connectionWorld_partner rfl rfl connectionWorld_partnerBuffer,
    ok_bind, connectionWorld_setBev_partnerBuffer]
  simp only [pure_eq_ok, ok_bind, if_true]
  refine congrArg (fun w => Except.ok (true, w)) ?_
  have hpair := startedPair hplace conn dst r.upstreamFd
  unfold embed overlay
  rw [extend_sides hpair.buffer_injective, extend_sides hpair.buffer_injective,
    extend_sides hpair.object_injective]
  rfl

/-!
## A connection that is given up
-/

theorem acceptConnection_released {place : Allocation ptr}
    (hplace : place.Distinct) (conn : Incoming) {r : SystemResults}
    {dst : Sockaddr × Nat} (s : World ptr)
    (hdst : originalDestination r = some dst) (hconnect : r.socketConnect < 0) :
    acceptConnection place conn r s =
      .ok (false, connectionWorld place .freed .freed .freed .freed s) := by
  simp only [acceptConnection, defaultAcceptCb_eq,
    initTransparentPartner_accepted hplace conn s hdst, ok_bind,
    connectToUpstream_eq, decide_eq_true hconnect, Bool.not_true,
    Bool.false_eq_true, if_false, pure_eq_ok, deref]
  rw [Heap.read_live _ (connectionWorld_proxy hplace), ok_bind,
    Member.get_assigned, ok_bind, deleteProxy_partner rfl, ok_bind,
    deleteProxy_proxy hplace rfl, ok_bind]

/-- Without an original destination the cleanup frees a bufferevent pointer
that the partner object never got. -/
theorem acceptConnection_unknown {place : Allocation ptr}
    (hplace : place.Distinct) (conn : Incoming) {r : SystemResults}
    (s : World ptr) (hdst : originalDestination r = none) :
    acceptConnection place conn r s = .error (.unassigned .bufferevent) := by
  rcases initTransparentPartner_unknown (s := acceptedWorld place conn s)
    hplace.1 (Function.update_self _ _ _) hdst with ⟨o, hbuffer, hinit⟩
  simp only [acceptConnection, defaultAcceptCb_eq, hinit, ok_bind, pure_eq_ok,
    Bool.false_eq_true, if_false, deref]
  rw [Heap.read_live _ (linkedWorld_this hplace.1 _ o _), ok_bind,
    Member.get_assigned, ok_bind]
  simp only [deleteProxy, bufferOf]
  rw [Heap.free_live _ (linkedWorld_partner _ _ _ o _), ok_bind,
    Heap.read_live _ (linkedWorld_partner _ _ _ o _), ok_bind, hbuffer]
  rfl

/-!
## The server

Connections come in at any time between the events of the others.  The cleanup
of a failed one is measured against what was created for it: one bufferevent
before the destination is looked up, a second one after it is found.
-/

inductive ServerAction (ptr : Type) where
  | incoming (place : Allocation ptr) (conn : Incoming) (r : SystemResults)
  | endpoint (a : Action ptr)

def serverStep (s : World ptr) : ServerAction ptr -> Result ptr (World ptr)
  | .incoming place conn r => do
      let (_, s) <- acceptConnection place conn r s
      return s
  | .endpoint a => Loop.step (program MAX_OUTPUT) s a

def server : Machine (World ptr) (ServerAction ptr) (Fault Resource ptr) where
  step := serverStep

/-- The allocator hands out pointers that are different and not in use. -/
def Fresh (s : World ptr) : ServerAction ptr -> Prop
  | .incoming place _ _ =>
      place.Distinct ∧
        (forall p, p ∈ [place.proxy, place.partner] -> ¬ (s.memory p).IsLive) ∧
        forall b, b ∈ [place.buffer, place.partnerBuffer] -> ¬ (s.bevs b).IsLive
  | .endpoint _ => True

def createdBuffers (place : Allocation ptr) (r : SystemResults) : List ptr :=
  if (originalDestination r).isSome then [place.buffer, place.partnerBuffer]
  else [place.buffer]

structure CleanedUp (place : Allocation ptr) (r : SystemResults)
    (s s' : World ptr) : Prop where
  buffers_freed : forall b, b ∈ createdBuffers place r -> s'.bevs b = .freed
  buffers_kept : forall b, b ∉ createdBuffers place r -> s'.bevs b = s.bevs b
  objects_freed : forall p, p ∈ [place.proxy, place.partner] ->
    s'.memory p = .freed
  objects_kept : forall p, p ∉ [place.proxy, place.partner] ->
    s'.memory p = s.memory p
  live_buffers_kept : forall b, (s.bevs b).IsLive -> s'.bevs b = s.bevs b
  live_objects_kept : forall p, (s.memory p).IsLive -> s'.memory p = s.memory p

/-- If this step is an accept that fails, it frees what it created, once, and
nothing else. -/
def CleanFailure (s : World ptr) : ServerAction ptr -> Prop
  | .incoming place conn r =>
      match acceptConnection place conn r s with
      | .error _ => False
      | .ok (true, _) => True
      | .ok (false, s') => CleanedUp place r s s'
  | .endpoint _ => True

def DestinationFound : ServerAction ptr -> Prop
  | .incoming _ _ r => (originalDestination r).isSome = true
  | .endpoint _ => True

theorem cleanedUp_released {place : Allocation ptr} {conn : Incoming}
    {r : SystemResults} {s : World ptr}
    (hfresh : Fresh s (.incoming place conn r))
    (hdst : (originalDestination r).isSome = true) :
    CleanedUp place r s
      (connectionWorld place .freed .freed .freed .freed s) := by
  rcases hfresh with ⟨hplace, hobjects, hbuffers⟩
  have hkept : forall b, b ∉ [place.buffer, place.partnerBuffer] ->
      (connectionWorld place .freed .freed .freed .freed s).bevs b =
        s.bevs b := by
    intro b hb
    simp only [List.mem_cons, List.not_mem_nil, or_false, not_or] at hb
    simp [connectionWorld, hb.1, hb.2]
  have hkeptObjects : forall p, p ∉ [place.proxy, place.partner] ->
      (connectionWorld place .freed .freed .freed .freed s).memory p =
        s.memory p := by
    intro p hp
    simp only [List.mem_cons, List.not_mem_nil, or_false, not_or] at hp
    simp [connectionWorld, hp.1, hp.2]
  constructor
  case buffers_freed =>
    simp only [createdBuffers, hdst, if_true]
    intro b hb
    simp only [List.mem_cons, List.not_mem_nil, or_false] at hb
    rcases hb with rfl | rfl
    · exact connectionWorld_buffer hplace
    · exact connectionWorld_partnerBuffer
  case buffers_kept =>
    simp only [createdBuffers, hdst, if_true]
    exact hkept
  case objects_freed =>
    intro p hp
    simp only [List.mem_cons, List.not_mem_nil, or_false] at hp
    rcases hp with rfl | rfl
    · exact connectionWorld_proxy hplace
    · exact connectionWorld_partner
  case objects_kept => exact hkeptObjects
  case live_buffers_kept =>
    intro b hlive
    exact hkept b (fun hb => hbuffers b hb hlive)
  case live_objects_kept =>
    intro p hlive
    exact hkeptObjects p (fun hp => hobjects p hp hlive)

theorem cleanFailure_iff {s : World ptr} {a : ServerAction ptr}
    (hfresh : Fresh s a) : CleanFailure s a <-> DestinationFound a := by
  cases a with
  | endpoint a => exact Iff.rfl
  | incoming place conn r =>
      simp only [CleanFailure, DestinationFound]
      cases hdst : originalDestination r with
      | none =>
          rw [acceptConnection_unknown hfresh.1 conn s hdst]
          simp
      | some dst =>
          refine iff_of_true ?_ rfl
          by_cases hconnect : r.socketConnect < 0
          · rw [acceptConnection_released hfresh.1 conn s hdst hconnect]
            apply cleanedUp_released hfresh
            rw [hdst]
            rfl
          · rw [acceptConnection_started hfresh.1 conn s hdst hconnect]
            trivial

/-- Every failed accept of a run is cleaned up exactly if the original
destination of every incoming connection is found. -/
theorem along_cleanFailure_iff {s : World ptr} {acts : List (ServerAction ptr)}
    (hfresh : server.Along Fresh s acts) :
    server.Along CleanFailure s acts <->
      server.Along (fun _ a => DestinationFound a) s acts :=
  Machine.along_congr (fun _ _ => cleanFailure_iff) hfresh

/-- One connection cannot connect, and the next one gets its pointers. -/
theorem along_cleanFailure_of_refused :
    server.Along CleanFailure (World.empty : World Nat)
      [.incoming ⟨0, 1, 0, 1⟩ ⟨5, ⟨0x7f000001, 40000⟩, 16⟩
          ⟨none, some (⟨0x0a000002, 80⟩, 16), -1, 6⟩,
        .incoming ⟨1, 0, 1, 0⟩ ⟨7, ⟨0x7f000001, 40001⟩, 16⟩
          ⟨some (⟨0x0a000001, 80⟩, 16), none, 0, 8⟩] := by
  refine (along_cleanFailure_iff ?_).mpr ?_
  · refine ⟨⟨by decide, fun _ _ => Cell.not_isLive_absent,
      fun _ _ => Cell.not_isLive_absent⟩, ?_⟩
    intro next hnext
    have hstep : server.step (World.empty : World Nat)
        (.incoming ⟨0, 1, 0, 1⟩ ⟨5, ⟨0x7f000001, 40000⟩, 16⟩
          ⟨none, some (⟨0x0a000002, 80⟩, 16), -1, 6⟩) =
        .ok (connectionWorld ⟨0, 1, 0, 1⟩ .freed .freed .freed .freed
          World.empty) := by
      simp only [server, serverStep]
      rw [acceptConnection_released (by decide) _ _ rfl (by decide)]
      rfl
    rw [hstep] at hnext
    cases hnext
    refine ⟨⟨by decide, ?_, ?_⟩, fun _ _ => trivial⟩
    · intro p hp
      rcases List.mem_pair.mp hp with rfl | rfl
      · exact Cell.not_isLive_freed
      · exact Cell.not_isLive_freed
    · intro b hb
      rcases List.mem_pair.mp hb with rfl | rfl
      · exact Cell.not_isLive_freed
      · exact Cell.not_isLive_freed
  · apply Machine.along_of_forall_mem
    intro _ a ha
    rcases List.mem_pair.mp ha with rfl | rfl
    · rfl
    · rfl

/-- Both lookups fail for the first connection. -/
theorem not_along_cleanFailure :
    server.Along Fresh (World.empty : World Nat)
        [.incoming ⟨0, 1, 0, 1⟩ ⟨5, ⟨0x7f000001, 40000⟩, 16⟩
          ⟨none, none, 0, 6⟩] ∧
      ¬ server.Along CleanFailure (World.empty : World Nat)
        [.incoming ⟨0, 1, 0, 1⟩ ⟨5, ⟨0x7f000001, 40000⟩, 16⟩
          ⟨none, none, 0, 6⟩] := by
  constructor
  · refine ⟨⟨by decide, ?_, ?_⟩, fun _ _ => trivial⟩
    · intro p _
      exact Cell.not_isLive_absent
    · intro b _
      exact Cell.not_isLive_absent
  · intro h
    exact h.1

end TransparentTcpProxy
end NetExperiment
