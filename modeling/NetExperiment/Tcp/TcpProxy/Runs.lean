import NetExperiment.Tcp.TcpProxy.Refinement

/-!
# Runs of a proxy

What holds in every state that a proxy reaches after its callbacks were
installed, whatever happens to its two endpoints and in whatever order.
-/

namespace NetExperiment
namespace TcpProxy

open Foundation
open Libevent
open Relay

variable {ptr : Type} [DecidableEq ptr]

/-!
## The state in which the callbacks are installed
-/

theorem assign_update
    (bevs : Heap ptr (Bufferevent DataCb EventCb (VoidPtr ptr)))
    (sockets : ptr -> Socket) (proxies : Heap ptr (Proxy ptr))
    (contexts : Heap ptr (EvContext ptr)) (hmap : List ptr) (p : ptr)
    (o : Proxy ptr) (f : Proxy ptr -> Proxy ptr) :
    assign p f
        { bevs := bevs
          sockets := sockets
          memory := { proxies := Function.update proxies p (.live o)
                      contexts := contexts
                      hmap := hmap } } =
      .ok
        { bevs := bevs
          sockets := sockets
          memory := { proxies := Function.update proxies p (.live (f o))
                      contexts := contexts
                      hmap := hmap } } := by
  unfold assign
  rw [Heap.modify_live _ f (Function.update_self _ _ _), ok_bind,
    Function.update_idem]
  rfl

def Allocation.memoryAfter (place : Allocation ptr) (m : Memory ptr) :
    Memory ptr where
  proxies := Function.update m.proxies place.proxy (.live place.proxyObject)
  contexts := Function.update
    (Function.update m.contexts place.outContext
      (.live (place.contextOf .accepted)))
    place.inContext (.live (place.contextOf .upstream))
  hmap := m.hmap

theorem linked_memoryAfter (place : Allocation ptr) (m : Memory ptr) :
    Linked place (place.memoryAfter m) where
  proxy := Function.update_self _ _ _
  context := by
    intro x
    cases x with
    | accepted =>
        exact (Function.update_of_ne place.distinctContexts.symm _ _).trans
          (Function.update_self _ _ _)
    | upstream => exact Function.update_self _ _ _

theorem defaultAcceptCb_embed {place : Allocation ptr}
    {setOriginDestAddr : Bool} {socketConnect : Int} {s s' : World ptr}
    (h : defaultAcceptCb place setOriginDestAddr socketConnect
      (newProxy place.proxy s) = .ok (true, s')) :
    s' = (place.layout (place.memoryAfter s.memory)).embed s
      Relay.State.new := by
  have hstart := congrArg (fun r => r >>= fun s => pure (true, s))
    ((place.layout (place.memoryAfter s.memory)).start_overlay s)
  simp only [bind_assoc, ok_bind] at hstart
  have hnew : (place.layout (place.memoryAfter s.memory)).overlay s
      (fun _ => .live Bufferevent.new) (fun _ => Socket.new)
      (place.memoryAfter s.memory) =
      { bevs := Function.update
          (Function.update s.bevs place.bIn (.live Bufferevent.new))
          place.bOut (.live Bufferevent.new)
        sockets := Function.update
          (Function.update s.sockets place.bIn Socket.new) place.bOut Socket.new
        memory := place.memoryAfter s.memory } := by
    unfold Layout.overlay
    rw [extend_sides (place.layout _).injective,
      extend_sides (place.layout _).injective]
    rfl
  simp only [defaultAcceptCb, newProxy, Loop.buffereventSocketNew, newEvContext,
    Heap.alloc, assign_update, ok_bind] at h
  split at h
  · cases h
  · split at h
    · cases h
    · have hresult : (Except.ok (true, s') : Result ptr (Bool × World ptr)) =
          .ok (true, (place.layout (place.memoryAfter s.memory)).embed s
            Relay.State.new) := by
        refine h.symm.trans (Eq.trans ?_ hstart)
        exact congrArg (fun s : World ptr => do
          let s <- s.buffereventSetcb place.bIn (some .evReadCb) none
            (some .evEventCb) (some (.evContext place.outContext))
          let s <- s.buffereventSetcb place.bOut (some .evReadCb) none
            (some .evEventCb) (some (.evContext place.inContext))
          let s <- s.buffereventEnable place.bIn true true
          let s <- s.buffereventEnable place.bOut true true
          pure (true, s)) hnew.symm
      cases hresult
      rfl

/-!
## Where the bytes go
-/

/-- A read callback runs that brings the output of the other side to the
limit. -/
def Backpressure (place : Allocation ptr) (s : World ptr) (a : Action Side) :
    Prop :=
  a.occurrence = .deferredRead ∧
    exists source, s.bevs (place.bufferAt a.target) = .live source ∧
      (source.readcb = some .evReadCb ∧ source.readcbPending = true) ∧
      exists sink, s.bevs (place.bufferAt a.target.other) = .live sink ∧
        MAX_OUTPUT ≤ (sink.output ++ source.input).length

omit [DecidableEq ptr] in
theorem backpressure_embed {place : Allocation ptr} {m : Memory ptr}
    {background : World ptr} {r : Relay.State} {a : Action Side} :
    Backpressure place ((place.layout m).embed background r) a <->
      Chokes MAX_OUTPUT r a := by
  have hcell : forall x, ((place.layout m).embed background r).bevs
      (place.bufferAt x) = (place.layout m).bevsOf r.phase x :=
    Layout.embed_bevs
  unfold Backpressure Chokes
  rw [hcell, hcell]
  refine and_congr_right (fun _ => ?_)
  cases r.phase with
  | relaying ends =>
      constructor
      · intro h
        rcases h with ⟨source, hsource, ⟨_, hpending⟩, sink, hsink, hfull⟩
        cases hsource
        cases hsink
        exact ⟨ends, rfl, hpending, hfull⟩
      · intro h
        rcases h with ⟨ends', hphase, hpending, hfull⟩
        cases hphase
        exact ⟨_, rfl, ⟨rfl, hpending⟩, _, rfl, hfull⟩
  | closing y c =>
      constructor
      · intro h
        rcases h with ⟨source, hsource, ⟨hreadcb, _⟩, _⟩
        by_cases htarget : a.target = y
        · simp only [Layout.bevsOf, if_pos htarget] at hsource
          cases hsource
          cases hreadcb
        · simp only [Layout.bevsOf, if_neg htarget] at hsource
          cases hsource
      · intro h
        rcases h with ⟨_, hphase, _⟩
        cases hphase
  | closed =>
      constructor
      · intro h
        rcases h with ⟨source, hsource, _⟩
        cases hsource
      · intro h
        rcases h with ⟨_, hphase, _⟩
        cases hphase

theorem unchoked_of_relayingStep {maxOutput : Nat} {ends ends' : Side -> Endpoint}
    {sockets : Side -> Socket} {x : Side} {o : Occurrence} {s : Relay.State}
    (hstep : RelayingStep maxOutput ends sockets x o s)
    (hphase : s.phase = .relaying ends')
    (hopen : forall z, (ends z).draining = false)
    (hchoke : o = .deferredRead ->
      ¬ maxOutput ≤ ((ends x.other).output ++ (ends x).input).length) :
    forall z, (ends' z).draining = false := by
  have hupdate : forall (f : Channel -> Channel) (z : Side),
      (Function.update ends x ((ends x).onChannel f) z).draining = false := by
    intro f z
    by_cases hz : z = x
    · rw [hz, Function.update_self]
      exact hopen x
    · rw [Function.update_of_ne hz]
      exact hopen z
  cases hstep with
  | forwarded =>
      cases hphase
      intro z
      have hfew := hchoke rfl
      rw [← moved_taken_length] at hfew
      unfold forward
      rw [if_neg hfew]
      rcases Side.eq_or_eq_other x z with hz | hz
      · rw [hz, moved_self]
        exact hupdate _ x
      · rw [hz, moved_other]
        exact hupdate _ x.other
  | resumed hdraining _ =>
      rw [hopen x] at hdraining
      cases hdraining
  | finished _ =>
      simp only [finish] at hphase
      split at hphase <;> cases hphase
  | idle _ =>
      cases hphase
      exact hopen
  | read _ _ =>
      cases hphase
      exact hupdate _
  | write _ =>
      cases hphase
      exact hupdate _
  | report _ =>
      cases hphase
      exact hupdate _
  | handled =>
      cases hphase
      exact hupdate _

theorem step_unchoked {maxOutput : Nat} {r : Relay.State} {a : Action Side}
    (hopen : Unchoked r) (hchoke : ¬ Chokes maxOutput r a) :
    Unchoked (Relay.step maxOutput r a) := by
  intro ends' hphase
  rcases Relay.step_relaying hphase with ⟨ends, hs, hstep⟩
  by_cases hpending : (ends a.target).readcbPending = true
  · refine unchoked_of_relayingStep hstep hphase (hopen ends hs) ?_
    intro ho hfull
    exact hchoke ⟨ho, ends, hs, hpending, hfull⟩
  · by_cases ho : a.occurrence = .deferredRead
    · -- no callback is scheduled, so nothing happens
      simp only [Relay.step, hs, ho, stepRelaying, if_neg hpending] at hphase
      rw [← Phase.relaying.inj hphase]
      exact hopen ends hs
    · exact unchoked_of_relayingStep hstep hphase (hopen ends hs)
        (fun h => absurd h ho)

/-- The callback argument of each side is a context whose target is the other
side, and the bytes read from a side are those written to the other one,
followed by the two buffers between them. -/
def Routed (place : Allocation ptr) (s : World ptr) : Prop :=
  forall x, exists source sink p c,
    s.bevs (place.bufferAt x) = .live source ∧
    s.bevs (place.bufferAt x.other) = .live sink ∧
    source.cbarg = some (.evContext p) ∧ s.memory.contexts p = .live c ∧
    getTargetBuffer c s = .ok (some (place.bufferAt x.other)) ∧
    (s.sockets (place.bufferAt x)).received =
      (s.sockets (place.bufferAt x.other)).sent ++ sink.output ++ source.input

section Routing

variable {place : Allocation ptr} {m : Memory ptr} {background : World ptr}

omit [DecidableEq ptr] in
theorem routed_relaying (hlinked : Linked place m) {ends : Side -> Endpoint}
    {sockets : Side -> Socket} (h : Intact ends sockets) :
    Routed place ((place.layout m).relayingLoop background ends sockets) := by
  intro x
  have hlive := (place.layout m).relaying_live background ends sockets
  have hsockets : forall z, ((place.layout m).relayingLoop background ends
      sockets).sockets (place.bufferAt z) = sockets z := Layout.embed_sockets
  refine ⟨_, _, place.contextAt x, place.contextOf x, hlive x, hlive x.other,
    rfl, hlinked.context x, getTargetBuffer_linked hlinked x, ?_⟩
  rw [hsockets, hsockets]
  exact h x

omit [DecidableEq ptr] in
/-- A side that was given the context of the other one has itself as the
target. -/
theorem not_routed_choked (hlinked : Linked place m) (ends : Side -> Endpoint)
    (sockets : Side -> Socket) (x : Side) :
    ¬ Routed place (chokedLoop place m background ends sockets x) := by
  intro h
  rcases h x.other with ⟨source, _, p, c, hsource, _, hcbarg, hc, htarget, _⟩
  rw [chokedLoop_bevs_other] at hsource
  cases hsource
  cases hcbarg
  have hcontext := (hlinked.context x).symm.trans hc
  cases hcontext
  have hself := (getTargetBuffer_linked hlinked x).symm.trans htarget
  rw [Side.other_other] at hself
  exact Side.other_ne x (place.injective (Option.some.inj (Except.ok.inj hself)))

end Routing

def Flowing (place : Allocation ptr) (m : Memory ptr) (background : World ptr)
    (s : World ptr) : Prop :=
  exists r, s = (place.layout m).embed background r ∧ Unchoked r ∧
    r.IntactWhileOpen ∧ exists ends, r.phase = .relaying ends

theorem unchoked_new : Unchoked Relay.State.new := by
  intro ends hphase x
  cases hphase
  rfl

omit [DecidableEq ptr] in
theorem Flowing.routed {place : Allocation ptr} {m : Memory ptr}
    {background s : World ptr} (hlinked : Linked place m)
    (h : Flowing place m background s) : Routed place s := by
  rcases h with ⟨⟨phase, sockets⟩, rfl, _, hintact, ends, hphase⟩
  have hrelaying : phase = .relaying ends := hphase
  subst hrelaying
  exact routed_relaying hlinked (hintact ends rfl)

omit [DecidableEq ptr] in
theorem deliversFatal_embed {place : Allocation ptr} {m : Memory ptr}
    {background : World ptr} {r : Relay.State} {x : Side} {a : Action Side} :
    ((place.layout m).embed background r).DeliversFatal (place.bufferAt x)
        (a.map place.bufferAt) <-> r.DeliversFatal x a :=
  Layout.deliversFatal_embed (L := place.layout m)

/-- As long as no end of file or error is handled, each direction is routed to
the other side exactly if no read callback brings the output of the other side
to the limit. -/
theorem routed_iff_no_backpressure {place : Allocation ptr}
    {setOriginDestAddr : Bool} {socketConnect : Int}
    {background s0 : World ptr} {acts : List (Action Side)}
    (hstart : defaultAcceptCb place setOriginDestAddr socketConnect
      (newProxy place.proxy background) = .ok (true, s0))
    (hquiet : (place.machine MAX_OUTPUT).Along
      (fun s a => forall x, ¬ s.DeliversFatal (place.bufferAt x)
        (a.map place.bufferAt)) s0 acts) :
    (place.machine MAX_OUTPUT).Always (Routed place) s0 acts <->
      (place.machine MAX_OUTPUT).Along
        (fun s a => ¬ Backpressure place s a) s0 acts := by
  have hlinked := linked_memoryAfter place background.memory
  have hinit : Flowing place (place.memoryAfter background.memory) background
      s0 :=
    ⟨_, defaultAcceptCb_embed hstart, unchoked_new, intactWhileOpen_new, _, rfl⟩
  refine Machine.always_iff_along_of
    (I := Flowing place (place.memoryAfter background.memory) background)
    ?_ ?_ hinit (hinit.routed hlinked) hquiet
  · intro s a hs _ hfatal hfew
    rcases hs with ⟨r, rfl, hopen, hintact, ends, hphase⟩
    rw [backpressure_embed] at hfew
    have hdrained : ¬ EndsDrained r a := by
      intro h
      rcases h with ⟨_, c, hclosing, _⟩
      rw [hphase] at hclosing
      cases hclosing
    have hstays : exists ends', (Relay.step MAX_OUTPUT r a).phase =
        .relaying ends' :=
      step_relaying_of_quiet hphase
        (fun x hx => hfatal x (deliversFatal_embed.mpr hx))
    have hnext : Flowing place (place.memoryAfter background.memory) background
        ((place.layout (place.memoryAfter background.memory)).embed background
          (Relay.step MAX_OUTPUT r a)) :=
      ⟨_, rfl, step_unchoked hopen hfew, step_intactWhileOpen a hintact, hstays⟩
    exact ⟨_, step_embed hlinked background hfew hdrained hopen, hnext,
      hnext.routed hlinked⟩
  · intro s a next hs _ _ hstep hrouted hfull
    rcases hs with ⟨r, rfl, _⟩
    rw [backpressure_embed] at hfull
    rcases r with ⟨phase, sockets⟩
    rcases a with ⟨x, o⟩
    rcases hfull with ⟨ho, ends, hphase, hpending, hfull⟩
    have hdeferred : o = .deferredRead := ho
    have hrelaying : phase = .relaying ends := hphase
    subst hdeferred hrelaying
    have hsame := hstep.symm.trans
      (step_choked hlinked background sockets hpending hfull)
    cases hsame
    exact not_routed_choked hlinked _ sockets x hrouted

theorem quiet_of_no_event {place : Allocation ptr} {maxOutput : Nat}
    {acts : List (Action Side)}
    (h : forall a, a ∈ acts -> a.occurrence ≠ .deferredEvent) (s : World ptr) :
    (place.machine maxOutput).Along
      (fun s a => forall x, ¬ s.DeliversFatal (place.bufferAt x)
        (a.map place.bufferAt)) s acts :=
  Machine.along_of_forall_mem (fun _ a ha _ hfatal => h a ha hfatal.2.1) s

/-!
A connection from a local client, for runs on fixed inputs.
-/

def localPlace : Allocation Nat := ⟨0, 1, 2, 3, 4, by decide, by decide⟩

theorem exists_localStart :
    exists s0, defaultAcceptCb localPlace true 0
      (newProxy localPlace.proxy World.empty) = .ok (true, s0) := by
  have hcheck : okWith (fun result => result.1) (defaultAcceptCb localPlace
      true 0 (newProxy localPlace.proxy World.empty)) = true := by
    decide +kernel
  rcases exists_of_okWith hcheck with ⟨⟨installed, s0⟩, hstart, hinstalled⟩
  have htrue : installed = true := hinstalled
  rw [htrue] at hstart
  exact ⟨s0, hstart⟩

def trafficTrace : List (Action Side) :=
  [⟨.accepted, .socketRead [65, 66]⟩, ⟨.accepted, .deferredRead⟩,
    ⟨.upstream, .socketWrite 1⟩]

instance (place : Allocation ptr) (s : World ptr) (a : Action Side) :
    Decidable (Backpressure place s a) :=
  inferInstanceAs (Decidable (_ ∧ exists _, _ ∧ _ ∧ exists _, _ ∧ _))

/-- The two bytes are routed to the server. -/
theorem routed_of_traffic :
    exists s0, defaultAcceptCb localPlace true 0
        (newProxy localPlace.proxy World.empty) = .ok (true, s0) ∧
      (localPlace.machine MAX_OUTPUT).Always (Routed localPlace) s0
        trafficTrace := by
  rcases exists_localStart with ⟨s0, hstart⟩
  have hnone : forall a, a ∈ trafficTrace ->
      a.occurrence ≠ .deferredEvent := by
    intro a ha hoccurrence
    simp only [trafficTrace, List.mem_cons, List.not_mem_nil, or_false] at ha
    rcases ha with rfl | rfl | rfl <;> cases hoccurrence
  have hcheck : okWith (fun result => decide
      ((localPlace.machine MAX_OUTPUT).Along
        (fun s a => ¬ Backpressure localPlace s a) result.2 trafficTrace))
      (defaultAcceptCb localPlace true 0
        (newProxy localPlace.proxy World.empty)) = true := by
    decide +kernel
  rw [hstart] at hcheck
  exact ⟨s0, hstart, (routed_iff_no_backpressure hstart
    (quiet_of_no_event hnone s0)).mpr (of_decide_eq_true hcheck)⟩

theorem run_choked {place : Allocation ptr} {m : Memory ptr}
    (hlinked : Linked place m) (background : World ptr) (x : Side)
    {bytes : List Byte} (h : MAX_OUTPUT ≤ bytes.length) :
    exists ends sockets, (place.machine MAX_OUTPUT).run
        ((place.layout m).embed background Relay.State.new)
        [⟨x, .socketRead bytes⟩, ⟨x, .deferredRead⟩] =
      .ok (chokedLoop place m background ends sockets x) ∧
      (ends x).enabledRead = false ∧
      ends x.other = { Endpoint.new with
        output := bytes
        wmWriteLow := MAX_OUTPUT / 2
        wmWriteHigh := MAX_OUTPUT
        draining := true } := by
  have hchoke : ¬ Chokes MAX_OUTPUT Relay.State.new ⟨x, .socketRead bytes⟩ :=
    fun hchokes => by cases hchokes.1
  have hends : ¬ EndsDrained Relay.State.new ⟨x, .socketRead bytes⟩ :=
    fun hends => by cases hends.1
  have hnonempty : bytes ≠ [] := by
    intro hnil
    rw [hnil] at h
    exact absurd h (by decide)
  have hguard : Endpoint.new.enabledRead = true ∧ bytes ≠ [] :=
    ⟨rfl, hnonempty⟩
  have hread := step_embed hlinked background hchoke hends unchoked_new
  simp only [Relay.step, Relay.State.new, stepRelaying, if_pos hguard] at hread
  have hpending : (Function.update (fun _ => Endpoint.new) x
      (Endpoint.new.onChannel (Channel.socketRead true bytes))
      x).readcbPending = true := by
    rw [Function.update_self]
    rfl
  have hfull : MAX_OUTPUT ≤
      ((Function.update (fun _ => Endpoint.new) x
        (Endpoint.new.onChannel (Channel.socketRead true bytes))
        x.other).output ++
      (Function.update (fun _ => Endpoint.new) x
        (Endpoint.new.onChannel (Channel.socketRead true bytes))
        x).input).length := by
    rw [Function.update_self, Function.update_of_ne (Side.other_ne x)]
    exact h
  have hchoked := step_choked hlinked background
    (Function.update (fun _ => Socket.new) x
      { received := Socket.new.received ++ bytes, sent := Socket.new.sent })
    hpending hfull
  refine ⟨_, _, (Machine.run_cons_of_ok _ hread).trans
    (Machine.run_cons_of_ok [] hchoked), ?_, ?_⟩
  · rw [forward_self, if_pos]
    simpa [Endpoint.onChannel, Channel.takeReadcb] using hfull
  · rw [forward_other, if_pos]
    · simp [Endpoint.onChannel, Channel.takeReadcb, Channel.socketRead,
        Endpoint.new, Channel.new, Channel.enable]
    · simpa [Endpoint.onChannel, Channel.takeReadcb] using hfull

def chokeTrace : List (Action Side) :=
  [⟨.accepted, .socketRead (List.replicate MAX_OUTPUT 0)⟩,
    ⟨.accepted, .deferredRead⟩]

/-- After the read callback, bytes of the server would go back to the server. -/
theorem backpressure_misroutes :
    exists s0 s, defaultAcceptCb localPlace true 0
        (newProxy localPlace.proxy World.empty) = .ok (true, s0) ∧
      (forall a, a ∈ chokeTrace -> a.occurrence ≠ .deferredEvent) ∧
      (localPlace.machine MAX_OUTPUT).run s0 chokeTrace = .ok s ∧
      ¬ Routed localPlace s := by
  rcases exists_localStart with ⟨s0, hstart⟩
  have hlinked := linked_memoryAfter localPlace (World.empty : World Nat).memory
  have hlength : MAX_OUTPUT ≤ (List.replicate MAX_OUTPUT (0 : Byte)).length :=
    Nat.le_of_eq (List.length_replicate).symm
  rcases run_choked hlinked World.empty .accepted hlength with
    ⟨ends, sockets, hrun, _⟩
  rw [← defaultAcceptCb_embed hstart] at hrun
  refine ⟨s0, _, hstart, ?_, hrun, not_routed_choked hlinked ends sockets _⟩
  intro a ha hoccurrence
  simp only [chokeTrace, List.mem_cons, List.not_mem_nil, or_false] at ha
  rcases ha with rfl | rfl <;> cases hoccurrence

end TcpProxy
end NetExperiment
