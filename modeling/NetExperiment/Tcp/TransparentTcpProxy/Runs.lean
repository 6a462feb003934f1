import NetExperiment.Tcp.TransparentTcpProxy.Accept

/-!
# Runs of a started connection

What holds in every state that a connection reaches after it was accepted,
whatever happens to its two endpoints and in whatever order.
-/

namespace NetExperiment
namespace TransparentTcpProxy

open Foundation
open Libevent
open Relay

variable {ptr : Type} [DecidableEq ptr] {place : Allocation ptr}

theorem acceptConnection_embed (hplace : place.Distinct) {conn : Incoming}
    {r : SystemResults} {s s' : World ptr}
    (h : acceptConnection place conn r s = .ok (true, s')) :
    exists pair : Pair place, s' = embed pair s Relay.State.new := by
  cases hdst : originalDestination r with
  | none =>
      rw [acceptConnection_unknown hplace conn s hdst] at h
      cases h
  | some dst =>
      by_cases hconnect : r.socketConnect < 0
      · rw [acceptConnection_released hplace conn s hdst hconnect] at h
        cases h
      · rw [acceptConnection_started hplace conn s hdst hconnect] at h
        cases h
        exact ⟨startedPair hplace conn dst r.upstreamFd, rfl⟩

section Embed

variable {pair : Pair place} {background : World ptr} {r : Relay.State}

omit [DecidableEq ptr] in
theorem embed_bevs (x : Side) :
    (embed pair background r).bevs (place.bufferAt x) =
      bevsOf place r.phase x :=
  overlay_bevs x

omit [DecidableEq ptr] in
theorem embed_sockets (x : Side) :
    (embed pair background r).sockets (place.bufferAt x) = r.sockets x :=
  overlay_sockets x

omit [DecidableEq ptr] in
theorem embed_memory (x : Side) :
    (embed pair background r).memory (place.objectAt x) =
      objectsOf pair r.phase x :=
  overlay_memory x

omit [DecidableEq ptr] in
theorem relaying_of_live (h : forall x,
    ((embed pair background r).memory (place.objectAt x)).IsLive) :
    exists ends, r.phase = .relaying ends := by
  cases hphase : r.phase with
  | relaying ends => exact ⟨ends, rfl⟩
  | closing y c =>
      have hother := h y.other
      rw [embed_memory, hphase] at hother
      simp only [objectsOf, if_neg (Side.other_ne y)] at hother
      exact absurd hother Cell.not_isLive_freed
  | closed =>
      have haccepted := h .accepted
      rw [embed_memory, hphase] at haccepted
      exact absurd haccepted Cell.not_isLive_freed

end Embed

theorem run_embed_of_along (pair : Pair place) (background : World ptr)
    {I : Relay.State -> Prop} {C : World ptr -> Action Side -> Prop}
    (hsafe : forall r a, I r -> C (embed pair background r) a ->
      ¬ SurvivorEnds r a)
    (hstep : forall r a, I r -> C (embed pair background r) a ->
      I (Relay.step MAX_OUTPUT r a))
    {r : Relay.State} {acts : List (Action Side)} (hinit : I r)
    (halong : (place.machine MAX_OUTPUT).Along C (embed pair background r)
      acts) :
    exists last, (place.machine MAX_OUTPUT).run (embed pair background r) acts =
        .ok (embed pair background last) ∧ I last := by
  have hgood : forall s a, (exists r, s = embed pair background r ∧ I r) ->
      C s a -> exists next, (place.machine MAX_OUTPUT).step s a = .ok next ∧
        exists r, next = embed pair background r ∧ I r := by
    intro s a hs hC
    rcases hs with ⟨r, rfl, hr⟩
    exact ⟨_, step_embed pair background MAX_OUTPUT r a (hsafe r a hr hC), _,
      rfl, hstep r a hr hC⟩
  rcases Machine.run_ok_of_along hgood ⟨r, rfl, hinit⟩ halong with
    ⟨s, hrun, last, rfl, hlast⟩
  exact ⟨last, hrun, hlast⟩

/-!
## Lifetime of the objects
-/

/-- The action runs the event callback for an end of file or an error of an
endpoint that flushes its last output. -/
def EventWhileClosing (place : Allocation ptr) (s : World ptr)
    (a : Action Side) : Prop :=
  a.occurrence = .deferredEvent ∧
    exists bev, s.bevs (place.bufferAt a.target) = .live bev ∧
      bev.writecb = some .closeOnFinishedWritecb ∧ bev.eventcbPending.Fatal

instance (place : Allocation ptr) (s : World ptr) (a : Action Side) :
    Decidable (EventWhileClosing place s a) :=
  inferInstanceAs (Decidable (_ ∧ exists _, _ ∧ _))

omit [DecidableEq ptr] in
theorem eventWhileClosing_embed (pair : Pair place) (background : World ptr)
    (r : Relay.State) (a : Action Side) :
    EventWhileClosing place (embed pair background r) a <->
      SurvivorEnds r a := by
  rcases r with ⟨phase, sockets⟩
  unfold EventWhileClosing SurvivorEnds embed
  rw [overlay_bevs]
  refine and_congr_right (fun _ => ?_)
  cases phase with
  | relaying ends =>
      constructor
      · intro h
        rcases h with ⟨bev, hbev, hwritecb, _⟩
        cases hbev
        cases hdraining : (ends a.target).draining <;>
          simp [relayingBev, hdraining] at hwritecb
      · intro h
        rcases h with ⟨c, hphase, _⟩
        cases hphase
  | closing y c =>
      by_cases htarget : a.target = y
      · constructor
        · intro h
          rcases h with ⟨bev, hbev, _, hfatal⟩
          simp only [bevsOf, if_pos htarget] at hbev
          cases hbev
          exact ⟨c, by rw [htarget], hfatal⟩
        · intro h
          rcases h with ⟨d, hphase, hfatal⟩
          cases hphase
          exact ⟨closingBev place a.target c, if_pos rfl, rfl, hfatal⟩
      · constructor
        · intro h
          rcases h with ⟨bev, hbev, _⟩
          simp only [bevsOf, if_neg htarget] at hbev
          cases hbev
        · intro h
          rcases h with ⟨d, hphase, _⟩
          cases hphase
          exact absurd rfl htarget
  | closed =>
      constructor
      · intro h
        rcases h with ⟨bev, hbev, _⟩
        cases hbev
      · intro h
        rcases h with ⟨c, hphase, _⟩
        cases hphase

theorem run_embed (pair : Pair place) (background : World ptr) (maxOutput : Nat)
    {r : Relay.State} {acts : List (Action Side)}
    (halong : (place.machine maxOutput).Along
      (fun s a => ¬ EventWhileClosing place s a) (embed pair background r)
      acts) :
    exists last, (Relay.machine maxOutput).run r acts = .ok last ∧
      (place.machine maxOutput).run (embed pair background r) acts =
        .ok (embed pair background last) := by
  induction acts generalizing r with
  | nil => exact ⟨r, rfl, rfl⟩
  | cons a rest ih =>
      have hquiet : ¬ SurvivorEnds r a := fun h =>
        halong.1 ((eventWhileClosing_embed pair background r a).mpr h)
      have hstep := step_embed pair background maxOutput r a hquiet
      rcases ih (halong.2 _ hstep) with ⟨last, habstract, hconcrete⟩
      refine ⟨last, habstract, ?_⟩
      rw [Machine.run_cons_of_ok rest hstep]
      exact hconcrete

/-- No object is deleted twice or used after its deletion, exactly if no end of
file or error is handled for an endpoint that flushes its last output. -/
theorem run_ok_iff_no_eventWhileClosing (hplace : place.Distinct)
    {conn : Incoming} {r : SystemResults} {background s0 : World ptr}
    (hstart : acceptConnection place conn r background = .ok (true, s0))
    (acts : List (Action Side)) :
    (exists s, (place.machine MAX_OUTPUT).run s0 acts = .ok s) <->
      (place.machine MAX_OUTPUT).Along
        (fun s a => ¬ EventWhileClosing place s a) s0 acts := by
  rcases acceptConnection_embed hplace hstart with ⟨pair, rfl⟩
  refine Machine.run_ok_iff_along
    (I := fun s => exists r, s = embed pair background r) ?_ ?_ ⟨_, rfl⟩
  · intro s a hs hnot
    rcases hs with ⟨r, rfl⟩
    rw [eventWhileClosing_embed] at hnot
    exact ⟨_, step_embed pair background MAX_OUTPUT r a hnot, _, rfl⟩
  · intro s a next hs hstep
    rcases hs with ⟨r, rfl⟩
    rw [eventWhileClosing_embed]
    intro hends
    rw [step_embed_survivorEnds pair background MAX_OUTPUT r a hends] at hstep
    cases hstep

/-!
A connection from a local client, for runs on fixed inputs.
-/

def localPlace : Allocation Nat := ⟨0, 1, 2, 3⟩

def localConn : Incoming := ⟨5, ⟨0x7f000001, 40000⟩, 16⟩

def localResults : SystemResults := ⟨some (⟨0x0a000001, 80⟩, 16), none, 0, 6⟩

def localCheck (acts : List (Action Side))
    (check : Result Nat (World Nat) -> Bool) : Bool :=
  match acceptConnection localPlace localConn localResults World.empty with
  | .ok (true, s0) => check ((localPlace.machine MAX_OUTPUT).run s0 acts)
  | _ => false

theorem exists_of_localCheck {acts : List (Action Side)}
    {check : Result Nat (World Nat) -> Bool}
    (h : localCheck acts check = true) :
    exists s0, acceptConnection localPlace localConn localResults World.empty =
        .ok (true, s0) ∧
      check ((localPlace.machine MAX_OUTPUT).run s0 acts) = true := by
  unfold localCheck at h
  split at h
  · rename_i s0 hstart
    exact ⟨s0, hstart, h⟩
  · cases h

theorem of_localCheck {acts : List (Action Side)}
    {check : Result Nat (World Nat) -> Bool} {s0 : World Nat}
    (hstart : acceptConnection localPlace localConn localResults World.empty =
      .ok (true, s0))
    (h : localCheck acts check = true) :
    check ((localPlace.machine MAX_OUTPUT).run s0 acts) = true := by
  rcases exists_of_localCheck h with ⟨s1, hs1, hcheck⟩
  rw [hstart] at hs1
  cases hs1
  exact hcheck

def endFoundTrace : List (Action Side) :=
  [⟨.accepted, .socketRead [65]⟩, ⟨.accepted, .deferredRead⟩,
    ⟨.accepted, .report (BEV_EVENT_EOF ||| BEV_EVENT_READING)⟩]

def endTrace : List (Action Side) :=
  endFoundTrace ++ [⟨.accepted, .deferredEvent⟩]

/-- The byte is flushed to the server. -/
theorem no_eventWhileClosing_of_flush :
    exists s0, acceptConnection localPlace localConn localResults World.empty =
        .ok (true, s0) ∧
      (localPlace.machine MAX_OUTPUT).Along
        (fun s a => ¬ EventWhileClosing localPlace s a) s0
        (endTrace ++ [⟨.upstream, .socketWrite 1⟩,
          ⟨.upstream, .deferredWrite⟩]) := by
  have hcheck : localCheck (endTrace ++ [⟨.upstream, .socketWrite 1⟩,
      ⟨.upstream, .deferredWrite⟩]) (okWith fun _ => true) = true := by
    decide +kernel
  rcases exists_of_localCheck hcheck with ⟨s0, hstart, hrun⟩
  rcases exists_of_okWith hrun with ⟨s, hs, _⟩
  exact ⟨s0, hstart,
    (run_ok_iff_no_eventWhileClosing (by decide) hstart _).mp ⟨s, hs⟩⟩

/-- Writing the byte that is still queued for the server fails.  The event
deletes the object of the client again. -/
theorem run_doubleFree :
    exists s0, acceptConnection localPlace localConn localResults World.empty =
        .ok (true, s0) ∧
      (localPlace.machine MAX_OUTPUT).run s0
        (endTrace ++
          [⟨.upstream, .report (BEV_EVENT_ERROR ||| BEV_EVENT_WRITING)⟩,
            ⟨.upstream, .deferredEvent⟩]) =
        .error (.doubleFree .object 0) := by
  have hcheck : localCheck (endTrace ++
      [⟨.upstream, .report (BEV_EVENT_ERROR ||| BEV_EVENT_WRITING)⟩,
        ⟨.upstream, .deferredEvent⟩]) (errorIs (.doubleFree .object 0)) =
      true := by
    decide +kernel
  rcases exists_of_localCheck hcheck with ⟨s0, hstart, hrun⟩
  exact ⟨s0, hstart, eq_of_errorIs hrun⟩

/-!
## No byte is lost while both objects live
-/

theorem exists_relaying_of_run (hplace : place.Distinct) {conn : Incoming}
    {r : SystemResults} {background s0 s : World ptr}
    {acts : List (Action Side)}
    (hstart : acceptConnection place conn r background = .ok (true, s0))
    (hrun : (place.machine MAX_OUTPUT).run s0 acts = .ok s)
    (hlive : forall x, (s.memory (place.objectAt x)).IsLive) :
    exists (pair : Pair place) (ends : Side -> Endpoint)
      (sockets : Side -> Socket),
      s = relayingWorld pair background ends sockets ∧
        Intact ends sockets := by
  rcases acceptConnection_embed hplace hstart with ⟨pair, rfl⟩
  rcases (simulates pair background MAX_OUTPUT).run_preserves
    (I := State.IntactWhileOpen)
    (by
      intro r a next hr hnext
      cases hnext
      exact step_intactWhileOpen a hr)
    intactWhileOpen_new hrun with ⟨⟨phase, sockets⟩, rfl, hintact⟩
  rcases relaying_of_live hlive with ⟨ends, hphase⟩
  cases hphase
  exact ⟨pair, ends, sockets, rfl, hintact ends rfl⟩

/-- In each direction the bytes read from one socket are the bytes written to
the other one, followed by the two buffers between them. -/
theorem received_eq_sent_append (hplace : place.Distinct) {conn : Incoming}
    {r : SystemResults} {background s0 s : World ptr}
    {acts : List (Action Side)}
    (hstart : acceptConnection place conn r background = .ok (true, s0))
    (hrun : (place.machine MAX_OUTPUT).run s0 acts = .ok s)
    (hlive : forall x, (s.memory (place.objectAt x)).IsLive) (x : Side) :
    exists source sink, s.bevs (place.bufferAt x) = .live source ∧
      s.bevs (place.bufferAt x.other) = .live sink ∧
      (s.sockets (place.bufferAt x)).received =
        (s.sockets (place.bufferAt x.other)).sent ++ sink.output ++
          source.input := by
  rcases exists_relaying_of_run hplace hstart hrun hlive with
    ⟨pair, ends, sockets, rfl, hintact⟩
  refine ⟨relayingBev place x (ends x),
    relayingBev place x.other (ends x.other), embed_bevs x,
    embed_bevs x.other, ?_⟩
  rw [embed_sockets, embed_sockets]
  exact hintact x

def trafficTrace : List (Action Side) :=
  [⟨.upstream, .report BEV_EVENT_CONNECTED⟩,
    ⟨.accepted, .socketRead [65, 66]⟩, ⟨.upstream, .socketRead [97]⟩,
    ⟨.accepted, .deferredRead⟩, ⟨.upstream, .socketWrite 1⟩,
    ⟨.accepted, .socketRead [67]⟩]

theorem received_eq_sent_append_of_traffic :
    exists (s0 s : World Nat) (source sink : Bufferevent DataCb EventCb Nat),
      acceptConnection localPlace localConn localResults World.empty =
        .ok (true, s0) ∧
      (localPlace.machine MAX_OUTPUT).run s0 trafficTrace = .ok s ∧
      s.bevs (localPlace.bufferAt .accepted) = .live source ∧
      s.bevs (localPlace.bufferAt .upstream) = .live sink ∧
      (s.sockets (localPlace.bufferAt .accepted)).received =
        (s.sockets (localPlace.bufferAt .upstream)).sent ++ sink.output ++
          source.input ∧
      (s.sockets (localPlace.bufferAt .accepted)).received =
        [65, 66, 67] := by
  have hcheck : localCheck trafficTrace (okWith fun s =>
      decide ((forall x, (s.memory (localPlace.objectAt x)).IsLive) ∧
        (s.sockets (localPlace.bufferAt .accepted)).received =
          [65, 66, 67])) = true := by
    decide +kernel
  rcases exists_of_localCheck hcheck with ⟨s0, hstart, hok⟩
  rcases exists_of_okWith hok with ⟨s, hrun, hs⟩
  rcases of_decide_eq_true hs with ⟨hlive, hreceived⟩
  rcases received_eq_sent_append (by decide) hstart hrun hlive .accepted with
    ⟨source, sink, hsource, hsink, hbytes⟩
  exact ⟨s0, s, source, sink, hstart, hrun, hsource, hsink, hbytes, hreceived⟩

/-!
## Flow control while no endpoint has ended
-/

theorem MAX_OUTPUT_pos : 0 < MAX_OUTPUT := by
  decide

/-- An endpoint is read only while less than the limit is queued for the other
one.  It is held back exactly while the other one has the drained callback, and
then either much is still queued or that callback is scheduled. -/
theorem flow_control_of_run (hplace : place.Distinct) {conn : Incoming}
    {r : SystemResults} {background s0 : World ptr} {acts : List (Action Side)}
    (hstart : acceptConnection place conn r background = .ok (true, s0))
    (hquiet : forall a, a ∈ acts -> forall x, ¬ a.ReportsFatal x) (x : Side) :
    exists s source sink, (place.machine MAX_OUTPUT).run s0 acts = .ok s ∧
      s.bevs (place.bufferAt x) = .live source ∧
      s.bevs (place.bufferAt x.other) = .live sink ∧
      (source.enabledRead = true -> sink.output.length < MAX_OUTPUT) ∧
      (source.enabledRead = false <->
        sink.writecb = some .drainedWritecb ∧
          sink.wmWriteLow = MAX_OUTPUT / 2 ∧
          sink.cbarg = some (place.objectAt x)) ∧
      (source.enabledRead = false ->
        MAX_OUTPUT / 2 < sink.output.length ∨ sink.writecbPending = true) := by
  rcases acceptConnection_embed hplace hstart with ⟨pair, rfl⟩
  have hsafe : forall r a, State.Controlled MAX_OUTPUT r ->
      (forall x, ¬ a.ReportsFatal x) -> ¬ SurvivorEnds r a := by
    intro r a hr _ hends
    rcases hr with ⟨ends, hphase, _⟩
    rcases hends with ⟨_, c, hclosing, _⟩
    rw [hphase] at hclosing
    cases hclosing
  rcases run_embed_of_along pair background hsafe
    (fun r a hr ha => step_controlled MAX_OUTPUT_pos hr ha)
    (controlled_new MAX_OUTPUT_pos)
    (Machine.along_of_forall_mem (fun _ => hquiet) _) with
    ⟨last, hrun, ends, hphase, hflow, _⟩
  have hx := hflow x
  refine ⟨embed pair background last, relayingBev place x (ends x),
    relayingBev place x.other (ends x.other), hrun, ?_, ?_, hx.bounded, ?_, ?_⟩
  · rw [embed_bevs, hphase]
    rfl
  · rw [embed_bevs, hphase]
    rfl
  · have hslot : (relayingBev place x.other (ends x.other)).writecb =
        some .drainedWritecb <-> (ends x.other).draining = true := by
      unfold relayingBev
      cases (ends x.other).draining <;> simp
    rw [hslot]
    constructor
    · intro hpaused
      have hdraining := hx.paused_iff.mp hpaused
      refine ⟨hdraining, hx.watermark hdraining, ?_⟩
      show some (place.objectAt x.other.other) = _
      rw [Side.other_other]
    · intro h
      exact hx.paused_iff.mpr h.1
  · intro hpaused
    exact hx.wakeup (hx.paused_iff.mp hpaused)

def fullTrace : List (Action Side) :=
  [⟨.accepted, .socketRead (List.replicate MAX_OUTPUT 0)⟩,
    ⟨.accepted, .deferredRead⟩]

/-- After the read callback the client is held back. -/
theorem flow_control_of_full_read :
    exists (s0 s : World Nat) (source sink : Bufferevent DataCb EventCb Nat),
      acceptConnection localPlace localConn localResults World.empty =
        .ok (true, s0) ∧
      (localPlace.machine MAX_OUTPUT).run s0 fullTrace = .ok s ∧
      s.bevs (localPlace.bufferAt .accepted) = .live source ∧
      s.bevs (localPlace.bufferAt .upstream) = .live sink ∧
      source.enabledRead = false ∧
      sink.writecb = some .drainedWritecb ∧
      sink.wmWriteLow = MAX_OUTPUT / 2 ∧
      sink.cbarg = some (localPlace.objectAt .accepted) ∧
      (MAX_OUTPUT / 2 < sink.output.length ∨ sink.writecbPending = true) := by
  have hcheck : localCheck [] (okWith fun _ => true) = true := by
    decide +kernel
  rcases exists_of_localCheck hcheck with ⟨s0, hstart, _⟩
  have hmem : forall a, a ∈ fullTrace ->
      a.occurrence ≠ .deferredEvent ∧ forall x, ¬ a.ReportsFatal x := by
    intro a ha
    simp only [fullTrace, List.mem_cons, List.not_mem_nil, or_false] at ha
    rcases ha with rfl | rfl
    · exact ⟨by simp, fun x h => by rcases h with ⟨_, _, hwhat, _⟩; cases hwhat⟩
    · exact ⟨by simp, fun x h => by rcases h with ⟨_, _, hwhat, _⟩; cases hwhat⟩
  rcases flow_control_of_run (by decide) hstart (fun a ha => (hmem a ha).2)
    .accepted with ⟨s, source, sink, hrun, hsource, hsink, _, hpaused, hfull⟩
  have hheld : source.enabledRead = false := by
    rcases acceptConnection_embed (by decide) hstart with ⟨pair, rfl⟩
    have hopen : (localPlace.machine MAX_OUTPUT).Along
        (fun s a => ¬ EventWhileClosing localPlace s a)
        (embed pair World.empty Relay.State.new) fullTrace := by
      apply Machine.along_of_forall_mem
      intro s a ha h
      exact (hmem a ha).1 h.1
    rcases run_embed pair World.empty MAX_OUTPUT hopen with
      ⟨last, hlast, himage⟩
    rw [hrun] at himage
    have hheld := run_held MAX_OUTPUT_pos .accepted
      (Nat.le_of_eq (List.length_replicate (a := (0 : Byte))).symm)
    rcases hheld with ⟨ends, sockets, habstract, hdisabled⟩
    rw [fullTrace, habstract] at hlast
    cases hlast
    rw [Except.ok.inj himage, embed_bevs] at hsource
    cases hsource
    exact hdisabled
  rcases hpaused.mp hheld with ⟨hwritecb, hlow, hcbarg⟩
  exact ⟨s0, s, source, sink, hstart, hrun, hsource, hsink, hheld, hwritecb,
    hlow, hcbarg, hfull hheld⟩

/-!
## Flushing before an object is deleted
-/

omit [DecidableEq ptr] in
theorem deliversFatal_embed (pair : Pair place) (background : World ptr)
    (y : Side) (r : Relay.State) (a : Action Side) :
    (embed pair background r).DeliversFatal (place.bufferAt y)
      (a.map place.bufferAt) <-> r.DeliversFatal y a := by
  rw [← layout_embed]
  exact Layout.deliversFatal_embed (L := pair.layout background)

theorem survivorEnds_deliversFatal {y : Side} {r : Relay.State}
    {a : Action Side} (hr : r.Flushing y) (h : SurvivorEnds r a) :
    r.DeliversFatal y a := by
  rcases h with ⟨hoccurrence, c, hphase, hfatal⟩
  cases hr with
  | relaying _ => cases hphase
  | closing _ _ =>
      cases hphase
      refine ⟨rfl, hoccurrence, ?_⟩
      rw [State.eventcbPending_closing]
      exact hfatal
  | closed _ => cases hphase

/-- What is left of a pair after the event of the other endpoint was handled.
The other object is gone with its bufferevent.  Either this one is gone as well
and has written all that was read from the other endpoint, or what it has not
written is still queued, and it has something to write or a scheduled callback,
which deletes it as soon as nothing is left to write. -/
def FlushesOut (place : Allocation ptr) (y : Side) (s : World ptr) : Prop :=
  s.memory (place.objectAt y.other) = .freed ∧
    s.bevs (place.bufferAt y.other) = .freed ∧
    ((s.memory (place.objectAt y) = .freed ∧
        s.bevs (place.bufferAt y) = .freed ∧
        (s.sockets (place.bufferAt y)).sent =
          (s.sockets (place.bufferAt y.other)).received) ∨
      (s.memory (place.objectAt y)).IsLive ∧
        exists bev, s.bevs (place.bufferAt y) = .live bev ∧
          (s.sockets (place.bufferAt y.other)).received =
            (s.sockets (place.bufferAt y)).sent ++ bev.output ∧
          (bev.output ≠ [] ∨ bev.writecbPending = true) ∧
          (bev.output = [] ->
            exists s', (place.machine MAX_OUTPUT).step s ⟨y, .deferredWrite⟩ =
                .ok s' ∧
              s'.memory (place.objectAt y) = .freed ∧
              s'.bevs (place.bufferAt y) = .freed))

theorem flushesOut_embed (pair : Pair place) (background : World ptr) {y : Side}
    {r : Relay.State} (hflushing : r.Flushing y) (hended : r.Ended) :
    FlushesOut place y (embed pair background r) := by
  unfold FlushesOut
  rw [embed_memory, embed_memory, embed_sockets, embed_sockets, embed_bevs,
    embed_bevs]
  cases hflushing with
  | relaying _ => cases hended
  | @closing c sockets hreceived hwakeup =>
      refine ⟨if_neg (Side.other_ne y), if_neg (Side.other_ne y), .inr ?_⟩
      refine ⟨⟨pair.proxy y, if_pos rfl⟩, closingBev place y c, if_pos rfl,
        hreceived, ?_, ?_⟩
      · by_cases hempty : c.output = []
        · exact .inr (hwakeup hempty)
        · exact .inl hempty
      · intro hempty
        have hpending := hwakeup hempty
        have hstep := step_embed pair background MAX_OUTPUT
          { phase := .closing y c, sockets := sockets } ⟨y, .deferredWrite⟩
          (fun hends => by cases hends.1)
        have hclosed : Relay.step MAX_OUTPUT
            { phase := .closing y c, sockets := sockets } ⟨y, .deferredWrite⟩ =
              { phase := .closed, sockets := sockets } := by
          have houtput : c.output = [] := hempty
          simp [Relay.step, stepClosing, hpending, houtput]
        rw [hclosed] at hstep
        exact ⟨_, hstep, embed_memory y, embed_bevs y⟩
  | closed hreceived => exact ⟨rfl, rfl, .inl ⟨rfl, rfl, hreceived.symm⟩⟩

/-- A run in which an endpoint never ends is one of the relay, from any state
whose invariant the steps keep. -/
theorem run_flushing (pair : Pair place) (background : World ptr) {y : Side}
    {I : Relay.State -> Prop}
    (hstep : forall r a, I r -> I (Relay.step MAX_OUTPUT r a))
    {r : Relay.State} {acts : List (Action Side)} (hflushing : r.Flushing y)
    (hinit : I r)
    (hquiet : (place.machine MAX_OUTPUT).Along
      (fun s a => ¬ s.DeliversFatal (place.bufferAt y) (a.map place.bufferAt))
      (embed pair background r) acts) :
    exists last, (place.machine MAX_OUTPUT).run (embed pair background r) acts =
        .ok (embed pair background last) ∧ last.Flushing y ∧ I last := by
  refine run_embed_of_along pair background
    (I := fun r => r.Flushing y ∧ I r) ?_ ?_ ⟨hflushing, hinit⟩ hquiet
  · intro r a hr hnot hends
    exact hnot ((deliversFatal_embed pair background y r a).mpr
      (survivorEnds_deliversFatal hr.1 hends))
  · intro r a hr hnot
    refine ⟨step_flushing hr.1 (fun h => hnot ?_), hstep r a hr.2⟩
    exact (deliversFatal_embed pair background y r a).mpr h

/-- As long as the event callback of an endpoint does not run for an end of file
or an error, its object is deleted only when all that was read from the other
endpoint has been written to it, and in every state after the event of the other
endpoint was handled that one is gone and the endpoint flushes what is left. -/
theorem flushed_before_delete (hplace : place.Distinct) {conn : Incoming}
    {r : SystemResults} {background s0 : World ptr} {acts : List (Action Side)}
    (y : Side)
    (hstart : acceptConnection place conn r background = .ok (true, s0))
    (hquiet : (place.machine MAX_OUTPUT).Along
      (fun s a => ¬ s.DeliversFatal (place.bufferAt y) (a.map place.bufferAt))
      s0 acts) :
    exists s, (place.machine MAX_OUTPUT).run s0 acts = .ok s ∧
      (s.memory (place.objectAt y) = .freed ->
        (s.sockets (place.bufferAt y)).sent =
          (s.sockets (place.bufferAt y.other)).received) ∧
      forall (front later : List (Action Side)) (a : Action Side)
        (mid : World ptr), acts = front ++ a :: later ->
        (place.machine MAX_OUTPUT).run s0 front = .ok mid ->
        mid.DeliversFatal (place.bufferAt y.other) (a.map place.bufferAt) ->
        FlushesOut place y s := by
  rcases acceptConnection_embed hplace hstart with ⟨pair, rfl⟩
  rcases run_flushing pair background (I := fun _ => True)
    (fun _ _ _ => trivial) (flushing_new y) trivial hquiet with
    ⟨last, hrun, hflushing, _⟩
  refine ⟨embed pair background last, hrun, ?_, ?_⟩
  · rw [embed_memory, embed_sockets, embed_sockets]
    intro hfreed
    cases hflushing with
    | relaying _ => cases hfreed
    | closing _ _ => simp [objectsOf] at hfreed
    | closed hreceived => exact hreceived.symm
  · intro front later a mid hacts hfront hfatal
    subst hacts
    rcases run_flushing pair background (I := State.OpenOrEnded)
      (fun r a hr => step_openOrEnded a hr) (flushing_new y) openOrEnded_new
      (Machine.along_front hquiet) with ⟨before, hbefore, hflush, hopen⟩
    rw [hfront] at hbefore
    cases hbefore
    have hrest := Machine.along_append hquiet hfront
    have hends := (deliversFatal_embed pair background y.other before a).mp
      hfatal
    have hother : ¬ before.DeliversFatal y a := fun h =>
      hrest.1 ((deliversFatal_embed pair background y before a).mpr h)
    have hstep := step_embed pair background MAX_OUTPUT before a
      (fun h => hother (survivorEnds_deliversFatal hflush h))
    -- the pair has ended with this step, and stays so in what follows
    rcases run_flushing pair background (I := State.Ended)
      (fun r a hr => step_ended a hr) (step_flushing hflush hother)
      (step_ended_of_deliversFatal hopen hends) (hrest.2 _ hstep) with
      ⟨reached, hreached, hflushed, hended⟩
    have hwhole := Machine.run_append hfront (a :: later)
    rw [hrun, Machine.run_cons_of_ok later hstep, hreached] at hwhole
    rw [Except.ok.inj hwhole]
    exact flushesOut_embed pair background hflushed hended

/-- The client sends a byte and ends, and its byte is written.  Then the object
of the server side is deleted. -/
theorem flushed_before_delete_of_end :
    exists s0 s : World Nat,
      acceptConnection localPlace localConn localResults World.empty =
        .ok (true, s0) ∧
      (localPlace.machine MAX_OUTPUT).run s0
        (endTrace ++ [⟨.upstream, .socketWrite 1⟩,
          ⟨.upstream, .deferredWrite⟩]) = .ok s ∧
      (s.sockets (localPlace.bufferAt .accepted)).received = [65] ∧
      s.memory (localPlace.objectAt .upstream) = .freed ∧
      FlushesOut localPlace .upstream s ∧
      (s.sockets (localPlace.bufferAt .upstream)).sent =
        (s.sockets (localPlace.bufferAt .accepted)).received := by
  have hcheck : localCheck (endTrace ++ [⟨.upstream, .socketWrite 1⟩,
      ⟨.upstream, .deferredWrite⟩])
      (okWith fun s => decide
        (s.memory (localPlace.objectAt .upstream) = .freed ∧
          (s.sockets (localPlace.bufferAt .accepted)).received = [65])) =
      true := by
    decide +kernel
  have hfront : localCheck endFoundTrace (okWith fun mid =>
      (mid.bevs (localPlace.bufferAt .accepted)).liveWith fun bev =>
        decide bev.eventcbPending.Fatal) = true := by
    decide +kernel
  rcases exists_of_localCheck hcheck with ⟨s0, hstart, hok⟩
  rcases exists_of_okWith hok with ⟨s, hrun, hs⟩
  rcases of_decide_eq_true hs with ⟨hfreed, hreceived⟩
  rcases exists_of_okWith (of_localCheck hstart hfront) with
    ⟨mid, hmid, hpending⟩
  rcases Cell.exists_of_liveWith hpending with ⟨source, hsource, hfatal⟩
  have hquiet : (localPlace.machine MAX_OUTPUT).Along
      (fun s a => ¬ s.DeliversFatal (localPlace.bufferAt .upstream)
        (a.map localPlace.bufferAt)) s0
      (endTrace ++ [⟨.upstream, .socketWrite 1⟩,
        ⟨.upstream, .deferredWrite⟩]) := by
    apply Machine.along_of_forall_mem
    intro s a ha hdelivers
    rcases hdelivers with ⟨htarget, hoccurrence, _⟩
    simp only [endTrace, endFoundTrace, List.cons_append, List.nil_append,
      List.mem_cons, List.not_mem_nil, or_false] at ha
    rcases ha with rfl | rfl | rfl | rfl | rfl | rfl
    · cases hoccurrence
    · cases hoccurrence
    · cases hoccurrence
    · exact absurd htarget (by decide)
    · cases hoccurrence
    · cases hoccurrence
  rcases flushed_before_delete (by decide) .upstream hstart hquiet with
    ⟨last, hlast, hflushed, hafter⟩
  rw [hrun] at hlast
  cases hlast
  refine ⟨s0, s, hstart, hrun, hreceived, hfreed, ?_, hflushed hfreed⟩
  exact hafter endFoundTrace [⟨.upstream, .socketWrite 1⟩,
    ⟨.upstream, .deferredWrite⟩] ⟨.accepted, .deferredEvent⟩ mid rfl hmid
    ⟨rfl, rfl, source, hsource, of_decide_eq_true hfatal⟩

/-!
## An end of file closes both directions

The object of an endpoint that reports an end of file is deleted as soon as the
event is handled, with what is still queued for that endpoint.
-/

omit [DecidableEq ptr] in
theorem gone_objectsOf (pair : Pair place) {x : Side} {bytes : List Byte}
    {r : Relay.State} (h : r.Gone x bytes) :
    objectsOf pair r.phase x = .freed := by
  cases h with
  | closing _ => exact if_neg (Side.ne_other x)
  | closed _ => rfl

omit [DecidableEq ptr] in
theorem gone_bevsOf {x : Side} {bytes : List Byte} {r : Relay.State}
    (h : r.Gone x bytes) : bevsOf place r.phase x = .freed := by
  cases h with
  | closing _ => exact if_neg (Side.ne_other x)
  | closed _ => rfl

theorem deleted_at_end_of_file (hplace : place.Distinct) {conn : Incoming}
    {r : SystemResults} {background s0 s : World ptr}
    {acts : List (Action Side)} {x : Side}
    {source : Bufferevent DataCb EventCb ptr}
    (hstart : acceptConnection place conn r background = .ok (true, s0))
    (hrun : (place.machine MAX_OUTPUT).run s0 acts = .ok s)
    (hlive : forall z, (s.memory (place.objectAt z)).IsLive)
    (hsource : s.bevs (place.bufferAt x) = .live source)
    (heof : source.eventcbPending &&& BEV_EVENT_EOF ≠ 0) :
    exists sink s', s.bevs (place.bufferAt x.other) = .live sink ∧
      (place.machine MAX_OUTPUT).step s ⟨x, .deferredEvent⟩ = .ok s' ∧
      s'.memory (place.objectAt x) = .freed ∧
      s'.bevs (place.bufferAt x) = .freed ∧
      (s.sockets (place.bufferAt x.other)).received =
        (s'.sockets (place.bufferAt x)).sent ++
          (source.output ++ sink.input) ∧
      ((s.sockets (place.bufferAt x.other)).received =
          (s'.sockets (place.bufferAt x)).sent <->
        source.output = [] ∧ sink.input = []) ∧
      forall later s'', (place.machine MAX_OUTPUT).run s' later = .ok s'' ->
        (s''.sockets (place.bufferAt x)).sent =
          (s'.sockets (place.bufferAt x)).sent := by
  rcases exists_relaying_of_run hplace hstart hrun hlive with
    ⟨pair, ends, sockets, rfl, hintact⟩
  rw [embed_bevs] at hsource
  cases hsource
  have hfatal : (ends x).eventcbPending.Fatal := What.fatal_of_eof heof
  have hreceived := hintact x.other
  rw [Side.other_other, List.append_assoc] at hreceived
  have hgone := finish_gone MAX_OUTPUT x
    (Function.update ends x ((ends x).onChannel Channel.takeEventcb)) sockets
  have hstep := step_embed pair background MAX_OUTPUT
    { phase := .relaying ends, sockets := sockets } ⟨x, .deferredEvent⟩
    (fun hends => by
      rcases hends with ⟨_, c, hclosing, _⟩
      cases hclosing)
  simp only [Relay.step, stepRelaying, if_pos hfatal] at hstep
  refine ⟨relayingBev place x.other (ends x.other), _, embed_bevs x.other,
    hstep, ?_, ?_, ?_, ?_, ?_⟩
  · rw [embed_memory]
    exact gone_objectsOf pair hgone
  · rw [embed_bevs]
    exact gone_bevsOf hgone
  · rw [embed_sockets, embed_sockets]
    exact hreceived
  · rw [embed_sockets, embed_sockets, ← List.append_eq_nil_iff]
    show (sockets x.other).received = (sockets x).sent <->
      (ends x).output ++ (ends x.other).input = []
    rw [hreceived, List.append_right_eq_self]
  · intro later s'' hlater
    rcases (simulates pair background MAX_OUTPUT).run_preserves
      (I := State.Gone x (sockets x).sent)
      (by
        intro r a next hr hnext
        cases hnext
        exact step_gone a hr)
      hgone hlater with ⟨last, rfl, hlast⟩
    rw [embed_sockets, embed_sockets]
    exact hlast.sent_eq

/-- A byte of the server is queued for the client when the client has finished
sending. -/
def halfCloseTrace : List (Action Side) :=
  [⟨.upstream, .socketRead [97]⟩, ⟨.upstream, .deferredRead⟩,
    ⟨.accepted, .report (BEV_EVENT_EOF ||| BEV_EVENT_READING)⟩]

theorem deleted_at_end_of_file_of_halfClose :
    exists s s' : World Nat, exists source sink,
      s.bevs (localPlace.bufferAt .accepted) = .live source ∧
      s.bevs (localPlace.bufferAt .upstream) = .live sink ∧
      (localPlace.machine MAX_OUTPUT).step s ⟨.accepted, .deferredEvent⟩ =
        .ok s' ∧
      s'.bevs (localPlace.bufferAt .accepted) = .freed ∧
      (s.sockets (localPlace.bufferAt .upstream)).received =
        (s'.sockets (localPlace.bufferAt .accepted)).sent ++
          (source.output ++ sink.input) := by
  have hcheck : localCheck halfCloseTrace (okWith fun s =>
      decide (forall x, (s.memory (localPlace.objectAt x)).IsLive) &&
      (s.bevs (localPlace.bufferAt .accepted)).liveWith fun bev =>
        decide (bev.eventcbPending &&& BEV_EVENT_EOF ≠ 0)) = true := by
    decide +kernel
  rcases exists_of_localCheck hcheck with ⟨s0, hstart, hok⟩
  rcases exists_of_okWith hok with ⟨s, hrun, hs⟩
  rw [Bool.and_eq_true] at hs
  rcases hs with ⟨hlive, hpending⟩
  rcases Cell.exists_of_liveWith hpending with ⟨source, hsource, heof⟩
  rcases deleted_at_end_of_file (by decide) hstart hrun
    (of_decide_eq_true hlive) hsource (of_decide_eq_true heof) with
    ⟨sink, s', hsink, hstep, _, hfreed, hbytes, _⟩
  exact ⟨s, s', source, sink, hsource, hsink, hstep, hfreed, hbytes⟩

/-- The byte is discarded although no error is reported. -/
theorem halfClose_discards :
    (forall a, a ∈ halfCloseTrace -> forall what : What,
      a.occurrence = .report what -> what &&& BEV_EVENT_ERROR = 0) ∧
    exists s0 s,
      acceptConnection localPlace localConn localResults World.empty =
        .ok (true, s0) ∧
      (localPlace.machine MAX_OUTPUT).run s0
        (halfCloseTrace ++ [⟨.accepted, .deferredEvent⟩]) = .ok s ∧
      s.bevs (localPlace.bufferAt .accepted) = .freed ∧
      (s.sockets (localPlace.bufferAt .upstream)).received = [97] ∧
      (s.sockets (localPlace.bufferAt .accepted)).sent = [] := by
  constructor
  · intro a ha what hwhat
    simp only [halfCloseTrace, List.mem_cons, List.not_mem_nil, or_false] at ha
    rcases ha with rfl | rfl | rfl
    · cases hwhat
    · cases hwhat
    · cases hwhat
      decide
  · have hcheck : localCheck (halfCloseTrace ++ [⟨.accepted, .deferredEvent⟩])
        (okWith fun s => decide
          (s.bevs (localPlace.bufferAt .accepted) = .freed ∧
            (s.sockets (localPlace.bufferAt .upstream)).received = [97] ∧
            (s.sockets (localPlace.bufferAt .accepted)).sent = [])) =
        true := by
      decide +kernel
    rcases exists_of_localCheck hcheck with ⟨s0, hstart, hok⟩
    rcases exists_of_okWith hok with ⟨s, hrun, hs⟩
    exact ⟨s0, s, hstart, hrun, of_decide_eq_true hs⟩

end TransparentTcpProxy
end NetExperiment
