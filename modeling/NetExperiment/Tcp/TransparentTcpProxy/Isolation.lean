import NetExperiment.Tcp.TransparentTcpProxy.Server

/-!
# Connections of the transparent proxy among each other

What happens to one connection is decided by its own events alone, as long as
the run is regular.  The one step that is not regular, the end of a survivor,
faults or strikes another connection.
-/

namespace NetExperiment
namespace TransparentTcpProxy

open Foundation
open Libevent
open Relay

variable {ptr : Type} [DecidableEq ptr]

def Allocation.owns (place : Allocation ptr) : ServerAction ptr -> Bool
  | .incoming _ _ _ => false
  | .endpoint a =>
      decide (a.target = place.buffer) || decide (a.target = place.partnerBuffer)

/-- No pointer of the connection is handed out again. -/
def Allocation.NotReused (place : Allocation ptr) : ServerAction ptr -> Prop
  | .incoming other _ _ => forall x z,
      place.objectAt x ≠ other.objectAt z ∧ place.bufferAt x ≠ other.bufferAt z
  | .endpoint _ => True

instance (place : Allocation ptr) (a : ServerAction ptr) :
    Decidable (place.NotReused a) :=
  match a with
  | .incoming other _ _ => inferInstanceAs (Decidable (forall x z,
      place.objectAt x ≠ other.objectAt z ∧
        place.bufferAt x ≠ other.bufferAt z))
  | .endpoint _ => .isTrue trivial

theorem Allocation.owns_iff {place : Allocation ptr} {a : Action ptr} :
    place.owns (.endpoint a) = true <->
      exists x, place.bufferAt x = a.target := by
  simp only [owns, Bool.or_eq_true, decide_eq_true_eq]
  constructor
  · intro h
    rcases h with h | h
    · exact ⟨.accepted, h.symm⟩
    · exact ⟨.upstream, h.symm⟩
  · intro h
    rcases h with ⟨x, hx⟩
    cases x with
    | accepted => exact .inl hx.symm
    | upstream => exact .inr hx.symm

structure Connection.Runs (c : Connection ptr) (s : World ptr) : Prop where
  member : exists members : Set (Connection ptr),
    c ∈ members ∧ connections.Populates members (contents s)
  agrees : forall x, c.Agrees x s

theorem Connection.Runs.own_step {c : Connection ptr} {s : World ptr}
    (h : c.Runs s) {x : Side} {o : Occurrence}
    (hquiet : ¬ EndsWhileFlushing s
      (.endpoint { target := c.place.bufferAt x, occurrence := o })) :
    exists s', server.step s (.endpoint
        { target := c.place.bufferAt x, occurrence := o }) = .ok s' ∧
      (c.next x o).Runs s' := by
  have heq : s = embed c.pair s c.relay := Connection.eq_embed h.agrees
  have hnot := mt (Connection.survivorEnds (h.agrees x) (o := o)) hquiet
  have hstep := step_embed c.pair s MAX_OUTPUT c.relay
    { target := x, occurrence := o } hnot
  rw [← heq] at hstep
  refine ⟨_, hstep, ?_, (c.next x o).agrees_embed⟩
  rcases h.member with ⟨members, hmember, hpopulates⟩
  by_cases hside : x ∈ c.relay.phase.sides
  · rcases populates_step hpopulates hmember hside hquiet with
      ⟨s', hstep', _, hpopulates'⟩
    have hsame := hstep'.symm.trans hstep
    cases hsame
    exact ⟨_, Set.mem_insert _ _, hpopulates'⟩
  · have hidle : Relay.step MAX_OUTPUT c.relay
        { target := x, occurrence := o } = c.relay :=
      step_of_notMem_sides hside
    unfold Connection.next
    rw [hidle, ← heq]
    exact ⟨members, hmember, hpopulates⟩

omit [DecidableEq ptr] in
theorem Connection.Runs.kept {c : Connection ptr} {s s' : World ptr}
    (h : c.Runs s) {members : Set (Connection ptr)} (hmember : c ∈ members)
    (hpopulates : connections.Populates members (contents s'))
    (hsame : forall x q, q = (.object, c.place.objectAt x) ∨
      q = (.bufferevent, c.place.bufferAt x) ->
        contents s q = contents s' q) : c.Runs s' where
  member := ⟨members, hmember, hpopulates⟩
  agrees := fun x =>
    (h.agrees x).congr (hsame x _ (.inl rfl)) (hsame x _ (.inr rfl))

theorem Connection.Runs.other_step {c : Connection ptr} {s : World ptr}
    (h : c.Runs s) {a : Action ptr}
    (hquiet : ¬ EndsWhileFlushing s (.endpoint a))
    (hother : forall x, c.place.bufferAt x ≠ a.target) :
    exists s', server.step s (.endpoint a) = .ok s' ∧ c.Runs s' := by
  by_cases hlive : (s.bevs a.target).IsLive
  · rcases h.member with ⟨members, hmember, hpopulates⟩
    rcases exists_side hpopulates hlive with ⟨d, x, hd, hx, hplace⟩
    rcases a with ⟨target, o⟩
    have htarget : d.place.bufferAt x = target := hplace
    subst htarget
    rcases populates_step hpopulates hd hx hquiet with
      ⟨s', hstep, hsteps, hpopulates'⟩
    have hne : c ≠ d := by
      intro hmine
      subst hmine
      exact hother x rfl
    have hstays : c ∈ insert (d.next x o) (members \ {d}) :=
      Set.mem_insert_of_mem _ ⟨hmember, hne⟩
    refine ⟨s', hstep, h.kept hstays hpopulates' ?_⟩
    intro z q hq
    apply hsteps.same
    intro hcell
    -- a cell of the other connection is live, so it is a live side of both
    have hused : InUse (contents s q) :=
      connections.used (hpopulates.present d hd) hcell
    exact hne (hpopulates.eq_of_mem hmember hd
      ⟨z, (h.agrees z).mem_sides hq hused, hq⟩ hcell)
  · exact ⟨s, Loop.step_notLive hlive, h⟩

theorem Connection.Runs.accept_step {c : Connection ptr} {s : World ptr}
    (h : c.Runs s) {place : Allocation ptr} {conn : Incoming}
    {r : SystemResults} (hregular : Regular s (.incoming place conn r))
    (hapart : c.place.NotReused (.incoming place conn r)) :
    exists s', server.step s (.incoming place conn r) = .ok s' ∧
      c.Runs s' := by
  rcases h.member with ⟨members, hmember, hpopulates⟩
  rcases Option.isSome_iff_exists.mp hregular.2.1 with ⟨dst, hdst⟩
  rcases populates_accept hpopulates hregular.1 hdst with
    ⟨s', hstep, _, hsame, hpopulates'⟩
  refine ⟨s', hstep, h.kept (Set.mem_insert_of_mem _ hmember) hpopulates' ?_⟩
  intro x q hq
  refine (hsame q ?_).symm
  intro z
  rcases hq with rfl | rfl
  · constructor
    · intro heq
      exact (hapart x z).1 (congrArg Prod.snd heq)
    · intro heq
      cases heq
  · constructor
    · intro heq
      cases heq
    · intro heq
      exact (hapart x z).2 (congrArg Prod.snd heq)

theorem runs_accepted {place : Allocation ptr} {conn : Incoming}
    {r : SystemResults} {dst : Sockaddr × Nat} {s : World ptr} (h : Occupied s)
    (hfresh : Fresh s (.incoming place conn r))
    (hdst : originalDestination r = some dst) :
    exists s', server.step s (.incoming place conn r) = .ok s' ∧
      (Connection.accepted hfresh.1 conn dst r).Runs s' := by
  rcases h with ⟨members, hpopulates⟩
  rcases populates_accept hpopulates hfresh hdst with
    ⟨s', hstep, hagrees, _, hpopulates'⟩
  exact ⟨s', hstep, ⟨_, Set.mem_insert _ _, hpopulates'⟩, hagrees⟩

def Allocation.Same (place : Allocation ptr) (alone s : World ptr) : Prop :=
  exists c : Connection ptr, c.place = place ∧ c.Runs alone ∧ c.Runs s

omit [DecidableEq ptr] in
theorem Connection.Runs.endsWhileFlushing_iff {c : Connection ptr}
    {s alone : World ptr} (h : c.Runs s) (halone : c.Runs alone) (x : Side)
    (o : Occurrence) :
    EndsWhileFlushing s
        (.endpoint { target := c.place.bufferAt x, occurrence := o }) <->
      EndsWhileFlushing alone
        (.endpoint { target := c.place.bufferAt x, occurrence := o }) := by
  simp only [EndsWhileFlushing]
  rw [(h.agrees x).bev, (halone.agrees x).bev]

/-- A run of the server is, for each connection, the run of its own events in a
server that has no other connections. -/
theorem Allocation.Same.project {place : Allocation ptr} {alone s : World ptr}
    {acts : List (ServerAction ptr)} (h : place.Same alone s)
    (halong : server.Along (fun s a => Regular s a ∧ place.NotReused a) s
      acts) :
    exists s' alone', server.run s acts = .ok s' ∧
      server.run alone (acts.filter place.owns) = .ok alone' ∧
      place.Same alone' s' := by
  have hproject := Machine.run_project (M := server) (N := server)
    (R := place.Same) (Option.guard place.owns) ?_ ?_ h halong
  · rw [List.filterMap_eq_filter] at hproject
    exact hproject
  · intro alone s a b hsame hC hown
    rcases Option.guard_eq_some_iff.mp hown with ⟨rfl, howns⟩
    rcases hsame with ⟨c, rfl, halone, hs⟩
    cases a with
    | incoming other conn r => cases howns
    | endpoint a =>
        rcases Allocation.owns_iff.mp howns with ⟨x, hx⟩
        rcases a with ⟨target, o⟩
        have htarget : c.place.bufferAt x = target := hx
        subst htarget
        have hquiet := hC.1.2.2
        rcases hs.own_step hquiet with ⟨s', hstep, hs'⟩
        rw [hs.endsWhileFlushing_iff halone] at hquiet
        rcases halone.own_step hquiet with ⟨alone', hstep', halone'⟩
        exact ⟨s', alone', hstep, hstep', c.next x o, rfl, halone', hs'⟩
  · intro alone s a hsame hC hown
    have howns := Option.guard_eq_none_iff.mp hown
    rcases hsame with ⟨c, rfl, halone, hs⟩
    cases a with
    | incoming other conn r =>
        rcases hs.accept_step hC.1 hC.2 with ⟨s', hstep, hs'⟩
        exact ⟨s', hstep, c, rfl, halone, hs'⟩
    | endpoint a =>
        have hother : forall x, c.place.bufferAt x ≠ a.target := by
          intro x hx
          have hyes := Allocation.owns_iff.mpr ⟨x, hx⟩
          rw [howns] at hyes
          cases hyes
        rcases hs.other_step hC.1.2.2 hother with ⟨s', hstep, hs'⟩
        exact ⟨s', hstep, c, rfl, halone, hs'⟩

/-- A connection that is accepted in the middle of a run ends up, after any
further events of the whole server that hand none of its pointers out again, as if
it had been alone: its objects, bufferevents and sockets are those of a server that
accepts it first and then sees its own events only. -/
theorem regular_connection_isolated (place : Allocation ptr) (conn : Incoming)
    (r : SystemResults) (front later : List (ServerAction ptr))
    (hregular : server.Along Regular World.empty
      (front ++ .incoming place conn r :: later))
    (hkept : forall a, a ∈ later -> place.NotReused a) :
    exists s alone : World ptr,
      server.run World.empty (front ++ .incoming place conn r :: later) =
        .ok s ∧
      server.run World.empty
        (.incoming place conn r :: later.filter place.owns) = .ok alone ∧
      forall x,
        s.memory (place.objectAt x) = alone.memory (place.objectAt x) ∧
        s.bevs (place.bufferAt x) = alone.bevs (place.bufferAt x) ∧
        s.sockets (place.bufferAt x) = alone.sockets (place.bufferAt x) := by
  rcases Machine.run_ok_of_along (fun _ _ => serverStep_occupied)
    occupied_empty (Machine.along_front hregular) with ⟨mid, hmid, hoccupied⟩
  rcases Machine.along_append hregular hmid with ⟨hplace, hrest⟩
  rcases Option.isSome_iff_exists.mp hplace.2.1 with ⟨dst, hdst⟩
  rcases runs_accepted hoccupied hplace.1 hdst with ⟨s0, hs0, hruns⟩
  -- the same connection, accepted by a server that has nothing else to do
  have hfresh0 : Fresh World.empty (.incoming place conn r) :=
    ⟨hplace.1.1, fun _ _ => Cell.not_isLive_absent,
      fun _ _ => Cell.not_isLive_absent⟩
  rcases runs_accepted occupied_empty hfresh0 hdst with
    ⟨alone0, halone0, hruns0⟩
  have hsame : place.Same alone0 s0 := ⟨_, rfl, hruns0, hruns⟩
  rcases hsame.project (Machine.along_and (hrest s0 hs0)
    (Machine.along_of_forall_mem (fun _ a ha => hkept a ha) s0)) with
    ⟨s, alone, hs, halone, c, hc, hlast', hlast⟩
  subst hc
  refine ⟨s, alone, ?_, ?_, ?_⟩
  · rw [Machine.run_append hmid, Machine.run_cons_of_ok later hs0, hs]
  · rw [Machine.run_cons_of_ok _ halone0, halone]
  · intro x
    have hmine := hlast.agrees x
    have hthere := hlast'.agrees x
    exact ⟨hmine.object.trans hthere.object.symm,
      hmine.bev.trans hthere.bev.symm, hmine.socket.trans hthere.socket.symm⟩

/-- The second connection of the run above, with the events of the first one
left out. -/
theorem regular_connection_isolated_of_reuse :
    exists s alone : World Nat,
      server.run World.empty reuseTrace = .ok s ∧
      server.run World.empty [.incoming ⟨0, 4, 2, 5⟩ localConn localResults,
        .endpoint ⟨2, .socketRead [66]⟩, .endpoint ⟨2, .deferredRead⟩] =
        .ok alone ∧
      s.bevs 2 = alone.bevs 2 ∧ s.bevs 5 = alone.bevs 5 := by
  rcases regular_connection_isolated ⟨0, 4, 2, 5⟩ localConn localResults
    (reuseTrace.take 4) (reuseTrace.drop 5) (by decide +kernel)
    (by decide +kernel) with ⟨s, alone, hs, halone, hsame⟩
  exact ⟨s, alone, hs, halone, (hsame .accepted).2.1, (hsame .upstream).2.1⟩

/-!
## When a survivor ends

The event callback of a survivor deletes the object of its former partner once
more.  By then the pointer is free, or it belongs to another connection.
-/

section Strike

variable {s : World ptr} {b p q : ptr} {o : Proxy ptr}
  {bev : Bufferevent DataCb EventCb ptr}

theorem readcb_own (maxOutput : Nat) (hobject : s.memory p = .live o)
    (hbuffer : o.buffer = .assigned (some b))
    (hpartner : o.partner = .assigned (some q)) (hbev : s.bevs b = .live bev) :
    exists bev', readcb maxOutput b (some p) s = .ok (s.setBev b bev') := by
  unfold readcb Loop.evbufferAddBuffer Loop.buffereventSetcb
    Loop.buffereventSetwatermarkWrite Loop.buffereventDisable deref
  rw [Loop.inputLength_live hbev, ok_bind]
  simp only
  rw [Heap.read_live _ hobject, ok_bind, hbuffer, Member.get_assigned, ok_bind]
  simp only
  rw [Heap.read_live _ hbev, ok_bind, Loop.modifyBev_live _ hbev, ok_bind,
    Loop.modifyBev_setBev, ok_bind,
    Loop.outputLength_live (Loop.setBev_bevs_self s b _), ok_bind]
  split
  · rw [hpartner, Member.get_assigned, ok_bind, Loop.modifyBev_setBev, ok_bind,
      Loop.modifyBev_setBev, ok_bind, Loop.modifyBev_setBev]
    exact ⟨_, rfl⟩
  · exact ⟨_, rfl⟩

theorem closePartner_own (maxOutput : Nat) (hobject : s.memory p = .live o)
    (hbuffer : o.buffer = .assigned (some b))
    (hpartner : o.partner = .assigned (some q)) (hbev : s.bevs b = .live bev) :
    exists s', closePartner maxOutput b (some p) s = .ok s' ∧
      (forall p', p' ≠ p -> s'.memory p' = s.memory p') ∧
      forall b', b' ≠ b -> s'.bevs b' = s.bevs b' := by
  rcases readcb_own maxOutput hobject hbuffer hpartner hbev with ⟨bev', hread⟩
  have hlive : (s.setBev b bev').memory p = .live o := hobject
  unfold closePartner deref bufferOf Loop.buffereventSetcb
    Loop.buffereventDisable
  rw [hread, ok_bind]
  simp only
  rw [Heap.read_live _ hlive, ok_bind, hbuffer, Member.get_assigned, ok_bind]
  simp only [ok_bind]
  rw [Loop.outputLength_live (Loop.setBev_bevs_self s b bev'), ok_bind]
  split
  · rw [Loop.modifyBev_setBev, ok_bind, Loop.modifyBev_setBev]
    exact ⟨_, rfl, fun _ _ => rfl, fun b' hb' => Function.update_of_ne hb' _ _⟩
  · rw [deleteProxy_live hlive hbuffer (Loop.setBev_bevs_self s b bev')]
    refine ⟨_, rfl, fun p' hp' => Function.update_of_ne hp' _ _, ?_⟩
    intro b' hb'
    exact (Function.update_of_ne hb' _ _).trans (Function.update_of_ne hb' _ _)

/-- The event callback of a survivor goes on to delete whatever the pointer of
its former partner points to. -/
theorem eventcb_own (maxOutput : Nat) {what : What} (hfatal : what.Fatal)
    (hobject : s.memory p = .live o) (hbuffer : o.buffer = .assigned (some b))
    (hpartner : o.partner = .assigned (some q)) (hbev : s.bevs b = .live bev) :
    exists s', eventcb maxOutput b what (some p) s =
        deleteProxy (some q) s' ∧
      (forall p', p' ≠ p -> s'.memory p' = s.memory p') ∧
      forall b', b' ≠ b -> s'.bevs b' = s.bevs b' := by
  rcases closePartner_own maxOutput hobject hbuffer hpartner hbev with
    ⟨s', hclose, hmemory, hbevs⟩
  refine ⟨s', ?_, hmemory, hbevs⟩
  simp only [eventcb, partnerOf, Option.isSome_some, if_true, if_pos hfatal,
    deref]
  rw [Heap.read_live _ hobject, ok_bind, hpartner, hclose]
  rfl

end Strike

omit [DecidableEq ptr] in
theorem exists_survivor {c : Connection ptr} {s : World ptr} {x : Side}
    (h : c.Agrees x s) {bev : Bufferevent DataCb EventCb ptr}
    (hbev : s.bevs (c.place.bufferAt x) = .live bev)
    (hwritecb : bev.writecb = some .closeOnFinishedWritecb) :
    exists channel, c.relay.phase = .closing x channel ∧
      bev = closingBev c.place x channel := by
  have hcell := h.bev.symm.trans hbev
  cases hphase : c.relay.phase with
  | relaying ends =>
      rw [hphase] at hcell
      cases hcell
      cases hdraining : (ends x).draining <;>
        simp [relayingBev, hdraining] at hwritecb
  | closing y channel =>
      rw [hphase] at hcell
      by_cases hxy : x = y
      · subst hxy
        simp only [bevsOf, if_true] at hcell
        cases hcell
        exact ⟨channel, rfl, rfl⟩
      · simp only [bevsOf, if_neg hxy] at hcell
        cases hcell
  | closed =>
      rw [hphase] at hcell
      cases hcell

theorem Connection.Agrees.survivor_step {c : Connection ptr} {s : World ptr}
    {x : Side} {channel : Channel} (h : c.Agrees x s)
    (hphase : c.relay.phase = .closing x channel)
    (hfatal : channel.eventcbPending.Fatal) :
    exists s', Loop.step (program MAX_OUTPUT) s
        { target := c.place.bufferAt x, occurrence := .deferredEvent } =
          deleteProxy (some (c.place.objectAt x.other)) s' ∧
      (forall p, p ≠ c.place.objectAt x -> s'.memory p = s.memory p) ∧
      forall b, b ≠ c.place.bufferAt x -> s'.bevs b = s.bevs b := by
  have hobject : s.memory (c.place.objectAt x) = .live (c.pair.proxy x) := by
    refine h.object.trans ?_
    rw [hphase]
    exact if_pos rfl
  have hbev : s.bevs (c.place.bufferAt x) =
      .live (closingBev c.place x channel) := by
    refine h.bev.trans ?_
    rw [hphase]
    exact if_pos rfl
  have hpending : (closingBev c.place x channel).eventcbPending ≠ 0 := by
    intro hzero
    have hnone : channel.eventcbPending = 0 := hzero
    rw [hnone] at hfatal
    exact What.not_fatal_zero hfatal
  rw [Loop.step_live _ hbev, Loop.stepLive_deferredEvent rfl hpending]
  rcases eventcb_own MAX_OUTPUT hfatal (s := s.setBev (c.place.bufferAt x)
    ((closingBev c.place x channel).onChannel Channel.takeEventcb)) hobject
    (c.pair.buffer_eq x) (c.pair.partner_eq x)
    (Loop.setBev_bevs_self s _ _) with ⟨s', hevent, hmemory, hbevs⟩
  refine ⟨s', hevent, hmemory, ?_⟩
  intro b hb
  exact (hbevs b hb).trans (Function.update_of_ne hb _ _)

/-!
The pointer of a former partner may be handed out again, but never goes back to
what was never allocated.
-/

def Remembers (s : World ptr) : Prop :=
  forall p o q, s.memory p = .live o -> o.partner = .assigned (some q) ->
    s.memory q ≠ .absent

omit [DecidableEq ptr] in
theorem objectsOf_ne_absent {place : Allocation ptr} (pair : Pair place)
    (phase : Phase) (x : Side) : objectsOf pair phase x ≠ .absent := by
  cases phase with
  | relaying ends => exact fun h => by cases h
  | closing y c =>
      simp only [objectsOf]
      split <;> exact fun h => by cases h
  | closed => exact fun h => by cases h

omit [DecidableEq ptr] in
theorem objectsOf_eq_live {place : Allocation ptr} {pair : Pair place}
    {phase : Phase} {x : Side} {o : Proxy ptr}
    (h : objectsOf pair phase x = .live o) : o = pair.proxy x := by
  cases phase with
  | relaying ends =>
      cases h
      rfl
  | closing y c =>
      simp only [objectsOf] at h
      split at h <;> cases h
      rfl
  | closed => cases h

omit [DecidableEq ptr] in
/-- A step that changes only cells of one connection, to what the connection
holds there, forgets no partner of an object that was live before. -/
theorem Remembers.of_agrees {c : Connection ptr} {s s' : World ptr}
    {changed : Set Side} (hagrees : forall x, x ∈ changed -> c.Agrees x s')
    (hsame : forall p, (forall x, x ∈ changed -> p ≠ c.place.objectAt x) ->
      s'.memory p = s.memory p) {p : ptr} {o : Proxy ptr} {q : ptr}
    (h : Remembers s) (hlive : s.memory p = .live o)
    (hpartner : o.partner = .assigned (some q)) : s'.memory q ≠ .absent := by
  by_cases hq : exists x, x ∈ changed ∧ q = c.place.objectAt x
  · rcases hq with ⟨x, hx, rfl⟩
    rw [(hagrees x hx).object]
    exact objectsOf_ne_absent _ _ _
  · rw [hsame q (fun x hx heq => hq ⟨x, hx, heq⟩)]
    exact h p o q hlive hpartner

theorem Remembers.accept {members : Set (Connection ptr)} {s s' : World ptr}
    (h : Remembers s) (hpopulates : connections.Populates members (contents s))
    {place : Allocation ptr} {conn : Incoming} {r : SystemResults}
    {dst : Sockaddr × Nat} (hfresh : Fresh s (.incoming place conn r))
    (hdst : originalDestination r = some dst)
    (hstep : server.step s (.incoming place conn r) = .ok s') :
    Remembers s' := by
  rcases populates_accept hpopulates hfresh hdst with
    ⟨next, hnext, hagrees, hsame, _⟩
  rw [hstep] at hnext
  cases hnext
  have hmemory : forall p, (forall x, x ∈ Set.univ ->
      p ≠ place.objectAt x) -> s'.memory p = s.memory p := by
    intro p hp
    refine Sum.inl.inj (hsame (.object, p) (fun x => ⟨?_, ?_⟩))
    · intro heq
      exact hp x (Set.mem_univ x) (congrArg Prod.snd heq)
    · intro heq
      cases heq
  intro p o q hobject hpartner
  by_cases hnew : exists x, p = place.objectAt x
  · rcases hnew with ⟨x, rfl⟩
    have hcell := (hagrees x).object.symm.trans hobject
    rw [objectsOf_eq_live hcell,
      (Connection.accepted hfresh.1 conn dst r).pair.partner_eq x] at hpartner
    cases hpartner
    exact (hagrees x.other).object ▸ objectsOf_ne_absent _ _ _
  · rw [hmemory p (fun x _ heq => hnew ⟨x, heq⟩)] at hobject
    exact h.of_agrees (fun x _ => hagrees x) hmemory hobject hpartner

omit [DecidableEq ptr] in
theorem Remembers.steps {c : Connection ptr} {s s' : World ptr} {x : Side}
    {occurrence : Occurrence} (h : Remembers s) (hpresent : c.Present (contents s))
    (hsteps : c.Steps (c.next x occurrence) s s') : Remembers s' := by
  have hmemory : forall p, (forall z, z ∈ c.relay.phase.sides ->
      p ≠ (c.next x occurrence).place.objectAt z) ->
      s'.memory p = s.memory p := by
    intro p hp
    refine Sum.inl.inj (hsteps.same (x := (.object, p)) ?_).symm
    intro hcell
    rcases hcell with ⟨z, hz, heq | heq⟩
    · exact hp z hz (congrArg Prod.snd heq)
    · cases heq
  intro p o q hobject hpartner
  refine h.of_agrees hsteps.agrees hmemory (p := p) ?_ hpartner
  by_cases hown : exists z, z ∈ c.relay.phase.sides ∧ p = c.place.objectAt z
  · rcases hown with ⟨z, hz, rfl⟩
    have hcell := (hsteps.agrees z hz).object.symm.trans hobject
    rw [objectsOf_eq_live hcell]
    have hbefore := (hpresent.agrees hz).object
    rcases (objectsOf_isLive_iff c.pair).mpr hz with ⟨o', ho'⟩
    rw [hbefore, ho', objectsOf_eq_live ho']
    rfl
  · rw [← hmemory p (fun z hz heq => hown ⟨z, hz, heq⟩)]
    exact hobject

theorem serverStep_remembers {s s' : World ptr} {a : ServerAction ptr}
    (hoccupied : Occupied s) (h : Remembers s) (hregular : Regular s a)
    (hstep : server.step s a = .ok s') : Remembers s' := by
  rcases hoccupied with ⟨members, hpopulates⟩
  rcases hregular with ⟨hfresh, hfound, hquiet⟩
  cases a with
  | incoming place conn r =>
      rcases Option.isSome_iff_exists.mp hfound with ⟨dst, hdst⟩
      exact h.accept hpopulates hfresh hdst hstep
  | endpoint a =>
      by_cases hlive : (s.bevs a.target).IsLive
      · rcases exists_side hpopulates hlive with ⟨c, x, hc, hx, hplace⟩
        rcases a with ⟨target, occurrence⟩
        have htarget : c.place.bufferAt x = target := hplace
        subst htarget
        rcases populates_step hpopulates hc hx hquiet with
          ⟨next, hnext, hsteps, _⟩
        have hsame : next = s' := Except.ok.inj (hnext.symm.trans hstep)
        subst hsame
        exact h.steps (hpopulates.present c hc) hsteps
      · have hidle : server.step s (.endpoint a) = .ok s :=
          Loop.step_notLive hlive
        rw [hstep] at hidle
        cases hidle
        exact h

theorem remembers_of_run {acts : List (ServerAction ptr)} {s : World ptr}
    (hregular : server.Along Regular World.empty acts)
    (hrun : server.run World.empty acts = .ok s) : Remembers s := by
  refine (Machine.run_invariant
    (I := fun s : World ptr => Occupied s ∧ Remembers s) ?_
    ⟨occupied_empty, ?_⟩ hregular hrun).2
  · intro s a next hs ha hnext
    refine ⟨?_, serverStep_remembers hs.1 hs.2 ha hnext⟩
    rcases serverStep_occupied hs.1 ha with ⟨s', hs', hoccupied⟩
    rw [hnext] at hs'
    cases hs'
    exact hoccupied
  · intro p o q hobject _
    cases hobject

omit [DecidableEq ptr] in
theorem exists_served {members : Set (Connection ptr)} {s : World ptr}
    (h : connections.Populates members (contents s)) {p : ptr}
    (hlive : (s.memory p).IsLive) :
    exists d z bev, d ∈ members ∧ z ∈ d.relay.phase.sides ∧
      d.place.objectAt z = p ∧
      Served s p (d.pair.proxy z) (d.place.bufferAt z) bev := by
  rcases h.covers (.object, p) hlive with ⟨d, hd, z, hz, hq | hq⟩
  · cases hq
    rcases (h.present d hd).served hz with ⟨bev, hserved⟩
    exact ⟨d, z, bev, hd, hz, rfl, hserved⟩
  · cases hq

theorem deleteProxy_not_live {s : World ptr} {p : ptr}
    (h : ¬ (s.memory p).IsLive) (hknown : s.memory p ≠ .absent) :
    deleteProxy (some p) s = .error (.doubleFree .object p) := by
  cases hcell : s.memory p with
  | absent => exact absurd hcell hknown
  | live o => exact absurd ⟨o, hcell⟩ h
  | freed => exact deleteProxy_freed hcell

/-- In every state that a regular run reaches, the end of a survivor is a memory
error: the object of the former partner is deleted again, or a live object of
another connection that got its pointer is deleted together with its
bufferevent. -/
theorem survivor_end_strikes {acts : List (ServerAction ptr)} {s : World ptr}
    (hregular : server.Along Regular World.empty acts)
    (hrun : server.run World.empty acts = .ok s) {a : Action ptr}
    (hends : EndsWhileFlushing s (.endpoint a)) :
    (exists p, server.step s (.endpoint a) =
        .error (.doubleFree .object p)) ∨
      exists s' p o b bev, server.step s (.endpoint a) = .ok s' ∧
        Served s p o b bev ∧ b ≠ a.target ∧
        s'.memory p = .freed ∧ s'.bevs b = .freed := by
  have hremembers := remembers_of_run hregular hrun
  rcases Machine.run_ok_of_along (fun _ _ => serverStep_occupied)
    occupied_empty hregular with ⟨last, hlast, members, hpopulates⟩
  rw [hrun] at hlast
  cases hlast
  rcases a with ⟨target, o⟩
  rcases hends with ⟨ho, bev, hbev, hwritecb, hfatal⟩
  rcases exists_side hpopulates ⟨bev, hbev⟩ with ⟨c, x, hc, hx, htarget⟩
  have hdeferred : o = .deferredEvent := ho
  have hplace : c.place.bufferAt x = target := htarget
  subst hdeferred hplace
  have hagrees := (hpopulates.present c hc).agrees hx
  rcases exists_survivor hagrees hbev hwritecb with ⟨channel, hphase, rfl⟩
  rcases hagrees.survivor_step hphase hfatal with
    ⟨s', hstep, hmemory, hbevs⟩
  have hstep' : server.step s (.endpoint
      { target := c.place.bufferAt x, occurrence := .deferredEvent }) = _ :=
    hstep
  have hgone : c.place.objectAt x.other ≠ c.place.objectAt x := fun heq =>
    Side.other_ne x (c.pair.object_injective heq)
  rw [hstep']
  by_cases hlive : (s.memory (c.place.objectAt x.other)).IsLive
  · right
    rcases exists_served hpopulates hlive with
      ⟨d, z, victim, hd, hz, hpointer, hserved⟩
    -- the survivor has no other side, so the pointer is not its own
    have hne : d.place.bufferAt z ≠ c.place.bufferAt x := by
      intro heq
      have hcell := d.bev_mem hz
      rw [heq] at hcell
      have hsame := hpopulates.eq_of_mem hd hc hcell (c.bev_mem hx)
      subst hsame
      have hzx := d.pair.buffer_injective heq
      subst hzx
      exact hgone hpointer.symm
    have hobject : s'.memory (c.place.objectAt x.other) =
        .live (d.pair.proxy z) :=
      (hmemory _ hgone).trans hserved.object
    have hvictim : s'.bevs (d.place.bufferAt z) = .live victim :=
      (hbevs _ hne).trans hserved.live
    rw [deleteProxy_live hobject (d.pair.buffer_eq z) hvictim]
    exact ⟨_, _, _, _, victim, rfl, hserved, hne, Function.update_self _ _ _,
      Function.update_self _ _ _⟩
  · left
    refine ⟨_, deleteProxy_not_live ?_ ?_⟩
    · rw [hmemory _ hgone]
      exact hlive
    · rw [hmemory _ hgone]
      refine hremembers (c.place.objectAt x) _ _ ?_ (c.pair.partner_eq x)
      rw [hagrees.object, hphase]
      exact if_pos rfl

/-- The second connection of the run above got the pointers of the first one's
client side, and loses them to the end of its server side. -/
theorem survivor_end_strikes_of_reuse :
    exists s s' : World Nat,
      server.run World.empty (reuseTrace.take 6 ++ [.endpoint
        ⟨3, .report (BEV_EVENT_ERROR ||| BEV_EVENT_WRITING)⟩]) = .ok s ∧
      ((exists p, server.step s (.endpoint ⟨3, .deferredEvent⟩) =
          .error (.doubleFree .object p)) ∨
        exists t p o b bev,
          server.step s (.endpoint ⟨3, .deferredEvent⟩) = .ok t ∧
          Served s p o b bev ∧ b ≠ 3 ∧
          t.memory p = .freed ∧ t.bevs b = .freed) ∧
      server.step s (.endpoint ⟨3, .deferredEvent⟩) = .ok s' ∧
      (s.memory 0).IsLive ∧ s'.memory 0 = .freed := by
  have hcheck : okWith (fun s : World Nat =>
      decide (EndsWhileFlushing s (.endpoint ⟨3, .deferredEvent⟩)) &&
      decide (s.memory 0).IsLive &&
      okWith (fun s' => decide (s'.memory 0 = .freed))
        (server.step s (.endpoint ⟨3, .deferredEvent⟩)))
      (server.run World.empty (reuseTrace.take 6 ++ [.endpoint
        ⟨3, .report (BEV_EVENT_ERROR ||| BEV_EVENT_WRITING)⟩])) = true := by
    decide +kernel
  rcases exists_of_okWith hcheck with ⟨s, hs, hboth⟩
  simp only [Bool.and_eq_true, decide_eq_true_eq] at hboth
  rcases hboth with ⟨⟨hends, hlive⟩, hstep⟩
  rcases exists_of_okWith hstep with ⟨s', hs', hfreed⟩
  exact ⟨s, s', hs, survivor_end_strikes (by decide +kernel) hs hends, hs',
    hlive, of_decide_eq_true hfreed⟩

end TransparentTcpProxy
end NetExperiment
