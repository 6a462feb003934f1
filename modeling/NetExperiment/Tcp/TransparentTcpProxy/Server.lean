import NetExperiment.Relay.Tenants
import NetExperiment.Tcp.TransparentTcpProxy.Runs

/-!
# The transparent proxy with many connections

A connection keeps an object and a bufferevent for each live side.  As long as
no end of file or error is handled for a side that flushes its last output, the
connections run beside each other as if each were alone, also when the pointers
of deleted objects are handed out again.
-/

namespace NetExperiment
namespace TransparentTcpProxy

open Foundation
open Libevent
open Relay

variable {ptr : Type} [DecidableEq ptr]

/-- The action runs the event callback for an end of file or an error of some
bufferevent that flushes its last output. -/
def EndsWhileFlushing (s : World ptr) : ServerAction ptr -> Prop
  | .incoming _ _ _ => False
  | .endpoint a => a.occurrence = .deferredEvent ∧
      exists bev, s.bevs a.target = .live bev ∧
        bev.writecb = some .closeOnFinishedWritecb ∧ bev.eventcbPending.Fatal

instance (s : World ptr) (a : ServerAction ptr) :
    Decidable (EndsWhileFlushing s a) :=
  match a with
  | .incoming _ _ _ => .isFalse id
  | .endpoint a => inferInstanceAs
      (Decidable (a.occurrence = .deferredEvent ∧
        exists bev, s.bevs a.target = .live bev ∧
          bev.writecb = some .closeOnFinishedWritecb ∧
          bev.eventcbPending.Fatal))

instance (s : World ptr) (a : ServerAction ptr) : Decidable (Fresh s a) :=
  match a with
  | .incoming place _ _ => inferInstanceAs (Decidable (place.Distinct ∧
      (forall p, p ∈ [place.proxy, place.partner] -> ¬ (s.memory p).IsLive) ∧
      forall b, b ∈ [place.buffer, place.partnerBuffer] ->
        ¬ (s.bevs b).IsLive))
  | .endpoint _ => .isTrue trivial

instance (a : ServerAction ptr) : Decidable (DestinationFound a) :=
  match a with
  | .incoming _ _ r =>
      inferInstanceAs (Decidable ((originalDestination r).isSome = true))
  | .endpoint _ => .isTrue trivial

/-- A step of the server as it is meant to be used: allocations are fresh, every
original destination is found, and no survivor of a pair ends. -/
def Regular (s : World ptr) (a : ServerAction ptr) : Prop :=
  Fresh s a ∧ DestinationFound a ∧ ¬ EndsWhileFlushing s a

instance (s : World ptr) (a : ServerAction ptr) : Decidable (Regular s a) :=
  inferInstanceAs (Decidable (_ ∧ _ ∧ _))

/-!
## Connections as parts of the memory
-/

def contents (s : World ptr) :
    Resource × ptr ->
      Cell (Proxy ptr) ⊕ (Cell (Bufferevent DataCb EventCb ptr) × Socket)
  | (.object, p) => .inl (s.memory p)
  | (.bufferevent, b) => .inr (s.bevs b, s.sockets b)

/-- A connection that was accepted: its objects and how far it got. -/
structure Connection (ptr : Type) where
  place : Allocation ptr
  pair : Pair place
  relay : Relay.State

def Connection.cells (c : Connection ptr) : Set (Resource × ptr) :=
  { q | exists x, x ∈ c.relay.phase.sides ∧
    (q = (.object, c.place.objectAt x) ∨
      q = (.bufferevent, c.place.bufferAt x)) }

structure Connection.Agrees (c : Connection ptr) (x : Side) (s : World ptr) :
    Prop where
  object : s.memory (c.place.objectAt x) = objectsOf c.pair c.relay.phase x
  bev : s.bevs (c.place.bufferAt x) = bevsOf c.place c.relay.phase x
  socket : s.sockets (c.place.bufferAt x) = c.relay.sockets x

omit [DecidableEq ptr] in
theorem layout_bevsOf {place : Allocation ptr} (pair : Pair place)
    (background : World ptr) (phase : Phase) :
    (pair.layout background).bevsOf phase = bevsOf place phase := by
  cases phase <;> rfl

omit [DecidableEq ptr] in
theorem objectsOf_isLive_iff {place : Allocation ptr} (pair : Pair place)
    {phase : Phase} {x : Side} :
    (objectsOf pair phase x).IsLive <-> x ∈ phase.sides := by
  cases phase with
  | relaying ends => exact iff_of_true ⟨_, rfl⟩ (Set.mem_univ x)
  | closing y c =>
      by_cases hx : x = y
      · exact iff_of_true ⟨_, if_pos hx⟩ hx
      · refine iff_of_false ?_ hx
        simp only [objectsOf, if_neg hx]
        exact Cell.not_isLive_freed
  | closed => exact iff_of_false Cell.not_isLive_freed (Set.notMem_empty x)

omit [DecidableEq ptr] in
theorem bevsOf_isLive_iff {place : Allocation ptr} (pair : Pair place)
    {phase : Phase} {x : Side} :
    (bevsOf place phase x).IsLive <-> x ∈ phase.sides := by
  rw [← layout_bevsOf pair World.empty]
  exact Layout.bevsOf_isLive_iff

section Agrees

variable {c : Connection ptr} {x : Side} {s s' : World ptr}

omit [DecidableEq ptr] in
theorem Connection.Agrees.layout (h : c.Agrees x s) (background : World ptr) :
    (c.pair.layout background).Agrees c.relay x s := by
  refine ⟨?_, h.socket⟩
  rw [layout_bevsOf]
  exact h.bev

omit [DecidableEq ptr] in
theorem Connection.agrees_embed (c : Connection ptr) (x : Side) :
    c.Agrees x (embed c.pair s c.relay) :=
  ⟨embed_memory x, embed_bevs x, embed_sockets x⟩

omit [DecidableEq ptr] in
theorem Connection.Agrees.congr (h : c.Agrees x s)
    (hobject : contents s (.object, c.place.objectAt x) =
      contents s' (.object, c.place.objectAt x))
    (hbev : contents s (.bufferevent, c.place.bufferAt x) =
      contents s' (.bufferevent, c.place.bufferAt x)) :
    c.Agrees x s' := by
  have hmemory := Sum.inl.inj hobject
  have hcell := Prod.ext_iff.mp (Sum.inr.inj hbev)
  exact ⟨hmemory.symm.trans h.object, hcell.1.symm.trans h.bev,
    hcell.2.symm.trans h.socket⟩

omit [DecidableEq ptr] in
theorem Connection.eq_embed (h : forall x, c.Agrees x s) :
    s = embed c.pair s c.relay := by
  have hbevs := Heap.extend_self (bevsOf c.place c.relay.phase)
    (fun x => (h x).bev)
  have hsockets := Heap.extend_self c.relay.sockets (fun x => (h x).socket)
  have hmemory := Heap.extend_self (objectsOf c.pair c.relay.phase)
    (fun x => (h x).object)
  unfold embed overlay
  rw [hbevs, hsockets, hmemory]

end Agrees

omit [DecidableEq ptr] in
theorem Connection.object_mem (c : Connection ptr) {x : Side}
    (h : x ∈ c.relay.phase.sides) :
    (Resource.object, c.place.objectAt x) ∈ c.cells :=
  ⟨x, h, .inl rfl⟩

omit [DecidableEq ptr] in
theorem Connection.bev_mem (c : Connection ptr) {x : Side}
    (h : x ∈ c.relay.phase.sides) :
    (Resource.bufferevent, c.place.bufferAt x) ∈ c.cells :=
  ⟨x, h, .inr rfl⟩

def InUse : Cell (Proxy ptr) ⊕ (Cell (Bufferevent DataCb EventCb ptr) × Socket)
    -> Prop
  | .inl o => o.IsLive
  | .inr v => v.1.IsLive

/-- Every live side holds what the relay says, and the relay is in a state that
a run from an accepted connection can be in. -/
structure Connection.Present (c : Connection ptr) (f : Resource × ptr ->
    Cell (Proxy ptr) ⊕ (Cell (Bufferevent DataCb EventCb ptr) × Socket)) :
    Prop where
  object : forall x, x ∈ c.relay.phase.sides ->
    f (.object, c.place.objectAt x) = .inl (objectsOf c.pair c.relay.phase x)
  bev : forall x, x ∈ c.relay.phase.sides ->
    f (.bufferevent, c.place.bufferAt x) =
      .inr (bevsOf c.place c.relay.phase x, c.relay.sockets x)
  openOrEnded : c.relay.OpenOrEnded
  intact : c.relay.IntactWhileOpen

def connections : Parts (Connection ptr) (Resource × ptr)
    (Cell (Proxy ptr) ⊕ (Cell (Bufferevent DataCb EventCb ptr) × Socket)) where
  cells := Connection.cells
  Present := Connection.Present
  Used := InUse
  frame := by
    intro c f g h hsame
    refine ⟨?_, ?_, h.openOrEnded, h.intact⟩
    · intro x hx
      rw [← hsame (c.object_mem hx)]
      exact h.object x hx
    · intro x hx
      rw [← hsame (c.bev_mem hx)]
      exact h.bev x hx
  used := by
    intro c f q h hq
    rcases hq with ⟨x, hx, rfl | rfl⟩
    · rw [h.object x hx]
      exact (objectsOf_isLive_iff c.pair).mpr hx
    · rw [h.bev x hx]
      exact (bevsOf_isLive_iff c.pair).mpr hx

omit [DecidableEq ptr] in
theorem Connection.Present.agrees {c : Connection ptr} {s : World ptr}
    (h : c.Present (contents s)) {x : Side} (hx : x ∈ c.relay.phase.sides) :
    c.Agrees x s := by
  have hbev := Prod.ext_iff.mp (Sum.inr.inj (h.bev x hx))
  exact ⟨Sum.inl.inj (h.object x hx), hbev.1, hbev.2⟩

omit [DecidableEq ptr] in
theorem Connection.present_of_agrees {c : Connection ptr} {s : World ptr}
    (h : forall x, x ∈ c.relay.phase.sides -> c.Agrees x s)
    (hended : c.relay.OpenOrEnded) (hintact : c.relay.IntactWhileOpen) :
    c.Present (contents s) where
  object := fun x hx => congrArg Sum.inl (h x hx).object
  bev := fun x hx => congrArg Sum.inr (Prod.ext (h x hx).bev (h x hx).socket)
  openOrEnded := hended
  intact := hintact

omit [DecidableEq ptr] in
theorem Connection.Agrees.mem_sides {c : Connection ptr} {s : World ptr}
    {x : Side} (h : c.Agrees x s) {q : Resource × ptr}
    (hq : q = (.object, c.place.objectAt x) ∨
      q = (.bufferevent, c.place.bufferAt x))
    (hlive : InUse (contents s q)) : x ∈ c.relay.phase.sides := by
  rcases hq with rfl | rfl
  · refine (objectsOf_isLive_iff c.pair).mp ?_
    rw [← h.object]
    exact hlive
  · refine (bevsOf_isLive_iff c.pair).mp ?_
    rw [← h.bev]
    exact hlive

omit [DecidableEq ptr] in
theorem contents_embed {place : Allocation ptr} (pair : Pair place)
    {s : World ptr} {r : Relay.State} {q : Resource × ptr}
    (h : forall x, q ≠ (.object, place.objectAt x) ∧
      q ≠ (.bufferevent, place.bufferAt x)) :
    contents (embed pair s r) q = contents s q := by
  rcases q with ⟨kind, p⟩
  cases kind with
  | object =>
      refine congrArg Sum.inl (Function.extend_apply' _ _ _ ?_)
      intro howned
      rcases howned with ⟨x, rfl⟩
      exact (h x).1 rfl
  | bufferevent =>
      have hnot : ¬ exists x, place.bufferAt x = p := by
        intro howned
        rcases howned with ⟨x, rfl⟩
        exact (h x).2 rfl
      exact congrArg Sum.inr (Prod.ext (Function.extend_apply' _ _ _ hnot)
        (Function.extend_apply' _ _ _ hnot))

/-!
## A survivor among other connections
-/

section Survivor

variable {place : Allocation ptr} (pair : Pair place) (background : World ptr)
  (maxOutput : Nat) {s : World ptr} {y : Side} {c : Channel}
  {sockets : Side -> Socket}

def without (place : Allocation ptr) (y : Side) (s : World ptr) :
    Heap ptr (Proxy ptr) :=
  Function.update s.memory (place.objectAt y) .freed

theorem deleteProxy_settle {bev : Bufferevent DataCb EventCb ptr}
    (hobject : s.memory (place.objectAt y) = .live (pair.proxy y))
    (hsocket : s.sockets (place.bufferAt y) = sockets y) :
    deleteProxy (some (place.objectAt y))
        (s.setBev (place.bufferAt y) bev) =
      .ok ((pair.layout background).settle s (without place y s) y
        { phase := .closed, sockets := sockets }) := by
  have hlive : (s.setBev (place.bufferAt y) bev).memory (place.objectAt y) =
      .live (pair.proxy y) := hobject
  have hsame : Function.update s.sockets ((pair.layout background).bufferAt y)
      (sockets y) = s.sockets := by
    rw [← hsocket]
    exact Function.update_eq_self _ _
  rw [deleteProxy_live hlive (pair.buffer_eq y)
    (Loop.setBev_bevs_self s _ bev)]
  unfold Layout.settle Loop.setBev
  simp only [hsame, Function.update_idem]
  rfl

theorem closeOnFinishedWritecb_settle
    (hobject : s.memory (place.objectAt y) = .live (pair.proxy y))
    (hsocket : s.sockets (place.bufferAt y) = sockets y) :
    closeOnFinishedWritecb (place.bufferAt y) (some (place.objectAt y))
        (s.setBev (place.bufferAt y) (closingBev place y c)) =
      .ok ((pair.layout background).settle s (without place y s) y
        { phase := if c.output.length = 0 then .closed else .closing y c
          sockets := sockets }) := by
  unfold closeOnFinishedWritecb
  rw [Loop.outputLength_live (Loop.setBev_bevs_self s _ _), ok_bind]
  by_cases hempty : c.output.length = 0
  · have hbev : (closingBev place y c).output.length = 0 := hempty
    rw [if_pos hbev, if_pos hempty]
    exact deleteProxy_settle pair background hobject hsocket
  · have hbev : ¬ (closingBev place y c).output.length = 0 := hempty
    rw [if_neg hbev, if_neg hempty]
    exact congrArg Except.ok (Layout.setBev_survivor_settle
      (L := pair.layout background) hsocket)

theorem eventcb_quiet {what : What} (h : ¬ what.Fatal) {o : Proxy ptr}
    {p : ptr} (b : ptr) (hobject : s.memory p = .live o) :
    eventcb maxOutput b what (some p) s = .ok s := by
  simp only [eventcb, partnerOf, if_neg h, deref]
  rw [Heap.read_live _ hobject]
  rfl

theorem step_survivor (o : Occurrence)
    (h : Connection.Agrees ⟨place, pair, ⟨.closing y c, sockets⟩⟩ y s)
    (hquiet : ¬ (o = .deferredEvent ∧ c.eventcbPending.Fatal)) :
    Loop.step (program maxOutput) s
        { target := place.bufferAt y, occurrence := o } =
      .ok ((pair.layout background).settle s (without place y s) y
        (stepClosing y c sockets o)) := by
  have hobject : s.memory (place.objectAt y) = .live (pair.proxy y) :=
    h.object.trans (if_pos rfl)
  apply Layout.step_survivor (h.layout background)
  case hwrite =>
    intro _ hpending
    refine Eq.trans (closeOnFinishedWritecb_settle (c := c.takeWritecb) pair
      background hobject h.socket) ?_
    simp only [stepClosing]
    rw [if_pos hpending]
    by_cases hempty : c.output.length = 0
    · have htaken : c.takeWritecb.output.length = 0 := hempty
      rw [if_pos htaken, if_pos hempty]
    · have htaken : ¬ c.takeWritecb.output.length = 0 := hempty
      rw [if_neg htaken, if_neg hempty]
  case hevent =>
    intro hevent _
    have hnot : ¬ c.eventcbPending.Fatal :=
      fun hfatal => hquiet ⟨hevent, hfatal⟩
    simp only [stepClosing]
    rw [if_neg hnot]
    refine Eq.trans (eventcb_quiet maxOutput hnot _ hobject) ?_
    exact congrArg Except.ok (Layout.setBev_survivor_settle
      (L := pair.layout background) h.socket)

end Survivor

/-!
## One step of one connection
-/

def Connection.next (c : Connection ptr) (x : Side) (o : Occurrence) :
    Connection ptr where
  place := c.place
  pair := c.pair
  relay := Relay.step MAX_OUTPUT c.relay { target := x, occurrence := o }

omit [DecidableEq ptr] in
theorem Connection.next_cells (c : Connection ptr) (x : Side)
    (o : Occurrence) : (c.next x o).cells ⊆ c.cells := by
  intro q hq
  rcases hq with ⟨z, hz, hq⟩
  exact ⟨z, step_sides c.relay _ hz, hq⟩

structure Connection.Steps (c c' : Connection ptr) (s s' : World ptr) :
    Prop where
  agrees : forall x, x ∈ c.relay.phase.sides -> c'.Agrees x s'
  same : Set.EqOn (contents s) (contents s') c.cellsᶜ

omit [DecidableEq ptr] in
theorem Connection.survivorEnds {c : Connection ptr} {s : World ptr} {x : Side}
    (h : c.Agrees x s) {o : Occurrence}
    (hends : SurvivorEnds c.relay { target := x, occurrence := o }) :
    EndsWhileFlushing s
      (.endpoint { target := c.place.bufferAt x, occurrence := o }) := by
  rcases hends with ⟨ho, channel, hphase, hfatal⟩
  refine ⟨ho, closingBev c.place x channel, ?_, rfl, hfatal⟩
  refine h.bev.trans ?_
  rw [hphase]
  exact if_pos rfl

theorem agrees_settle {place : Allocation ptr} {pair : Pair place}
    {background s : World ptr} {y : Side} {r : Relay.State}
    (h : s.memory (place.objectAt y) = .live (pair.proxy y))
    (hsides : r.phase.sides ⊆ {y}) :
    Connection.Agrees ⟨place, pair, r⟩ y
      ((pair.layout background).settle s (without place y s) y r) := by
  have hlayout : (pair.layout background).Agrees r y
      ((pair.layout background).settle s (without place y s) y r) :=
    Layout.agrees_settle
  rw [Layout.Agrees, layout_bevsOf] at hlayout
  refine ⟨?_, hlayout.1, hlayout.2⟩
  rcases r with ⟨phase, sockets⟩
  cases phase with
  | relaying ends =>
      exact absurd (hsides (Set.mem_univ y.other)) (Side.other_ne y)
  | closing z channel =>
      have hz : z = y := hsides rfl
      subst hz
      exact h.trans (if_pos rfl).symm
  | closed => exact Function.update_self _ _ _

theorem contents_settle {place : Allocation ptr} {pair : Pair place}
    {background s : World ptr} {y : Side} {r : Relay.State}
    {q : Resource × ptr} (hobject : q ≠ (.object, place.objectAt y))
    (hbev : q ≠ (.bufferevent, place.bufferAt y)) :
    contents ((pair.layout background).settle s (without place y s) y r) q =
      contents s q := by
  rcases q with ⟨kind, p⟩
  cases kind with
  | object =>
      have hne : p ≠ place.objectAt y := fun hp => hobject (by rw [hp])
      refine congrArg Sum.inl ?_
      rcases r with ⟨phase, sockets⟩
      cases phase with
      | closed => exact Function.update_of_ne hne _ _
      | _ => rfl
  | bufferevent =>
      have hne : p ≠ (pair.layout background).bufferAt y :=
        fun hp => hbev (congrArg (Prod.mk Resource.bufferevent) hp)
      exact congrArg Sum.inr (Layout.settle_view_of_ne hne)

theorem Connection.step {c : Connection ptr} {s : World ptr}
    (h : c.Present (contents s)) {x : Side} (hx : x ∈ c.relay.phase.sides)
    {o : Occurrence} (hquiet : ¬ EndsWhileFlushing s
      (.endpoint { target := c.place.bufferAt x, occurrence := o })) :
    exists s', Loop.step (program MAX_OUTPUT) s
        { target := c.place.bufferAt x, occurrence := o } = .ok s' ∧
      c.Steps (c.next x o) s s' := by
  have hnot := mt (Connection.survivorEnds (h.agrees hx) (o := o)) hquiet
  rcases c with ⟨place, pair, phase, sockets⟩
  cases phase with
  | relaying ends =>
      have heq : s = embed pair s
          { phase := .relaying ends, sockets := sockets } :=
        Connection.eq_embed (fun z => h.agrees (Set.mem_univ z))
      have hstep := step_embed pair s MAX_OUTPUT
        { phase := .relaying ends, sockets := sockets }
        { target := x, occurrence := o } hnot
      rw [← heq] at hstep
      refine ⟨_, hstep, ?_, ?_⟩
      · intro z _
        exact Connection.agrees_embed ⟨place, pair, _⟩ z
      · intro q hq
        refine (contents_embed pair ?_).symm
        intro z
        exact ⟨fun heq => hq ⟨z, Set.mem_univ z, .inl heq⟩,
          fun heq => hq ⟨z, Set.mem_univ z, .inr heq⟩⟩
  | closing y channel =>
      have hxy : x = y := hx
      subst hxy
      have hagrees := h.agrees hx
      have hsafe : ¬ (o = .deferredEvent ∧ channel.eventcbPending.Fatal) :=
        fun hboth => hnot ⟨hboth.1, channel, rfl, hboth.2⟩
      have hnext : Relay.step MAX_OUTPUT
          { phase := .closing x channel, sockets := sockets }
          { target := x, occurrence := o } =
          stepClosing x channel sockets o := if_pos rfl
      have hsides := (stepClosing_cases x channel sockets o).sides_subset
      refine ⟨_, step_survivor pair s MAX_OUTPUT o hagrees hsafe, ?_, ?_⟩
      · intro z hz
        have hzx : z = x := hz
        subst hzx
        unfold Connection.next
        rw [hnext]
        exact agrees_settle (hagrees.object.trans (if_pos rfl)) hsides
      · intro q hq
        exact (contents_settle (fun heq => hq ⟨x, rfl, .inl heq⟩)
          (fun heq => hq ⟨x, rfl, .inr heq⟩)).symm
  | closed => exact absurd hx (Set.notMem_empty x)

omit [DecidableEq ptr] in
theorem Connection.Steps.present {c : Connection ptr} {s s' : World ptr}
    {x : Side} {o : Occurrence} (h : c.Present (contents s))
    (hsteps : c.Steps (c.next x o) s s') :
    (c.next x o).Present (contents s') :=
  Connection.present_of_agrees
    (fun z hz => hsteps.agrees z (step_sides c.relay _ hz))
    (step_openOrEnded _ h.openOrEnded) (step_intactWhileOpen _ h.intact)

theorem populates_step {members : Set (Connection ptr)} {s : World ptr}
    (h : connections.Populates members (contents s)) {c : Connection ptr}
    (hc : c ∈ members) {x : Side} (hx : x ∈ c.relay.phase.sides)
    {o : Occurrence} (hquiet : ¬ EndsWhileFlushing s
      (.endpoint { target := c.place.bufferAt x, occurrence := o })) :
    exists s', Loop.step (program MAX_OUTPUT) s
        { target := c.place.bufferAt x, occurrence := o } = .ok s' ∧
      c.Steps (c.next x o) s s' ∧
      connections.Populates (insert (c.next x o) (members \ {c}))
        (contents s') := by
  have hpresent := h.present c hc
  rcases Connection.step hpresent hx hquiet with ⟨s', hstep, hsteps⟩
  refine ⟨s', hstep, hsteps, ?_⟩
  refine h.step hc (hsteps.present hpresent) hsteps.same (c.next_cells x o) ?_
  intro q hq hlive
  rcases hq with ⟨z, hz, hq⟩
  exact ⟨z, (hsteps.agrees z hz).mem_sides hq hlive, hq⟩

/-!
## Connections that are added
-/

/-- A connection whose original destination is known, as the accept function
leaves it: started, or already deleted when the connect call failed. -/
def initialState (socketConnect : Int) : Relay.State :=
  if socketConnect < 0 then
    { phase := .closed, sockets := fun _ => Socket.new }
  else Relay.State.new

theorem openOrEnded_initialState (socketConnect : Int) :
    (initialState socketConnect).OpenOrEnded := by
  unfold initialState
  split
  · exact .inr State.Ended.closed
  · exact openOrEnded_new

theorem intactWhileOpen_initialState (socketConnect : Int) :
    (initialState socketConnect).IntactWhileOpen := by
  unfold initialState
  split
  · intro ends hphase
    cases hphase
  · exact intactWhileOpen_new

def Connection.accepted {place : Allocation ptr} (hplace : place.Distinct)
    (conn : Incoming) (dst : Sockaddr × Nat) (r : SystemResults) :
    Connection ptr where
  place := place
  pair := startedPair hplace conn dst r.upstreamFd
  relay := initialState r.socketConnect

theorem acceptConnection_found {place : Allocation ptr}
    (hplace : place.Distinct) (conn : Incoming) {r : SystemResults}
    {dst : Sockaddr × Nat} (s : World ptr)
    (hdst : originalDestination r = some dst) :
    exists accepted, acceptConnection place conn r s =
      .ok (accepted, embed (startedPair hplace conn dst r.upstreamFd) s
        (initialState r.socketConnect)) := by
  unfold initialState
  split
  · rename_i hconnect
    refine ⟨false, ?_⟩
    rw [acceptConnection_released hplace conn s hdst hconnect]
    have hpair := startedPair hplace conn dst r.upstreamFd
    unfold embed overlay
    rw [extend_sides hpair.buffer_injective,
      extend_sides hpair.buffer_injective, extend_sides hpair.object_injective]
    rfl
  · rename_i hconnect
    exact ⟨true, acceptConnection_started hplace conn s hdst hconnect⟩

omit [DecidableEq ptr] in
theorem Fresh.not_inUse {place : Allocation ptr} {conn : Incoming}
    {r : SystemResults} {s : World ptr} (h : Fresh s (.incoming place conn r))
    {x : Side} {q : Resource × ptr}
    (hq : q = (.object, place.objectAt x) ∨
      q = (.bufferevent, place.bufferAt x)) : ¬ InUse (contents s q) := by
  rcases h with ⟨_, hobjects, hbuffers⟩
  rcases hq with rfl | rfl
  · cases x with
    | accepted => exact hobjects _ (List.mem_cons_self)
    | upstream => exact hobjects _ (List.mem_cons_of_mem _ List.mem_cons_self)
  · cases x with
    | accepted => exact hbuffers _ (List.mem_cons_self)
    | upstream => exact hbuffers _ (List.mem_cons_of_mem _ List.mem_cons_self)

theorem populates_accept {members : Set (Connection ptr)} {s : World ptr}
    (h : connections.Populates members (contents s)) {place : Allocation ptr}
    {conn : Incoming} {r : SystemResults} {dst : Sockaddr × Nat}
    (hfresh : Fresh s (.incoming place conn r))
    (hdst : originalDestination r = some dst) :
    exists s' : World ptr, server.step s (.incoming place conn r) = .ok s' ∧
      (forall x, (Connection.accepted hfresh.1 conn dst r).Agrees x s') ∧
      (forall q, (forall x, q ≠ (.object, place.objectAt x) ∧
        q ≠ (.bufferevent, place.bufferAt x)) ->
        contents s' q = contents s q) ∧
      connections.Populates
        (insert (Connection.accepted hfresh.1 conn dst r) members)
        (contents s') := by
  rcases acceptConnection_found hfresh.1 conn s hdst with ⟨accepted, hstep⟩
  have hagrees := (Connection.accepted hfresh.1 conn dst r).agrees_embed
    (s := s)
  refine ⟨_, ?_, hagrees, fun q hq => contents_embed _ hq, ?_⟩
  · simp only [server, serverStep]
    rw [hstep]
    rfl
  refine h.add { q | exists x, q = (.object, place.objectAt x) ∨
    q = (.bufferevent, place.bufferAt x) } ?_ ?_ ?_ ?_ ?_
  · intro q hq
    rcases hq with ⟨x, hq⟩
    exact hfresh.not_inUse hq
  · exact Connection.present_of_agrees (fun x _ => hagrees x)
      (openOrEnded_initialState _) (intactWhileOpen_initialState _)
  · intro q hq
    refine (contents_embed _ ?_).symm
    intro x
    exact ⟨fun heq => hq ⟨x, .inl heq⟩, fun heq => hq ⟨x, .inr heq⟩⟩
  · intro q hq
    rcases hq with ⟨x, _, hq⟩
    exact ⟨x, hq⟩
  · intro q hq hlive
    rcases hq with ⟨x, hq⟩
    exact ⟨x, (hagrees x).mem_sides hq hlive, hq⟩

/-!
## Whole runs of the server
-/

def Occupied (s : World ptr) : Prop :=
  exists members : Set (Connection ptr),
    connections.Populates members (contents s)

omit [DecidableEq ptr] in
theorem occupied_empty : Occupied (World.empty : World ptr) := by
  refine ⟨∅, Parts.populates_empty ?_⟩
  intro q
  rcases q with ⟨kind, p⟩
  cases kind with
  | object => exact Cell.not_isLive_absent
  | bufferevent => exact Cell.not_isLive_absent

omit [DecidableEq ptr] in
theorem exists_side {members : Set (Connection ptr)} {s : World ptr}
    (h : connections.Populates members (contents s)) {b : ptr}
    (hlive : (s.bevs b).IsLive) :
    exists c x, c ∈ members ∧ x ∈ c.relay.phase.sides ∧
      c.place.bufferAt x = b := by
  rcases h.covers (.bufferevent, b) hlive with ⟨c, hc, x, hx, hq | hq⟩
  · cases hq
  · cases hq
    exact ⟨c, x, hc, hx, rfl⟩

theorem serverStep_occupied {s : World ptr} {a : ServerAction ptr}
    (h : Occupied s) (hregular : Regular s a) :
    exists s', server.step s a = .ok s' ∧ Occupied s' := by
  rcases h with ⟨members, h⟩
  rcases hregular with ⟨hfresh, hfound, hquiet⟩
  cases a with
  | incoming place conn r =>
      rcases Option.isSome_iff_exists.mp hfound with ⟨dst, hdst⟩
      rcases populates_accept h hfresh hdst with
        ⟨s', hstep, _, _, hpopulates⟩
      exact ⟨s', hstep, _, hpopulates⟩
  | endpoint a =>
      by_cases hlive : (s.bevs a.target).IsLive
      · rcases exists_side h hlive with ⟨c, x, hc, hx, hplace⟩
        rcases a with ⟨target, o⟩
        have htarget : c.place.bufferAt x = target := hplace
        subst htarget
        rcases populates_step h hc hx hquiet with ⟨s', hstep, _, hpopulates⟩
        exact ⟨s', hstep, _, hpopulates⟩
      · exact ⟨s, Loop.step_notLive hlive, members, h⟩

/-- Two objects that point to each other, with bufferevents that carry the other
object as their argument, and with every byte of this direction accounted
for. -/
structure Linked (s : World ptr) (p : ptr) (o : Proxy ptr) (b : ptr)
    (bev : Bufferevent DataCb EventCb ptr) (p' : ptr) (o' : Proxy ptr)
    (b' : ptr) (bev' : Bufferevent DataCb EventCb ptr) : Prop where
  distinct : p' ≠ p ∧ b' ≠ b
  object : s.memory p' = .live o'
  partner : o.partner = .assigned (some p')
  back : o'.partner = .assigned (some p)
  buffer : o'.buffer = .assigned (some b')
  live : s.bevs b' = .live bev'
  cbarg : bev.cbarg = some p'
  cbargBack : bev'.cbarg = some p
  bytes : (s.sockets b).received =
    (s.sockets b').sent ++ bev'.output ++ bev.input

/-- A bufferevent that carries its own object and flushes its last output:
something will still happen to it. -/
structure FlushesAlone (p : ptr) (bev : Bufferevent DataCb EventCb ptr) :
    Prop where
  cbarg : bev.cbarg = some p
  enabledRead : bev.enabledRead = false
  writecb : bev.writecb = some .closeOnFinishedWritecb
  wakeup : bev.output ≠ [] ∨ bev.writecbPending = true

/-- An object and a bufferevent that are live together, as part of a linked pair
or alone for the last output. -/
structure Served (s : World ptr) (p : ptr) (o : Proxy ptr) (b : ptr)
    (bev : Bufferevent DataCb EventCb ptr) : Prop where
  object : s.memory p = .live o
  buffer : o.buffer = .assigned (some b)
  live : s.bevs b = .live bev
  state : (exists p' o' b' bev', Linked s p o b bev p' o' b' bev') ∨
    FlushesAlone p bev

/-- Nothing leaks and nothing dangles: every live object has a live bufferevent,
and every live bufferevent a live object. -/
structure Orderly (s : World ptr) : Prop where
  objects : forall p o, s.memory p = .live o ->
    exists b bev, Served s p o b bev
  buffers : forall b bev, s.bevs b = .live bev ->
    exists p o, Served s p o b bev

omit [DecidableEq ptr] in
theorem Connection.Present.served {c : Connection ptr} {s : World ptr}
    (h : c.Present (contents s)) {x : Side} (hx : x ∈ c.relay.phase.sides) :
    exists bev, Served s (c.place.objectAt x) (c.pair.proxy x)
      (c.place.bufferAt x) bev := by
  have hself := h.agrees hx
  have hintact := h.intact
  have hended := h.openOrEnded
  rcases c with ⟨place, pair, phase, sockets⟩
  cases phase with
  | relaying ends =>
      have hother := h.agrees (Set.mem_univ x.other)
      refine ⟨relayingBev place x (ends x), hself.object, pair.buffer_eq x,
        hself.bev, .inl ⟨place.objectAt x.other, pair.proxy x.other,
          place.bufferAt x.other, relayingBev place x.other (ends x.other),
          ?_⟩⟩
      constructor
      case distinct =>
        exact ⟨fun heq => Side.other_ne x (pair.object_injective heq),
          fun heq => Side.other_ne x (pair.buffer_injective heq)⟩
      case object => exact hother.object
      case partner => exact pair.partner_eq x
      case back =>
        have hback := pair.partner_eq x.other
        rw [Side.other_other] at hback
        exact hback
      case buffer => exact pair.buffer_eq x.other
      case live => exact hother.bev
      case cbarg => rfl
      case cbargBack =>
        exact congrArg (fun z => some (place.objectAt z)) (Side.other_other x)
      case bytes =>
        have hreceived : s.sockets (place.bufferAt x) = sockets x :=
          hself.socket
        have hsent : s.sockets (place.bufferAt x.other) = sockets x.other :=
          hother.socket
        rw [hreceived, hsent]
        exact hintact ends rfl x
  | closing y channel =>
      have hxy : x = y := hx
      subst hxy
      refine ⟨closingBev place x channel, hself.object.trans (if_pos rfl),
        pair.buffer_eq x, hself.bev.trans (if_pos rfl), .inr ?_⟩
      rcases hended with ⟨ends, hopen⟩ | hended
      · cases hopen
      · cases hended with
        | closing hread hwakeup =>
            refine ⟨rfl, hread, rfl, ?_⟩
            by_cases hempty : channel.output = []
            · exact .inr (hwakeup hempty)
            · exact .inl hempty
  | closed => exact absurd hx (Set.notMem_empty x)

omit [DecidableEq ptr] in
theorem Occupied.orderly {s : World ptr} (h : Occupied s) : Orderly s := by
  rcases h with ⟨members, h⟩
  constructor
  case objects =>
    intro p o hobject
    rcases h.covers (.object, p) ⟨o, hobject⟩ with ⟨c, hc, x, hx, hq | hq⟩
    · cases hq
      rcases (h.present c hc).served hx with ⟨bev, hserved⟩
      have hsame := hserved.object.symm.trans hobject
      cases hsame
      exact ⟨_, bev, hserved⟩
    · cases hq
  case buffers =>
    intro b bev hbev
    rcases h.covers (.bufferevent, b) ⟨bev, hbev⟩ with ⟨c, hc, x, hx, hq | hq⟩
    · cases hq
    · cases hq
      rcases (h.present c hc).served hx with ⟨bev', hserved⟩
      have hsame := hserved.live.symm.trans hbev
      cases hsame
      exact ⟨_, _, hserved⟩

/-- However the events of any number of connections interleave, a server whose
steps are all regular raises no fault, and in every state it reaches the live
objects and bufferevents belong together: linked in pairs with no byte lost, or
alone for their last output. -/
theorem regular_server_orderly {acts : List (ServerAction ptr)}
    (hregular : server.Along Regular World.empty acts) :
    server.Always Orderly (World.empty : World ptr) acts :=
  Machine.always_of_along (fun _ => Occupied.orderly)
    (fun _ _ => serverStep_occupied) occupied_empty hregular

/-- The first connection ends after one byte.  While its server side flushes
the byte, the pointers of its client side are handed out again. -/
def reuseTrace : List (ServerAction Nat) :=
  [.incoming ⟨0, 1, 2, 3⟩ localConn localResults,
    .endpoint ⟨2, .socketRead [65]⟩,
    .endpoint ⟨2, .report (BEV_EVENT_EOF ||| BEV_EVENT_READING)⟩,
    .endpoint ⟨2, .deferredEvent⟩,
    .incoming ⟨0, 4, 2, 5⟩ localConn localResults,
    .endpoint ⟨2, .socketRead [66]⟩, .endpoint ⟨3, .socketWrite 1⟩,
    .endpoint ⟨2, .deferredRead⟩, .endpoint ⟨3, .deferredWrite⟩]

theorem regular_server_orderly_of_reuse :
    server.Along Regular World.empty reuseTrace ∧
      server.Always Orderly World.empty reuseTrace := by
  have hregular : server.Along Regular World.empty reuseTrace := by
    decide +kernel
  exact ⟨hregular, regular_server_orderly hregular⟩

end TransparentTcpProxy
end NetExperiment
