import NetExperiment.Relay.Tenants
import NetExperiment.Tcp.LeProxy.Runs

/-!
# le_proxy with many connections

The accept callback runs at any time between the events of the connections that
are already there.  Every connection keeps to the cells of its live
bufferevents, so the pairs run beside each other as if each were alone.  The
pointers of a bufferevent that was freed may be handed out again, also while the
partner of that bufferevent still flushes its output.
-/

namespace NetExperiment
namespace LeProxy

open Foundation
open Libevent
open Relay

variable {ptr : Type} [DecidableEq ptr]

inductive ServerAction (ptr : Type) where
  | incoming (place : Allocation ptr) (socketConnect : Int)
  | endpoint (a : Action ptr)

def serverStep (s : World ptr) : ServerAction ptr -> Result ptr (World ptr)
  | .incoming place socketConnect => acceptCb place socketConnect s
  | .endpoint a => Loop.step (program MAX_OUTPUT) s a

def server : Machine (World ptr) (ServerAction ptr) (Fault Resource ptr) where
  step := serverStep

/-- The allocator hands out pointers that are not in use. -/
def Fresh (s : World ptr) : ServerAction ptr -> Prop
  | .incoming place _ => forall x, ¬ (s.bevs (place.bufferAt x)).IsLive
  | .endpoint _ => True

instance (s : World ptr) (a : ServerAction ptr) : Decidable (Fresh s a) :=
  match a with
  | .incoming place _ =>
      inferInstanceAs
        (Decidable (forall x, ¬ (s.bevs (place.bufferAt x)).IsLive))
  | .endpoint _ => .isTrue trivial

/-!
## Connections as parts of the memory
-/

/-- A connection that was accepted: where it is and how far it got. -/
structure Connection (ptr : Type) where
  place : Allocation ptr
  relay : Relay.State

def Connection.cells (c : Connection ptr) : Set ptr :=
  { p | exists x, x ∈ c.relay.phase.sides ∧ c.place.bufferAt x = p }

/-- Every live endpoint holds what the relay says, and the relay is in a state
that a run from an accepted connection can be in. -/
structure Connection.Present (c : Connection ptr)
    (f : ptr -> Cell (Bufferevent DataCb EventCb ptr) × Socket) : Prop where
  agrees : forall x, x ∈ c.relay.phase.sides ->
    f (c.place.bufferAt x) =
      (c.place.layout.bevsOf c.relay.phase x, c.relay.sockets x)
  openOrEnded : c.relay.OpenOrEnded
  intact : c.relay.IntactWhileOpen

omit [DecidableEq ptr] in
theorem Connection.mem_cells (c : Connection ptr) {x : Side}
    (h : x ∈ c.relay.phase.sides) : c.place.bufferAt x ∈ c.cells :=
  ⟨x, h, rfl⟩

def connections : Parts (Connection ptr) ptr
    (Cell (Bufferevent DataCb EventCb ptr) × Socket) where
  cells := Connection.cells
  Present := Connection.Present
  Used := fun v => v.1.IsLive
  frame := by
    intro c f g h hsame
    refine ⟨?_, h.openOrEnded, h.intact⟩
    intro x hx
    rw [← hsame (c.mem_cells hx)]
    exact h.agrees x hx
  used := by
    intro c f p h hp
    rcases hp with ⟨x, hx, rfl⟩
    rw [h.agrees x hx]
    exact Layout.bevsOf_isLive_iff.mpr hx

omit [DecidableEq ptr] in
theorem Connection.Present.agrees_layout {c : Connection ptr} {s : World ptr}
    (h : c.Present s.view) {x : Side} (hx : x ∈ c.relay.phase.sides) :
    c.place.layout.Agrees c.relay x s :=
  Layout.agrees_iff.mpr (h.agrees x hx)

/-!
## One step of one connection
-/

def Connection.next (c : Connection ptr) (x : Side) (o : Occurrence) :
    Connection ptr where
  place := c.place
  relay := Relay.step MAX_OUTPUT c.relay { target := x, occurrence := o }

omit [DecidableEq ptr] in
theorem Connection.next_cells (c : Connection ptr) (x : Side)
    (o : Occurrence) : (c.next x o).cells ⊆ c.cells := by
  intro p hp
  rcases hp with ⟨z, hz, rfl⟩
  exact c.mem_cells (step_sides c.relay _ hz)

structure Connection.Steps (c c' : Connection ptr) (s s' : World ptr) :
    Prop where
  agrees : forall x, x ∈ c.relay.phase.sides ->
    c'.place.layout.Agrees c'.relay x s'
  same : Set.EqOn s.view s'.view c.cellsᶜ

section Survivor

variable (place : Allocation ptr) (s : World ptr) (maxOutput : Nat) (y : Side)
  (c : Channel) (sockets : Side -> Socket)

omit [DecidableEq ptr] in
theorem bufferAt_layout (x : Side) : place.layout.bufferAt x =
    place.bufferAt x := rfl

variable {s y c sockets}

theorem free_settle {bev : Bufferevent DataCb EventCb ptr}
    (h : s.sockets (place.bufferAt y) = sockets y) :
    (s.setBev (place.bufferAt y) bev).buffereventFree (place.bufferAt y) =
      .ok (place.layout.settle s () y
        { phase := .closed, sockets := sockets }) := by
  rw [Loop.buffereventFree_live (Loop.setBev_bevs_self s _ bev)]
  unfold Layout.settle Loop.setBev
  simp only [bufferAt_layout, Layout.bevsOf, Function.update_idem]
  rw [← h, Function.update_eq_self]

theorem closeOnFinishedWritecb_settle
    (h : s.sockets (place.bufferAt y) = sockets y) :
    closeOnFinishedWritecb (place.bufferAt y) none
        (s.setBev (place.bufferAt y) (place.layout.closingBev y c)) =
      .ok (place.layout.settle s () y
        { phase := if c.output.length = 0 then .closed else .closing y c
          sockets := sockets }) := by
  unfold closeOnFinishedWritecb
  rw [Loop.outputLength_live (Loop.setBev_bevs_self s _ _), ok_bind]
  by_cases hempty : c.output.length = 0
  · have hbev : (place.layout.closingBev y c).output.length = 0 := hempty
    rw [if_pos hbev, if_pos hempty]
    exact free_settle place h
  · have hbev : ¬ (place.layout.closingBev y c).output.length = 0 := hempty
    rw [if_neg hbev, if_neg hempty]
    exact congrArg Except.ok
      (Layout.setBev_survivor_settle (L := place.layout) h)

theorem eventcb_settle {what : What} (hfatal : what.Fatal)
    (h : s.sockets (place.bufferAt y) = sockets y)
    (bev : Bufferevent DataCb EventCb ptr) :
    eventcb maxOutput (place.bufferAt y) what none
        (s.setBev (place.bufferAt y) bev) =
      .ok (place.layout.settle s () y
        { phase := .closed, sockets := sockets }) := by
  unfold eventcb
  rw [if_pos hfatal, printErrors_live what (Loop.setBev_bevs_self s _ bev),
    ok_bind]
  exact free_settle place h

theorem step_survivor (o : Occurrence)
    (h : place.layout.Agrees { phase := .closing y c, sockets := sockets } y s) :
    Loop.step (program maxOutput) s
        { target := place.bufferAt y, occurrence := o } =
      .ok (place.layout.settle s () y (stepClosing y c sockets o)) := by
  apply Layout.step_survivor h
  case hwrite =>
    intro _ hpending
    refine Eq.trans (closeOnFinishedWritecb_settle (c := c.takeWritecb) place
      h.2) ?_
    simp only [stepClosing]
    rw [if_pos hpending]
    by_cases hempty : c.output.length = 0
    · have htaken : c.takeWritecb.output.length = 0 := hempty
      rw [if_pos htaken, if_pos hempty]
    · have htaken : ¬ c.takeWritecb.output.length = 0 := hempty
      rw [if_neg htaken, if_neg hempty]
  case hevent =>
    intro _ _
    simp only [stepClosing]
    split
    · rename_i hfatal
      exact eventcb_settle place maxOutput hfatal h.2 _
    · rename_i hnot
      exact (if_neg hnot).trans
        (congrArg Except.ok (Layout.setBev_survivor_settle h.2))

end Survivor

theorem Connection.step {c : Connection ptr} {s : World ptr}
    (h : c.Present s.view) {x : Side} (hx : x ∈ c.relay.phase.sides)
    (o : Occurrence) :
    exists s', Loop.step (program MAX_OUTPUT) s
        { target := c.place.bufferAt x, occurrence := o } = .ok s' ∧
      c.Steps (c.next x o) s s' := by
  rcases c with ⟨place, phase, sockets⟩
  cases phase with
  | relaying ends =>
      have heq : s = place.layout.embed s
          { phase := .relaying ends, sockets := sockets } :=
        Layout.eq_embed (fun z => h.agrees_layout (Set.mem_univ z)) rfl
      have hstep := step_embed place s MAX_OUTPUT
        { phase := .relaying ends, sockets := sockets }
        { target := x, occurrence := o }
      rw [← heq] at hstep
      refine ⟨_, hstep, ?_, ?_⟩
      · intro z _
        exact Layout.agrees_embed s _ z
      · intro p hp
        refine (Layout.embed_view_of_ne (L := place.layout) ?_).symm
        intro z hz
        exact hp ⟨z, Set.mem_univ z, hz⟩
  | closing y channel =>
      have hxy : x = y := hx
      subst hxy
      have hagrees := h.agrees_layout hx
      have hnext : Relay.step MAX_OUTPUT
          { phase := .closing x channel, sockets := sockets }
          { target := x, occurrence := o } =
          stepClosing x channel sockets o := if_pos rfl
      refine ⟨_, step_survivor place MAX_OUTPUT o hagrees, ?_, ?_⟩
      · intro z hz
        have hzx : z = x := hz
        subst hzx
        unfold Connection.next
        rw [hnext]
        exact Layout.agrees_settle
      · intro p hp
        have hne : p ≠ place.layout.bufferAt x := by
          intro hpx
          exact hp ⟨x, rfl, hpx.symm⟩
        exact (Layout.settle_view_of_ne hne).symm
  | closed => exact absurd hx (Set.notMem_empty x)

omit [DecidableEq ptr] in
theorem Connection.Steps.present {c : Connection ptr} {s s' : World ptr}
    {x : Side} {o : Occurrence} (h : c.Present s.view)
    (hsteps : c.Steps (c.next x o) s s') : (c.next x o).Present s'.view where
  agrees := fun z hz =>
    Layout.agrees_iff.mp (hsteps.agrees z (step_sides c.relay _ hz))
  openOrEnded := step_openOrEnded _ h.openOrEnded
  intact := step_intactWhileOpen _ h.intact

theorem populates_step {members : Set (Connection ptr)} {s : World ptr}
    (h : connections.Populates members s.view) {c : Connection ptr}
    (hc : c ∈ members) {x : Side} (hx : x ∈ c.relay.phase.sides)
    (o : Occurrence) :
    exists s', Loop.step (program MAX_OUTPUT) s
        { target := c.place.bufferAt x, occurrence := o } = .ok s' ∧
      c.Steps (c.next x o) s s' ∧
      connections.Populates (insert (c.next x o) (members \ {c})) s'.view := by
  have hpresent := h.present c hc
  rcases Connection.step hpresent hx o with ⟨s', hstep, hsteps⟩
  refine ⟨s', hstep, hsteps, ?_⟩
  refine h.step hc (hsteps.present hpresent) hsteps.same (c.next_cells x o) ?_
  intro p hp hlive
  rcases hp with ⟨z, hz, rfl⟩
  exact (c.next x o).mem_cells ((hsteps.agrees z hz).mem_sides hlive)

/-!
## Connections that are added
-/

def Connection.accepted (place : Allocation ptr) (socketConnect : Int) :
    Connection ptr where
  place := place
  relay := initialState socketConnect

omit [DecidableEq ptr] in
theorem intactWhileOpen_initialState (socketConnect : Int) :
    (initialState socketConnect).IntactWhileOpen := by
  unfold initialState
  split
  · intro ends hphase
    cases hphase
  · exact intactWhileOpen_new

theorem populates_accept {members : Set (Connection ptr)} {s : World ptr}
    (h : connections.Populates members s.view) {place : Allocation ptr}
    {socketConnect : Int} (hfresh : Fresh s (.incoming place socketConnect)) :
    exists s', acceptCb place socketConnect s = .ok s' ∧
      (forall x, place.layout.Agrees (initialState socketConnect) x s') ∧
      (forall p, (forall x, place.bufferAt x ≠ p) ->
        s'.view p = s.view p) ∧
      connections.Populates
        (insert (Connection.accepted place socketConnect) members) s'.view := by
  refine ⟨_, acceptCb_embed place socketConnect s,
    Layout.agrees_embed s _,
    fun p hp => Layout.embed_view_of_ne (L := place.layout) hp, ?_⟩
  refine h.add (Set.range place.bufferAt) ?_ ?_ ?_ ?_ ?_
  · intro p hp
    rcases hp with ⟨x, rfl⟩
    exact hfresh x
  · refine ⟨?_, openOrEnded_initialState socketConnect,
      intactWhileOpen_initialState socketConnect⟩
    intro x _
    exact Layout.agrees_iff.mp (Layout.agrees_embed s _ x)
  · intro p hp
    refine (Layout.embed_view_of_ne (L := place.layout) ?_).symm
    intro x hx
    exact hp ⟨x, hx⟩
  · intro p hp
    rcases hp with ⟨x, _, rfl⟩
    exact ⟨x, rfl⟩
  · intro p hp hlive
    rcases hp with ⟨x, rfl⟩
    exact (Connection.accepted place socketConnect).mem_cells
      ((Layout.agrees_embed s _ x).mem_sides hlive)

/-!
## Whole runs of the server
-/

def Occupied (s : World ptr) : Prop :=
  exists members : Set (Connection ptr),
    connections.Populates members s.view

omit [DecidableEq ptr] in
theorem occupied_empty : Occupied (World.empty : World ptr) :=
  ⟨∅, Parts.populates_empty (fun _ => Cell.not_isLive_absent)⟩

theorem serverStep_occupied {s : World ptr} {a : ServerAction ptr}
    (h : Occupied s) (hfresh : Fresh s a) :
    exists s', server.step s a = .ok s' ∧ Occupied s' := by
  rcases h with ⟨members, h⟩
  cases a with
  | incoming place socketConnect =>
      rcases populates_accept h hfresh with ⟨s', hstep, _, _, hpopulates⟩
      exact ⟨s', hstep, _, hpopulates⟩
  | endpoint a =>
      by_cases hlive : (s.bevs a.target).IsLive
      · rcases h.covers a.target hlive with ⟨c, hc, x, hx, hplace⟩
        rcases populates_step h hc hx a.occurrence with
          ⟨s', hstep, _, hpopulates⟩
        rw [hplace] at hstep
        exact ⟨s', hstep, _, hpopulates⟩
      · exact ⟨s, Loop.step_notLive hlive, members, h⟩

/-- Two live bufferevents that are linked to each other, with every byte of this
direction accounted for. -/
structure Linked (s : World ptr) (b : ptr)
    (bev : Bufferevent DataCb EventCb ptr) (p : ptr)
    (partner : Bufferevent DataCb EventCb ptr) : Prop where
  distinct : p ≠ b
  live : s.bevs p = .live partner
  cbarg : bev.cbarg = some p
  back : partner.cbarg = some b
  bytes : (s.sockets b).received =
    (s.sockets p).sent ++ partner.output ++ bev.input

/-- Every live bufferevent is linked to a live partner or flushes its last
output alone. -/
def Orderly (s : World ptr) : Prop :=
  forall b bev, s.bevs b = .live bev ->
    (exists p partner, Linked s b bev p partner) ∨ FlushesAlone bev

omit [DecidableEq ptr] in
theorem Connection.Present.orderly {c : Connection ptr} {s : World ptr}
    (h : c.Present s.view) {x : Side} (hx : x ∈ c.relay.phase.sides)
    {bev : Bufferevent DataCb EventCb ptr}
    (hbev : s.bevs (c.place.bufferAt x) = .live bev) :
    (exists p partner, Linked s (c.place.bufferAt x) bev p partner) ∨
      FlushesAlone bev := by
  have hagrees := h.agrees_layout (x := x)
  have hintact := h.intact
  have hended := h.openOrEnded
  rcases c with ⟨place, phase, sockets⟩
  cases phase with
  | relaying ends =>
      have hself := hagrees hx
      have hother := h.agrees_layout (Set.mem_univ x.other)
      have hcell := hself.1.symm.trans hbev
      cases hcell
      refine .inl ⟨place.bufferAt x.other, _, ?_, hother.1, rfl, ?_, ?_⟩
      · intro heq
        exact Side.other_ne x (place.injective heq)
      · exact congrArg (fun z => some (place.bufferAt z)) (Side.other_other x)
      · have hbytes := hintact ends rfl x
        have hreceived : s.sockets (place.bufferAt x) = sockets x := hself.2
        have hsent : s.sockets (place.bufferAt x.other) = sockets x.other :=
          hother.2
        rw [hreceived, hsent]
        exact hbytes
  | closing y channel =>
      have hxy : x = y := hx
      subst hxy
      have hcell : Cell.live (place.layout.closingBev x channel) = .live bev :=
        ((hagrees rfl).1.trans (if_pos rfl)).symm.trans hbev
      cases hcell
      rcases hended with ⟨ends, hopen⟩ | hended
      · cases hopen
      · cases hended with
        | closing hread hwakeup =>
            refine .inr ⟨rfl, hread, rfl, ?_⟩
            by_cases hempty : channel.output = []
            · exact .inr (.inl (hwakeup hempty))
            · exact .inl hempty
  | closed => exact absurd hx (Set.notMem_empty x)

omit [DecidableEq ptr] in
theorem Occupied.orderly {s : World ptr} (h : Occupied s) : Orderly s := by
  intro b bev hbev
  rcases h with ⟨members, h⟩
  rcases h.covers b ⟨bev, hbev⟩ with ⟨c, hc, x, hx, rfl⟩
  exact (h.present c hc).orderly hx hbev

/-- However the events of any number of connections interleave, the server
raises no fault, and in every state it reaches each live bufferevent is linked
to its partner with no byte lost, or flushes its last output alone. -/
theorem server_orderly {acts : List (ServerAction ptr)}
    (hfresh : server.Along Fresh World.empty acts) :
    server.Always Orderly (World.empty : World ptr) acts :=
  Machine.always_of_along (fun _ => Occupied.orderly)
    (fun _ _ => serverStep_occupied) occupied_empty hfresh

def reusedPlace : Allocation Nat := ⟨0, 2, Nat.zero_ne_add_one 1⟩

/-- The first connection ends after one byte.  While its server side flushes
the byte, the pointer of its client side is handed out again. -/
def reuseTrace : List (ServerAction Nat) :=
  [.incoming localPlace 0, .endpoint ⟨0, .socketRead [65]⟩,
    .endpoint ⟨0, .report (BEV_EVENT_EOF ||| BEV_EVENT_READING)⟩,
    .endpoint ⟨0, .deferredEvent⟩, .incoming reusedPlace 0,
    .endpoint ⟨0, .socketRead [66]⟩, .endpoint ⟨1, .socketWrite 1⟩,
    .endpoint ⟨0, .deferredRead⟩, .endpoint ⟨1, .deferredWrite⟩]

theorem server_orderly_of_reuse :
    server.Along Fresh World.empty reuseTrace ∧
      server.Always Orderly World.empty reuseTrace := by
  have hfresh : server.Along Fresh World.empty reuseTrace := by
    decide +kernel
  exact ⟨hfresh, server_orderly hfresh⟩

/-!
## A connection among others

What happens to one connection is decided by its own events alone.
-/

def Allocation.own (place : Allocation ptr) :
    ServerAction ptr -> Option (Action Side)
  | .incoming _ _ => none
  | .endpoint a =>
      if a.target = place.bIn then
        some { target := .accepted, occurrence := a.occurrence }
      else if a.target = place.bOut then
        some { target := .upstream, occurrence := a.occurrence }
      else none

/-- No pointer of the connection is handed out again. -/
def Allocation.NotReused (place : Allocation ptr) : ServerAction ptr -> Prop
  | .incoming other _ => forall x z, place.bufferAt x ≠ other.bufferAt z
  | .endpoint _ => True

instance (place : Allocation ptr) (a : ServerAction ptr) :
    Decidable (place.NotReused a) :=
  match a with
  | .incoming other _ => inferInstanceAs
      (Decidable (forall x z, place.bufferAt x ≠ other.bufferAt z))
  | .endpoint _ => .isTrue trivial

theorem Allocation.own_some {place : Allocation ptr} {a : ServerAction ptr}
    {b : Action Side} (h : place.own a = some b) :
    a = .endpoint (b.map place.bufferAt) := by
  cases a with
  | incoming other socketConnect => cases h
  | endpoint a =>
      rcases a with ⟨target, o⟩
      simp only [own] at h
      split at h
      · rename_i heq
        cases h
        exact congrArg (fun t => ServerAction.endpoint ⟨t, o⟩) heq
      · split at h
        · rename_i heq
          cases h
          exact congrArg (fun t => ServerAction.endpoint ⟨t, o⟩) heq
        · cases h

theorem Allocation.own_none {place : Allocation ptr} {a : Action ptr}
    (h : place.own (.endpoint a) = none) (x : Side) :
    place.bufferAt x ≠ a.target := by
  simp only [own] at h
  split at h
  · cases h
  · rename_i hIn
    split at h
    · cases h
    · rename_i hOut
      cases x with
      | accepted => exact fun heq => hIn heq.symm
      | upstream => exact fun heq => hOut heq.symm

structure Runs (place : Allocation ptr) (r : Relay.State) (s : World ptr) :
    Prop where
  member : exists members : Set (Connection ptr),
    Connection.mk place r ∈ members ∧ connections.Populates members s.view
  agrees : forall x, place.layout.Agrees r x s

theorem Runs.own_step {place : Allocation ptr} {r : Relay.State}
    {s : World ptr} (h : Runs place r s) (a : Action Side) :
    exists s', server.step s (.endpoint (a.map place.bufferAt)) = .ok s' ∧
      Runs place (Relay.step MAX_OUTPUT r a) s' := by
  have heq : s = place.layout.embed s r := Layout.eq_embed h.agrees rfl
  have hstep := step_embed place s MAX_OUTPUT r a
  rw [← heq] at hstep
  refine ⟨_, hstep, ?_, Layout.agrees_embed s _⟩
  rcases h.member with ⟨members, hmember, hpopulates⟩
  by_cases hside : a.target ∈ r.phase.sides
  · rcases populates_step hpopulates hmember hside a.occurrence with
      ⟨s', hstep', _, hpopulates'⟩
    have hsame := hstep'.symm.trans hstep
    cases hsame
    exact ⟨_, Set.mem_insert _ _, hpopulates'⟩
  · rw [step_of_notMem_sides hside, ← heq]
    exact ⟨members, hmember, hpopulates⟩

theorem Runs.other_step {place : Allocation ptr} {r : Relay.State}
    {s : World ptr} (h : Runs place r s) {a : Action ptr}
    (hother : forall x, place.bufferAt x ≠ a.target) :
    exists s', server.step s (.endpoint a) = .ok s' ∧ Runs place r s' := by
  by_cases hlive : (s.bevs a.target).IsLive
  · rcases h.member with ⟨members, hmember, hpopulates⟩
    rcases hpopulates.covers a.target hlive with ⟨c, hc, x, hx, hplace⟩
    rcases populates_step hpopulates hc hx a.occurrence with
      ⟨s', hstep, hsteps, hpopulates'⟩
    have hne : Connection.mk place r ≠ c := by
      intro hmine
      rw [← hmine] at hplace
      exact hother x hplace
    rw [hplace] at hstep
    refine ⟨s', hstep, ⟨_, ?_, hpopulates'⟩, ?_⟩
    · exact Set.mem_insert_of_mem _ ⟨hmember, hne⟩
    · intro z
      have hz : place.bufferAt z ∉ c.cells := by
        intro hcell
        -- a cell of the other connection is live, so it is a live side of both
        have hused : (s.bevs (place.bufferAt z)).IsLive :=
          connections.used (hpopulates.present c hc) hcell
        exact hne (hpopulates.eq_of_mem hmember hc
          ((Connection.mk place r).mem_cells
            ((h.agrees z).mem_sides hused)) hcell)
      rw [Layout.agrees_iff]
      exact (hsteps.same hz).symm.trans (Layout.agrees_iff.mp (h.agrees z))
  · exact ⟨s, Loop.step_notLive hlive, h⟩

theorem Runs.accept_step {place : Allocation ptr} {r : Relay.State}
    {s : World ptr} (h : Runs place r s) {other : Allocation ptr}
    {socketConnect : Int} (hfresh : Fresh s (.incoming other socketConnect))
    (hapart : place.NotReused (.incoming other socketConnect)) :
    exists s', server.step s (.incoming other socketConnect) = .ok s' ∧
      Runs place r s' := by
  rcases h.member with ⟨members, hmember, hpopulates⟩
  rcases populates_accept hpopulates hfresh with
    ⟨s', hstep, _, hsame, hpopulates'⟩
  refine ⟨s', hstep, ⟨_, Set.mem_insert_of_mem _ hmember, hpopulates'⟩, ?_⟩
  intro x
  rw [Layout.agrees_iff]
  exact (hsame _ (fun z heq => hapart x z heq.symm)).trans
    (Layout.agrees_iff.mp (h.agrees x))

/-- A run of the server is, for each connection, the run of its own events. -/
theorem Runs.project {place : Allocation ptr} {r : Relay.State}
    {s : World ptr} {acts : List (ServerAction ptr)} (h : Runs place r s)
    (halong : server.Along (fun s a => Fresh s a ∧ place.NotReused a) s
      acts) :
    exists s' r', server.run s acts = .ok s' ∧
      (Relay.machine MAX_OUTPUT).run r (acts.filterMap place.own) = .ok r' ∧
      Runs place r' s' := by
  refine Machine.run_project (R := Runs place) place.own ?_ ?_ h halong
  · intro r s a b hruns _ hown
    rw [Allocation.own_some hown]
    rcases hruns.own_step b with ⟨s', hstep, hruns'⟩
    exact ⟨s', _, hstep, rfl, hruns'⟩
  · intro r s a hruns hC hown
    cases a with
    | incoming other socketConnect => exact hruns.accept_step hC.1 hC.2
    | endpoint a => exact hruns.other_step (Allocation.own_none hown)

theorem runs_accepted {place : Allocation ptr} {socketConnect : Int}
    {s : World ptr} (h : Occupied s)
    (hfresh : Fresh s (.incoming place socketConnect)) :
    exists s', server.step s (.incoming place socketConnect) = .ok s' ∧
      Runs place (initialState socketConnect) s' := by
  rcases h with ⟨members, hpopulates⟩
  rcases populates_accept hpopulates hfresh with
    ⟨s', hstep, hagrees, _, hpopulates'⟩
  exact ⟨s', hstep, ⟨_, Set.mem_insert _ _, hpopulates'⟩, hagrees⟩

theorem along_own_events (place : Allocation ptr) (s : World ptr)
    (acts : List (ServerAction ptr)) :
    server.Along (fun s a => Fresh s a ∧ place.NotReused a) s
      (acts.filter fun a => (place.own a).isSome) := by
  apply Machine.along_of_forall_mem
  intro t a ha
  have hown := (List.mem_filter.mp ha).2
  cases a with
  | incoming other socketConnect => cases hown
  | endpoint a => exact ⟨trivial, trivial⟩

/-- A connection that is accepted in the middle of a run ends up, after any
further events of the whole server that hand none of its pointers out again, as if
it had been alone: its bufferevents and sockets are those of a server that accepts
it first and then sees its own events only. -/
theorem connection_isolated (place : Allocation ptr) (socketConnect : Int)
    (front later : List (ServerAction ptr))
    (hfresh : server.Along Fresh World.empty
      (front ++ .incoming place socketConnect :: later))
    (hkept : forall a, a ∈ later -> place.NotReused a) :
    exists s alone : World ptr,
      server.run World.empty
        (front ++ .incoming place socketConnect :: later) = .ok s ∧
      server.run World.empty (.incoming place socketConnect ::
        later.filter fun a => (place.own a).isSome) = .ok alone ∧
      forall x, s.bevs (place.bufferAt x) = alone.bevs (place.bufferAt x) ∧
        s.sockets (place.bufferAt x) = alone.sockets (place.bufferAt x) := by
  rcases Machine.run_ok_of_along (fun _ _ => serverStep_occupied)
    occupied_empty (Machine.along_front hfresh) with ⟨mid, hmid, hoccupied⟩
  rcases Machine.along_append hfresh hmid with ⟨hplace, hrest⟩
  rcases runs_accepted hoccupied hplace with ⟨s0, hs0, hruns⟩
  rcases hruns.project (Machine.along_and (hrest s0 hs0)
    (Machine.along_of_forall_mem (fun _ a ha => hkept a ha) s0)) with
    ⟨s, r, hs, hr, hlast⟩
  -- the same connection, accepted by a server that has nothing else to do
  have hfresh0 : Fresh World.empty (.incoming place socketConnect) :=
    fun _ => Cell.not_isLive_absent
  rcases runs_accepted occupied_empty hfresh0 with ⟨alone0, halone0, hruns0⟩
  rcases hruns0.project (along_own_events place alone0 later) with
    ⟨alone, r', halone, hr', hlast'⟩
  have hsame : r = r' := by
    rw [Machine.filterMap_filter_own, hr] at hr'
    cases hr'
    rfl
  subst hsame
  refine ⟨s, alone, ?_, ?_, ?_⟩
  · rw [Machine.run_append hmid, Machine.run_cons_of_ok later hs0, hs]
  · rw [Machine.run_cons_of_ok _ halone0, halone]
  · intro x
    have hmine := hlast.agrees x
    have hthere := hlast'.agrees x
    exact ⟨hmine.1.trans hthere.1.symm, hmine.2.trans hthere.2.symm⟩

/-- The second connection of the run above, with the events of the first one
left out. -/
theorem connection_isolated_of_reuse :
    exists s alone : World Nat,
      server.run World.empty reuseTrace = .ok s ∧
      server.run World.empty [.incoming reusedPlace 0,
        .endpoint ⟨0, .socketRead [66]⟩, .endpoint ⟨0, .deferredRead⟩] =
        .ok alone ∧
      s.bevs 0 = alone.bevs 0 ∧ s.bevs 2 = alone.bevs 2 := by
  rcases connection_isolated reusedPlace 0 (reuseTrace.take 4)
    (reuseTrace.drop 5) (by decide +kernel) (by decide +kernel) with
    ⟨s, alone, hs, halone, hsame⟩
  exact ⟨s, alone, hs, halone, (hsame .accepted).1, (hsame .upstream).1⟩

end LeProxy
end NetExperiment
