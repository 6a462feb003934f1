import NetExperiment.ZeroCopy.Backpressure

/-!
# The buffered echo server with many clients

Clients are accepted at any time between the events of those that are already
there.  Every callback works on its own bufferevent only, so the server is
nothing but its connections side by side: what becomes of a connection does not
depend on the others, and nothing that happens to one of them harms another one.
-/

namespace NetExperiment
namespace EchoServer

open Foundation
open Libevent

variable {ptr : Type} [DecidableEq ptr]

inductive ServerAction (ptr : Type) where
  | incoming (b : ptr)
  | socket (b : ptr) (r : Readiness)
deriving DecidableEq, Repr

def ServerAction.target : ServerAction ptr -> ptr
  | .incoming b => b
  | .socket b _ => b

def serverStep (s : World ptr) : ServerAction ptr -> Result ptr (World ptr)
  | .incoming b => acceptCb2 b s
  | .socket b r => Loop.dispatch program b s r

def server : Machine (World ptr) (ServerAction ptr) (Fault Resource ptr) where
  step := serverStep

/-!
## One connection by itself
-/

/-- All that the server keeps about one pointer. -/
structure Connection (ptr : Type) where
  bev : Cell (Bev ptr)
  socket : Socket
  closed : Option What

def connectionAt (s : World ptr) (b : ptr) : Connection ptr where
  bev := s.bevs b
  socket := s.sockets b
  closed := s.memory b

def setConnection (s : World ptr) (b : ptr) (c : Connection ptr) :
    World ptr where
  bevs := Function.update s.bevs b c.bev
  sockets := Function.update s.sockets b c.socket
  memory := Function.update s.memory b c.closed

theorem connectionAt_self (s : World ptr) (b : ptr) (c : Connection ptr) :
    connectionAt (setConnection s b c) b = c := by
  simp only [connectionAt, setConnection, Function.update_self]

theorem connectionAt_of_ne (s : World ptr) {b p : ptr} (c : Connection ptr)
    (h : p ≠ b) : connectionAt (setConnection s b c) p = connectionAt s p := by
  simp only [connectionAt, setConnection, Function.update_of_ne h]

theorem setConnection_same (s : World ptr) (b : ptr) :
    setConnection s b (connectionAt s b) = s := by
  simp only [connectionAt, setConnection, Function.update_eq_self]

def afterData (b : ptr) (bev : Bev ptr) : Option DataCb -> Bev ptr
  | some .sockertReadCb2 => afterRead b bev
  | some .drainedWritecb => drained bev
  | none => bev

def Connection.accepted : Connection ptr where
  bev := .live ((Bufferevent.new.setcb (some .sockertReadCb2) none
    (some .eventCb2) (some .base)).onChannel (Channel.enable true false))
  socket := Socket.new
  closed := none

def Connection.serveLive (b : ptr) (c : Connection ptr) (bev : Bev ptr) :
    Readiness -> Connection ptr
  | .read bytes =>
      if bev.enabledRead = true ∧ bytes ≠ [] then
        { c with
          bev := .live (afterData b
            (bev.onChannel (Channel.socketRead false bytes)) bev.readcb)
          socket := { c.socket with
            received := c.socket.received ++ bytes } }
      else c
  | .write n =>
      if bev.enabledWrite = true ∧ 0 < n ∧ n ≤ bev.output.length then
        { c with
          bev := .live
            (if (bev.output.drop n).length ≤ bev.wmWriteLow then
              afterData b (bev.onChannel (Channel.socketWrite false n))
                bev.writecb
            else bev.onChannel (Channel.socketWrite false n))
          socket := { c.socket with
            sent := c.socket.sent ++ bev.output.take n } }
      else c
  | .event what =>
      if bev.Finds what then
        match bev.eventcb with
        | some .eventCb2 => { c with bev := .freed, closed := some what }
        | none =>
            { c with
              bev := .live (bev.onChannel (Channel.report false what)) }
      else c

def Connection.serve (b : ptr) (c : Connection ptr) (r : Readiness) :
    Connection ptr :=
  match c.bev with
  | .live bev => c.serveLive b bev r
  | _ => c

theorem callData_live {s : World ptr} {b : ptr} {bev : Bev ptr}
    (cb : Option DataCb) (arg : Option (CbArg ptr))
    (h : s.bevs b = .live bev) :
    Loop.callData program cb b arg s =
      .ok (s.setBev b (afterData b bev cb)) := by
  cases cb with
  | none =>
      have hsame : s.setBev b bev = s := by
        unfold Loop.setBev
        rw [← h, Function.update_eq_self]
      exact congrArg Except.ok hsame.symm
  | some cb =>
      cases cb with
      | sockertReadCb2 => exact sockertReadCb2_live arg h
      | drainedWritecb => exact drainedWritecb_live arg h

theorem eq_setConnection {s w : World ptr} {b : ptr} {c : Connection ptr}
    (hbevs : w.bevs = Function.update s.bevs b c.bev)
    (hsockets : w.sockets = Function.update s.sockets b c.socket)
    (hmemory : w.memory = Function.update s.memory b c.closed) :
    w = setConnection s b c := by
  cases w
  cases hbevs
  cases hsockets
  cases hmemory
  rfl

theorem dispatchLive_eq (s : World ptr) (b : ptr) (bev : Bev ptr)
    (r : Readiness) :
    s.dispatchLive program b bev r =
      .ok (setConnection s b ((connectionAt s b).serveLive b bev r)) := by
  have hsame : s = setConnection s b (connectionAt s b) :=
    (setConnection_same s b).symm
  have hmemory : s.memory =
      Function.update s.memory b (connectionAt s b).closed :=
    (Function.update_eq_self b s.memory).symm
  cases r with
  | read bytes =>
      have hread : (s.readBytes b bev bytes).bevs b =
          .live (bev.onChannel (Channel.socketRead false bytes)) :=
        Loop.setBev_bevs_self _ _ _
      simp only [Loop.dispatchLive, Connection.serveLive]
      split
      · rw [callData_live _ _ hread]
        exact congrArg Except.ok
          (eq_setConnection (Function.update_idem _ _ _) rfl hmemory)
      · exact congrArg Except.ok hsame
  | write n =>
      have hwritten : (s.writeBytes b bev n).bevs b =
          .live (bev.onChannel (Channel.socketWrite false n)) :=
        Loop.setBev_bevs_self _ _ _
      simp only [Loop.dispatchLive, Connection.serveLive]
      split
      · split
        · rw [callData_live _ _ hwritten]
          exact congrArg Except.ok
            (eq_setConnection (Function.update_idem _ _ _) rfl hmemory)
        · exact congrArg Except.ok (eq_setConnection rfl rfl hmemory)
      · exact congrArg Except.ok hsame
  | event what =>
      have hsockets : s.sockets =
          Function.update s.sockets b (connectionAt s b).socket :=
        (Function.update_eq_self b s.sockets).symm
      simp only [Loop.dispatchLive, Connection.serveLive]
      split
      · cases bev.eventcb with
        | none =>
            exact congrArg Except.ok (eq_setConnection rfl hsockets hmemory)
        | some cb =>
            refine (eventCb2_live what bev.cbarg
              (Loop.setBev_bevs_self _ _ _)).trans ?_
            exact congrArg Except.ok
              (eq_setConnection (Function.update_idem _ _ _) hsockets rfl)
      · exact congrArg Except.ok hsame

theorem dispatch_eq (s : World ptr) (b : ptr) (r : Readiness) :
    Loop.dispatch program b s r =
      .ok (setConnection s b ((connectionAt s b).serve b r)) := by
  have hsame : s = setConnection s b (connectionAt s b) :=
    (setConnection_same s b).symm
  have hcell : (connectionAt s b).bev = s.bevs b := rfl
  unfold Loop.dispatch Connection.serve
  rw [hcell]
  cases s.bevs b with
  | live bev => exact dispatchLive_eq s b bev r
  | freed => exact congrArg Except.ok hsame
  | absent => exact congrArg Except.ok hsame

theorem acceptCb2_connection (s : World ptr) (b : ptr) :
    acceptCb2 b s = .ok (setConnection s b Connection.accepted) := by
  rw [acceptCb2_eq]
  unfold Loop.setBev setClosed Loop.buffereventSocketNew setConnection
    Heap.alloc
  simp only [Function.update_idem]
  rfl

/-!
## All connections
-/

def ServerAction.effect (c : Connection ptr) :
    ServerAction ptr -> Connection ptr
  | .incoming _ => Connection.accepted
  | .socket b r => c.serve b r

theorem server_step (s : World ptr) (a : ServerAction ptr) :
    server.step s a = .ok (setConnection s a.target
      (a.effect (connectionAt s a.target))) := by
  cases a with
  | incoming b => exact acceptCb2_connection s b
  | socket b r => exact dispatch_eq s b r

/-- Every live bufferevent echoes its client and is balanced. -/
def Orderly (s : World ptr) : Prop :=
  forall b bev, s.bevs b = .live bev -> Echoing b s bev ∧ Balanced bev

omit [DecidableEq ptr] in
theorem orderly_empty : Orderly (World.empty : World ptr) := by
  intro b bev hbev
  cases hbev

omit [DecidableEq ptr] in
theorem Echoing.congr {b : ptr} {s t : World ptr} {bev : Bev ptr}
    (h : Echoing b s bev) (hsame : connectionAt t b = connectionAt s b) :
    Echoing b t bev := by
  have hbev : t.bevs b = s.bevs b := congrArg Connection.bev hsame
  have hsocket : t.sockets b = s.sockets b := congrArg Connection.socket hsame
  have hclosed : t.memory b = s.memory b := congrArg Connection.closed hsame
  refine ⟨hbev.trans h.live, ?_, h.input, h.readcb, h.writecb, h.eventcb,
    hclosed.trans h.opened⟩
  rw [hsocket]
  exact h.bytes

omit [DecidableEq ptr] in
theorem orderly_of_flows {b : ptr} {s : World ptr} {bev : Bev ptr}
    (hserved : Served b s) (hflows : Flows b s) (hlive : s.bevs b = .live bev) :
    Echoing b s bev ∧ Balanced bev := by
  constructor
  · rcases hserved with ⟨bev', hechoing⟩ | hclosed
    · have hsame := hechoing.live
      rw [hlive] at hsame
      cases hsame
      exact hechoing
    · have hfreed := hclosed.freed
      rw [hlive] at hfreed
      cases hfreed
  · rcases hflows with ⟨bev', hlive', hbalanced⟩ | hfreed
    · rw [hlive] at hlive'
      cases hlive'
      exact hbalanced
    · rw [hlive] at hfreed
      cases hfreed

theorem server_step_target {s s' : World ptr} {a : ServerAction ptr}
    (h : Orderly s) (hstep : server.step s a = .ok s') {bev : Bev ptr}
    (hlive : s'.bevs a.target = .live bev) :
    Echoing a.target s' bev ∧ Balanced bev := by
  cases a with
  | incoming b =>
      rcases acceptCb2_served b s with ⟨s0, hs0, hechoing⟩
      rcases acceptCb2_flows b s with ⟨s1, hs1, hflows⟩
      have haccept : acceptCb2 b s = .ok s' := hstep
      rw [haccept] at hs0 hs1
      cases hs0
      cases hs1
      exact orderly_of_flows (.inl hechoing) hflows hlive
  | socket b r =>
      have hdispatch : (machine b).step s r = .ok s' := hstep
      by_cases hbefore : (s.bevs b).IsLive
      · rcases hbefore with ⟨bev0, hbev0⟩
        rcases h b bev0 hbev0 with ⟨hechoing, hbalanced⟩
        have hserved : Served b s := .inl ⟨bev0, hechoing⟩
        have hflows : Flows b s := .inl ⟨bev0, hbev0, hbalanced⟩
        rcases hserved.step r with ⟨s0, hs0, hserved'⟩
        rcases hflows.step r with ⟨s1, hs1, hflows'⟩
        rw [hdispatch] at hs0 hs1
        cases hs0
        cases hs1
        exact orderly_of_flows hserved' hflows' hlive
      · have hsame : (machine b).step s r = .ok s :=
          Loop.dispatch_notLive r hbefore
        rw [hsame] at hdispatch
        cases hdispatch
        exact absurd ⟨bev, hlive⟩ hbefore

theorem server_step_orderly {s : World ptr} (h : Orderly s)
    (a : ServerAction ptr) :
    exists s', server.step s a = .ok s' ∧ Orderly s' := by
  refine ⟨_, server_step s a, ?_⟩
  intro b bev hbev
  by_cases hb : b = a.target
  · subst hb
    exact server_step_target h (server_step s a) hbev
  · have hsame := connectionAt_of_ne s (a.effect (connectionAt s a.target)) hb
    have hbefore : s.bevs b = .live bev :=
      (congrArg Connection.bev hsame).symm.trans hbev
    rcases h b bev hbefore with ⟨hechoing, hbalanced⟩
    exact ⟨hechoing.congr hsame, hbalanced⟩

/-- However the events of any number of clients interleave, the server raises no
fault, each connection echoes and is balanced, and each pointer holds what it
would hold if the server had never had another client. -/
theorem clients_served (acts : List (ServerAction ptr)) (b : ptr) :
    server.Always Orderly (World.empty : World ptr) acts ∧
      exists s alone : World ptr, server.run World.empty acts = .ok s ∧
        server.run World.empty
          (acts.filter fun a => decide (a.target = b)) = .ok alone ∧
        connectionAt s b = connectionAt alone b := by
  refine ⟨Machine.always_of_step (fun _ hs => hs)
    (fun _ a hs => server_step_orderly hs a) orderly_empty acts, ?_⟩
  have halong : server.Along (fun _ _ => True) (World.empty : World ptr) acts :=
    Machine.along_of_forall_mem (fun _ _ _ => trivial) _
  have hproject := Machine.run_project (M := server) (N := server)
    (R := fun t s : World ptr => connectionAt s b = connectionAt t b)
    (Option.guard fun a => decide (a.target = b)) ?_ ?_ rfl halong
  · rw [List.filterMap_eq_filter] at hproject
    exact hproject
  · intro t s a a' hsame _ hown
    rcases Option.guard_eq_some_iff.mp hown with ⟨rfl, htarget⟩
    have hb : a.target = b := of_decide_eq_true htarget
    refine ⟨_, _, server_step s a, server_step t a, ?_⟩
    rw [hb, connectionAt_self, connectionAt_self, hsame]
  · intro t s a hsame _ hown
    have hb : b ≠ a.target := by
      intro heq
      rw [Option.guard_eq_none_iff] at hown
      rw [decide_eq_true heq.symm] at hown
      cases hown
    refine ⟨_, server_step s a, ?_⟩
    rw [connectionAt_of_ne s _ hb]
    exact hsame

end EchoServer
end NetExperiment
