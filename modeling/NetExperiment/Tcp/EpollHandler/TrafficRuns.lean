import NetExperiment.Tcp.EpollHandler.IOLoopRuns
import NetExperiment.Tcp.EpollHandler.Traffic

/-!
# Connections of the epoll server

When the pipes are opened, the descriptors of a call always refer to the files
of one connection.  Every connection is then served as if it were the only one,
also when descriptors and handlers are reused.
-/

namespace NetExperiment
namespace EpollHandler

open Foundation

/-!
## What a dispatch does to the handlers
-/

namespace SpliceEchoHandler

theorem removeHandler_mem_iff (client : Client) (events : Events)
    (out inp : Int) :
    LoopCall.removeHandler ∈ (handle client.received events out inp).2 <->
      client.TearsDown events out inp := by
  unfold Client.TearsDown
  by_cases hhung : events.HungUp
  · rw [handle_hungUp _ _ _ hhung]
    simp [hhung]
  · rw [handle_eq _ _ _ hhung]
    by_cases hwrite : events.Writable
    · by_cases hread : events.Readable
      · simp only [if_pos hread, if_pos hwrite]
        split <;> simp_all
      · simp [hread, hwrite, hhung]
    · by_cases hread : events.Readable
      · simp only [if_pos hread, if_neg hwrite]
        split <;> simp_all
      · simp [hread, hwrite, hhung]

end SpliceEchoHandler

namespace IOLoop

variable {ptr : Type} [DecidableEq ptr] {s : IOLoop ptr} {p : ptr}
  {client : Client} {fd : Fd} {events : Events} {r : Results ptr}

theorem tornDown_objects (fd : Fd) (ctl : Bool) (p : ptr) (id : Identity)
    (s : IOLoop ptr) :
    (tornDown fd ctl p id s).objects = Function.update s.objects p .freed ∧
      (tornDown fd ctl p id s).nextConn = s.nextConn := by
  unfold tornDown
  cases ctl <;> simp

theorem outputDone_objects (p : ptr) (client : Client) (received : Int)
    (fd : Fd) (events : Events) (r : Results ptr) (s : IOLoop ptr) :
    (outputDone p client received fd events r s).objects =
        Function.update s.objects p
          (.live (.spliceEcho { client with received := received })) ∧
      (outputDone p client received fd events r s).nextConn = s.nextConn ∧
      (outputDone p client received fd events r s).handlers =
        s.handlers := by
  unfold outputDone
  split <;> exact ⟨rfl, rfl, rfl⟩

theorem removeHandler_objects {t : IOLoop ptr} {received : Int}
    (hhandler : t.handlers fd = some p)
    (hobjects : t.objects = Function.update s.objects p
      (.live (.spliceEcho { client with received := received }))) :
    exists s', removeHandler client.conn fd r.ctlDel t = .ok s' ∧
      s'.nextConn = t.nextConn ∧
      s'.objects = Function.update s.objects p .freed := by
  have hclient : clientsOf t.objects p = some client.toIdentity := by
    simp only [clientsOf, hobjects, Function.update_self]
  rcases tornDown_objects fd r.ctlDel p client.toIdentity t with
    ⟨htorn, hnext⟩
  refine ⟨_, removeHandler_eq r.ctlDel hhandler hclient, hnext, ?_⟩
  rw [htorn, hobjects, Function.update_idem]

theorem clientHandle_objects (client : Client) (events : Events)
    (r : Results ptr) (hhandler : s.handlers fd = some p) :
    exists s', clientHandle p client fd events r s = .ok s' ∧
      s'.nextConn = s.nextConn ∧
      s'.objects = Function.update s.objects p
        (if LoopCall.removeHandler ∈ (SpliceEchoHandler.handle client.received
            events r.out r.inp).2 then .freed
        else .live (.spliceEcho { client with
          received := (SpliceEchoHandler.handle client.received events r.out
            r.inp).1 })) := by
  have hmem := SpliceEchoHandler.removeHandler_mem_iff client events r.out r.inp
  by_cases hhung : events.HungUp
  · rw [if_pos (hmem.mpr (.inl hhung)), clientHandle_hungUp hhung]
    have hset : (setReceived p client client.received s).handlers fd =
        some p := hhandler
    rcases removeHandler_objects (s := s) (r := r) hset rfl with
      ⟨s', hs', hnext, hobjects⟩
    rw [hs', ok_bind]
    refine ⟨_, rfl, ?_, ?_⟩
    · rw [close_nextConn]
      exact hnext
    · rw [close_objects]
      exact hobjects
  · rw [clientHandle_eq hhung]
    by_cases hread : events.Readable
    · rw [if_pos hread]
      rcases outputDone_objects p client (toInt32
        (SpliceEchoHandler.afterOutput client.received events r.out + r.inp))
        fd events r s with ⟨hobjects, hnext, hhandlers⟩
      by_cases hcounter : toInt32 (SpliceEchoHandler.afterOutput
          client.received events r.out + r.inp) ≤ 0
      · rw [if_pos (hmem.mpr (.inr ⟨hread, hcounter⟩))]
        simp only [if_pos hcounter]
        rcases removeHandler_objects (s := s) (r := r)
          ((congrFun hhandlers fd).trans hhandler) hobjects with
          ⟨s', hs', hnext', hobjects'⟩
        exact ⟨s', hs', hnext'.trans hnext, hobjects'⟩
      · have hkept : ¬ client.TearsDown events r.out r.inp := by
          rintro (h | ⟨_, h⟩)
          · exact hhung h
          · exact hcounter h
        rw [if_neg (fun h => hkept (hmem.mp h))]
        simp only [if_neg hcounter]
        refine ⟨_, rfl, hnext, ?_⟩
        rw [SpliceEchoHandler.handle_eq _ _ _ hhung, if_pos hread]
        exact hobjects
    · have hkept : ¬ client.TearsDown events r.out r.inp := by
        rintro (h | ⟨h, _⟩)
        · exact hhung h
        · exact hread h
      rw [if_neg hread, if_neg (fun h => hkept (hmem.mp h))]
      rcases outputDone_objects p client
        (SpliceEchoHandler.afterOutput client.received events r.out) fd events
        r s with ⟨hobjects, hnext, _⟩
      refine ⟨_, rfl, hnext, ?_⟩
      rw [SpliceEchoHandler.handle_eq _ _ _ hhung, if_neg hread]
      exact hobjects

theorem serverHandle_objects (this : ptr) (listen : Fd) :
    ((serverHandle this listen r s).objects = s.objects ∧
        (serverHandle this listen r s).nextConn = s.nextConn) ∨
      (¬ r.accept < 0 ∧
        (serverHandle this listen r s).objects =
          Function.update s.objects r.handler
            (.live (.spliceEcho
              { Pipe.identity s.nextConn r.pipe with received := 0 })) ∧
        (serverHandle this listen r s).nextConn = s.nextConn + 1) := by
  unfold serverHandle
  by_cases haccept : r.accept < 0
  · rw [if_pos haccept]
    exact .inl ⟨rfl, rfl⟩
  · rw [if_neg haccept]
    cases hpipe : r.pipe with
    | opened pipefd0 pipefd1 => exact .inr ⟨haccept, rfl, rfl⟩
    | failed pipefd0 pipefd1 => exact .inr ⟨haccept, rfl, rfl⟩

end IOLoop

/-!
## Every connection alone
-/

namespace Server

variable {ptr : Type} [DecidableEq ptr] {listen : Fd} {server : ptr}
  {s : Server ptr} {k : Nat} {c : Connection}

omit [DecidableEq ptr] in
theorem called_cases {act : Traffic ptr} {x : Called}
    (h : s.called act = some x) :
    exists r p e rest, act = .dispatch r x.call.out x.call.inp ∧
      s.loop.Possible r ∧ s.loop.batch = e :: rest ∧
      s.loop.handlers e.fd = some p ∧
      s.loop.objects p = .live (.spliceEcho x.client) ∧
      x.fd = e.fd ∧ x.call.events = e.events := by
  cases act with
  | wait ready => cases h
  | waitFailed => cases h
  | dispatch r out inp =>
      simp only [called] at h
      split at h
      · rename_i hpossible
        rcases Option.bind_eq_some_iff.mp h with ⟨e, he, h⟩
        rcases Option.bind_eq_some_iff.mp h with ⟨p, hp, h⟩
        rcases List.head?_eq_some_iff.mp he with ⟨rest, hbatch⟩
        split at h
        · rename_i client hclient
          cases h
          exact ⟨r, p, e, rest, rfl, hpossible, hbatch, hp, hclient, rfl, rfl⟩
        · cases h
      · cases h

omit [DecidableEq ptr] in
theorem called_of_dispatchedTo {r : Results ptr} {out : SpliceOut}
    {inp : SpliceIn} {e : Event} {rest : List Event} {p : ptr}
    {client : Client} (hpossible : s.loop.Possible r)
    (hto : IOLoop.DispatchedTo listen server s.loop e rest p client) :
    s.called (.dispatch r out inp) =
      some { fd := e.fd
             client := client
             call := { events := e.events, out := out, inp := inp } } := by
  simp only [called, if_pos hpossible, hto.batch, List.head?_cons,
    Option.bind_eq_bind, Option.bind_some, hto.handler, hto.object]

structure Follows (k : Nat) (c : Connection) (s : Server ptr) : Prop where
  flow : s.flows k = c.flow
  served : forall p client, s.loop.objects p = .live (.spliceEcho client) ->
    client.conn = k -> client.received = c.received ∧ c.live = true
  closed : k < s.loop.nextConn -> c.live = true ->
    exists p client, s.loop.objects p = .live (.spliceEcho client) ∧
      client.conn = k
  new : s.loop.nextConn ≤ k -> c = Connection.new

def Registered (listen : Fd) (server : ptr) (s : Server ptr) : Prop :=
  IOLoop.Consistent listen server s.loop ∧ IOLoop.PipesOpen s.loop

theorem step_uncalled (h : Registered listen server s) {act : Traffic ptr}
    (hcalled : s.called act = none) {loop : IOLoop ptr}
    (hstep : s.loop.step act.action = .ok loop) :
    (loop.objects = s.loop.objects ∧ loop.nextConn = s.loop.nextConn) ∨
      exists (p : ptr) (id : Identity), ¬ (s.loop.objects p).IsLive ∧
        id.conn = s.loop.nextConn ∧
        loop.objects = Function.update s.loop.objects p
          (.live (.spliceEcho { id with received := 0 })) ∧
        loop.nextConn = s.loop.nextConn + 1 := by
  cases act with
  | wait ready =>
      have hwait : (if s.loop.Ready ready then
          Except.ok { s.loop with batch := s.loop.reported ready }
        else .ok s.loop) = Except.ok loop := hstep
      split at hwait
      · cases hwait
        exact .inl ⟨rfl, rfl⟩
      · cases hwait
        exact .inl ⟨rfl, rfl⟩
  | waitFailed =>
      cases hstep
      exact .inl ⟨rfl, rfl⟩
  | dispatch r out inp =>
      by_cases hpossible : s.loop.Possible r
      · have hdispatch : s.loop.dispatch
            { r with out := out.result, inp := inp.result } = .ok loop :=
          (if_pos hpossible).symm.trans hstep
        cases hbatch : s.loop.batch with
        | nil =>
            simp only [IOLoop.dispatch, hbatch] at hdispatch
            cases hdispatch
            exact .inl ⟨rfl, rfl⟩
        | cons e rest =>
            rcases h.1.dispatched hbatch with ⟨hlisten, _⟩ | ⟨p, client, hto⟩
            · rw [IOLoop.dispatch_listen h.1 hbatch hlisten] at hdispatch
              cases hdispatch
              rcases IOLoop.serverHandle_objects
                (s := { s.loop with batch := rest })
                (r := { r with out := out.result, inp := inp.result }) server
                listen with hkept | ⟨haccept, hobjects, hnext⟩
              · exact .inl hkept
              · rcases hpossible with hneg | ⟨_, hfree, _⟩
                · exact absurd hneg haccept
                · refine .inr ⟨r.handler, _, hfree, ?_, hobjects, hnext⟩
                  cases r.pipe <;> rfl
            · rw [called_of_dispatchedTo hpossible hto] at hcalled
              cases hcalled
      · have hidle : Except.ok s.loop = Except.ok loop :=
          (if_neg hpossible).symm.trans hstep
        cases hidle
        exact .inl ⟨rfl, rfl⟩

theorem step_called (h : Registered listen server s) {act : Traffic ptr}
    {x : Called} (hcalled : s.called act = some x) {loop : IOLoop ptr}
    (hstep : s.loop.step act.action = .ok loop) :
    x.OwnFiles s.loop.files ∧ loop.nextConn = s.loop.nextConn ∧
      exists p, s.loop.objects p = .live (.spliceEcho x.client) ∧
        loop.objects = Function.update s.loop.objects p
          (if LoopCall.removeHandler ∈ (SpliceEchoHandler.handle
              x.client.received x.call.events x.call.out.result
              x.call.inp.result).2 then .freed
          else .live (.spliceEcho { x.client with
            received := (SpliceEchoHandler.handle x.client.received
              x.call.events x.call.out.result x.call.inp.result).1 })) := by
  rcases called_cases hcalled with
    ⟨r, p, e, rest, rfl, hpossible, hbatch, hhandler, hobject, hfd, hevents⟩
  have hto := h.1.dispatchedTo hbatch hhandler hobject
  have hdispatch : s.loop.dispatch
      { r with out := x.call.out.result, inp := x.call.inp.result } =
        .ok loop :=
    (if_pos hpossible).symm.trans hstep
  rw [IOLoop.dispatch_client hto] at hdispatch
  rcases IOLoop.clientHandle_objects x.client e.events
    { r with out := x.call.out.result, inp := x.call.inp.result }
    (s := { s.loop with batch := rest }) hhandler with
    ⟨s', hs', hnext, hobjects⟩
  rw [hs'] at hdispatch
  cases hdispatch
  have hclient : IOLoop.clientsOf s.loop.objects p =
      some x.client.toIdentity := by
    simp only [IOLoop.clientsOf, hobject]
  rcases h.1.pipe_open p _ hclient (h.2 p _ hclient) with
    ⟨hpipe0, hpipe1, _⟩
  refine ⟨⟨hpipe0, hpipe1, ?_⟩, hnext, p, hobject, ?_⟩
  · rw [hfd]
    exact h.1.socket_open hto
  · rw [hevents]
    exact hobjects

omit [DecidableEq ptr] in
theorem Follows.congr {s' : Server ptr} (h : Follows k c s)
    (hobjects : s'.loop.objects = s.loop.objects)
    (hnext : s'.loop.nextConn = s.loop.nextConn)
    (hflow : s'.flows k = s.flows k) : Follows k c s' where
  flow := hflow.trans h.flow
  served := by
    rw [hobjects]
    exact h.served
  closed := by
    rw [hobjects, hnext]
    exact h.closed
  new := by
    rw [hnext]
    exact h.new

theorem Follows.accepted {s' : Server ptr} {p : ptr} {id : Identity}
    (h : Follows k c s) (hfree : ¬ (s.loop.objects p).IsLive)
    (hid : id.conn = s.loop.nextConn)
    (hobjects : s'.loop.objects = Function.update s.loop.objects p
      (.live (.spliceEcho { id with received := 0 })))
    (hnext : s'.loop.nextConn = s.loop.nextConn + 1)
    (hflow : s'.flows k = s.flows k) : Follows k c s' where
  flow := hflow.trans h.flow
  served := by
    intro q client hq hconn
    rw [hobjects, Function.update_apply] at hq
    split at hq
    · cases hq
      rw [h.new (by rw [← hconn]; exact Nat.le_of_eq hid.symm)]
      exact ⟨rfl, rfl⟩
    · exact h.served q client hq hconn
  closed := by
    intro hk hlive
    by_cases hnew : k = s.loop.nextConn
    · refine ⟨p, { id with received := 0 }, ?_, hid.trans hnew.symm⟩
      rw [hobjects, Function.update_self]
    · rw [hnext] at hk
      rcases h.closed (by omega) hlive with ⟨q, client, hq, hconn⟩
      refine ⟨q, client, ?_, hconn⟩
      have hne : q ≠ p := by
        intro hqp
        rw [hqp] at hq
        exact hfree ⟨_, hq⟩
      rw [hobjects, Function.update_of_ne hne]
      exact hq
  new := by
    intro hk
    rw [hnext] at hk
    exact h.new (by omega)

theorem Follows.called {s' : Server ptr} {x : Called} {p : ptr}
    (hconsistent : IOLoop.Consistent listen server s.loop)
    (h : Follows x.client.conn c s)
    (hpossible : x.Possible s.loop.files s.flows)
    (hfiles : x.OwnFiles s.loop.files)
    (hobject : s.loop.objects p = .live (.spliceEcho x.client))
    (hnext : s'.loop.nextConn = s.loop.nextConn)
    (hobjects : s'.loop.objects = Function.update s.loop.objects p
      (if LoopCall.removeHandler ∈ (SpliceEchoHandler.handle x.client.received
          x.call.events x.call.out.result x.call.inp.result).2 then .freed
      else .live (.spliceEcho { x.client with
        received := (SpliceEchoHandler.handle x.client.received x.call.events
          x.call.out.result x.call.inp.result).1 })))
    (hflows : s'.flows = x.moved s.loop.files s.flows) :
    Follows x.client.conn (c.step x.call) s' := by
  have hclient : IOLoop.clientsOf s.loop.objects p =
      some x.client.toIdentity := by
    simp only [IOLoop.clientsOf, hobject]
  rcases h.served p x.client hobject rfl with ⟨hreceived, hlive⟩
  rcases Connection.step_of_possible hlive
    (possible_own hfiles h.flow hreceived hpossible) with
    ⟨hflow, hcounter, hstill⟩
  rw [← hreceived] at hcounter hstill
  constructor
  case flow =>
    rw [hflows, moved_own hfiles h.flow, Function.update_self, hflow]
  case served =>
    intro q client hq hconn
    rw [hobjects, Function.update_apply] at hq
    split at hq
    · split at hq
      · cases hq
      · rename_i hkept
        cases hq
        exact ⟨hcounter.symm, hstill.mpr hkept⟩
    · rename_i hne
      -- no other handler has the number of this connection
      have hother : IOLoop.clientsOf s.loop.objects q =
          some client.toIdentity := by
        simp only [IOLoop.clientsOf, hq]
      exact absurd (hconsistent.conn_unique q p _ _ hother hclient hconn) hne
  case closed =>
    intro _ hstep
    refine ⟨p, { x.client with
      received := (SpliceEchoHandler.handle x.client.received x.call.events
        x.call.out.result x.call.inp.result).1 }, ?_, rfl⟩
    rw [hobjects, Function.update_self, if_neg (hstill.mp hstep)]
  case new =>
    intro hk
    have hold := hconsistent.conn_old p _ hclient
    rw [hnext] at hk
    exact absurd hold (Nat.not_lt.mpr hk)

theorem Follows.other {s' : Server ptr} {x : Called} {p : ptr}
    {cell : Cell Handler} (h : Follows k c s) (hk : k ≠ x.client.conn)
    (hfiles : x.OwnFiles s.loop.files)
    (hobject : s.loop.objects p = .live (.spliceEcho x.client))
    (hnext : s'.loop.nextConn = s.loop.nextConn)
    (hobjects : s'.loop.objects = Function.update s.loop.objects p cell)
    (hcell : forall client, cell = .live (.spliceEcho client) ->
      client.conn = x.client.conn)
    (hflows : s'.flows = x.moved s.loop.files s.flows) :
    Follows k c s' where
  flow := by
    rw [hflows, moved_other hfiles hk]
    exact h.flow
  served := by
    intro q client hq hconn
    rw [hobjects, Function.update_apply] at hq
    split at hq
    · exact absurd (hconn.symm.trans (hcell client hq)) hk
    · exact h.served q client hq hconn
  closed := by
    intro hold hlive
    rw [hnext] at hold
    rcases h.closed hold hlive with ⟨q, client, hq, hconn⟩
    refine ⟨q, client, ?_, hconn⟩
    have hne : q ≠ p := by
      intro hqp
      rw [hqp, hobject] at hq
      cases hq
      exact hk hconn.symm
    rw [hobjects, Function.update_of_ne hne]
    exact hq
  new := by
    rw [hnext]
    exact h.new

theorem follows_initial (listen : Fd) (server : ptr) (others : Fd -> Bool)
    (k : Nat) : Follows k Connection.new (initial listen server others) where
  flow := rfl
  served := by
    intro p client hp
    simp only [initial, IOLoop.initial, Function.update_apply,
      Heap.empty] at hp
    split at hp <;> cases hp
  closed := by
    intro hk
    cases hk
  new := fun _ => rfl

/-- Every step is a call of the connection, or it does not concern it. -/
theorem step_follows (h : Registered listen server s) (hf : Follows k c s)
    {act : Traffic ptr} (hpipe : act.action.PipeOpens) :
    exists next c', machine.step s act = .ok next ∧
      Connection.machine.run c (s.callOf k act).toList = .ok c' ∧
      Registered listen server next ∧ Follows k c' next := by
  rcases IOLoop.step_registry h hpipe with ⟨loop, hloop, hregistered⟩
  by_cases hpossible : s.Possible act
  · have hstep : machine.step s act =
        .ok { loop := loop, flows := s.moved act } := by
      refine (if_pos hpossible).trans ?_
      rw [hloop]
      rfl
    cases hcalled : s.called act with
    | none =>
        have hcall : s.callOf k act = none := by
          simp only [callOf, hcalled, Option.filter_none, Option.map_none,
            ite_self]
        have hflows : s.moved act = s.flows := by
          simp only [moved, hcalled]
        refine ⟨_, c, hstep, by rw [hcall]; rfl, hregistered, ?_⟩
        rcases step_uncalled h hcalled hloop with
          ⟨hobjects, hnext⟩ | ⟨p, id, hfree, hid, hobjects, hnext⟩
        · exact hf.congr hobjects hnext (congrFun hflows k)
        · exact hf.accepted hfree hid hobjects hnext (congrFun hflows k)
    | some x =>
        have hflows : s.moved act = x.moved s.loop.files s.flows := by
          simp only [moved, hcalled]
        rcases step_called h hcalled hloop with
          ⟨hfiles, hnext, p, hobject, hobjects⟩
        by_cases hk : x.client.conn = k
        · subst hk
          have hcall : s.callOf x.client.conn act = some x.call := by
            simp only [callOf, if_pos hpossible, hcalled, Option.filter_some,
              decide_true, if_true, Option.map_some]
          refine ⟨_, c.step x.call, hstep, by rw [hcall]; rfl, hregistered, ?_⟩
          exact hf.called h.1 (hpossible x hcalled) hfiles hobject hnext
            hobjects hflows
        · have hcall : s.callOf k act = none := by
            simp only [callOf, if_pos hpossible, hcalled, Option.filter_some,
              decide_eq_true_eq, if_neg hk, Option.map_none]
          refine ⟨_, c, hstep, by rw [hcall]; rfl, hregistered, ?_⟩
          refine hf.other (Ne.symm hk) hfiles hobject hnext hobjects ?_ hflows
          intro client hcell
          split at hcell
          · cases hcell
          · cases hcell
            rfl
  · have hcall : s.callOf k act = none := by
      simp only [callOf, if_neg hpossible]
    exact ⟨s, c, if_neg hpossible, by rw [hcall]; rfl, h, hf⟩

/-- In every run in which the pipes are opened, each connection gets what it
would get alone: its handler's counter, its pipe and its socket are what its own
calls make them, and its handler is there exactly as long as none of these calls
has removed it.  So what is written to a socket was read from it. -/
theorem connections_apart (listen : Fd) (server : ptr) (others : Fd -> Bool)
    {acts : List (Traffic ptr)}
    (hpipe : forall act, act ∈ acts -> act.action.PipeOpens) :
    exists s, machine.run (initial listen server others) acts = .ok s ∧
      forall k, exists c,
        Connection.machine.run Connection.new
          (machine.share (callOf k) (initial listen server others) acts) =
            .ok c ∧
        Follows k c s ∧ (s.flows k).Echoed := by
  have halone : forall k, exists s c,
      machine.run (initial listen server others) acts = .ok s ∧
      Connection.machine.run Connection.new
        (machine.share (callOf k) (initial listen server others) acts) =
          .ok c ∧ Registered listen server s ∧ Follows k c s := by
    intro k
    refine Machine.run_share
      (R := fun c s => Registered listen server s ∧ Follows k c s)
      (C := fun _ act => act.action.PipeOpens) (callOf k) ?_ ?_ ?_
    · intro c s act h hact
      exact step_follows h.1 h.2 hact
    · exact ⟨⟨IOLoop.consistent_initial listen server others,
        IOLoop.pipesOpen_initial listen server others⟩,
        follows_initial listen server others k⟩
    · exact Machine.along_of_forall_mem (fun _ act hact => hpipe act hact) _
  rcases halone 0 with ⟨s, _, hrun, _⟩
  refine ⟨s, hrun, ?_⟩
  intro k
  rcases halone k with ⟨s', c, hrun', hcalls, _, hfollows⟩
  rw [hrun] at hrun'
  cases hrun'
  have hechoed : c.flow.Echoed := by
    refine Machine.run_preserves (I := fun c => c.flow.Echoed) ?_ rfl hcalls
    intro c a next hc hnext
    cases hnext
    exact Connection.step_echoed hc a
  refine ⟨c, hcalls, hfollows, ?_⟩
  rw [hfollows.flow]
  exact hechoed

/-- Two clients are served in turn.  The first one ends, and a third one gets
its descriptors and its handler's memory. -/
def threeClients : List (Traffic Nat) :=
  let serving := IOLoop.accepting (-1) (.opened 6 7) 1
  [.wait [(3, EPOLLIN)],
    .dispatch (IOLoop.accepting 5 (.opened 6 7) 1) .blocked .blocked,
    .wait [(3, EPOLLIN)],
    .dispatch (IOLoop.accepting 8 (.opened 9 10) 2) .blocked .blocked,
    .wait [(5, EPOLLIN), (8, EPOLLIN)],
    .dispatch serving .blocked (.moved [1, 2]),
    .dispatch serving .blocked (.moved [3]),
    .wait [(8, EPOLLOUT), (5, EPOLLOUT)],
    .dispatch serving (.moved 1) .blocked,
    .dispatch serving (.moved 2) .blocked,
    .wait [(5, EPOLLIN), (3, EPOLLIN)],
    .dispatch serving .blocked (.moved []),
    .dispatch (IOLoop.accepting 5 (.opened 6 7) 1) .blocked .blocked,
    .wait [(5, EPOLLIN)],
    .dispatch serving .blocked (.moved [4])]

theorem threeClients_apart :
    exists s, machine.run (initial 3 0 fun _ => false) threeClients = .ok s ∧
      s.flows 0 =
        { pipe := [], fromSocket := [1, 2], toSocket := [1, 2] } ∧
      s.flows 1 = { pipe := [], fromSocket := [3], toSocket := [3] } ∧
      s.flows 2 = { pipe := [4], fromSocket := [4], toSocket := [] } ∧
      forall k, exists c,
        Connection.machine.run Connection.new
          (machine.share (callOf k) (initial 3 0 fun _ => false)
            threeClients) = .ok c ∧
        Follows k c s ∧ (s.flows k).Echoed := by
  have hend : okWith (fun s : Server Nat => decide (
      s.flows 0 =
        { pipe := [], fromSocket := [1, 2], toSocket := [1, 2] } ∧
      s.flows 1 = { pipe := [], fromSocket := [3], toSocket := [3] } ∧
      s.flows 2 = { pipe := [4], fromSocket := [4], toSocket := [] }))
      (machine.run (initial 3 0 fun _ => false) threeClients) = true := by
    decide +kernel
  have hpipe : forall act, act ∈ threeClients -> act.action.PipeOpens := by
    decide
  rcases exists_of_okWith hend with ⟨s, hrun, hs⟩
  rcases of_decide_eq_true hs with ⟨hfirst, hsecond, hthird⟩
  rcases connections_apart 3 0 (fun _ => false) hpipe with
    ⟨s', hrun', hapart⟩
  rw [hrun] at hrun'
  cases hrun'
  exact ⟨s, hrun, hfirst, hsecond, hthird, hapart⟩

end Server
end EpollHandler
end NetExperiment
