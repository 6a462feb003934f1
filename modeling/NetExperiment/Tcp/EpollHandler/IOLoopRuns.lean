import NetExperiment.Tcp.EpollHandler.Dispatch

/-!
# Runs of the epoll loop

The registry is safe in every run in which the pipes are opened: an event always
finds the handler it was reported for, even if its batch closed and reused
descriptors before it.  Which descriptors are closed is settled exactly: every
call of close is for an open descriptor of the connection that is torn down,
unless a hangup or an error is dispatched to a connection or a connection is torn
down that did not get its pipe.
-/

namespace NetExperiment
namespace EpollHandler
namespace IOLoop

open Foundation

variable {ptr : Type} [DecidableEq ptr] {listen : Fd} {server : ptr}
  {s : IOLoop ptr}

/-!
## Steps
-/

omit [DecidableEq ptr] in
theorem reported_consistent (h : Consistent listen server s)
    {ready : List (Fd × Events)} (hready : s.Ready ready) :
    Consistent listen server { s with batch := s.reported ready } := by
  rcases hready with ⟨_, _, hdistinct, hregistered⟩
  refine { h with pending := ?_, distinct := ?_ }
  · intro e he
    rcases List.mem_map.mp he with ⟨x, hx, rfl⟩
    cases hreg : s.epoll x.1 with
    | none => exact absurd hreg (hregistered x hx)
    | some reg =>
        have hfor := h.registered x.1 reg hreg
        simpa [hreg, HandlerFor] using hfor
  · have hfds : (s.reported ready).map Event.fd = ready.map Prod.fst := by
      simp [reported]
    show ((s.reported ready).map Event.fd).Nodup
    rw [hfds]
    exact hdistinct

theorem step_cases (h : Consistent listen server s) (a : Action ptr) :
    exists next, step s a = .ok next ∧
      ((exists r, a = .dispatch r ∧ s.Possible r ∧
          Outcome listen server s r next) ∨
        (Consistent listen server next ∧ next.objects = s.objects ∧
          next.closes = s.closes ∧
          forall r, a = .dispatch r -> ¬ s.Possible r)) := by
  cases a with
  | wait ready =>
      by_cases hready : s.Ready ready
      · refine ⟨_, if_pos hready, Or.inr ⟨reported_consistent h hready, rfl, rfl,
          ?_⟩⟩
        intro r hr
        cases hr
      · refine ⟨s, if_neg hready, Or.inr ⟨h, rfl, rfl, ?_⟩⟩
        intro r hr
        cases hr
  | waitFailed =>
      refine ⟨s, rfl, Or.inr ⟨h, rfl, rfl, ?_⟩⟩
      intro r hr
      cases hr
  | dispatch r =>
      by_cases hpossible : s.Possible r
      · rcases dispatch_outcome h hpossible with ⟨next, hnext, hout⟩
        exact ⟨next, (if_pos hpossible).trans hnext,
          Or.inl ⟨r, rfl, hpossible, hout⟩⟩
      · refine ⟨s, if_neg hpossible, Or.inr ⟨h, rfl, rfl, ?_⟩⟩
        intro r' hr'
        cases hr'
        exact hpossible

/-!
## Safety of the registry
-/

def Pipe.isOpened : Pipe -> Bool
  | .opened _ _ => true
  | .failed _ _ => false

/-- The call of pipe succeeds in this action. -/
def Action.PipeOpens : Action ptr -> Prop
  | .dispatch r => Pipe.isOpened r.pipe = true
  | _ => True

instance : (a : Action ptr) -> Decidable a.PipeOpens
  | .dispatch r => inferInstanceAs (Decidable (Pipe.isOpened r.pipe = true))
  | .wait _ => .isTrue trivial
  | .waitFailed => .isTrue trivial

def PipesOpen (s : IOLoop ptr) : Prop :=
  forall p id, clientsOf s.objects p = some id -> id.pipeOpened = true

structure RegistrySafe (listen : Fd) (server : ptr) (s : IOLoop ptr) :
    Prop where
  /-- The next event finds the handler of the connection it was reported for. -/
  dispatched : forall e rest, s.batch = e :: rest ->
    exists p handler, s.handlers e.fd = some p ∧ s.objects p = .live handler ∧
      handler.conn = e.conn
  /-- A descriptor that accept can return has no handler. -/
  accepted : forall r, s.Possible r -> 0 ≤ r.accept ->
    s.handlers r.accept = none
  listening : s.handlers listen = some server
  deleted_once : s.deleted.Nodup

omit [DecidableEq ptr] in
theorem Consistent.registrySafe (h : Consistent listen server s) :
    RegistrySafe listen server s where
  dispatched := by
    intro e rest hbatch
    rcases h.dispatched hbatch with ⟨hfd, hconn⟩ | ⟨p, client, hto⟩
    · rw [hfd, hconn]
      exact ⟨server, .server, h.server_handler, h.server_object, rfl⟩
    · exact ⟨p, .spliceEcho client, hto.handler, hto.object, hto.conn.symm⟩
  accepted := by
    intro r hpossible haccept
    rcases hpossible with hneg | ⟨hclosed, _, _⟩
    · exact absurd hneg (Int.not_lt.mpr haccept)
    · cases hfd : s.handlers r.accept with
      | none => rfl
      | some p =>
          by_cases hlisten : r.accept = listen
          · rw [hlisten, h.server_file] at hclosed
            cases hclosed
          · rcases h.served r.accept p hfd hlisten with ⟨id, _, hfile⟩
            rw [hclosed] at hfile
            cases hfile
  listening := h.server_handler
  deleted_once := h.deleted_once

theorem pipesOpen_initial (listen : Fd) (server : ptr) (others : Fd -> Bool) :
    PipesOpen (initial listen server others) := by
  intro p id hp
  rcases clientsOf_eq_some hp with ⟨received, hobject⟩
  simp only [initial, Function.update_apply, Heap.empty] at hobject
  split at hobject <;> cases hobject

theorem Outcome.pipesOpen {r : Results ptr} {s' : IOLoop ptr}
    (hout : Outcome listen server s r s') (h : PipesOpen s)
    (hpipe : Pipe.isOpened r.pipe = true) : PipesOpen s' := by
  intro q i hq
  cases hout with
  | quiet hquiet _ _ =>
      rw [hquiet.clients] at hq
      exact h q i hq
  | added popped hquiet hadded _ _ =>
      rw [hadded.clients, hquiet.clients, Function.update_apply] at hq
      split at hq
      · cases hq
        cases hresult : r.pipe with
        | opened pipefd0 pipefd1 => rfl
        | failed pipefd0 pipefd1 =>
            rw [hresult] at hpipe
            cases hpipe
      · exact h q i hq
  | tornDown e rest p client middle hto _ hquiet _ _ hlast =>
      have hclients : clientsOf s'.objects =
          Function.update (clientsOf s.objects) p none := by
        rw [hlast, ← hquiet.clients]
        split
        · rw [close_objects, tornDown_clients]
        · exact tornDown_clients
      rw [hclients, Function.update_apply] at hq
      split at hq
      · cases hq
      · exact h q i hq

theorem step_registry {a : Action ptr}
    (h : Consistent listen server s ∧ PipesOpen s) (hpipe : a.PipeOpens) :
    exists next, step s a = .ok next ∧
      Consistent listen server next ∧ PipesOpen next := by
  rcases step_cases h.1 a with ⟨next, hnext, ⟨r, rfl, _, hout⟩ |
    ⟨hconsistent, hobjects, _, _⟩⟩
  · refine ⟨next, hnext, hout.consistent h.1 ?_, hout.pipesOpen h.2 hpipe⟩
    intro e rest p client hto _
    exact h.2 p client.toIdentity (by simp only [clientsOf, hto.object])
  · refine ⟨next, hnext, hconsistent, ?_⟩
    unfold PipesOpen
    rw [hobjects]
    exact h.2

/-- No run in which the pipes are opened faults, and its registry is safe at
every step. -/
theorem registrySafe_of_pipes_open (listen : Fd) (server : ptr)
    (others : Fd -> Bool) {acts : List (Action ptr)}
    (hpipe : forall a, a ∈ acts -> a.PipeOpens) :
    machine.Always (RegistrySafe listen server) (initial listen server others)
      acts := by
  refine Machine.always_of_along
    (I := fun s => Consistent listen server s ∧ PipesOpen s)
    (C := fun _ a => a.PipeOpens) ?_ ?_
    ⟨consistent_initial listen server others,
      pipesOpen_initial listen server others⟩
    (Machine.along_of_forall_mem (fun _ a ha => hpipe a ha) _)
  · intro s hs
    exact hs.1.registrySafe
  · intro s a hs ha
    exact step_registry hs ha

def accepting (client : Fd) (pipe : Pipe) (handler : ptr) : Results ptr where
  accept := client
  pipe := pipe
  handler := handler
  out := 0
  inp := 0
  ctlAddListener := true
  ctlAddClient := true
  ctlMod := fun _ => true
  ctlDel := true

/-- A connection is closed, and the next one gets its descriptors and its
handler's memory, all in one batch. -/
def descriptorReuse : List (Action Nat) :=
  [.wait [(3, EPOLLIN)],
    .dispatch (accepting 5 (.opened 6 7) 1),
    .wait [(5, EPOLLIN), (3, EPOLLIN)],
    .dispatch (accepting (-1) (.opened 6 7) 1),
    .dispatch (accepting 5 (.opened 6 7) 1),
    .wait [(5, EPOLLIN)]]

theorem registrySafe_descriptorReuse :
    (forall a, a ∈ descriptorReuse -> a.PipeOpens) ∧
      machine.Always (RegistrySafe 3 0) (initial 3 0 fun _ => false)
        descriptorReuse ∧
      exists s, machine.run (initial 3 0 fun _ => false) descriptorReuse =
        .ok s ∧ s.deleted = [0] ∧
        s.batch = [{ fd := 5, events := EPOLLIN, conn := some 1 }] := by
  have hpipe : forall a, a ∈ descriptorReuse -> a.PipeOpens := by
    decide
  refine ⟨hpipe, registrySafe_of_pipes_open 3 0 _ hpipe, _, rfl, ?_⟩
  decide +kernel

/-!
## Ownership of descriptors
-/

/-- The descriptor was open and belonged to the connection that was torn
down. -/
def Close.Owned (c : Close) : Prop :=
  c.file = some (.socket c.conn) ∨ c.file = some (.pipeEnd c.conn)

/-- Every call of close was for a descriptor of its own connection, and no
descriptor of a connection stays open without its handler. -/
structure OwnDescriptors (s : IOLoop ptr) : Prop where
  closes : forall c, c ∈ s.closes -> Close.Owned c
  kept : forall fd conn,
    s.files fd = some (.socket conn) ∨ s.files fd = some (.pipeEnd conn) ->
      exists p client, s.objects p = .live (.spliceEcho client) ∧
        client.conn = conn

/-- If the action dispatches an event to a connection, the event is no hangup
and no error, and a connection that did not get its pipe is not torn down. -/
def TearsDownOwned (s : IOLoop ptr) : Action ptr -> Prop
  | .dispatch r =>
      s.Possible r -> forall e rest p client, s.batch = e :: rest ->
        s.handlers e.fd = some p -> s.objects p = .live (.spliceEcho client) ->
        ¬ e.events.HungUp ∧
          (client.pipeOpened = false ->
            ¬ client.TearsDown e.events r.out r.inp)
  | _ => True

omit [DecidableEq ptr] in
theorem Consistent.dispatchedTo (h : Consistent listen server s) {e : Event}
    {rest : List Event} {p : ptr} {client : Client}
    (hbatch : s.batch = e :: rest) (hhandler : s.handlers e.fd = some p)
    (hobject : s.objects p = .live (.spliceEcho client)) :
    DispatchedTo listen server s e rest p client := by
  rcases h.dispatched hbatch with ⟨hfd, _⟩ | ⟨p', client', hto⟩
  · rw [hfd, h.server_handler] at hhandler
    cases hhandler
    rw [h.server_object] at hobject
    cases hobject
  · have hsame := hto.handler
    rw [hhandler] at hsame
    cases hsame
    have hsame := hto.object
    rw [hobject] at hsame
    cases hsame
    exact hto

omit [DecidableEq ptr] in
theorem Consistent.kept (h : Consistent listen server s) (fd : Fd) (conn : Nat)
    (hfile : s.files fd = some (.socket conn) ∨
      s.files fd = some (.pipeEnd conn)) :
    exists p client, s.objects p = .live (.spliceEcho client) ∧
      client.conn = conn := by
  have hclient : exists p id, clientsOf s.objects p = some id ∧
      id.conn = conn := by
    rcases hfile with hfile | hfile
    · rcases h.socket_served fd conn hfile with ⟨p, id, _, hid, hconn⟩
      exact ⟨p, id, hid, hconn⟩
    · rcases h.pipe_served fd conn hfile with ⟨p, id, hid, hconn, _⟩
      exact ⟨p, id, hid, hconn⟩
  rcases hclient with ⟨p, id, hid, hconn⟩
  rcases clientsOf_eq_some hid with ⟨received, hobject⟩
  exact ⟨p, _, hobject, hconn⟩

section TearDown

variable {e : Event} {rest : List Event} {p : ptr} {client : Client}
  {middle : IOLoop ptr} {ctl : Bool}

theorem tornDown_owned (h : Consistent listen server s)
    (hto : DispatchedTo listen server s e rest p client)
    (hpipe : client.pipeOpened = true)
    (hquiet : Quiet listen server s middle)
    (hcloses : forall c, c ∈ middle.closes -> Close.Owned c) :
    forall c, c ∈ (tornDown e.fd ctl p client.toIdentity middle).closes ->
      Close.Owned c := by
  have hsocket := h.socket_open hto
  rcases h.pipe_apart hto hpipe with ⟨hfd0, hfd1⟩
  rcases h.pipe_open p client.toIdentity (by simp only [clientsOf, hto.object])
    hpipe with ⟨hpipe0, hpipe1, hdiff⟩
  rw [tornDown_closes, hquiet.files]
  intro c hc
  rcases List.mem_append.mp hc with hc | hc
  · exact hcloses c hc
  · rw [Function.update_of_ne hfd1, Function.update_of_ne hfd0,
      Function.update_of_ne (Ne.symm hdiff), hpipe0, hpipe1, hsocket] at hc
    simp only [List.mem_cons, List.not_mem_nil, or_false] at hc
    rcases hc with rfl | rfl | rfl
    · exact Or.inr rfl
    · exact Or.inr rfl
    · exact Or.inl rfl

omit [DecidableEq ptr] in
theorem Consistent.only_socket (h : Consistent listen server s)
    (hto : DispatchedTo listen server s e rest p client)
    (hpipe : client.pipeOpened = false) {x : Fd}
    (hfile : s.files x = some (.socket client.conn) ∨
      s.files x = some (.pipeEnd client.conn)) : x = e.fd := by
  have hclient : clientsOf s.objects p = some client.toIdentity := by
    simp only [clientsOf, hto.object]
  rcases hfile with hfile | hfile
  · rcases h.socket_served x client.conn hfile with ⟨q, id, hq, hid, hconn⟩
    have hqp : q = p :=
      h.conn_unique q p id client.toIdentity hid hclient hconn
    rw [hqp] at hq
    exact h.unique x e.fd p hq hto.handler
  · rcases h.pipe_served x client.conn hfile with ⟨q, id, hid, hconn, hopen, _⟩
    have hqp : q = p :=
      h.conn_unique q p id client.toIdentity hid hclient hconn
    rw [hqp, hclient] at hid
    cases hid
    rw [hpipe] at hopen
    cases hopen

/-- The destructor of a handler without a pipe closes something else. -/
theorem tornDown_not_owned (h : Consistent listen server s)
    (hto : DispatchedTo listen server s e rest p client)
    (hpipe : client.pipeOpened = false)
    (hquiet : Quiet listen server s middle) :
    ¬ forall c, c ∈ (tornDown e.fd ctl p client.toIdentity middle).closes ->
      Close.Owned c := by
  intro howned
  rw [tornDown_closes, hquiet.files] at howned
  have hfile0 := howned _ (List.mem_append_right _ List.mem_cons_self)
  have hfile1 := howned _ (List.mem_append_right _
    (List.mem_cons_of_mem _ List.mem_cons_self))
  have hfd0 : client.pipefd0 = e.fd := h.only_socket hto hpipe hfile0
  unfold Close.Owned at hfile1
  simp only [Function.update_apply] at hfile1
  by_cases hsame : client.pipefd1 = client.pipefd0
  · rw [if_pos hsame] at hfile1
    rcases hfile1 with hfile1 | hfile1 <;> cases hfile1
  · rw [if_neg hsame] at hfile1
    exact hsame ((h.only_socket hto hpipe hfile1).trans hfd0.symm)

theorem closed_again_not_owned {fd : Fd} {id : Identity} {conn : Nat} :
    ¬ forall c, c ∈ (close conn fd (tornDown fd ctl p id middle)).closes ->
      Close.Owned c := by
  intro howned
  rw [close_closes] at howned
  have hagain := howned _ (List.mem_append_right _ List.mem_cons_self)
  unfold Close.Owned at hagain
  rw [tornDown_files, if_pos (Or.inl rfl)] at hagain
  rcases hagain with hagain | hagain <;> cases hagain

end TearDown

theorem step_ownDescriptors {a : Action ptr} (h : Consistent listen server s)
    (hown : OwnDescriptors s) (ha : s.TearsDownOwned a) :
    exists next, step s a = .ok next ∧ Consistent listen server next ∧
      OwnDescriptors next := by
  rcases step_cases h a with ⟨next, hnext, ⟨r, rfl, hpossible, hout⟩ |
    ⟨hconsistent, _, hcloses, _⟩⟩
  · have hdown := ha hpossible
    have hconsistent : Consistent listen server next := by
      refine hout.consistent h ?_
      intro e rest p client hto htears
      by_contra hpipe
      exact (hdown e rest p client hto.batch hto.handler hto.object).2
        (eq_false_of_ne_true hpipe) htears
    refine ⟨next, hnext, hconsistent, ?_, hconsistent.kept⟩
    cases hout with
    | quiet _ hcloses _ =>
        rw [hcloses]
        exact hown.closes
    | added _ _ _ hcloses _ =>
        rw [hcloses]
        exact hown.closes
    | tornDown e rest p client middle hto htears hquiet _ hcloses hlast =>
        rcases hdown e rest p client hto.batch hto.handler hto.object with
          ⟨hhung, hpipe⟩
        have hopened : client.pipeOpened = true := by
          by_contra hfailed
          exact hpipe (eq_false_of_ne_true hfailed) htears
        rw [hlast, if_neg hhung]
        apply tornDown_owned h hto hopened hquiet
        rw [hcloses]
        exact hown.closes
  · refine ⟨next, hnext, hconsistent, ?_, hconsistent.kept⟩
    rw [hcloses]
    exact hown.closes

theorem tearsDownOwned_of_step {a : Action ptr} {next : IOLoop ptr}
    (h : Consistent listen server s) (hnext : step s a = .ok next)
    (hown : OwnDescriptors next) : s.TearsDownOwned a := by
  cases a with
  | wait ready => trivial
  | waitFailed => trivial
  | dispatch r =>
      intro hpossible e rest p client hbatch hhandler hobject
      have hto := h.dispatchedTo hbatch hhandler hobject
      have hout : Outcome listen server s r next := by
        rcases dispatch_outcome h hpossible with ⟨reached, hreached, hout⟩
        have hstep : step s (.dispatch r) = .ok reached :=
          (if_pos hpossible).trans hreached
        rw [hstep] at hnext
        cases hnext
        exact hout
      cases hout with
      | quiet _ _ hkept =>
          have hstays := hkept e rest p client hto
          exact ⟨fun hhung => hstays (Or.inl hhung), fun _ => hstays⟩
      | added _ _ _ _ hlisten => exact absurd (hlisten e rest hbatch) hto.fd
      | tornDown e' rest' p' client' middle hto' htears hquiet _ _ hlast =>
          rcases hto.unique hto' with ⟨rfl, rfl⟩
          have hhung : ¬ e.events.HungUp := by
            intro hhung
            rw [hlast, if_pos hhung] at hown
            exact closed_again_not_owned hown.closes
          refine ⟨hhung, ?_⟩
          intro hpipe _
          rw [hlast, if_neg hhung] at hown
          exact tornDown_not_owned h hto' hpipe hquiet hown.closes

/-- Every state of a run owns what it closes, exactly if every dispatch to a
connection tears down only what the connection owns. -/
theorem ownDescriptors_iff_tearsDownOwned (listen : Fd) (server : ptr)
    (others : Fd -> Bool) (acts : List (Action ptr)) :
    machine.Always OwnDescriptors (initial listen server others) acts <->
      machine.Along TearsDownOwned (initial listen server others) acts := by
  have hinit := consistent_initial listen server others
  refine Machine.always_iff_along (I := Consistent listen server) ?_ ?_ hinit
    ⟨?_, hinit.kept⟩
  · intro s a hs hown ha
    exact step_ownDescriptors hs hown ha
  · intro s a next hs _ hnext hown
    exact tearsDownOwned_of_step hs hnext hown
  · intro c hc
    cases hc

def hangup : List (Action Nat) :=
  [.wait [(3, EPOLLIN)],
    .dispatch (accepting 5 (.opened 6 7) 1),
    .wait [(5, EPOLLHUP)],
    .dispatch (accepting (-1) (.opened 6 7) 1)]

/-- The fourth call of close finds the socket closed by the third. -/
theorem closed_twice_after_hangup :
    ¬ machine.Always OwnDescriptors (initial 3 0 fun _ => false) hangup := by
  intro h
  have hrun : okWith (fun s : IOLoop Nat => decide
      ({ fd := 5, file := none, conn := 0 } ∈ s.closes))
      (machine.run (initial 3 0 fun _ => false) hangup) = true := by
    decide +kernel
  rcases exists_of_okWith hrun with ⟨s, hs, hclose⟩
  have howned := (h.last hs).closes _ (of_decide_eq_true hclose)
  rcases howned with howned | howned <;> cases howned

end IOLoop
end EpollHandler
end NetExperiment
