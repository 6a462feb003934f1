import NetExperiment.Tcp.EpollHandler.Registry

/-!
# What a dispatch does

One dispatch leaves the registry as it is, adds a connection or tears one down.
The three outcomes are read off the functions once; the results about runs use
only the outcomes.
-/

namespace NetExperiment
namespace EpollHandler

open Foundation

/-- The call ends with the removal of the handler. -/
def Client.TearsDown (client : Client) (events : Events) (out inp : Int) :
    Prop :=
  events.HungUp ∨
    (events.Readable ∧
      toInt32 (SpliceEchoHandler.afterOutput client.received events out + inp)
        ≤ 0)

def Pipe.identity (conn : Nat) : Pipe -> Identity
  | .opened pipefd0 pipefd1 =>
      { pipefd0 := pipefd0
        pipefd1 := pipefd1
        conn := conn
        pipeOpened := true }
  | .failed pipefd0 pipefd1 =>
      { pipefd0 := pipefd0
        pipefd1 := pipefd1
        conn := conn
        pipeOpened := false }

namespace IOLoop

variable {ptr : Type} [DecidableEq ptr]

/-!
## Removing a handler
-/

section Close

variable (conn : Nat) (x : Fd) (s : IOLoop ptr)

omit [DecidableEq ptr] in
@[simp] theorem close_handlers : (close conn x s).handlers = s.handlers := by
  cases hx : s.files x <;> simp [close, hx]

omit [DecidableEq ptr] in
@[simp] theorem close_objects : (close conn x s).objects = s.objects := by
  cases hx : s.files x <;> simp [close, hx]

omit [DecidableEq ptr] in
@[simp] theorem close_batch : (close conn x s).batch = s.batch := by
  cases hx : s.files x <;> simp [close, hx]

omit [DecidableEq ptr] in
@[simp] theorem close_nextConn : (close conn x s).nextConn = s.nextConn := by
  cases hx : s.files x <;> simp [close, hx]

omit [DecidableEq ptr] in
@[simp] theorem close_deleted : (close conn x s).deleted = s.deleted := by
  cases hx : s.files x <;> simp [close, hx]

omit [DecidableEq ptr] in
@[simp] theorem close_closes :
    (close conn x s).closes =
      s.closes ++ [{ fd := x, file := s.files x, conn := conn }] := by
  cases hx : s.files x <;> simp [close, hx]

omit [DecidableEq ptr] in
@[simp] theorem close_files :
    (close conn x s).files = Function.update s.files x none := by
  cases hx : s.files x with
  | none =>
      simp only [close, hx]
      exact (Function.update_eq_self_iff.mpr hx.symm).symm
  | some f => simp only [close, hx]

omit [DecidableEq ptr] in
theorem close_epoll :
    (close conn x s).epoll =
      if s.files x = none then s.epoll else Function.update s.epoll x none := by
  cases hx : s.files x <;> simp [close, hx]

variable {conn x s}

omit [DecidableEq ptr] in
theorem epoll_of_close_epoll {y : Fd} {reg : Registration}
    (h : (close conn x s).epoll y = some reg) : s.epoll y = some reg := by
  rw [close_epoll] at h
  split at h
  · exact h
  · by_cases hy : y = x
    · rw [hy, Function.update_self] at h
      cases h
    · rw [Function.update_of_ne hy] at h
      exact h

omit [DecidableEq ptr] in
theorem ne_of_close_epoll {y : Fd} {reg : Registration}
    (hopen : s.files x ≠ none)
    (h : (close conn x s).epoll y = some reg) : y ≠ x := by
  intro hy
  rw [close_epoll, if_neg hopen, hy, Function.update_self] at h
  cases h

end Close

def tornDown (fd : Fd) (ctl : Bool) (p : ptr) (id : Identity)
    (s : IOLoop ptr) : IOLoop ptr :=
  let s : IOLoop ptr := { s with
    handlers := Function.update s.handlers fd none
    objects := Function.update s.objects p .freed
    deleted := s.deleted ++ [id.conn] }
  let s := close id.conn id.pipefd1 (close id.conn id.pipefd0 s)
  close id.conn fd
    (if ctl = true then { s with epoll := Function.update s.epoll fd none }
    else s)

theorem removeHandler_eq {fd : Fd} {p : ptr} {id : Identity}
    {s : IOLoop ptr} (ctl : Bool) (hhandler : s.handlers fd = some p)
    (hclient : clientsOf s.objects p = some id) :
    removeHandler id.conn fd ctl s = .ok (tornDown fd ctl p id s) := by
  rcases clientsOf_eq_some hclient with ⟨received, hobject⟩
  unfold removeHandler
  simp only [hhandler, deleteHandler, Heap.free_live _ hobject,
    Heap.read_live _ hobject, ok_bind, pure_eq_ok]
  rfl

section TornDown

variable {fd : Fd} {ctl : Bool} {p : ptr} {id : Identity} {s : IOLoop ptr}

theorem tornDown_closes :
    (tornDown fd ctl p id s).closes =
      s.closes ++
        [{ fd := id.pipefd0
           file := s.files id.pipefd0
           conn := id.conn },
          { fd := id.pipefd1
            file := Function.update s.files id.pipefd0 none id.pipefd1
            conn := id.conn },
          { fd := fd
            file := Function.update
              (Function.update s.files id.pipefd0 none) id.pipefd1 none fd
            conn := id.conn }] := by
  unfold tornDown
  cases ctl <;> simp

theorem tornDown_files (x : Fd) :
    (tornDown fd ctl p id s).files x =
      if x = fd ∨ x = id.pipefd0 ∨ x = id.pipefd1 then none
      else s.files x := by
  unfold tornDown
  cases ctl <;> simp [Function.update_apply] <;> grind

theorem tornDown_clients :
    clientsOf (tornDown fd ctl p id s).objects =
      Function.update (clientsOf s.objects) p none := by
  unfold tornDown
  cases ctl <;> simp [clientsOf_update_freed]

/-- A registered file that is closed leaves the epoll set even if the call that
deletes the registration fails. -/
theorem tornDown_epoll {x : Fd} {reg : Registration}
    (hopen : s.files fd ≠ none) (hpipe0 : fd ≠ id.pipefd0)
    (hpipe1 : fd ≠ id.pipefd1)
    (h : (tornDown fd ctl p id s).epoll x = some reg) :
    x ≠ fd ∧ s.epoll x = some reg := by
  unfold tornDown at h
  have hne : x ≠ fd := by
    refine ne_of_close_epoll ?_ h
    cases ctl <;> simpa [Function.update_of_ne, hpipe0, hpipe1] using hopen
  refine ⟨hne, ?_⟩
  have hclosed := epoll_of_close_epoll h
  cases ctl with
  | false =>
      rw [if_neg Bool.false_ne_true] at hclosed
      have hold := epoll_of_close_epoll (epoll_of_close_epoll hclosed)
      exact hold
  | true =>
      simp only [if_true, Function.update_of_ne hne] at hclosed
      have hold := epoll_of_close_epoll (epoll_of_close_epoll hclosed)
      exact hold

theorem tornDown_removed {server : ptr}
    (hopen : s.files fd ≠ none) (hpipe0 : fd ≠ id.pipefd0)
    (hpipe1 : fd ≠ id.pipefd1) :
    Removed server fd p id s
      (tornDown fd ctl p id s) := by
  constructor
  case epoll =>
    intro x reg hreg
    exact tornDown_epoll hopen hpipe0 hpipe1 hreg
  case files => exact tornDown_files
  case clients => exact tornDown_clients
  case server_object =>
    intro hserver
    unfold tornDown
    cases ctl <;> simp [hserver]
  all_goals
    unfold tornDown
    cases ctl <;> simp

end TornDown

/-!
## Changes that leave the registry alone
-/

section Quiet

variable {listen : Fd} {server : ptr}

omit [DecidableEq ptr] in
theorem Quiet.refl (listen : Fd) (server : ptr) (s : IOLoop ptr) :
    Quiet listen server s s where
  handlers := rfl
  clients := rfl
  server_object := rfl
  files := rfl
  nextConn := rfl
  epoll := fun _ reg hreg => Or.inr ⟨reg, hreg, rfl⟩
  batch := List.Sublist.refl _
  deleted := rfl

omit [DecidableEq ptr] in
theorem Quiet.trans {s t u : IOLoop ptr} (hst : Quiet listen server s t)
    (htu : Quiet listen server t u) : Quiet listen server s u where
  handlers := htu.handlers.trans hst.handlers
  clients := htu.clients.trans hst.clients
  server_object := htu.server_object.trans hst.server_object
  files := htu.files.trans hst.files
  nextConn := htu.nextConn.trans hst.nextConn
  epoll := by
    intro fd reg hreg
    rcases htu.epoll fd reg hreg with hlisten | ⟨mid, hmid, hconn⟩
    · exact Or.inl hlisten
    · rw [hconn]
      exact hst.epoll fd mid hmid
  batch := htu.batch.trans hst.batch
  deleted := htu.deleted.trans hst.deleted

omit [DecidableEq ptr] in
theorem modifyHandler_quiet (fd : Fd) (events : Events) (ctl : Bool)
    (s : IOLoop ptr) :
    Quiet listen server s (modifyHandler fd events ctl s) := by
  refine { Quiet.refl listen server s with epoll := ?_ }
  intro x reg hreg
  unfold modifyHandler at hreg
  cases ctl with
  | false => exact Or.inr ⟨reg, hreg, rfl⟩
  | true =>
      simp only [if_true, Function.update_apply] at hreg
      split at hreg
      · rename_i hx
        rcases Option.map_eq_some_iff.mp hreg with ⟨old, hold, hnew⟩
        rw [hx]
        exact Or.inr ⟨old, hold, by rw [← hnew]⟩
      · exact Or.inr ⟨reg, hreg, rfl⟩

omit [DecidableEq ptr] in
theorem addHandler_listen_quiet {s : IOLoop ptr} (ctl : Bool)
    (h : s.handlers listen = some server) :
    Quiet listen server s (addHandler listen server EPOLLIN none ctl s) := by
  refine { Quiet.refl listen server s with handlers := ?_, epoll := ?_ }
  · exact Function.update_eq_self_iff.mpr h.symm
  · intro x reg hreg
    unfold addHandler at hreg
    simp only at hreg
    split at hreg
    · rw [Function.update_apply] at hreg
      grind
    · exact Or.inr ⟨reg, hreg, rfl⟩

def setReceived (p : ptr) (client : Client) (received : Int)
    (s : IOLoop ptr) : IOLoop ptr :=
  { s with
    objects := Function.update s.objects p
      (.live (.spliceEcho { client with received := received })) }

theorem setReceived_quiet {s : IOLoop ptr} {p : ptr} {client : Client}
    (received : Int) (hobject : s.objects p = .live (.spliceEcho client))
    (hserver : server ≠ p) :
    Quiet listen server s (setReceived p client received s) := by
  refine { Quiet.refl listen server s with clients := ?_, server_object := ?_ }
  · unfold setReceived
    rw [clientsOf_update_client]
    apply Function.update_eq_self_iff.mpr
    simp [clientsOf, hobject]
  · exact Function.update_of_ne hserver _ _

omit [DecidableEq ptr] in
theorem close_quiet {s : IOLoop ptr} {conn : Nat} {fd : Fd}
    (hclosed : s.files fd = none) :
    Quiet listen server s (close conn fd s) := by
  have hclose : close conn fd s =
      { s with
        closes := s.closes ++ [{ fd := fd, file := none, conn := conn }] } := by
    simp only [close, hclosed]
  rw [hclose]
  exact { Quiet.refl listen server s with }

end Quiet

/-!
## The accepting handler
-/

section Server

variable {listen : Fd} {server : ptr} {s : IOLoop ptr} {r : Results ptr}

theorem serverHandle_quiet (h : Consistent listen server s)
    (haccept : r.accept < 0) :
    Quiet listen server s (serverHandle server listen r s) := by
  unfold serverHandle
  rw [if_pos haccept]
  exact addHandler_listen_quiet r.ctlAddListener h.server_handler

theorem serverHandle_closes (this : ptr) (fd : Fd) :
    (serverHandle this fd r s).closes = s.closes := by
  unfold serverHandle
  by_cases haccept : r.accept < 0
  · rw [if_pos haccept]
    rfl
  · rw [if_neg haccept]
    cases r.pipe <;> rfl

theorem serverHandle_added (h : Consistent listen server s)
    (hpossible : s.Possible r) (haccept : ¬ r.accept < 0) :
    Added listen server r.accept r.handler (Pipe.identity s.nextConn r.pipe) s
      (serverHandle server listen r s) := by
  rcases hpossible with hneg | ⟨hclosed, hfree, hpipe⟩
  · exact absurd hneg haccept
  have hlisten : r.accept ≠ listen := by
    intro hlisten
    rw [hlisten, h.server_file] at hclosed
    cases hclosed
  have hsame : Function.update s.handlers listen (some server) = s.handlers :=
    Function.update_eq_self_iff.mpr h.server_handler.symm
  unfold serverHandle
  rw [if_neg haccept]
  constructor
  case closed => exact hclosed
  case free => exact hfree
  case fresh => cases r.pipe <;> rfl
  case handlers => cases r.pipe <;> simp [openPipe, addHandler, hsame]
  case clients => cases r.pipe <;> exact clientsOf_update_client _ _ _
  case server_object =>
    intro hserver
    cases r.pipe <;> exact Function.update_of_ne hserver _ _
  case nextConn => cases r.pipe <;> rfl
  case batch => cases r.pipe <;> rfl
  case deleted => cases r.pipe <;> rfl
  case epoll =>
    cases r.pipe <;> simp only [openPipe, addHandler, Pipe.identity] <;> grind
  -- the files, with the pipe and without it
  all_goals
    cases hresult : r.pipe with
    | opened pipefd0 pipefd1 =>
        rw [hresult] at hpipe
        rcases hpipe with ⟨hpipe0, hpipe1, hdiff, hfd0, hfd1⟩
        simp only [openPipe, addHandler, Function.update_apply, Pipe.identity]
        grind
    | failed pipefd0 pipefd1 =>
        simp only [openPipe, addHandler, Function.update_apply, Pipe.identity]
        grind

end Server

/-!
## The handler of a connection
-/

section ClientHandle

variable {listen : Fd} {server p : ptr} {s : IOLoop ptr} {client : Client}
  {fd : Fd} {events : Events} {r : Results ptr}

def outputDone (p : ptr) (client : Client) (received : Int) (fd : Fd)
    (events : Events) (r : Results ptr) (s : IOLoop ptr) : IOLoop ptr :=
  if events.Writable then
    modifyHandler fd SpliceEchoHandler.readInterest
      (r.ctlMod SpliceEchoHandler.readInterest)
      (setReceived p client received s)
  else setReceived p client received s

theorem outputDone_quiet (received : Int)
    (hobject : s.objects p = .live (.spliceEcho client))
    (hserver : server ≠ p) :
    Quiet listen server s (outputDone p client received fd events r s) := by
  have hset : Quiet listen server s (setReceived p client received s) :=
    setReceived_quiet received hobject hserver
  unfold outputDone
  split
  · exact hset.trans (modifyHandler_quiet fd _ (r.ctlMod _) _)
  · exact hset

theorem outputDone_batch (received : Int) :
    (outputDone p client received fd events r s).batch = s.batch := by
  unfold outputDone
  split <;> rfl

theorem outputDone_closes (received : Int) :
    (outputDone p client received fd events r s).closes = s.closes := by
  unfold outputDone
  split <;> rfl

theorem clientHandle_eq (h : ¬ events.HungUp) :
    clientHandle p client fd events r s =
      (if events.Readable then
        let received := toInt32
          (SpliceEchoHandler.afterOutput client.received events r.out + r.inp)
        let s := outputDone p client received fd events r s
        if received ≤ 0 then removeHandler client.conn fd r.ctlDel s
        else
          .ok (modifyHandler fd SpliceEchoHandler.writeInterest
            (r.ctlMod SpliceEchoHandler.writeInterest) s)
      else
        .ok (outputDone p client
          (SpliceEchoHandler.afterOutput client.received events r.out) fd events
          r s)) := by
  unfold clientHandle
  rw [SpliceEchoHandler.handle_eq client.received r.out r.inp h]
  unfold outputDone
  by_cases hread : events.Readable
  · by_cases hwrite : events.Writable
    · simp only [if_pos hread, if_pos hwrite]
      split
      · simp [-pure_eq_ok, perform, setReceived]
      · simp [perform, setReceived]
    · simp only [if_pos hread, if_neg hwrite]
      split
      · simp [-pure_eq_ok, perform, setReceived]
      · simp [perform, setReceived]
  · by_cases hwrite : events.Writable
    · simp [hread, hwrite, perform, setReceived]
    · simp [hread, hwrite, setReceived]

theorem clientHandle_hungUp (h : events.HungUp) :
    clientHandle p client fd events r s = do
      let s <- removeHandler client.conn fd r.ctlDel
        (setReceived p client client.received s)
      return close client.conn fd s := by
  unfold clientHandle
  rw [SpliceEchoHandler.handle_hungUp client.received r.out r.inp h]
  rfl

theorem clientHandle_quiet
    (hobject : s.objects p = .live (.spliceEcho client))
    (hserver : server ≠ p) (h : ¬ client.TearsDown events r.out r.inp) :
    exists s', clientHandle p client fd events r s = .ok s' ∧
      Quiet listen server s s' ∧ s'.closes = s.closes := by
  rcases not_or.mp h with ⟨hhung, hcounter⟩
  rw [clientHandle_eq hhung]
  by_cases hread : events.Readable
  · have hpositive : ¬ toInt32
        (SpliceEchoHandler.afterOutput client.received events r.out + r.inp)
          ≤ 0 := fun hle => hcounter ⟨hread, hle⟩
    rw [if_pos hread]
    simp only [if_neg hpositive]
    refine ⟨_, rfl, ?_, ?_⟩
    · exact (outputDone_quiet _ hobject hserver).trans
        (modifyHandler_quiet fd _ (r.ctlMod _) _)
    · exact outputDone_closes _
  · rw [if_neg hread]
    exact ⟨_, rfl, outputDone_quiet _ hobject hserver, outputDone_closes _⟩

/-- A call that tears the connection down removes the handler; after a hangup
it closes the descriptor once more. -/
theorem clientHandle_tearsDown
    (hhandler : s.handlers fd = some p)
    (hobject : s.objects p = .live (.spliceEcho client))
    (hserver : server ≠ p) (h : client.TearsDown events r.out r.inp) :
    exists middle, Quiet listen server s middle ∧ middle.batch = s.batch ∧
      middle.closes = s.closes ∧
      clientHandle p client fd events r s =
        .ok (if events.HungUp then
          close client.conn fd
            (tornDown fd r.ctlDel p client.toIdentity middle)
        else tornDown fd r.ctlDel p client.toIdentity middle) := by
  have hclient : clientsOf s.objects p = some client.toIdentity := by
    simp only [clientsOf, hobject]
  by_cases hhung : events.HungUp
  · have hquiet : Quiet listen server s
        (setReceived p client client.received s) :=
      setReceived_quiet _ hobject hserver
    refine ⟨_, hquiet, rfl, rfl, ?_⟩
    rw [clientHandle_hungUp hhung, if_pos hhung,
      removeHandler_eq r.ctlDel ((congrFun hquiet.handlers fd).trans hhandler)
        ((congrFun hquiet.clients p).trans hclient)]
    rfl
  · rcases h with h | ⟨hread, hcounter⟩
    · exact absurd h hhung
    have hquiet : Quiet listen server s
        (outputDone p client
          (toInt32 (SpliceEchoHandler.afterOutput client.received events r.out
            + r.inp)) fd events r s) :=
      outputDone_quiet _ hobject hserver
    refine ⟨_, hquiet, outputDone_batch _, outputDone_closes _, ?_⟩
    rw [clientHandle_eq hhung, if_pos hread, if_neg hhung]
    simp only [if_pos hcounter]
    exact removeHandler_eq r.ctlDel
      ((congrFun hquiet.handlers fd).trans hhandler)
      ((congrFun hquiet.clients p).trans hclient)

end ClientHandle

/-!
## The outcomes of a dispatch
-/

structure DispatchedTo (listen : Fd) (server : ptr) (s : IOLoop ptr) (e : Event)
    (rest : List Event) (p : ptr) (client : Client) : Prop where
  batch : s.batch = e :: rest
  fd : e.fd ≠ listen
  handler : s.handlers e.fd = some p
  object : s.objects p = .live (.spliceEcho client)
  conn : e.conn = some client.conn
  ptr : server ≠ p

omit [DecidableEq ptr] in
theorem DispatchedTo.unique {listen : Fd} {server : ptr} {s : IOLoop ptr}
    {e e' : Event} {rest rest' : List Event} {p p' : ptr}
    {client client' : Client}
    (h : DispatchedTo listen server s e rest p client)
    (h' : DispatchedTo listen server s e' rest' p' client') :
    e = e' ∧ client = client' := by
  have hbatch := h'.batch
  rw [h.batch] at hbatch
  cases hbatch
  have hhandler := h'.handler
  rw [h.handler] at hhandler
  cases hhandler
  have hobject := h'.object
  rw [h.object] at hobject
  cases hobject
  exact ⟨rfl, rfl⟩

inductive Outcome (listen : Fd) (server : ptr) (s : IOLoop ptr)
    (r : Results ptr) (s' : IOLoop ptr) : Prop where
  | quiet (hquiet : Quiet listen server s s') (hcloses : s'.closes = s.closes)
      (hkept : forall e rest p client,
        DispatchedTo listen server s e rest p client ->
          ¬ client.TearsDown e.events r.out r.inp)
  | added (popped : IOLoop ptr) (hquiet : Quiet listen server s popped)
      (hadded : Added listen server r.accept r.handler
        (Pipe.identity s.nextConn r.pipe) popped s')
      (hcloses : s'.closes = s.closes)
      (hlisten : forall e rest, s.batch = e :: rest -> e.fd = listen)
  | tornDown (e : Event) (rest : List Event) (p : ptr) (client : Client)
      (middle : IOLoop ptr) (hto : DispatchedTo listen server s e rest p client)
      (htears : client.TearsDown e.events r.out r.inp)
      (hquiet : Quiet listen server s middle) (hbatch : middle.batch = rest)
      (hcloses : middle.closes = s.closes)
      (hlast : s' =
        if e.events.HungUp then
          close client.conn e.fd
            (IOLoop.tornDown e.fd r.ctlDel p client.toIdentity middle)
        else IOLoop.tornDown e.fd r.ctlDel p client.toIdentity middle)

section Dispatch

variable {listen : Fd} {server : ptr} {s : IOLoop ptr} {r : Results ptr}
  {e : Event} {rest : List Event}

omit [DecidableEq ptr] in
theorem Consistent.dispatched (h : Consistent listen server s)
    (hbatch : s.batch = e :: rest) :
    (e.fd = listen ∧ e.conn = none) ∨
      exists p client, DispatchedTo listen server s e rest p client := by
  have hmem : e ∈ s.batch := by
    rw [hbatch]
    exact List.mem_cons_self
  rcases h.pending e hmem with hlisten | ⟨p, id, hhandler, hclient, hconn⟩
  · exact Or.inl hlisten
  · rcases clientsOf_eq_some hclient with ⟨received, hobject⟩
    have hserver : server ≠ p := by
      intro hserver
      rw [← hserver, h.server_object] at hobject
      cases hobject
    have hfd : e.fd ≠ listen := by
      intro hfd
      rw [hfd, h.server_handler] at hhandler
      cases hhandler
      exact hserver rfl
    exact Or.inr ⟨p, _, hbatch, hfd, hhandler, hobject, hconn, hserver⟩

omit [DecidableEq ptr] in
theorem pop_quiet (hbatch : s.batch = e :: rest) :
    Quiet listen server s { s with batch := rest } := by
  refine { Quiet.refl listen server s with batch := ?_ }
  rw [hbatch]
  exact List.sublist_cons_self e rest

theorem dispatch_listen (h : Consistent listen server s)
    (hbatch : s.batch = e :: rest) (hlisten : e.fd = listen) :
    dispatch r s =
      .ok (serverHandle server listen r { s with batch := rest }) := by
  unfold dispatch
  simp only [hbatch, hlisten, h.server_handler,
    Heap.read_live _ h.server_object, ok_bind, pure_eq_ok]

theorem dispatch_client {p : ptr} {client : Client}
    (hto : DispatchedTo listen server s e rest p client) :
    dispatch r s =
      clientHandle p client e.fd e.events r { s with batch := rest } := by
  unfold dispatch
  simp only [hto.batch, hto.handler, Heap.read_live _ hto.object, ok_bind]

theorem dispatch_outcome (h : Consistent listen server s)
    (hpossible : s.Possible r) :
    exists s', dispatch r s = .ok s' ∧ Outcome listen server s r s' := by
  cases hbatch : s.batch with
  | nil =>
      refine ⟨s, ?_, .quiet (Quiet.refl listen server s) rfl ?_⟩
      · simp only [dispatch, hbatch]
      · intro e rest p client hto
        have hcons := hto.batch
        rw [hbatch] at hcons
        cases hcons
  | cons e rest =>
      have hpop : Quiet listen server s { s with batch := rest } :=
        pop_quiet hbatch
      have hpopped := hpop.consistent h
      rcases h.dispatched hbatch with ⟨hlisten, _⟩ | ⟨p, client, hto⟩
      · refine ⟨_, dispatch_listen h hbatch hlisten, ?_⟩
        by_cases haccept : r.accept < 0
        · refine .quiet (hpop.trans (serverHandle_quiet hpopped haccept))
            (serverHandle_closes server listen) ?_
          intro e' rest' p client hto
          have hcons := hto.batch
          rw [hbatch] at hcons
          cases hcons
          exact absurd hlisten hto.fd
        · refine .added _ hpop
            (serverHandle_added hpopped hpossible haccept)
            (serverHandle_closes server listen) ?_
          intro e' rest' hcons
          rw [hbatch] at hcons
          cases hcons
          exact hlisten
      · by_cases htears : client.TearsDown e.events r.out r.inp
        · rcases clientHandle_tearsDown (s := { s with batch := rest })
            hto.handler hto.object hto.ptr htears with
            ⟨middle, hquiet, hmiddle, hcloses, hhandle⟩
          refine ⟨_, (dispatch_client hto).trans hhandle, ?_⟩
          exact .tornDown e rest p client middle hto htears (hpop.trans hquiet)
            hmiddle hcloses rfl
        · rcases clientHandle_quiet (s := { s with batch := rest })
            hto.object hto.ptr htears with ⟨s', hhandle, hquiet, hcloses⟩
          refine ⟨s', (dispatch_client hto).trans hhandle, ?_⟩
          refine .quiet (hpop.trans hquiet) hcloses ?_
          intro e' rest' p' client' hto'
          rcases hto.unique hto' with ⟨rfl, rfl⟩
          exact htears

omit [DecidableEq ptr] in
theorem Consistent.socket_open {p : ptr} {client : Client}
    (h : Consistent listen server s)
    (hto : DispatchedTo listen server s e rest p client) :
    s.files e.fd = some (.socket client.conn) := by
  rcases h.served e.fd p hto.handler hto.fd with ⟨id, hid, hfile⟩
  simp only [clientsOf, hto.object, Option.some.injEq] at hid
  rw [← hid] at hfile
  exact hfile

omit [DecidableEq ptr] in
theorem Consistent.pipe_apart {p : ptr} {client : Client}
    (h : Consistent listen server s)
    (hto : DispatchedTo listen server s e rest p client)
    (hpipe : client.pipeOpened = true) :
    e.fd ≠ client.pipefd0 ∧ e.fd ≠ client.pipefd1 := by
  have hsocket := h.socket_open hto
  rcases h.pipe_open p client.toIdentity (by simp only [clientsOf, hto.object])
    hpipe with ⟨hpipe0, hpipe1, _⟩
  constructor
  · intro hfd
    rw [hfd, hpipe0] at hsocket
    cases hsocket
  · intro hfd
    rw [hfd, hpipe1] at hsocket
    cases hsocket

/-- The registry stays consistent unless a connection is torn down that did not
get its pipe. -/
theorem Outcome.consistent {s' : IOLoop ptr}
    (hout : Outcome listen server s r s') (h : Consistent listen server s)
    (hpipe : forall e rest p client,
      DispatchedTo listen server s e rest p client ->
        client.TearsDown e.events r.out r.inp -> client.pipeOpened = true) :
    Consistent listen server s' := by
  cases hout with
  | quiet hquiet _ _ => exact hquiet.consistent h
  | added popped hquiet hadded _ _ =>
      exact hadded.consistent (hquiet.consistent h)
  | tornDown e rest p client middle hto htears hquiet hbatch _ hlast =>
      have hopened := hpipe e rest p client hto htears
      have hsocket := h.socket_open hto
      rcases h.pipe_apart hto hopened with ⟨hpipe0, hpipe1⟩
      have hremoved : Removed server e.fd p client.toIdentity middle
          (IOLoop.tornDown e.fd r.ctlDel p client.toIdentity middle) := by
        apply tornDown_removed ?_ hpipe0 hpipe1
        rw [hquiet.files, hsocket]
        exact Option.some_ne_none _
      have hdown : Consistent listen server
          (IOLoop.tornDown e.fd r.ctlDel p client.toIdentity middle) := by
        refine hremoved.consistent (hquiet.consistent h) hto.fd ?_ ?_ hopened ?_
        · rw [hquiet.handlers]
          exact hto.handler
        · rw [hquiet.clients]
          simp only [clientsOf, hto.object]
        · -- every descriptor has at most one event in a batch
          intro e' he' hfd
          have hdistinct := h.distinct
          rw [hto.batch, List.map_cons, List.nodup_cons] at hdistinct
          rw [hbatch] at he'
          apply hdistinct.1
          rw [← hfd]
          exact List.mem_map_of_mem he'
      rw [hlast]
      split
      · refine (close_quiet ?_).consistent hdown
        rw [hremoved.files, if_pos (Or.inl rfl)]
      · exact hdown

end Dispatch

end IOLoop
end EpollHandler
end NetExperiment
