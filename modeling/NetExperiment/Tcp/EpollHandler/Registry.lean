import NetExperiment.Tcp.EpollHandler.IOLoop
import Mathlib.Data.List.Nodup

/-!
# The registry of the epoll loop

The handler map, the handlers in memory, the open descriptors, the epoll set and
the rest of the batch agree with each other in every state of a run, as long as
no connection is torn down that did not get its pipe.
-/

namespace NetExperiment
namespace EpollHandler
namespace IOLoop

open Foundation

variable {ptr : Type} [DecidableEq ptr]

def clientsOf (H : Heap ptr Handler) (p : ptr) : Option Identity :=
  match H p with
  | .live (.spliceEcho client) => some client.toIdentity
  | _ => none

omit [DecidableEq ptr] in
theorem clientsOf_eq_some {H : Heap ptr Handler} {p : ptr} {id : Identity}
    (h : clientsOf H p = some id) :
    exists received,
      H p = .live (.spliceEcho { id with received := received }) := by
  unfold clientsOf at h
  split at h
  · rename_i client hclient
    cases h
    exact ⟨client.received, hclient⟩
  · cases h

omit [DecidableEq ptr] in
theorem clientsOf_of_not_live {H : Heap ptr Handler} {p : ptr}
    (h : ¬ (H p).IsLive) : clientsOf H p = none := by
  cases hp : clientsOf H p with
  | none => rfl
  | some id =>
      rcases clientsOf_eq_some hp with ⟨received, hobject⟩
      exact absurd ⟨_, hobject⟩ h

theorem clientsOf_update_client (H : Heap ptr Handler) (p : ptr)
    (client : Client) :
    clientsOf (Function.update H p (.live (.spliceEcho client))) =
      Function.update (clientsOf H) p (some client.toIdentity) := by
  funext q
  by_cases hq : q = p
  · rw [hq]
    simp [clientsOf]
  · simp [clientsOf, hq]

theorem clientsOf_update_freed (H : Heap ptr Handler) (p : ptr) :
    clientsOf (Function.update H p .freed) =
      Function.update (clientsOf H) p none := by
  funext q
  by_cases hq : q = p
  · rw [hq]
    simp [clientsOf]
  · simp [clientsOf, hq]

def HandlerFor (listen : Fd) (s : IOLoop ptr) (fd : Fd) (conn : Option Nat) :
    Prop :=
  (fd = listen ∧ conn = none) ∨
    exists p id, s.handlers fd = some p ∧ clientsOf s.objects p = some id ∧
      conn = some id.conn

structure Consistent (listen : Fd) (server : ptr) (s : IOLoop ptr) : Prop where
  server_handler : s.handlers listen = some server
  server_object : s.objects server = .live .server
  server_file : s.files listen = some .listening
  served : forall fd p, s.handlers fd = some p -> fd ≠ listen ->
    exists id, clientsOf s.objects p = some id ∧
      s.files fd = some (.socket id.conn)
  serving : forall p id, clientsOf s.objects p = some id ->
    exists fd, s.handlers fd = some p
  unique : forall fd fd' p, s.handlers fd = some p -> s.handlers fd' = some p ->
    fd = fd'
  conn_unique : forall p p' id id', clientsOf s.objects p = some id ->
    clientsOf s.objects p' = some id' -> id.conn = id'.conn -> p = p'
  conn_old : forall p id, clientsOf s.objects p = some id ->
    id.conn < s.nextConn
  socket_served : forall fd conn, s.files fd = some (.socket conn) ->
    exists p id, s.handlers fd = some p ∧ clientsOf s.objects p = some id ∧
      id.conn = conn
  pipe_open : forall p id, clientsOf s.objects p = some id ->
    id.pipeOpened = true ->
    s.files id.pipefd0 = some (.pipeEnd id.conn) ∧
      s.files id.pipefd1 = some (.pipeEnd id.conn) ∧ id.pipefd0 ≠ id.pipefd1
  pipe_served : forall fd conn, s.files fd = some (.pipeEnd conn) ->
    exists p id, clientsOf s.objects p = some id ∧ id.conn = conn ∧
      id.pipeOpened = true ∧ (fd = id.pipefd0 ∨ fd = id.pipefd1)
  registered : forall fd reg, s.epoll fd = some reg ->
    HandlerFor listen s fd reg.conn
  pending : forall e, e ∈ s.batch -> HandlerFor listen s e.fd e.conn
  distinct : (s.batch.map Event.fd).Nodup
  deleted_old : forall conn, conn ∈ s.deleted -> conn < s.nextConn
  deleted_gone : forall p id, clientsOf s.objects p = some id ->
    id.conn ∉ s.deleted
  deleted_once : s.deleted.Nodup

theorem consistent_initial (listen : Fd) (server : ptr) (others : Fd -> Bool) :
    Consistent listen server (initial listen server others) := by
  constructor
  all_goals
    simp only [initial, Function.update_apply, HandlerFor, Heap.empty,
      clientsOf]
  all_goals grind

/-!
## What a dispatch changes

A dispatch leaves the registry as it is, adds one connection or removes one.
-/

/-- Nothing changes but counters, interest masks and the batch.  The listening
socket may be registered again. -/
structure Quiet (listen : Fd) (server : ptr) (s s' : IOLoop ptr) : Prop where
  handlers : s'.handlers = s.handlers
  clients : clientsOf s'.objects = clientsOf s.objects
  server_object : s'.objects server = s.objects server
  files : s'.files = s.files
  nextConn : s'.nextConn = s.nextConn
  epoll : forall fd reg, s'.epoll fd = some reg ->
    (fd = listen ∧ reg.conn = none) ∨
      exists old, s.epoll fd = some old ∧ reg.conn = old.conn
  batch : s'.batch.Sublist s.batch
  deleted : s'.deleted = s.deleted

structure Added (listen : Fd) (server : ptr) (fd : Fd) (p : ptr) (id : Identity)
    (s s' : IOLoop ptr) : Prop where
  closed : s.files fd = none
  free : ¬ (s.objects p).IsLive
  fresh : id.conn = s.nextConn
  handlers : s'.handlers = Function.update s.handlers fd (some p)
  clients : clientsOf s'.objects =
    Function.update (clientsOf s.objects) p (some id)
  server_object : server ≠ p -> s'.objects server = s.objects server
  kept : forall x f, s.files x = some f -> s'.files x = some f
  socket : s'.files fd = some (.socket id.conn)
  pipe : id.pipeOpened = true ->
    s'.files id.pipefd0 = some (.pipeEnd id.conn) ∧
      s'.files id.pipefd1 = some (.pipeEnd id.conn) ∧ id.pipefd0 ≠ id.pipefd1
  opened : forall x f, s'.files x = some f ->
    s.files x = some f ∨ (x = fd ∧ f = .socket id.conn) ∨
      (id.pipeOpened = true ∧ (x = id.pipefd0 ∨ x = id.pipefd1) ∧
        f = .pipeEnd id.conn)
  nextConn : s'.nextConn = s.nextConn + 1
  epoll : forall x reg, s'.epoll x = some reg ->
    (x = listen ∧ reg.conn = none) ∨ (x = fd ∧ reg.conn = some id.conn) ∨
      exists old, s.epoll x = some old ∧ reg.conn = old.conn
  batch : s'.batch = s.batch
  deleted : s'.deleted = s.deleted

structure Removed (server : ptr) (fd : Fd) (p : ptr) (id : Identity)
    (s s' : IOLoop ptr) : Prop where
  handlers : s'.handlers = Function.update s.handlers fd none
  clients : clientsOf s'.objects = Function.update (clientsOf s.objects) p none
  server_object : server ≠ p -> s'.objects server = s.objects server
  files : forall x, s'.files x =
    if x = fd ∨ x = id.pipefd0 ∨ x = id.pipefd1 then none else s.files x
  nextConn : s'.nextConn = s.nextConn
  epoll : forall x reg, s'.epoll x = some reg ->
    x ≠ fd ∧ s.epoll x = some reg
  batch : s'.batch = s.batch
  deleted : s'.deleted = s.deleted ++ [id.conn]

section Changes

variable {listen : Fd} {server : ptr} {s s' : IOLoop ptr} {fd : Fd} {p : ptr}
  {id : Identity}

omit [DecidableEq ptr] in
theorem Quiet.consistent (hchange : Quiet listen server s s')
    (h : Consistent listen server s) : Consistent listen server s' := by
  have hfor : forall fd conn, HandlerFor listen s fd conn ->
      HandlerFor listen s' fd conn := by
    intro fd conn hfd
    unfold HandlerFor
    rw [hchange.handlers, hchange.clients]
    exact hfd
  constructor
  case server_object => exact hchange.server_object.trans h.server_object
  case registered =>
    intro fd reg hreg
    rcases hchange.epoll fd reg hreg with hlisten | ⟨old, hold, hconn⟩
    · exact Or.inl hlisten
    · rw [hconn]
      exact hfor fd old.conn (h.registered fd old hold)
  case pending =>
    intro e he
    exact hfor e.fd e.conn (h.pending e (hchange.batch.subset he))
  case distinct => exact h.distinct.sublist (hchange.batch.map Event.fd)
  all_goals
    simp only [hchange.handlers, hchange.clients, hchange.files,
      hchange.nextConn, hchange.deleted]
  case server_handler => exact h.server_handler
  case server_file => exact h.server_file
  case served => exact h.served
  case serving => exact h.serving
  case unique => exact h.unique
  case conn_unique => exact h.conn_unique
  case conn_old => exact h.conn_old
  case socket_served => exact h.socket_served
  case pipe_open => exact h.pipe_open
  case pipe_served => exact h.pipe_served
  case deleted_old => exact h.deleted_old
  case deleted_gone => exact h.deleted_gone
  case deleted_once => exact h.deleted_once

theorem Added.consistent (hchange : Added listen server fd p id s s')
    (h : Consistent listen server s) : Consistent listen server s' := by
  have hlisten : fd ≠ listen := by
    intro hfd
    have hclosed := hchange.closed
    rw [hfd, h.server_file] at hclosed
    cases hclosed
  have hserver : server ≠ p := by
    intro hp
    apply hchange.free
    rw [← hp, h.server_object]
    exact Cell.isLive_live _
  have hclient : clientsOf s.objects p = none :=
    clientsOf_of_not_live hchange.free
  have hunhandled : s.handlers fd = none := by
    cases hfd : s.handlers fd with
    | none => rfl
    | some q =>
        rcases h.served fd q hfd hlisten with ⟨id', _, hfile⟩
        rw [hchange.closed] at hfile
        cases hfile
  have hunused : forall x, s.handlers x ≠ some p := by
    intro x hx
    by_cases hlisten : x = listen
    · rw [hlisten, h.server_handler] at hx
      cases hx
      exact hserver rfl
    · rcases h.served x p hx hlisten with ⟨id', hid, _⟩
      rw [hclient] at hid
      cases hid
  -- what was there stays, and what is there is old or the new connection
  have hhandlers : forall x q, s.handlers x = some q ->
      s'.handlers x = some q := by
    intro x q hx
    have hne : x ≠ fd := by
      intro hfd
      rw [hfd, hunhandled] at hx
      cases hx
    rw [hchange.handlers, Function.update_of_ne hne]
    exact hx
  have hclients : forall q i, clientsOf s.objects q = some i ->
      clientsOf s'.objects q = some i := by
    intro q i hq
    have hne : q ≠ p := by
      intro hp
      rw [hp, hclient] at hq
      cases hq
    rw [hchange.clients, Function.update_of_ne hne]
    exact hq
  have hhandler : s'.handlers fd = some p := by
    rw [hchange.handlers, Function.update_self]
  have hobject : clientsOf s'.objects p = some id := by
    rw [hchange.clients, Function.update_self]
  have hhandlers' : forall x q, s'.handlers x = some q ->
      (x = fd ∧ q = p) ∨ s.handlers x = some q := by
    intro x q hx
    by_cases hfd : x = fd
    · rw [hchange.handlers, hfd, Function.update_self] at hx
      cases hx
      exact Or.inl ⟨hfd, rfl⟩
    · rw [hchange.handlers, Function.update_of_ne hfd] at hx
      exact Or.inr hx
  have hclients' : forall q i, clientsOf s'.objects q = some i ->
      (q = p ∧ i = id) ∨ clientsOf s.objects q = some i := by
    intro q i hq
    by_cases hp : q = p
    · rw [hchange.clients, hp, Function.update_self] at hq
      cases hq
      exact Or.inl ⟨hp, rfl⟩
    · rw [hchange.clients, Function.update_of_ne hp] at hq
      exact Or.inr hq
  have hfor : forall x conn, HandlerFor listen s x conn ->
      HandlerFor listen s' x conn := by
    intro x conn hx
    rcases hx with hx | ⟨q, i, hq, hi, hconn⟩
    · exact Or.inl hx
    · exact Or.inr ⟨q, i, hhandlers x q hq, hclients q i hi, hconn⟩
  constructor
  case server_handler => exact hhandlers listen server h.server_handler
  case server_object =>
    exact (hchange.server_object hserver).trans h.server_object
  case server_file => exact hchange.kept _ _ h.server_file
  case served =>
    intro x q hx hne
    rcases hhandlers' x q hx with ⟨rfl, rfl⟩ | hold
    · exact ⟨id, hobject, hchange.socket⟩
    · rcases h.served x q hold hne with ⟨i, hi, hfile⟩
      exact ⟨i, hclients q i hi, hchange.kept x _ hfile⟩
  case serving =>
    intro q i hq
    rcases hclients' q i hq with ⟨rfl, _⟩ | hold
    · exact ⟨fd, hhandler⟩
    · rcases h.serving q i hold with ⟨x, hx⟩
      exact ⟨x, hhandlers x q hx⟩
  case unique =>
    intro x x' q hx hx'
    rcases hhandlers' x q hx with ⟨rfl, rfl⟩ | hold
    · rcases hhandlers' x' q hx' with ⟨rfl, _⟩ | hold'
      · rfl
      · exact absurd hold' (hunused x')
    · rcases hhandlers' x' q hx' with ⟨rfl, rfl⟩ | hold'
      · exact absurd hold (hunused x)
      · exact h.unique x x' q hold hold'
  case conn_unique =>
    -- the number of the new connection is larger than all others
    intro q q' i i' hq hq' hconn
    rcases hclients' q i hq with ⟨rfl, rfl⟩ | hold
    · rcases hclients' q' i' hq' with ⟨rfl, _⟩ | hold'
      · rfl
      · have hlt := h.conn_old q' i' hold'
        rw [← hconn, hchange.fresh] at hlt
        exact absurd hlt (Nat.lt_irrefl _)
    · rcases hclients' q' i' hq' with ⟨rfl, rfl⟩ | hold'
      · have hlt := h.conn_old q i hold
        rw [hconn, hchange.fresh] at hlt
        exact absurd hlt (Nat.lt_irrefl _)
      · exact h.conn_unique q q' i i' hold hold' hconn
  case conn_old =>
    intro q i hq
    rw [hchange.nextConn]
    rcases hclients' q i hq with ⟨_, rfl⟩ | hold
    · rw [hchange.fresh]
      exact Nat.lt_succ_self _
    · exact Nat.lt_succ_of_lt (h.conn_old q i hold)
  case socket_served =>
    intro x conn hx
    rcases hchange.opened x _ hx with hold | ⟨rfl, hfile⟩ | ⟨_, _, hfile⟩
    · rcases h.socket_served x conn hold with ⟨q, i, hq, hi, hconn⟩
      exact ⟨q, i, hhandlers x q hq, hclients q i hi, hconn⟩
    · cases hfile
      exact ⟨p, id, hhandler, hobject, rfl⟩
    · cases hfile
  case pipe_open =>
    intro q i hq hopened
    rcases hclients' q i hq with ⟨_, rfl⟩ | hold
    · exact hchange.pipe hopened
    · rcases h.pipe_open q i hold hopened with ⟨hpipe0, hpipe1, hne⟩
      exact ⟨hchange.kept _ _ hpipe0, hchange.kept _ _ hpipe1, hne⟩
  case pipe_served =>
    intro x conn hx
    rcases hchange.opened x _ hx with hold | ⟨_, hfile⟩ | ⟨hopened, hend, hfile⟩
    · rcases h.pipe_served x conn hold with ⟨q, i, hi, hconn, hopened, hend⟩
      exact ⟨q, i, hclients q i hi, hconn, hopened, hend⟩
    · cases hfile
    · cases hfile
      exact ⟨p, id, hobject, rfl, hopened, hend⟩
  case registered =>
    intro x reg hreg
    rcases hchange.epoll x reg hreg with hx | ⟨hx, hconn⟩ | ⟨old, hold, hconn⟩
    · exact Or.inl hx
    · exact Or.inr ⟨p, id, by rw [hx]; exact hhandler, hobject, hconn⟩
    · rw [hconn]
      exact hfor x old.conn (h.registered x old hold)
  case pending =>
    rw [hchange.batch]
    intro e he
    exact hfor e.fd e.conn (h.pending e he)
  case distinct =>
    rw [hchange.batch]
    exact h.distinct
  case deleted_old =>
    intro conn hconn
    rw [hchange.deleted] at hconn
    rw [hchange.nextConn]
    exact Nat.lt_succ_of_lt (h.deleted_old conn hconn)
  case deleted_gone =>
    intro q i hq
    rw [hchange.deleted]
    rcases hclients' q i hq with ⟨_, rfl⟩ | hold
    · intro hmem
      have hlt := h.deleted_old _ hmem
      rw [hchange.fresh] at hlt
      exact absurd hlt (Nat.lt_irrefl _)
    · exact h.deleted_gone q i hold
  case deleted_once =>
    rw [hchange.deleted]
    exact h.deleted_once

theorem Removed.consistent (hchange : Removed server fd p id s s')
    (h : Consistent listen server s) (hlisten : fd ≠ listen)
    (hfd : s.handlers fd = some p) (hp : clientsOf s.objects p = some id)
    (hpipe : id.pipeOpened = true) (hbatch : forall e, e ∈ s.batch -> e.fd ≠ fd) :
    Consistent listen server s' := by
  have hserver : server ≠ p := by
    intro hserver
    rcases clientsOf_eq_some hp with ⟨received, hobject⟩
    rw [← hserver, h.server_object] at hobject
    cases hobject
  have hsocket : s.files fd = some (.socket id.conn) := by
    rcases h.served fd p hfd hlisten with ⟨id', hid, hfile⟩
    rw [hp] at hid
    cases hid
    exact hfile
  rcases h.pipe_open p id hp hpipe with ⟨hpipe0, hpipe1, _⟩
  have hhandlers : forall x q, s.handlers x = some q -> x ≠ fd ->
      s'.handlers x = some q := by
    intro x q hx hne
    rw [hchange.handlers, Function.update_of_ne hne]
    exact hx
  have hclients : forall q i, clientsOf s.objects q = some i -> q ≠ p ->
      clientsOf s'.objects q = some i := by
    intro q i hq hne
    rw [hchange.clients, Function.update_of_ne hne]
    exact hq
  have hhandlers' : forall x q, s'.handlers x = some q ->
      x ≠ fd ∧ q ≠ p ∧ s.handlers x = some q := by
    intro x q hx
    have hne : x ≠ fd := by
      intro hx'
      rw [hchange.handlers, hx', Function.update_self] at hx
      cases hx
    rw [hchange.handlers, Function.update_of_ne hne] at hx
    refine ⟨hne, ?_, hx⟩
    intro hq
    rw [hq] at hx
    exact hne (h.unique x fd p hx hfd)
  have hclients' : forall q i, clientsOf s'.objects q = some i ->
      q ≠ p ∧ clientsOf s.objects q = some i := by
    intro q i hq
    have hne : q ≠ p := by
      intro hq'
      rw [hchange.clients, hq', Function.update_self] at hq
      cases hq
    rw [hchange.clients, Function.update_of_ne hne] at hq
    exact ⟨hne, hq⟩
  have hfiles : forall x f, s.files x = some f -> f ≠ .socket id.conn ->
      f ≠ .pipeEnd id.conn -> s'.files x = some f := by
    intro x f hx hsocket' hpipe'
    rw [hchange.files, if_neg, hx]
    intro hclosed
    rcases hclosed with rfl | rfl | rfl
    · rw [hsocket] at hx
      cases hx
      exact hsocket' rfl
    · rw [hpipe0] at hx
      cases hx
      exact hpipe' rfl
    · rw [hpipe1] at hx
      cases hx
      exact hpipe' rfl
  have hfiles' : forall x f, s'.files x = some f ->
      x ≠ fd ∧ x ≠ id.pipefd0 ∧ x ≠ id.pipefd1 ∧ s.files x = some f := by
    intro x f hx
    rw [hchange.files] at hx
    split at hx
    · cases hx
    · rename_i hopen
      rcases not_or.mp hopen with ⟨hne, hpipes⟩
      rcases not_or.mp hpipes with ⟨hne0, hne1⟩
      exact ⟨hne, hne0, hne1, hx⟩
  have hother : forall q i, clientsOf s.objects q = some i -> q ≠ p ->
      i.conn ≠ id.conn := by
    intro q i hq hne hconn
    exact hne (h.conn_unique q p i id hq hp hconn)
  have hfor : forall x conn, HandlerFor listen s x conn -> x ≠ fd ->
      HandlerFor listen s' x conn := by
    intro x conn hx hne
    rcases hx with hx | ⟨q, i, hq, hi, hconn⟩
    · exact Or.inl hx
    · have hqp : q ≠ p := by
        intro hqp
        rw [hqp] at hq
        exact hne (h.unique x fd p hq hfd)
      exact Or.inr ⟨q, i, hhandlers x q hq hne, hclients q i hi hqp, hconn⟩
  constructor
  case server_handler =>
    exact hhandlers listen server h.server_handler (Ne.symm hlisten)
  case server_object =>
    exact (hchange.server_object hserver).trans h.server_object
  case server_file =>
    exact hfiles listen .listening h.server_file (by simp) (by simp)
  case served =>
    intro x q hx hne
    rcases hhandlers' x q hx with ⟨_, hqp, hold⟩
    rcases h.served x q hold hne with ⟨i, hi, hfile⟩
    refine ⟨i, hclients q i hi hqp, hfiles x _ hfile ?_ (by simp)⟩
    intro hsame
    exact hother q i hi hqp (File.socket.inj hsame)
  case serving =>
    intro q i hq
    rcases hclients' q i hq with ⟨hqp, hold⟩
    rcases h.serving q i hold with ⟨x, hx⟩
    refine ⟨x, hhandlers x q hx ?_⟩
    intro hx'
    rw [hx', hfd] at hx
    cases hx
    exact hqp rfl
  case unique =>
    intro x x' q hx hx'
    exact h.unique x x' q (hhandlers' x q hx).2.2 (hhandlers' x' q hx').2.2
  case conn_unique =>
    intro q q' i i' hq hq' hconn
    exact h.conn_unique q q' i i' (hclients' q i hq).2 (hclients' q' i' hq').2
      hconn
  case conn_old =>
    intro q i hq
    rw [hchange.nextConn]
    exact h.conn_old q i (hclients' q i hq).2
  case socket_served =>
    intro x conn hx
    rcases hfiles' x _ hx with ⟨hne, _, _, hx'⟩
    rcases h.socket_served x conn hx' with ⟨q, i, hq, hi, hconn⟩
    have hqp : q ≠ p := by
      intro hqp
      rw [hqp] at hq
      exact hne (h.unique x fd p hq hfd)
    exact ⟨q, i, hhandlers x q hq hne, hclients q i hi hqp, hconn⟩
  case pipe_open =>
    intro q i hq hopened
    rcases hclients' q i hq with ⟨hqp, hold⟩
    rcases h.pipe_open q i hold hopened with ⟨hend0, hend1, hne⟩
    have hkept : forall x, s.files x = some (.pipeEnd i.conn) ->
        s'.files x = some (.pipeEnd i.conn) := by
      intro x hx
      refine hfiles x _ hx (by simp) ?_
      intro hsame
      exact hother q i hold hqp (File.pipeEnd.inj hsame)
    exact ⟨hkept _ hend0, hkept _ hend1, hne⟩
  case pipe_served =>
    intro x conn hx
    rcases hfiles' x _ hx with ⟨_, hne0, hne1, hold⟩
    rcases h.pipe_served x conn hold with ⟨q, i, hi, hconn, hopened, hend⟩
    have hqp : q ≠ p := by
      intro hqp
      rw [hqp, hp] at hi
      cases hi
      rcases hend with hend | hend
      · exact hne0 hend
      · exact hne1 hend
    exact ⟨q, i, hclients q i hi hqp, hconn, hopened, hend⟩
  case registered =>
    intro x reg hreg
    rcases hchange.epoll x reg hreg with ⟨hne, hold⟩
    exact hfor x reg.conn (h.registered x reg hold) hne
  case pending =>
    rw [hchange.batch]
    intro e he
    exact hfor e.fd e.conn (h.pending e he) (hbatch e he)
  case distinct =>
    rw [hchange.batch]
    exact h.distinct
  case deleted_old =>
    intro conn hmem
    rw [hchange.deleted] at hmem
    rw [hchange.nextConn]
    rcases List.mem_append.mp hmem with hmem | hmem
    · exact h.deleted_old conn hmem
    · rw [List.mem_singleton.mp hmem]
      exact h.conn_old p id hp
  case deleted_gone =>
    intro q i hq hmem
    rcases hclients' q i hq with ⟨hqp, hold⟩
    rw [hchange.deleted] at hmem
    rcases List.mem_append.mp hmem with hmem | hmem
    · exact h.deleted_gone q i hold hmem
    · exact hother q i hold hqp (List.mem_singleton.mp hmem)
  case deleted_once =>
    rw [hchange.deleted, ← List.concat_eq_append]
    exact List.Nodup.concat (h.deleted_gone p id hp) h.deleted_once

end Changes

end IOLoop
end EpollHandler
end NetExperiment
