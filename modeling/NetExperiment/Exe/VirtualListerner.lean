import NetExperiment.Foundation.Heap
import NetExperiment.Foundation.Machine

/-!
# The edge-triggered upper-case server

The listening socket is watched by level and each client by edge: a client is
reported only when something has arrived since it was reported last.  The server
takes a batch of events from `epoll_wait` and handles them one by one, and the
clients go on sending all the time.

A connection is known by the order in which it was made.  A system call that
would block leaves the state alone, since nothing happens until it returns.
-/

namespace NetExperiment
namespace VirtualListerner

open Foundation

def EPOLL_MAX_NUM : Nat := 2048

def READ_LEN : Nat := 5

inductive Phase where
  | pending
  | registered
  | closed
deriving DecidableEq, Repr

/-- A connection: its receive buffer, whether the client has ended its stream,
whether an edge is pending, and what was written back. -/
structure Conn where
  phase : Phase
  recv : List Byte
  fin : Bool
  edge : Bool
  replies : List Byte
deriving DecidableEq, Repr

def Conn.new : Conn where
  phase := .pending
  recv := []
  fin := false
  edge := false
  replies := []

def Conn.Readable (conn : Conn) : Prop :=
  conn.recv ≠ [] ∨ conn.fin = true

instance (conn : Conn) : Decidable conn.Readable :=
  inferInstanceAs (Decidable (_ ∨ _))

inductive Event where
  | listen
  | client (c : Nat)
deriving DecidableEq, Repr

/-- All connections, and the events of the last batch that are still to be
handled.  The server is in `epoll_wait` when there are none. -/
structure State where
  conns : List Conn
  batch : List Event
deriving DecidableEq, Repr

def State.new : State where
  conns := []
  batch := []

def State.modifyConn (c : Nat) (f : Conn -> Conn) (s : State) : State :=
  { s with conns := s.conns.modify c f }

/-!
## The clients
-/

/-- Something arrives.  An edge is pending from then on if the socket is
watched. -/
def Conn.notify (conn : Conn) : Conn :=
  { conn with edge := conn.edge || decide (conn.phase = .registered) }

def Conn.segment (bytes : List Byte) (conn : Conn) : Conn :=
  if conn.phase ≠ .closed ∧ conn.fin = false ∧ bytes ≠ [] then
    Conn.notify { conn with recv := conn.recv ++ bytes }
  else conn

def Conn.finish (conn : Conn) : Conn :=
  if conn.phase ≠ .closed then Conn.notify { conn with fin := true }
  else conn

/-!
## Waiting for events
-/

/-- What `epoll_wait` may look at: connections to accept, and clients with a
pending edge. -/
def State.Ready (s : State) : Event -> Prop
  | .listen => exists conn, conn ∈ s.conns ∧ conn.phase = .pending
  | .client c => exists conn, s.conns[c]? = some conn ∧
      conn.phase = .registered ∧ conn.edge = true

/-- A client that has nothing to read after all is not reported. -/
def State.reported (s : State) : Event -> Bool
  | .listen => true
  | .client c => (s.conns[c]?).any (fun conn => decide conn.Readable)

def State.clearEdges (s : State) (events : List Event) : List Conn :=
  s.conns.mapIdx fun c conn =>
    if .client c ∈ events then { conn with edge := false } else conn

instance (s : State) (e : Event) : Decidable (s.Ready e) :=
  match e with
  | .listen => inferInstanceAs (Decidable (exists conn, conn ∈ s.conns ∧ _))
  | .client c =>
      match h : s.conns[c]? with
      | none => .isFalse fun hready => by
          rcases hready with ⟨conn, hconn, _⟩
          rw [h] at hconn
          cases hconn
      | some conn => decidable_of_iff
          (conn.phase = .registered ∧ conn.edge = true)
          ⟨fun hboth => ⟨conn, h, hboth⟩, fun hready => by
            rcases hready with ⟨conn', hconn', hboth⟩
            rw [h] at hconn'
            cases hconn'
            exact hboth⟩

def epollWait (events : List Event) (s : State) : State :=
  if s.batch = [] ∧ events.Nodup ∧ events.length ≤ EPOLL_MAX_NUM ∧
      forall e, e ∈ events -> s.Ready e then
    { conns := s.clearEdges events
      batch := events.filter s.reported }
  else s

/-!
## Handling an event
-/

def toupper (b : Byte) : Byte :=
  if 97 ≤ b ∧ b ≤ 122 then b - 32 else b

def strToupper (buffer : List Byte) : List Byte :=
  (buffer.takeWhile (fun b => decide (b ≠ 0))).map toupper

/-- Watch an accepted socket.  One that can be read at once has an edge. -/
def Conn.register (conn : Conn) : Conn :=
  { conn with phase := .registered, edge := decide conn.Readable }

def Conn.serve (conn : Conn) : Conn :=
  match conn.recv.take READ_LEN with
  | [] => { conn with phase := .closed, edge := false }
  | b :: rest =>
      { conn with
        recv := conn.recv.drop READ_LEN
        replies := conn.replies ++ strToupper (b :: rest) }

/-- The oldest connection that waits is accepted.  An accept that fails is only
reported. -/
def acceptClient (ok : Bool) (rest : List Event) (s : State) : State :=
  if ok then
    match s.conns.findIdx? (fun conn => decide (conn.phase = .pending)) with
    | none => s
    | some c => State.modifyConn c Conn.register { s with batch := rest }
  else { s with batch := rest }

/-- A read that fails is only reported. -/
def readClient (ok : Bool) (c : Nat) (rest : List Event) (s : State) : State :=
  if ok then
    if (s.conns[c]?).any (fun conn => decide conn.Readable) then
      State.modifyConn c Conn.serve { s with batch := rest }
    else s
  else { s with batch := rest }

def handle (ok : Bool) (s : State) : State :=
  match s.batch with
  | [] => s
  | .listen :: rest => acceptClient ok rest s
  | .client c :: rest => readClient ok c rest s

inductive Act where
  | connect
  | segment (c : Nat) (bytes : List Byte)
  | finish (c : Nat)
  | epollWait (events : List Event)
  | handle (ok : Bool)
deriving DecidableEq, Repr

def step (s : State) : Act -> State
  | .connect => { s with conns := s.conns ++ [Conn.new] }
  | .segment c bytes => s.modifyConn c (Conn.segment bytes)
  | .finish c => s.modifyConn c Conn.finish
  | .epollWait events => epollWait events s
  | .handle ok => handle ok s

def machine : Machine State Act Empty where
  step := fun s act => .ok (step s act)

/-!
## Unread bytes
-/

/-- In `epoll_wait`, a client without a pending edge has no unread bytes. -/
def Answered (s : State) : Prop :=
  s.batch = [] -> forall (c : Nat) (conn : Conn), s.conns[c]? = some conn ->
    conn.phase = .registered -> conn.edge = false -> conn.recv = []

/-- The read for an event finds no more than it takes, or more has arrived
since. -/
def ReadsAll (s : State) (act : Act) : Prop :=
  forall ok c rest conn, act = .handle ok -> s.batch = .client c :: rest ->
    s.conns[c]? = some conn ->
    conn.edge = true ∨ conn.recv = [] ∨
      (ok = true ∧ conn.recv.length ≤ READ_LEN)

instance (s : State) (act : Act) : Decidable (ReadsAll s act) :=
  match act with
  | .connect => .isTrue fun _ _ _ _ hact => by cases hact
  | .segment _ _ => .isTrue fun _ _ _ _ hact => by cases hact
  | .finish _ => .isTrue fun _ _ _ _ hact => by cases hact
  | .epollWait _ => .isTrue fun _ _ _ _ hact => by cases hact
  | .handle ok =>
      match hbatch : s.batch with
      | [] => .isTrue fun _ _ _ _ _ hb => by
          rw [hbatch] at hb
          cases hb
      | .listen :: rest => .isTrue fun _ _ _ _ _ hb => by
          rw [hbatch] at hb
          cases hb
      | .client c :: rest =>
          match hconn : s.conns[c]? with
          | none => .isTrue fun _ _ _ _ _ hb hc => by
              rw [hbatch] at hb
              cases hb
              rw [hconn] at hc
              cases hc
          | some conn => decidable_of_iff
              (conn.edge = true ∨ conn.recv = [] ∨
                (ok = true ∧ conn.recv.length ≤ READ_LEN))
              ⟨fun hread _ _ _ _ hact hb hc => by
                  cases hact
                  rw [hbatch] at hb
                  cases hb
                  rw [hconn] at hc
                  cases hc
                  exact hread,
                fun hread => hread ok c rest conn rfl hbatch hconn⟩

/-!
## Reads that are too short

A read that takes less than there is leaves bytes that nothing tells the server
about, until more arrives.  Whether they are noticed in time depends on whether
that is before the batch is done.
-/

def Conn.Stuck (conn : Conn) : Prop :=
  conn.phase = .registered ∧ conn.edge = false ∧ conn.recv ≠ []

/-- The client has unread bytes, and neither an edge nor an event. -/
def Stranded (c : Nat) (s : State) : Prop :=
  (exists conn, s.conns[c]? = some conn ∧ conn.Stuck) ∧ .client c ∉ s.batch

/-- Data or the end of the stream arrives from the client. -/
def Arrives (c : Nat) (s : State) (act : Act) : Prop :=
  exists conn, s.conns[c]? = some conn ∧
    (act = .finish c ∨
      exists bytes, act = .segment c bytes ∧ conn.fin = false ∧ bytes ≠ [])

/-- The read for an event of the client fails or takes less than there is, and
nothing has arrived since the event was taken. -/
def Leaves (c : Nat) (s : State) (act : Act) : Prop :=
  exists ok rest conn, act = .handle ok ∧ s.batch = .client c :: rest ∧
    s.conns[c]? = some conn ∧ conn.Stuck ∧
    (ok = true -> READ_LEN < conn.recv.length)

/-- The batch is not done before something arrives from the client. -/
def Relieved (c : Nat) : State -> List Act -> Prop
  | s, [] => s.batch ≠ []
  | s, act :: rest =>
      s.batch ≠ [] ∧ (Arrives c s act ∨ Relieved c (step s act) rest)

/-- What a read leaves is followed by more in time. -/
def InTime : State -> List Act -> Prop
  | _, [] => True
  | s, act :: rest =>
      (forall c, Leaves c s act -> Relieved c (step s act) rest) ∧
        InTime (step s act) rest

theorem answered_iff_not_stranded (s : State) :
    Answered s <-> forall c, Stranded c s -> s.batch ≠ [] := by
  constructor
  · intro h c hstranded hbatch
    rcases hstranded with ⟨⟨conn, hconn, hregistered, hedge, hrecv⟩, _⟩
    exact hrecv (h hbatch c conn hconn hregistered hedge)
  · intro h hbatch c conn hconn hregistered hedge
    by_contra hrecv
    refine h c ⟨⟨conn, hconn, hregistered, hedge, hrecv⟩, ?_⟩ hbatch
    rw [hbatch]
    exact List.not_mem_nil

/-!
What each action does to a client that is stuck.
-/

theorem mem_of_mem_cons_client {c d : Nat} {rest : List Event} (hd : d ≠ c)
    (h : Event.client d ∈ Event.client c :: rest) : .client d ∈ rest := by
  rcases List.mem_cons.mp h with hsame | hrest
  · cases hsame
    exact absurd rfl hd
  · exact hrest

theorem mem_of_mem_cons_listen {d : Nat} {rest : List Event}
    (h : Event.client d ∈ Event.listen :: rest) : .client d ∈ rest := by
  rcases List.mem_cons.mp h with hsame | hrest
  · cases hsame
  · exact hrest

theorem Conn.not_stuck_notify (conn : Conn) : ¬ conn.notify.Stuck := by
  intro hstuck
  have hphase : conn.phase = .registered := hstuck.1
  have hedge := hstuck.2.1
  unfold Conn.notify at hedge
  rw [decide_eq_true hphase, Bool.or_true] at hedge
  cases hedge

theorem Conn.stuck_segment_iff (conn : Conn) (bytes : List Byte) :
    (conn.segment bytes).Stuck <->
      conn.Stuck ∧ ¬ (conn.fin = false ∧ bytes ≠ []) := by
  unfold Conn.segment
  split
  · rename_i harrives
    exact iff_of_false (Conn.not_stuck_notify _)
      (fun h => h.2 ⟨harrives.2.1, harrives.2.2⟩)
  · rename_i hnot
    refine ⟨fun hstuck => ⟨hstuck, ?_⟩, And.left⟩
    intro harrives
    refine hnot ⟨?_, harrives⟩
    rw [hstuck.1]
    exact Phase.noConfusion

theorem Conn.not_stuck_finish (conn : Conn) : ¬ conn.finish.Stuck := by
  unfold Conn.finish
  split
  · exact Conn.not_stuck_notify _
  · rename_i hclosed
    intro hstuck
    rw [hstuck.1] at hclosed
    exact hclosed Phase.noConfusion

theorem Conn.not_stuck_register (conn : Conn) : ¬ conn.register.Stuck := by
  intro hstuck
  have hedge : decide conn.Readable = false := hstuck.2.1
  exact of_decide_eq_false hedge (.inl hstuck.2.2)

theorem Conn.stuck_serve_iff (conn : Conn) :
    conn.serve.Stuck <-> conn.Stuck ∧ READ_LEN < conn.recv.length := by
  have hlen : 0 < READ_LEN := by
    decide
  unfold Conn.serve
  split
  · rename_i hnone
    refine iff_of_false (fun hstuck => by cases hstuck.1) (fun h => ?_)
    have hlength := congrArg List.length hnone
    rw [List.length_take, List.length_nil] at hlength
    omega
  · rename_i hsome
    have hrest : conn.recv.drop READ_LEN ≠ [] <->
        READ_LEN < conn.recv.length := by
      rw [Ne, List.drop_eq_nil_iff, Nat.not_le]
    constructor
    · intro hstuck
      have hlong := hrest.mp hstuck.2.2
      refine ⟨⟨hstuck.1, hstuck.2.1, ?_⟩, hlong⟩
      exact List.ne_nil_of_length_pos (by omega)
    · intro h
      exact ⟨h.1.1, h.1.2.1, hrest.mpr h.2⟩

theorem stranded_modify_self (c : Nat) (f : Conn -> Conn) (batch : List Event)
    (s : State) :
    Stranded c (State.modifyConn c f { s with batch := batch }) <->
      (exists conn, s.conns[c]? = some conn ∧ (f conn).Stuck) ∧
        .client c ∉ batch := by
  refine and_congr_left (fun _ => ?_)
  show (exists conn, (s.conns.modify c f)[c]? = some conn ∧ _) <-> _
  rw [List.getElem?_modify_eq]
  constructor
  · intro h
    rcases h with ⟨conn, hconn, hstuck⟩
    rcases Option.map_eq_some_iff.mp hconn with ⟨old, hold, rfl⟩
    exact ⟨old, hold, hstuck⟩
  · intro h
    rcases h with ⟨conn, hconn, hstuck⟩
    exact ⟨f conn, by rw [hconn]; rfl, hstuck⟩

theorem stranded_modify_other {c d : Nat} (h : d ≠ c) (f : Conn -> Conn)
    (batch : List Event) (s : State) :
    Stranded c (State.modifyConn d f { s with batch := batch }) <->
      (exists conn, s.conns[c]? = some conn ∧ conn.Stuck) ∧
        .client c ∉ batch := by
  refine and_congr_left (fun _ => ?_)
  show (exists conn, (s.conns.modify d f)[c]? = some conn ∧ _) <-> _
  rw [List.getElem?_modify_ne _ _ h]

theorem stranded_connect_iff (c : Nat) (s : State) :
    Stranded c { s with conns := s.conns ++ [Conn.new] } <->
      Stranded c s := by
  refine and_congr_left (fun _ => ?_)
  show (exists conn, (s.conns ++ [Conn.new])[c]? = some conn ∧ _) <-> _
  constructor
  · intro h
    rcases h with ⟨conn, hconn, hstuck⟩
    rw [List.getElem?_append] at hconn
    split at hconn
    · exact ⟨conn, hconn, hstuck⟩
    · have hnew := List.mem_of_getElem? hconn
      rw [List.mem_singleton.mp hnew] at hstuck
      cases hstuck.1
  · intro h
    rcases h with ⟨conn, hconn, hstuck⟩
    have hlt := (List.getElem?_eq_some_iff.mp hconn).1
    exact ⟨conn, (List.getElem?_append_left hlt).trans hconn, hstuck⟩

theorem stranded_epollWait_iff (c : Nat) (events : List Event) (s : State) :
    Stranded c (epollWait events s) <-> Stranded c s := by
  unfold VirtualListerner.epollWait
  split
  · rename_i hwait
    by_cases hevent : Event.client c ∈ events
    · refine iff_of_false ?_ ?_
      · intro hstranded
        rcases hstranded with ⟨⟨conn, hconn, hstuck⟩, hnone⟩
        have hget : (s.clearEdges events)[c]? = some conn := hconn
        unfold State.clearEdges at hget
        rw [List.getElem?_mapIdx] at hget
        rcases Option.map_eq_some_iff.mp hget with ⟨old, hold, hnew⟩
        rw [if_pos hevent] at hnew
        subst hnew
        refine hnone (List.mem_filter.mpr ⟨hevent, ?_⟩)
        show (s.conns[c]?).any (fun conn => decide conn.Readable) = true
        rw [hold]
        exact decide_eq_true (.inl hstuck.2.2)
      · intro hstranded
        rcases hstranded with ⟨⟨conn, hconn, hstuck⟩, _⟩
        rcases hwait.2.2.2 _ hevent with ⟨conn', hconn', _, hedge⟩
        rw [hconn] at hconn'
        cases hconn'
        rw [hstuck.2.1] at hedge
        cases hedge
    · have hbatch : Event.client c ∉ s.batch := by
        rw [hwait.1]
        exact List.not_mem_nil
      have hnone : Event.client c ∉ events.filter s.reported :=
        fun hmem => hevent (List.mem_filter.mp hmem).1
      refine and_congr ?_ (iff_of_true hnone hbatch)
      have hsame : (s.clearEdges events)[c]? = s.conns[c]? := by
        unfold State.clearEdges
        rw [List.getElem?_mapIdx]
        cases s.conns[c]? with
        | none => rfl
        | some conn => exact congrArg some (if_neg hevent)
      show (exists conn, (s.clearEdges events)[c]? = some conn ∧ _) <-> _
      rw [hsame]
  · exact Iff.rfl

theorem stranded_shrink_iff {c : Nat} {s : State} {batch : List Event}
    (h : .client c ∈ s.batch <-> .client c ∈ batch) :
    Stranded c { s with batch := batch } <-> Stranded c s :=
  and_congr_right (fun _ => not_congr h.symm)

theorem stranded_acceptClient_iff (c : Nat) (ok : Bool) {rest : List Event}
    {s : State} (hbatch : s.batch = .listen :: rest) :
    Stranded c (acceptClient ok rest s) <-> Stranded c s := by
  have hmem : Event.client c ∈ s.batch <-> .client c ∈ rest := by
    rw [hbatch]
    exact ⟨mem_of_mem_cons_listen, List.mem_cons_of_mem _⟩
  unfold VirtualListerner.acceptClient
  split
  · split
    · exact Iff.rfl
    · rename_i d hfind
      by_cases hd : d = c
      · subst hd
        rw [stranded_modify_self]
        refine iff_of_false ?_ ?_
        · intro h
          rcases h.1 with ⟨conn, _, hstuck⟩
          exact Conn.not_stuck_register conn hstuck
        · intro h
          rcases h.1 with ⟨conn, hconn, hstuck⟩
          rcases List.findIdx?_eq_some_iff_getElem.mp hfind with
            ⟨hlt, hpending, _⟩
          rw [List.getElem?_eq_getElem hlt] at hconn
          cases hconn
          have hphase := of_decide_eq_true hpending
          rw [hstuck.1] at hphase
          cases hphase
      · rw [stranded_modify_other hd]
        exact and_congr_right (fun _ => not_congr hmem.symm)
  · exact stranded_shrink_iff hmem

theorem stranded_readClient_other {c d : Nat} (hd : d ≠ c) (ok : Bool)
    {rest : List Event} {s : State} (hbatch : s.batch = .client d :: rest) :
    Stranded c (readClient ok d rest s) <-> Stranded c s := by
  have hmem : Event.client c ∈ s.batch <-> .client c ∈ rest := by
    rw [hbatch]
    exact ⟨mem_of_mem_cons_client (Ne.symm hd), List.mem_cons_of_mem _⟩
  unfold VirtualListerner.readClient
  split
  · split
    · rw [stranded_modify_other hd]
      exact and_congr_right (fun _ => not_congr hmem.symm)
    · exact Iff.rfl
  · exact stranded_shrink_iff hmem

theorem stranded_readClient_self {c : Nat} (ok : Bool) {rest : List Event}
    {s : State} (hbatch : s.batch = .client c :: rest)
    (hnodup : s.batch.Nodup) :
    Stranded c (readClient ok c rest s) <-> Leaves c s (.handle ok) := by
  have hrest : Event.client c ∉ rest := by
    rw [hbatch] at hnodup
    exact (List.nodup_cons.mp hnodup).1
  have hleaves : Leaves c s (.handle ok) <-> exists conn,
      s.conns[c]? = some conn ∧ conn.Stuck ∧
        (ok = true -> READ_LEN < conn.recv.length) := by
    constructor
    · intro h
      rcases h with ⟨ok', _, conn, hact, _, hconn, hstuck, hlong⟩
      cases hact
      exact ⟨conn, hconn, hstuck, hlong⟩
    · intro h
      rcases h with ⟨conn, hconn, hstuck, hlong⟩
      exact ⟨ok, rest, conn, rfl, hbatch, hconn, hstuck, hlong⟩
  rw [hleaves]
  unfold VirtualListerner.readClient
  by_cases hok : ok = true
  · rw [if_pos hok]
    split
    · rw [stranded_modify_self]
      constructor
      · intro h
        rcases h.1 with ⟨conn, hconn, hstuck⟩
        rcases (Conn.stuck_serve_iff conn).mp hstuck with ⟨hbefore, hlong⟩
        exact ⟨conn, hconn, hbefore, fun _ => hlong⟩
      · intro h
        rcases h with ⟨conn, hconn, hstuck, hlong⟩
        exact ⟨⟨conn, hconn, (Conn.stuck_serve_iff conn).mpr
          ⟨hstuck, hlong hok⟩⟩, hrest⟩
    · -- the read blocks, with its event still in the batch
      rename_i hblocks
      refine iff_of_false (fun h => h.2 ?_) (fun h => hblocks ?_)
      · rw [hbatch]
        exact List.mem_cons_self
      · rcases h with ⟨conn, hconn, hstuck, _⟩
        rw [hconn]
        exact decide_eq_true (.inl hstuck.2.2)
  · rw [if_neg hok]
    constructor
    · intro h
      rcases h.1 with ⟨conn, hconn, hstuck⟩
      exact ⟨conn, hconn, hstuck, fun hread => absurd hread hok⟩
    · intro h
      rcases h with ⟨conn, hconn, hstuck, _⟩
      exact ⟨⟨conn, hconn, hstuck⟩, hrest⟩

theorem stranded_handle_iff (c : Nat) (ok : Bool) {s : State}
    (hnodup : s.batch.Nodup) :
    Stranded c (handle ok s) <->
      Stranded c s ∨ Leaves c s (.handle ok) := by
  have hnot : forall e rest, s.batch = e :: rest -> e ≠ .client c ->
      ¬ Leaves c s (.handle ok) := by
    intro e rest hbatch hne hleaves
    rcases hleaves with ⟨_, _, _, _, hhead, _⟩
    rw [hbatch] at hhead
    cases hhead
    exact hne rfl
  cases hbatch : s.batch with
  | nil =>
      simp only [VirtualListerner.handle, hbatch]
      refine ⟨.inl, fun h => h.resolve_right ?_⟩
      intro hleaves
      rcases hleaves with ⟨_, _, _, _, hhead, _⟩
      rw [hbatch] at hhead
      cases hhead
  | cons e rest =>
      cases e with
      | listen =>
          simp only [VirtualListerner.handle, hbatch]
          rw [stranded_acceptClient_iff c ok hbatch]
          exact ⟨.inl, fun h => h.resolve_right
            (hnot _ rest hbatch Event.noConfusion)⟩
      | client d =>
          simp only [VirtualListerner.handle, hbatch]
          by_cases hd : d = c
          · subst hd
            rw [stranded_readClient_self ok hbatch hnodup]
            refine ⟨.inr, fun h => h.resolve_left ?_⟩
            intro hstranded
            apply hstranded.2
            rw [hbatch]
            exact List.mem_cons_self
          · rw [stranded_readClient_other hd ok hbatch]
            refine ⟨.inl, fun h => h.resolve_right (hnot _ rest hbatch ?_)⟩
            intro heq
            cases heq
            exact hd rfl

theorem Arrives.eq {c : Nat} {s : State} {act : Act} (h : Arrives c s act) :
    act = .finish c ∨ exists bytes, act = .segment c bytes := by
  rcases h with ⟨_, _, hact | ⟨bytes, hact, _⟩⟩
  · exact .inl hact
  · exact .inr ⟨bytes, hact⟩

theorem stranded_segment_iff (c d : Nat) (bytes : List Byte) (s : State) :
    Stranded c (step s (.segment d bytes)) <->
      Stranded c s ∧ ¬ Arrives c s (.segment d bytes) := by
  by_cases hd : d = c
  · subst hd
    refine (stranded_modify_self d _ s.batch s).trans ?_
    constructor
    · intro h
      rcases h with ⟨⟨conn, hconn, hstuck⟩, hbatch⟩
      rcases (Conn.stuck_segment_iff conn bytes).mp hstuck with
        ⟨hbefore, hnot⟩
      refine ⟨⟨⟨conn, hconn, hbefore⟩, hbatch⟩, ?_⟩
      intro harrives
      rcases harrives with ⟨conn', hconn', hact | ⟨bytes', hact, harrives⟩⟩
      · cases hact
      · cases hact
        rw [hconn] at hconn'
        cases hconn'
        exact hnot harrives
    · intro h
      rcases h with ⟨⟨⟨conn, hconn, hstuck⟩, hbatch⟩, hnot⟩
      refine ⟨⟨conn, hconn, (Conn.stuck_segment_iff conn bytes).mpr
        ⟨hstuck, ?_⟩⟩, hbatch⟩
      intro harrives
      exact hnot ⟨conn, hconn, .inr ⟨bytes, rfl, harrives⟩⟩
  · refine (stranded_modify_other hd _ s.batch s).trans ?_
    refine ⟨fun h => ⟨h, ?_⟩, And.left⟩
    intro harrives
    rcases harrives.eq with hact | ⟨_, hact⟩
    · cases hact
    · cases hact
      exact hd rfl

theorem stranded_finish_iff (c d : Nat) (s : State) :
    Stranded c (step s (.finish d)) <->
      Stranded c s ∧ ¬ Arrives c s (.finish d) := by
  by_cases hd : d = c
  · subst hd
    refine (stranded_modify_self d _ s.batch s).trans ?_
    refine iff_of_false ?_ ?_
    · intro h
      rcases h.1 with ⟨conn, _, hstuck⟩
      exact Conn.not_stuck_finish conn hstuck
    · intro h
      rcases h.1.1 with ⟨conn, hconn, _⟩
      exact h.2 ⟨conn, hconn, .inl rfl⟩
  · refine (stranded_modify_other hd _ s.batch s).trans ?_
    refine ⟨fun h => ⟨h, ?_⟩, And.left⟩
    intro harrives
    rcases harrives.eq with hact | ⟨_, hact⟩
    · cases hact
      exact hd rfl
    · cases hact

/-- A client is stranded after an action exactly if it was before and nothing
arrives from it, or the action reads too little from it. -/
theorem stranded_step_iff (c : Nat) {s : State} (act : Act)
    (hnodup : s.batch.Nodup) :
    Stranded c (step s act) <->
      (Stranded c s ∧ ¬ Arrives c s act) ∨ Leaves c s act := by
  have hquiet : (forall ok, act ≠ .handle ok) -> ¬ Leaves c s act := by
    intro hnot hleaves
    rcases hleaves with ⟨ok, _, _, hact, _⟩
    exact hnot ok hact
  have hnone : (forall d, act ≠ .finish d) ->
      (forall d bytes, act ≠ .segment d bytes) -> ¬ Arrives c s act := by
    intro hfinish hsegment harrives
    rcases harrives.eq with hact | ⟨bytes, hact⟩
    · exact hfinish c hact
    · exact hsegment c bytes hact
  cases act with
  | connect =>
      simp only [step, stranded_connect_iff,
        hnone (fun _ => Act.noConfusion) (fun _ _ => Act.noConfusion),
        hquiet (fun _ => Act.noConfusion), not_false_eq_true, and_true,
        or_false]
  | segment d bytes =>
      rw [or_iff_left (hquiet (fun _ => Act.noConfusion))]
      exact stranded_segment_iff c d bytes s
  | finish d =>
      rw [or_iff_left (hquiet (fun _ => Act.noConfusion))]
      exact stranded_finish_iff c d s
  | epollWait events =>
      simp only [step, stranded_epollWait_iff,
        hnone (fun _ => Act.noConfusion) (fun _ _ => Act.noConfusion),
        hquiet (fun _ => Act.noConfusion), not_false_eq_true, and_true,
        or_false]
  | handle ok =>
      simp only [step, stranded_handle_iff c ok hnodup,
        hnone (fun _ => Act.noConfusion) (fun _ _ => Act.noConfusion),
        not_false_eq_true, and_true]

theorem nodup_step {s : State} (act : Act) (h : s.batch.Nodup) :
    (step s act).batch.Nodup := by
  cases act with
  | connect => exact h
  | segment c bytes => exact h
  | finish c => exact h
  | epollWait events =>
      show (VirtualListerner.epollWait events s).batch.Nodup
      unfold VirtualListerner.epollWait
      split
      · rename_i hwait
        exact hwait.2.1.filter _
      · exact h
  | handle ok =>
      cases hbatch : s.batch with
      | nil =>
          simp only [step, VirtualListerner.handle, hbatch]
          rw [hbatch] at h
          exact h
      | cons e rest =>
          have hrest : rest.Nodup := by
            rw [hbatch] at h
            exact (List.nodup_cons.mp h).2
          cases e with
          | listen =>
              simp only [step, VirtualListerner.handle, hbatch]
              unfold VirtualListerner.acceptClient
              split
              · split
                · exact h
                · exact hrest
              · exact hrest
          | client d =>
              simp only [step, VirtualListerner.handle, hbatch]
              unfold VirtualListerner.readClient
              split
              · split
                · exact hrest
                · exact h
              · exact hrest

/-- From any state, unread bytes are noticed throughout exactly if the clients
that are stranded already and those that reads strand are relieved in time. -/
theorem always_answered_iff {s : State} (acts : List Act)
    (hnodup : s.batch.Nodup) :
    machine.Always Answered s acts <->
      (forall c, Stranded c s -> Relieved c s acts) ∧ InTime s acts := by
  induction acts generalizing s with
  | nil =>
      refine (answered_iff_not_stranded s).trans ?_
      exact (and_iff_left trivial).symm
  | cons act rest ih =>
      have hnext : machine.Always Answered s (act :: rest) <->
          Answered s ∧ machine.Always Answered (step s act) rest := by
        refine and_congr_right (fun _ => ?_)
        constructor
        · intro h
          rcases h with ⟨next, hstep, hrest⟩
          cases hstep
          exact hrest
        · intro h
          exact ⟨_, rfl, h⟩
      rw [hnext, ih (nodup_step act hnodup), answered_iff_not_stranded]
      constructor
      · intro h
        rcases h with ⟨hopen, hrelieved, htime⟩
        refine ⟨?_, ?_, htime⟩
        · intro c hstranded
          refine ⟨hopen c hstranded, ?_⟩
          by_cases harrives : Arrives c s act
          · exact .inl harrives
          · exact .inr (hrelieved c ((stranded_step_iff c act hnodup).mpr
              (.inl ⟨hstranded, harrives⟩)))
        · intro c hleaves
          exact hrelieved c ((stranded_step_iff c act hnodup).mpr (.inr hleaves))
      · intro h
        rcases h with ⟨hrelieved, hleft, htime⟩
        refine ⟨fun c hstranded => (hrelieved c hstranded).1, ?_, htime⟩
        intro c hstranded
        rcases (stranded_step_iff c act hnodup).mp hstranded with
          ⟨hbefore, hquiet⟩ | hleaves
        · exact (hrelieved c hbefore).2.resolve_left hquiet
        · exact hleft c hleaves

/-!
## Whole runs
-/

theorem not_leaves_of_readsAll {s : State} {act : Act} (h : ReadsAll s act)
    (c : Nat) : ¬ Leaves c s act := by
  intro hleaves
  rcases hleaves with ⟨ok, rest, conn, hact, hbatch, hconn, hstuck, hlong⟩
  rcases h ok c rest conn hact hbatch hconn with hedge | hempty | hall
  · rw [hstuck.2.1] at hedge
    cases hedge
  · exact hstuck.2.2 hempty
  · exact absurd hall.2 (Nat.not_le_of_lt (hlong hall.1))

theorem inTime_of_readsAll {s : State} {acts : List Act}
    (h : machine.Along ReadsAll s acts) : InTime s acts := by
  induction acts generalizing s with
  | nil => trivial
  | cons act rest ih =>
      exact ⟨fun c hleaves => absurd hleaves (not_leaves_of_readsAll h.1 c),
        ih (h.2 _ rfl)⟩

theorem leaves_of_not_readsAll {s : State} {ok : Bool} {c : Nat} {conn : Conn}
    {rest : List Event} (hbatch : s.batch = .client c :: rest)
    (hconn : s.conns[c]? = some conn) (hregistered : conn.phase = .registered)
    (h : ¬ ReadsAll s (.handle ok)) : Leaves c s (.handle ok) := by
  have hall : ¬ (conn.edge = true ∨ conn.recv = [] ∨
      (ok = true ∧ conn.recv.length ≤ READ_LEN)) := by
    intro hread
    apply h
    intro ok' c' rest' conn' hact hbatch' hconn'
    rw [hbatch] at hbatch'
    cases hact
    cases hbatch'
    rw [hconn] at hconn'
    cases hconn'
    exact hread
  rw [not_or, not_or, not_and] at hall
  exact ⟨ok, rest, conn, rfl, hbatch, hconn,
    ⟨hregistered, Bool.eq_false_iff.mpr hall.1, hall.2.1⟩,
    fun hok => Nat.lt_of_not_le (hall.2.2 hok)⟩

/-- No request bytes are left without notice in `epoll_wait`, exactly if after
every read that fails or takes less than there is more arrives from that client
before the batch is done.  It is enough that each read finds no more than it
takes, and the last read of a batch has to. -/
theorem answered_iff_in_time (acts : List Act) :
    (machine.Always Answered State.new acts <-> InTime State.new acts) ∧
    (machine.Along ReadsAll State.new acts ->
      machine.Always Answered State.new acts) ∧
    forall (s : State) (ok : Bool) (c : Nat) (conn : Conn),
      s.batch = [.client c] -> s.conns[c]? = some conn ->
      conn.phase = .registered -> ¬ ReadsAll s (.handle ok) ->
      ¬ Answered (step s (.handle ok)) := by
  have hiff : machine.Always Answered State.new acts <->
      InTime State.new acts := by
    rw [always_answered_iff acts List.nodup_nil]
    refine and_iff_right (fun c hstranded => ?_)
    rcases hstranded with ⟨⟨conn, hconn, _⟩, _⟩
    cases hconn
  refine ⟨hiff, fun h => hiff.mpr (inTime_of_readsAll h), ?_⟩
  intro s ok c conn hbatch hconn hregistered hshort hanswered
  have hnodup : s.batch.Nodup := by
    rw [hbatch]
    exact List.nodup_cons.mpr ⟨List.not_mem_nil, List.nodup_nil⟩
  have hstranded : Stranded c (step s (.handle ok)) :=
    (stranded_step_iff c _ hnodup).mpr
      (.inr (leaves_of_not_readsAll hbatch hconn hregistered hshort))
  refine (answered_iff_not_stranded _).mp hanswered c hstranded ?_
  -- the event is not in the batch any more, and it was the only one
  have hdone := hstranded.2
  simp only [step, VirtualListerner.handle, hbatch] at hdone ⊢
  unfold VirtualListerner.readClient at hdone ⊢
  split
  · split
    · rfl
    · rename_i hok hblocks
      rw [if_pos hok, if_neg hblocks, hbatch] at hdone
      exact absurd List.mem_cons_self hdone
  · rfl

def request (bytes : List Byte) : List Act :=
  [.connect, .epollWait [.listen], .handle true, .segment 0 bytes,
    .epollWait [.client 0], .handle true]

theorem answered_of_short_request :
    machine.Always Answered State.new (request [104, 101, 108, 108, 111]) :=
  (answered_iff_in_time _).2.1 (by decide)

/-- The sixth byte is still unread when the server is back in `epoll_wait`. -/
theorem long_request_unanswered :
    ¬ machine.Always Answered State.new
      (request [104, 101, 108, 108, 111, 33]) := by
  intro halways
  have hend : okWith (fun s : State => decide (s.batch = []) &&
      (s.conns[0]?).any (fun conn => decide (conn.phase = .registered ∧
        conn.edge = false ∧ conn.recv = [33])))
      (machine.run State.new (request [104, 101, 108, 108, 111, 33])) =
        true := by
    decide +kernel
  rcases exists_of_okWith hend with ⟨s, hrun, hs⟩
  rw [Bool.and_eq_true, Option.any_eq_true] at hs
  rcases hs with ⟨hbatch, conn, hconn, hleft⟩
  rcases of_decide_eq_true hleft with ⟨hregistered, hedge, hrecv⟩
  have hempty := halways.last hrun (of_decide_eq_true hbatch) 0 conn hconn
    hregistered hedge
  rw [hrecv] at hempty
  cases hempty

end VirtualListerner
end NetExperiment
