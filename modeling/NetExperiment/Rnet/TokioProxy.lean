import NetExperiment.Foundation.Heap
import NetExperiment.Foundation.Machine

/-!
# The asynchronous proxy

`transfer` connects to the server, makes one future for each direction, joins
the two and returns.  A future does nothing unless it is polled, so the model
says for each future what one poll does, and which futures a poll of `transfer`
reaches.

The two copies work on different halves of the sockets: what the client sends
goes to the server, and what the server sends goes to the client.  Each of these
is a lane of its own.
-/

namespace NetExperiment
namespace TokioProxy

open Foundation

/-- The bytes of one direction: what the sender has still to be read before its
end of file, and what the receiver has got. -/
structure Lane where
  unread : List Byte
  received : List Byte
  shutdown : Bool
deriving DecidableEq, Repr

inductive Direction where
  | clientToServer
  | serverToClient
deriving DecidableEq, Repr

structure Lanes where
  clientToServer : Lane
  serverToClient : Lane
deriving DecidableEq, Repr

def Lanes.lane (lanes : Lanes) : Direction -> Lane
  | .clientToServer => lanes.clientToServer
  | .serverToClient => lanes.serverToClient

def Lanes.setLane (lanes : Lanes) (d : Direction) (lane : Lane) : Lanes :=
  match d with
  | .clientToServer => { lanes with clientToServer := lane }
  | .serverToClient => { lanes with serverToClient := lane }

/-!
## One direction

The block copies until the end of file and then shuts the write half down.  A
read takes some of the bytes that there are, and a write may be short.
-/

inductive IoResult where
  | read (n : Nat)
  | wrote (n : Nat)
  | shut
  | failed
deriving DecidableEq, Repr

/-- Where a block waits.  While it writes, it holds the bytes that it has read
and not written yet. -/
inductive Block where
  | reading
  | writing (buf : List Byte)
  | shutting
  | ready (r : Except Unit Unit)

def Block.copying : List Byte -> Block
  | [] => .reading
  | b :: rest => .writing (b :: rest)

def Lane.read (n : Nat) (lane : Lane) : Block × Lane :=
  if lane.unread = [] then (.shutting, lane)
  else (Block.copying (lane.unread.take n),
    { lane with unread := lane.unread.drop n })

def Lane.write (buf : List Byte) (n : Nat) (lane : Lane) : Block × Lane :=
  if n = 0 then (.ready (.error ()), lane)
  else (Block.copying (buf.drop n),
    { lane with received := lane.received ++ buf.take n })

def Block.poll : Block -> IoResult -> Lane -> Block × Lane
  | .reading, .read n, lane => lane.read n
  | .writing buf, .wrote n, lane => lane.write buf n
  | .shutting, .shut, lane =>
      (.ready (.ok ()), { lane with shutdown := true })
  | .ready r, _, lane => (.ready r, lane)
  | _, .failed, lane => (.ready (.error ()), lane)
  | block, _, lane => (block, lane)

/-!
## The join of both
-/

structure TryJoin where
  clientToServer : Block
  serverToClient : Block

def TryJoin.block (join : TryJoin) : Direction -> Block
  | .clientToServer => join.clientToServer
  | .serverToClient => join.serverToClient

def TryJoin.setBlock (join : TryJoin) (d : Direction) (block : Block) :
    TryJoin :=
  match d with
  | .clientToServer => { join with clientToServer := block }
  | .serverToClient => { join with serverToClient := block }

def tryJoin (clientToServer serverToClient : Block) : TryJoin where
  clientToServer := clientToServer
  serverToClient := serverToClient

def TryJoin.result (join : TryJoin) : Option (Except Unit Unit) :=
  match join.clientToServer, join.serverToClient with
  | .ready (.error e), _ => some (.error e)
  | _, .ready (.error e) => some (.error e)
  | .ready (.ok _), .ready (.ok _) => some (.ok ())
  | _, _ => none

/-- A poll drives the blocks by one operation at a time.  A future that is done
is not polled again. -/
def TryJoin.poll (join : TryJoin) (d : Direction) (r : IoResult)
    (lanes : Lanes) : TryJoin × Lanes :=
  if join.result.isSome then (join, lanes)
  else
    let polled := (join.block d).poll r (lanes.lane d)
    (join.setBlock d polled.1, lanes.setLane d polled.2)

/-!
## The transfer
-/

inductive Transfer where
  | connecting
  | returned (r : Except Unit Unit)

inductive Event where
  | connected (r : Except Unit Unit)
  | io (d : Direction) (r : IoResult)

structure State where
  transfer : Transfer
  join : Option TryJoin
  lanes : Lanes

def State.new (client server : List Byte) : State where
  transfer := .connecting
  join := none
  lanes := ⟨⟨client, [], false⟩, ⟨server, [], false⟩⟩

def transfer (s : State) : Event -> State
  | .connected r =>
      match s.transfer, r with
      | .connecting, .error e =>
          { s with transfer := .returned (.error e) }
      | .connecting, .ok _ =>
          -- the join is made and dropped: there is no await on it
          { s with
            transfer := .returned (.ok ())
            join := some (tryJoin .reading .reading) }
      | .returned _, _ => s
  | .io _ _ =>
      -- no future that waits for it is part of a future that is polled
      s

def machine : Machine State Event Empty where
  step := fun s event => .ok (transfer s event)

/-!
## What a join does that is polled to its end

This is what `transfer` would have to wait for.
-/

/-- The receiver has got the whole stream and then a shutdown. -/
def Delivered (bytes : List Byte) (lane : Lane) : Prop :=
  lane.received = bytes ∧ lane.shutdown = true

def Carried (bytes : List Byte) (lane : Lane) : Block -> Prop
  | .reading => lane.received ++ lane.unread = bytes
  | .writing buf => lane.received ++ buf ++ lane.unread = bytes
  | .shutting => lane.received = bytes
  | .ready (.ok _) => Delivered bytes lane
  | .ready (.error _) => True

theorem carried_copying {bytes buf : List Byte} {lane : Lane}
    (h : lane.received ++ buf ++ lane.unread = bytes) :
    Carried bytes lane (Block.copying buf) := by
  cases buf with
  | nil =>
      rw [List.append_nil] at h
      exact h
  | cons b rest => exact h

theorem carried_read {bytes : List Byte} {lane : Lane}
    (h : lane.received ++ lane.unread = bytes) (n : Nat) :
    Carried bytes (lane.read n).2 (lane.read n).1 := by
  unfold Lane.read
  split
  · rename_i hend
    rw [hend, List.append_nil] at h
    exact h
  · apply carried_copying
    show lane.received ++ lane.unread.take n ++ lane.unread.drop n = bytes
    rw [List.append_assoc, List.take_append_drop]
    exact h

theorem carried_write {bytes buf : List Byte} {lane : Lane}
    (h : lane.received ++ buf ++ lane.unread = bytes) (n : Nat) :
    Carried bytes (lane.write buf n).2 (lane.write buf n).1 := by
  unfold Lane.write
  split
  · trivial
  · apply carried_copying
    show lane.received ++ buf.take n ++ buf.drop n ++ lane.unread = bytes
    rw [List.append_assoc lane.received, List.take_append_drop]
    exact h

theorem Carried.poll {bytes : List Byte} {lane : Lane} {block : Block}
    (h : Carried bytes lane block) (r : IoResult) :
    Carried bytes (block.poll r lane).2 (block.poll r lane).1 := by
  cases block with
  | reading =>
      cases r with
      | read n => exact carried_read h n
      | wrote n => exact h
      | shut => exact h
      | failed => trivial
  | writing buf =>
      cases r with
      | read n => exact h
      | wrote n => exact carried_write h n
      | shut => exact h
      | failed => trivial
  | shutting =>
      cases r with
      | read n => exact h
      | wrote n => exact h
      | shut => exact ⟨h, rfl⟩
      | failed => trivial
  | ready result => exact h

def joinMachine : Machine (TryJoin × Lanes) (Direction × IoResult) Empty where
  step := fun s event => .ok (s.1.poll event.1 event.2 s.2)

def bytesOf (client server : List Byte) : Direction -> List Byte
  | .clientToServer => client
  | .serverToClient => server

theorem poll_carried {client server : List Byte} {join : TryJoin}
    {lanes : Lanes}
    (h : forall d, Carried (bytesOf client server d) (lanes.lane d)
      (join.block d)) (d : Direction) (r : IoResult) (x : Direction) :
    Carried (bytesOf client server x) ((join.poll d r lanes).2.lane x)
      ((join.poll d r lanes).1.block x) := by
  unfold TryJoin.poll
  split
  · exact h x
  · cases d with
    | clientToServer =>
        cases x with
        | clientToServer => exact (h .clientToServer).poll r
        | serverToClient => exact h .serverToClient
    | serverToClient =>
        cases x with
        | clientToServer => exact h .clientToServer
        | serverToClient => exact (h .serverToClient).poll r

theorem TryJoin.result_ok {join : TryJoin}
    (h : join.result = some (.ok ())) (d : Direction) :
    exists x, join.block d = .ready (.ok x) := by
  unfold TryJoin.result at h
  split at h
  · cases h
  · cases h
  · rename_i x y hclient hserver
    cases d with
    | clientToServer => exact ⟨x, hclient⟩
    | serverToClient => exact ⟨y, hserver⟩
  · cases h

theorem TryJoin.result_error {join : TryJoin} {d : Direction} {e : Unit}
    (h : join.block d = .ready (.error e)) :
    join.result = some (.error ()) := by
  unfold TryJoin.result
  cases d with
  | clientToServer =>
      have hblock : join.clientToServer = .ready (.error e) := h
      rw [hblock]
  | serverToClient =>
      have hblock : join.serverToClient = .ready (.error e) := h
      rw [hblock]
      split
      · rfl
      · rfl
      · rename_i hready
        cases hready
      · rename_i hother _
        exact absurd rfl (hother e)

/-- A join of two fresh blocks that is polled until it is done has delivered
both streams, or yields the error of a block that failed. -/
theorem delivered_of_join {client server : List Byte}
    {events : List (Direction × IoResult)} {join : TryJoin} {lanes : Lanes}
    (hrun : joinMachine.run
      (tryJoin .reading .reading, (State.new client server).lanes) events =
        .ok (join, lanes)) :
    (join.result = some (.ok ()) ->
      forall d, Delivered (bytesOf client server d) (lanes.lane d)) ∧
    (forall d e, join.block d = .ready (.error e) ->
      join.result = some (.error ())) := by
  have hcarried : forall d, Carried (bytesOf client server d) (lanes.lane d)
      (join.block d) := by
    refine Machine.run_preserves (M := joinMachine)
      (I := fun s => forall d, Carried (bytesOf client server d) (s.2.lane d)
        (s.1.block d)) ?_ ?_ hrun
    · intro s event next h hnext
      cases hnext
      exact poll_carried h event.1 event.2
    · intro d
      cases d with
      | clientToServer => exact List.nil_append client
      | serverToClient => exact List.nil_append server
  refine ⟨?_, fun d e => TryJoin.result_error⟩
  intro hresult d
  rcases TryJoin.result_ok hresult d with ⟨x, hx⟩
  have hready := hcarried d
  rw [hx] at hready
  exact hready

/-!
## What the transfer does
-/

/-- A transfer that has succeeded has delivered both streams, and one of whose
directions has failed has returned an error. -/
def Complete (client server : List Byte) (s : State) : Prop :=
  (s.transfer = .returned (.ok ()) ->
    forall d, Delivered (bytesOf client server d) (s.lanes.lane d)) ∧
  (forall join d e, s.join = some join -> join.block d = .ready (.error e) ->
    exists e', s.transfer = .returned (.error e'))

structure Untouched (client server : List Byte) (s : State) : Prop where
  lanes : s.lanes = (State.new client server).lanes
  join : forall join, s.join = some join -> join = tryJoin .reading .reading

theorem Untouched.transfer {client server : List Byte} {s : State}
    (h : Untouched client server s) (event : Event) :
    Untouched client server (transfer s event) := by
  rcases s with ⟨future, join, lanes⟩
  cases event with
  | io d r => exact h
  | connected r =>
      cases future with
      | returned result => exact h
      | connecting =>
          cases r with
          | error e => exact ⟨h.lanes, h.join⟩
          | ok x =>
              refine ⟨h.lanes, ?_⟩
              intro made hmade
              exact (Option.some.inj hmade).symm

/-- No direction fails, since none is polled; so all depends on whether the
transfer succeeds. -/
theorem Untouched.complete_iff {client server : List Byte} {s : State}
    (h : Untouched client server s) :
    Complete client server s <-> s.transfer ≠ .returned (.ok ()) := by
  constructor
  · intro hcomplete hok
    have hdelivered := hcomplete.1 hok .clientToServer
    rw [h.lanes] at hdelivered
    cases hdelivered.2
  · intro hpending
    refine ⟨fun hok => absurd hok hpending, ?_⟩
    intro join d e hjoin hfailed
    rw [h.join join hjoin] at hfailed
    cases d <;> cases hfailed

/-- The connection to the server is established while the transfer waits for
it. -/
def Connects (s : State) (event : Event) : Prop :=
  s.transfer = .connecting ∧ event = .connected (.ok ())

theorem transfer_ok_iff {s : State}
    (h : s.transfer ≠ .returned (.ok ())) (event : Event) :
    (transfer s event).transfer ≠ .returned (.ok ()) <->
      ¬ Connects s event := by
  rcases s with ⟨future, join, lanes⟩
  cases event with
  | io d r =>
      refine ⟨?_, fun _ => h⟩
      intro _ hconnects
      cases hconnects.2
  | connected r =>
      cases future with
      | connecting =>
          cases r with
          | ok x =>
              refine ⟨fun hne => absurd rfl hne, ?_⟩
              intro hconnects
              exact absurd ⟨rfl, rfl⟩ hconnects
          | error e =>
              constructor
              · intro _ hconnects
                cases hconnects.2
              · intro _ hok
                cases hok
      | returned result =>
          refine ⟨?_, fun _ => h⟩
          intro _ hconnects
          cases hconnects.1

/-- The transfer is complete in every state exactly if the connection to the
server is never established. -/
theorem complete_iff_never_connects (client server : List Byte)
    (events : List Event) :
    machine.Always (Complete client server) (State.new client server) events <->
      machine.Along (fun s event => ¬ Connects s event)
        (State.new client server) events := by
  have hnew : Untouched client server (State.new client server) := by
    refine ⟨rfl, ?_⟩
    intro join hjoin
    cases hjoin
  refine Machine.always_iff_along (I := Untouched client server) ?_ ?_ hnew
    (hnew.complete_iff.mpr (fun h => by cases h))
  · intro s event hs hP hC
    have hnext := hs.transfer event
    refine ⟨_, rfl, hnext, hnext.complete_iff.mpr ?_⟩
    exact (transfer_ok_iff (hs.complete_iff.mp hP) event).mpr hC
  · intro s event next hs hP hnext hnextP
    cases hnext
    have hafter := (hs.transfer event).complete_iff.mp hnextP
    exact (transfer_ok_iff (hs.complete_iff.mp hP) event).mp hafter

/-- The client and the server have a byte each for the other, and neither of
them is ever read. -/
theorem transfer_drops_join :
    ¬ machine.Always (Complete [65] [66]) (State.new [65] [66])
      [.connected (.ok ())] := by
  intro h
  rcases h with ⟨_, next, hnext, hlast⟩
  cases hnext
  have hdelivered := hlast.1 rfl .clientToServer
  cases hdelivered.1

end TokioProxy
end NetExperiment
