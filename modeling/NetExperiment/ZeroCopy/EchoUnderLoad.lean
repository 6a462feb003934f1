import NetExperiment.ZeroCopy.Backpressure
import NetExperiment.ZeroCopy.LoadClient

/-!
# The load client against the echo server

Both programs run at once, each with its own memory.  Between their sockets are
two wires of bounded capacity, one for each direction.  What a socket sends goes
to the end of its wire, and what the other one reads is taken from the front.

Both sides hold back when a wire is full, and the server also stops reading while
its output buffer is full.  The two never wait for each other.
-/

namespace NetExperiment
namespace EchoUnderLoad

open Foundation
open Libevent

structure Capacity where
  up : Nat
  down : Nat
  up_pos : 0 < up
  down_pos : 0 < down

structure System (ptr : Type) where
  client : LoadClient.World ptr
  server : EchoServer.World ptr
  up : List Byte
  down : List Byte

inductive SystemAction where
  | clientWrites (n : Nat)
  | serverReads (n : Nat)
  | serverWrites (n : Nat)
  | clientReads (n : Nat)
deriving DecidableEq, Repr

section Histories

variable {ptr dataCb eventCb arg memory : Type}

def newlySent (b : ptr) (s s' : Loop ptr dataCb eventCb arg memory) :
    List Byte :=
  (s'.sockets b).sent.drop (s.sockets b).sent.length

def newlyReceived (b : ptr) (s s' : Loop ptr dataCb eventCb arg memory) : Nat :=
  (s'.sockets b).received.length - (s.sockets b).received.length

end Histories

variable {ptr : Type} [DecidableEq ptr]

/-- One program writes to its wire or reads from the other one.  A wire takes
no more than it has room for. -/
def step (cap : Capacity) (c b : ptr) (s : System ptr) :
    SystemAction -> Except (Fault Resource ptr) (System ptr)
  | .clientWrites n =>
      if s.up.length + n ≤ cap.up then do
        let client <- LoadClient.step c s.client (.ready (.write n))
        return { s with
          client := client
          up := s.up ++ newlySent c s.client client }
      else .ok s
  | .serverReads n => do
      let server <- (EchoServer.machine b).step s.server (.read (s.up.take n))
      return { s with
        server := server
        up := s.up.drop (newlyReceived b s.server server) }
  | .serverWrites n =>
      if s.down.length + n ≤ cap.down then do
        let server <- (EchoServer.machine b).step s.server (.write n)
        return { s with
          server := server
          down := s.down ++ newlySent b s.server server }
      else .ok s
  | .clientReads n => do
      let client <- LoadClient.step c s.client (.ready (.read (s.down.take n)))
      return { s with
        client := client
        down := s.down.drop (newlyReceived c s.client client) }

def machine (cap : Capacity) (c b : ptr) :
    Machine (System ptr) SystemAction (Fault Resource ptr) where
  step := step cap c b

/-- The client is made and its connection is established, the server accepts it,
and nothing is on the wires yet. -/
def start (c b : ptr) (socketConnect : Int) (client : LoadClient.World ptr)
    (server : EchoServer.World ptr) :
    Except (Fault Resource ptr) (System ptr) := do
  let client <- LoadClient.initClient c socketConnect client
  let client <- LoadClient.step c client .connected
  let server <- EchoServer.acceptCb2 b server
  return { client := client, server := server, up := [], down := [] }

theorem drop_length_take (wire : List Byte) (n : Nat) :
    wire.drop (wire.take n).length = wire.drop n := by
  rw [List.length_take]
  rcases Nat.le_total n wire.length with hle | hle
  · rw [Nat.min_eq_left hle]
  · rw [Nat.min_eq_right hle, List.drop_length, List.drop_eq_nil_of_le hle]

/-- The bytes that the four ends of the wires have moved so far. -/
def moved (c b : ptr) (s : System ptr) : Nat :=
  (s.client.sockets c).sent.length + (s.server.sockets b).received.length +
    (s.server.sockets b).sent.length + (s.client.sockets c).received.length

/-!
## The echo server, with what it moves
-/

section Server

open EchoServer

variable {s : EchoServer.World ptr} {b : ptr} {bev : EchoServer.Bev ptr}

theorem server_reads (h : Echoing b s bev) (hbalanced : Balanced bev)
    {bytes : List Byte} (hread : bev.enabledRead = true ∧ bytes ≠ []) :
    exists s' bev', (EchoServer.machine b).step s (.read bytes) = .ok s' ∧
      Echoing b s' bev' ∧ Balanced bev' ∧
      bev'.output = bev.output ++ bytes ∧
      (s'.sockets b).received = (s.sockets b).received ++ bytes ∧
      (s'.sockets b).sent = (s.sockets b).sent := by
  have hstep : (EchoServer.machine b).step s (.read bytes) =
      s.dispatchLive program b bev (.read bytes) :=
    Loop.dispatch_live _ h.live
  have houtput : (afterRead b (bev.onChannel
      (Channel.socketRead false bytes))).output = bev.output ++ bytes := by
    have hinput : bev.output ++ (bev.input ++ bytes) = bev.output ++ bytes := by
      rw [h.input, List.nil_append]
    unfold afterRead
    split
    · exact hinput
    · exact hinput
  rw [hstep]
  simp only [Loop.dispatchLive]
  rw [if_pos hread, h.readcb hread.1]
  exact ⟨_, _, sockertReadCb2_live bev.cbarg (Loop.setBev_bevs_self _ _ _),
    echoing_afterRead h hread.1 bytes,
    balanced_afterRead hbalanced hread.1 b bytes, houtput,
    s.readBytes_received b bev bytes, s.readBytes_sent b bev bytes⟩

theorem server_writes (h : Echoing b s bev) (hbalanced : Balanced bev)
    {n : Nat} (hn : 0 < n ∧ n ≤ bev.output.length) :
    exists s' bev', (EchoServer.machine b).step s (.write n) = .ok s' ∧
      Echoing b s' bev' ∧ Balanced bev' ∧ bev'.output = bev.output.drop n ∧
      (s'.sockets b).received = (s.sockets b).received ∧
      (s'.sockets b).sent = (s.sockets b).sent ++ bev.output.take n := by
  have hstep : (EchoServer.machine b).step s (.write n) =
      s.dispatchLive program b bev (.write n) := Loop.dispatch_live _ h.live
  have hwritten := echoing_writeBytes h n
  have hreceived := s.writeBytes_received b bev n
  have hsent := s.writeBytes_sent b bev n
  rw [hstep]
  simp only [Loop.dispatchLive]
  rw [if_pos ⟨hbalanced.writes, hn⟩]
  rcases hbalanced.mode with hreads | hpaused
  · rw [hreads.writecb]
    refine ⟨s.writeBytes b bev n, _, ?_, hwritten,
      balanced_socketWrite hbalanced (.inl hreads.writecb), rfl, hreceived,
      hsent⟩
    split <;> rfl
  · by_cases hlow : (bev.output.drop n).length ≤ bev.wmWriteLow
    · have hless : (bev.output.drop n).length < MAX_OUTPUT := by
        rw [hpaused.low] at hlow
        exact Nat.lt_of_le_of_lt hlow MAX_OUTPUT_half_lt
      rw [if_pos hlow, hpaused.writecb]
      exact ⟨_, _, drainedWritecb_live bev.cbarg hwritten.live,
        echoing_drained hwritten,
        balanced_drained hbalanced.input hbalanced.writes hless, rfl,
        hreceived, hsent⟩
    · rw [if_neg hlow]
      exact ⟨_, _, rfl, hwritten, balanced_socketWrite hbalanced (.inr hlow),
        rfl, hreceived, hsent⟩

theorem server_start (b : ptr) (s : EchoServer.World ptr) :
    exists s0 bev, acceptCb2 b s = .ok s0 ∧ Echoing b s0 bev ∧
      Balanced bev ∧ bev.output = [] ∧ s0.sockets b = Socket.new := by
  rcases acceptCb2_served b s with ⟨s0, hstart, bev, hechoing⟩
  rcases acceptCb2_flows b s with ⟨s1, hstart1, hflows⟩
  have heq := acceptCb2_eq b s
  rw [heq] at hstart hstart1
  cases hstart
  cases hstart1
  rcases hflows with ⟨bev1, hlive, hbalanced⟩ | hfreed
  · have hsame := hlive.symm.trans hechoing.live
    cases hsame
    have hcell := hlive.symm.trans (Loop.setBev_bevs_self _ _ _)
    cases hcell
    exact ⟨_, _, heq, hechoing, hbalanced, rfl, Function.update_self _ _ _⟩
  · rw [hechoing.live] at hfreed
    cases hfreed

end Server

/-!
## The invariant

What one side has sent is what the other one has received, followed by what is
on the wire.  The server reads only below its limit, and then at most what the
wire holds.
-/

structure Coupled (cap : Capacity) (c b : ptr) (s : System ptr)
    (cbev : LoadClient.Bev) (bev : EchoServer.Bev ptr) : Prop where
  client : LoadClient.Streams c s.client cbev
  clientOpen : cbev.enabledRead = true ∧ cbev.enabledWrite = true
  server : EchoServer.Echoing b s.server bev
  balanced : EchoServer.Balanced bev
  upWire : (s.client.sockets c).sent = (s.server.sockets b).received ++ s.up
  downWire : (s.server.sockets b).sent =
    (s.client.sockets c).received ++ s.down
  upRoom : s.up.length ≤ cap.up
  downRoom : s.down.length ≤ cap.down
  queue : bev.output.length < EchoServer.MAX_OUTPUT + cap.up

def Advances (cap : Capacity) (c b : ptr) (s : System ptr) (a : SystemAction) :
    Prop :=
  exists s', step cap c b s a = .ok s' ∧ moved c b s < moved c b s' ∧
    exists cbev bev, Coupled cap c b s' cbev bev

section Steps

variable {cap : Capacity} {c b : ptr} {s : System ptr}
  {cbev : LoadClient.Bev} {bev : EchoServer.Bev ptr}

theorem client_ready (h : Coupled cap c b s cbev bev) (r : Readiness) :
    LoadClient.step c s.client (.ready r) =
      s.client.dispatchLive LoadClient.program c cbev r := by
  have hopen : ¬ s.client.memory = true := by
    rw [h.client.established]
    decide
  simp only [LoadClient.step, h.client.live]
  exact if_neg hopen

theorem Coupled.clientWrites (h : Coupled cap c b s cbev bev) {n : Nat}
    (hn : 0 < n ∧ n ≤ cbev.output.length) (hroom : s.up.length + n ≤ cap.up) :
    Advances cap c b s (.clientWrites n) := by
  rcases h.client.writes ⟨h.clientOpen.2, hn⟩ with
    ⟨client, cbev', hstep, hstreams, hread, hwrite, hsent, hreceived⟩
  have hnew : newlySent c s.client client = cbev.output.take n := by
    unfold newlySent
    rw [hsent, List.drop_left]
  have htaken : (cbev.output.take n).length = n := by
    rw [List.length_take, Nat.min_eq_left hn.2]
  refine ⟨{ s with client := client, up := s.up ++ cbev.output.take n }, ?_,
    ?_, cbev', bev, hstreams, ?_, h.server, h.balanced, ?_, ?_, ?_, h.downRoom,
    h.queue⟩
  · simp only [step, client_ready h, if_pos hroom, hstep, ok_bind, hnew,
      pure_eq_ok]
  · simp only [moved, hsent, hreceived, List.length_append, htaken]
    omega
  · rw [hread, hwrite]
    exact h.clientOpen
  · show (client.sockets c).sent = _
    rw [hsent, h.upWire, List.append_assoc]
  · show _ = (client.sockets c).received ++ s.down
    rw [hreceived]
    exact h.downWire
  · show (s.up ++ cbev.output.take n).length ≤ cap.up
    rw [List.length_append, htaken]
    exact hroom

theorem Coupled.serverReads (h : Coupled cap c b s cbev bev) {n : Nat}
    (henabled : bev.enabledRead = true) (htake : s.up.take n ≠ []) :
    Advances cap c b s (.serverReads n) := by
  rcases server_reads h.server h.balanced ⟨henabled, htake⟩ with
    ⟨server, bev', hstep, hechoing, hbalanced, houtput, hreceived, hsent⟩
  have hnew : newlyReceived b s.server server = (s.up.take n).length := by
    unfold newlyReceived
    rw [hreceived, List.length_append, Nat.add_sub_cancel_left]
  have hdrop := drop_length_take s.up n
  have hpos : 0 < (s.up.take n).length := List.length_pos_iff.mpr htake
  have hshort : (s.up.take n).length ≤ s.up.length := List.length_take_le' _ _
  have hbelow := (h.balanced.reads_of_enabled henabled).output
  have hup := h.upRoom
  refine ⟨{ s with server := server, up := s.up.drop n }, ?_, ?_, cbev, bev',
    h.client, h.clientOpen, hechoing, hbalanced, ?_, ?_, ?_, h.downRoom, ?_⟩
  · simp only [step, hstep, ok_bind, hnew, hdrop, pure_eq_ok]
  · simp only [moved, hsent, hreceived, List.length_append]
    omega
  · show _ = (server.sockets b).received ++ s.up.drop n
    rw [hreceived, List.append_assoc, List.take_append_drop]
    exact h.upWire
  · show (server.sockets b).sent = _
    rw [hsent]
    exact h.downWire
  · exact Nat.le_trans (List.drop_sublist n s.up).length_le hup
  · rw [houtput, List.length_append]
    omega

theorem Coupled.serverWrites (h : Coupled cap c b s cbev bev) {n : Nat}
    (hn : 0 < n ∧ n ≤ bev.output.length)
    (hroom : s.down.length + n ≤ cap.down) :
    Advances cap c b s (.serverWrites n) := by
  rcases server_writes h.server h.balanced hn with
    ⟨server, bev', hstep, hechoing, hbalanced, houtput, hreceived, hsent⟩
  have hnew : newlySent b s.server server = bev.output.take n := by
    unfold newlySent
    rw [hsent, List.drop_left]
  have htaken : (bev.output.take n).length = n := by
    rw [List.length_take, Nat.min_eq_left hn.2]
  have hqueue := h.queue
  refine ⟨{ s with server := server, down := s.down ++ bev.output.take n }, ?_,
    ?_, cbev, bev', h.client, h.clientOpen, hechoing, hbalanced, ?_, ?_,
    h.upRoom, ?_, ?_⟩
  · simp only [step, if_pos hroom, hstep, ok_bind, hnew, pure_eq_ok]
  · simp only [moved, hsent, hreceived, List.length_append, htaken]
    omega
  · show _ = (server.sockets b).received ++ s.up
    rw [hreceived]
    exact h.upWire
  · show (server.sockets b).sent = _
    rw [hsent, h.downWire, List.append_assoc]
  · show (s.down ++ bev.output.take n).length ≤ cap.down
    rw [List.length_append, htaken]
    exact hroom
  · rw [houtput, List.length_drop]
    omega

theorem Coupled.clientReads (h : Coupled cap c b s cbev bev) {n : Nat}
    (htake : s.down.take n ≠ []) :
    Advances cap c b s (.clientReads n) := by
  rcases h.client.reads (s.down.take n) ⟨h.clientOpen.1, htake⟩ with
    ⟨client, cbev', hstep, hstreams, _, hread, hwrite, hsent, hreceived⟩
  have hnew : newlyReceived c s.client client = (s.down.take n).length := by
    unfold newlyReceived
    rw [hreceived, List.length_append, Nat.add_sub_cancel_left]
  have hdrop := drop_length_take s.down n
  have hpos : 0 < (s.down.take n).length := List.length_pos_iff.mpr htake
  refine ⟨{ s with client := client, down := s.down.drop n }, ?_, ?_, cbev',
    bev, hstreams, ?_, h.server, h.balanced, ?_, ?_, h.upRoom, ?_, h.queue⟩
  · simp only [step, client_ready h, hstep, ok_bind, hnew, hdrop, pure_eq_ok]
  · simp only [moved, hsent, hreceived, List.length_append]
    omega
  · rw [hread, hwrite]
    exact h.clientOpen
  · show (client.sockets c).sent = _
    rw [hsent]
    exact h.upWire
  · show _ = (client.sockets c).received ++ s.down.drop n
    rw [hreceived, List.append_assoc, List.take_append_drop]
    exact h.downWire
  · exact Nat.le_trans (List.drop_sublist n s.down).length_le h.downRoom

theorem client_idle (h : Coupled cap c b s cbev bev) {r : Readiness}
    (hidle : s.client.dispatchLive LoadClient.program c cbev r =
      .ok s.client) :
    LoadClient.step c s.client (.ready r) = .ok s.client :=
  (client_ready h r).trans hidle

omit [DecidableEq ptr] in
theorem newlySent_self {dataCb eventCb arg memory : Type}
    (s : Loop ptr dataCb eventCb arg memory) : newlySent b s s = [] :=
  List.drop_length

omit [DecidableEq ptr] in
theorem newlyReceived_self {dataCb eventCb arg memory : Type}
    (s : Loop ptr dataCb eventCb arg memory) : newlyReceived b s s = 0 :=
  Nat.sub_self _

theorem Coupled.step_cases (h : Coupled cap c b s cbev bev)
    (a : SystemAction) :
    Advances cap c b s a ∨ step cap c b s a = .ok s := by
  cases a with
  | clientWrites n =>
      by_cases hroom : s.up.length + n ≤ cap.up
      · by_cases hn : 0 < n ∧ n ≤ cbev.output.length
        · exact .inl (h.clientWrites hn hroom)
        · right
          have hidle := client_idle h (r := .write n)
            (if_neg (fun hwrite => hn hwrite.2))
          simp only [step, if_pos hroom, hidle, ok_bind, newlySent_self,
            List.append_nil, pure_eq_ok]
      · exact .inr (if_neg hroom)
  | serverReads n =>
      by_cases hread : bev.enabledRead = true ∧ s.up.take n ≠ []
      · exact .inl (h.serverReads hread.1 hread.2)
      · right
        have hidle : (EchoServer.machine b).step s.server
            (.read (s.up.take n)) = .ok s.server :=
          (Loop.dispatch_live _ h.server.live).trans (if_neg hread)
        simp only [step, hidle, ok_bind, newlyReceived_self, List.drop_zero,
          pure_eq_ok]
  | serverWrites n =>
      by_cases hroom : s.down.length + n ≤ cap.down
      · by_cases hn : 0 < n ∧ n ≤ bev.output.length
        · exact .inl (h.serverWrites hn hroom)
        · right
          have hidle : (EchoServer.machine b).step s.server (.write n) =
              .ok s.server :=
            (Loop.dispatch_live _ h.server.live).trans
              (if_neg (fun hwrite => hn hwrite.2))
          simp only [step, if_pos hroom, hidle, ok_bind, newlySent_self,
            List.append_nil, pure_eq_ok]
      · exact .inr (if_neg hroom)
  | clientReads n =>
      by_cases htake : s.down.take n ≠ []
      · exact .inl (h.clientReads htake)
      · right
        have hidle := client_idle h (r := .read (s.down.take n))
          (if_neg (fun hread => htake hread.2))
        simp only [step, hidle, ok_bind, newlyReceived_self, List.drop_zero,
          pure_eq_ok]

/-- Some action always moves bytes.  The last wire that holds something can be
emptied; if both are empty, the server has something to write or is reading,
and the client has something to write at all times. -/
theorem Coupled.advances (h : Coupled cap c b s cbev bev) :
    exists a, Advances cap c b s a := by
  have hfilled := h.client.filled
  by_cases hdown : s.down = []
  · by_cases houtput : bev.output = []
    · by_cases hup : s.up = []
      · have hroom : s.up.length + 1 ≤ cap.up := by
          rw [hup]
          exact cap.up_pos
        exact ⟨_, h.clientWrites (n := 1) ⟨Nat.one_pos, by omega⟩ hroom⟩
      · have henabled : bev.enabledRead = true := by
          rcases h.balanced.mode with hreads | hpaused
          · exact hreads.enabled
          · -- a server that is paused still has half of its limit to write
            have hmore := hpaused.output
            rw [houtput] at hmore
            exact absurd hmore (Nat.not_lt_zero _)
        have htake : s.up.take s.up.length ≠ [] := by
          rw [List.take_length]
          exact hup
        exact ⟨_, h.serverReads henabled htake⟩
    · have hroom : s.down.length + 1 ≤ cap.down := by
        rw [hdown]
        exact cap.down_pos
      exact ⟨_, h.serverWrites (n := 1)
        ⟨Nat.one_pos, List.length_pos_iff.mpr houtput⟩ hroom⟩
  · have htake : s.down.take s.down.length ≠ [] := by
      rw [List.take_length]
      exact hdown
    exact ⟨_, h.clientReads htake⟩

end Steps

/-!
## Whole runs
-/

/-- What was moved in all is at most four times what came back, and what the
wires and the server can hold. -/
def inFlight (cap : Capacity) : Nat :=
  3 * cap.up + 3 * cap.down + 2 * EchoServer.MAX_OUTPUT

omit [DecidableEq ptr] in
theorem Coupled.moved_le {cap : Capacity} {c b : ptr} {s : System ptr}
    {cbev : LoadClient.Bev} {bev : EchoServer.Bev ptr}
    (h : Coupled cap c b s cbev bev) :
    moved c b s ≤
      4 * (s.client.sockets c).received.length + inFlight cap := by
  have hup := congrArg List.length h.upWire
  have hdown := congrArg List.length h.downWire
  have hserver := congrArg List.length h.server.bytes
  have hupRoom := h.upRoom
  have hdownRoom := h.downRoom
  have hqueue := h.queue
  rw [List.length_append] at hup hdown hserver
  unfold moved inFlight
  omega

theorem start_coupled (cap : Capacity) (c b : ptr) {socketConnect : Int}
    (h : ¬ socketConnect < 0) (client : LoadClient.World ptr)
    (server : EchoServer.World ptr) :
    exists s cbev bev, start c b socketConnect client server = .ok s ∧
      Coupled cap c b s cbev bev ∧ moved c b s = 0 := by
  rcases LoadClient.initClient_connecting c client h with
    ⟨c0, bev0, hinit, hconnecting⟩
  rcases hconnecting.connected with
    ⟨c1, cbev, hconnected, hstreams, hread, hwrite, hsocket⟩
  rcases server_start b server with
    ⟨s0, bev, haccept, hechoing, hbalanced, houtput, hsocket'⟩
  have hstep : LoadClient.step c c0 .connected = .ok c1 := hconnected
  refine ⟨⟨c1, s0, [], []⟩, cbev, bev, ?_, ?_, ?_⟩
  · simp only [start, hinit, ok_bind, hstep, haccept, pure_eq_ok]
  · refine ⟨hstreams, ⟨hread, hwrite⟩, hechoing, hbalanced, ?_, ?_,
      Nat.zero_le _, Nat.zero_le _, ?_⟩
    · simp only [hsocket, hsocket']
      rfl
    · simp only [hsocket, hsocket']
      rfl
    · rw [houtput]
      exact Nat.lt_of_lt_of_le cap.up_pos (Nat.le_add_left _ _)
  · simp only [moved, hsocket, hsocket']
    rfl

/-- What comes back is a prefix of what was sent, which is a prefix of copies of
the block; the server queues no more than its limit and one wire; and some
action moves bytes. -/
structure Healthy (cap : Capacity) (c b : ptr) (s : System ptr) : Prop where
  returned : (s.client.sockets c).received <+: (s.client.sockets c).sent
  stream : exists k, (s.client.sockets c).sent <+: LoadClient.copies k
  queue : forall bev, s.server.bevs b = .live bev ->
    bev.output.length < EchoServer.MAX_OUTPUT + cap.up
  alive : exists a s', step cap c b s a = .ok s' ∧ moved c b s < moved c b s'

theorem Coupled.healthy {cap : Capacity} {c b : ptr} {s : System ptr}
    {cbev : LoadClient.Bev} {bev : EchoServer.Bev ptr}
    (h : Coupled cap c b s cbev bev) : Healthy cap c b s := by
  constructor
  case returned =>
    refine ⟨s.down ++ bev.output ++ s.up, ?_⟩
    rw [h.upWire, h.server.bytes, h.downWire]
    simp only [List.append_assoc]
  case stream =>
    rcases h.client.stream with ⟨k, hk⟩
    exact ⟨k, cbev.output, hk⟩
  case queue =>
    intro bev' hlive
    have hsame := hlive.symm.trans h.server.live
    cases hsame
    exact h.queue
  case alive =>
    rcases h.advances with ⟨a, s', hstep, hmoved, _⟩
    exact ⟨a, s', hstep, hmoved⟩

theorem Coupled.step_coupled {cap : Capacity} {c b : ptr} {s : System ptr}
    (h : exists cbev bev, Coupled cap c b s cbev bev) (a : SystemAction) :
    exists s', (machine cap c b).step s a = .ok s' ∧
      exists cbev bev, Coupled cap c b s' cbev bev := by
  rcases h with ⟨cbev, bev, h⟩
  rcases h.step_cases a with ⟨s', hstep, _, hnext⟩ | hidle
  · exact ⟨s', hstep, hnext⟩
  · exact ⟨s, hidle, cbev, bev, h⟩

/-- In every state that the client and the server reach over wires of any
capacity, whatever the order and the sizes of the reads and writes, the bytes
come back in order, the memory of the server is bounded, and the two do not wait
for each other. -/
theorem healthy_of_run (cap : Capacity) (c b : ptr) {socketConnect : Int}
    (h : ¬ socketConnect < 0) (client : LoadClient.World ptr)
    (server : EchoServer.World ptr) (acts : List SystemAction) :
    exists s, start c b socketConnect client server = .ok s ∧
      (machine cap c b).Always (Healthy cap c b) s acts := by
  rcases start_coupled cap c b h client server with
    ⟨s, cbev, bev, hstart, hcoupled, _⟩
  refine ⟨s, hstart, ?_⟩
  refine Machine.always_of_step
    (I := fun s => exists cbev bev, Coupled cap c b s cbev bev) ?_
    (fun _ a ht => Coupled.step_coupled ht a) ⟨cbev, bev, hcoupled⟩ acts
  intro t ht
  rcases ht with ⟨cbev', bev', ht⟩
  exact ht.healthy

def shortWires : Capacity := ⟨3, 2, by decide, by decide⟩

theorem healthy_of_short_wires :
    exists s, start 0 1 0 LoadClient.World.empty EchoServer.World.empty =
        .ok s ∧
      (machine shortWires 0 1).Always (Healthy shortWires 0 1) s
        [.clientWrites 3, .clientWrites 1, .serverReads 2, .serverWrites 2,
          .clientReads 5, .serverReads 5] :=
  healthy_of_run shortWires 0 1 (by decide) LoadClient.World.empty
    EchoServer.World.empty _

/-- The action moves at least one byte. -/
def Effective (cap : Capacity) (c b : ptr) (s : System ptr)
    (a : SystemAction) : Prop :=
  exists s', step cap c b s a = .ok s' ∧ moved c b s < moved c b s'

theorem length_add_moved_le {cap : Capacity} {c b : ptr} {s last : System ptr}
    {acts : List SystemAction}
    (heffective : (machine cap c b).Along (Effective cap c b) s acts)
    (hrun : (machine cap c b).run s acts = .ok last) :
    acts.length + moved c b s ≤ moved c b last := by
  induction acts generalizing s with
  | nil =>
      cases hrun
      exact Nat.le_of_eq (Nat.zero_add _)
  | cons a rest ih =>
      rcases Machine.run_cons_ok hrun with ⟨next, hnext, hrest⟩
      rcases heffective.1 with ⟨s', hs', hmoved⟩
      have hstep : step cap c b s a = .ok next := hnext
      rw [hs'] at hstep
      cases hstep
      have hlater := ih (heffective.2 _ hnext) hrest
      rw [List.length_cons]
      omega

/-- However the reads and writes are scheduled, as long as each of them moves a
byte, one byte comes back for every four of them, up to what the wires and the
server can hold. -/
theorem returned_of_effective_run (cap : Capacity) (c b : ptr)
    {socketConnect : Int} (h : ¬ socketConnect < 0)
    (client : LoadClient.World ptr) (server : EchoServer.World ptr)
    {s last : System ptr} {acts : List SystemAction}
    (hstart : start c b socketConnect client server = .ok s)
    (heffective : (machine cap c b).Along (Effective cap c b) s acts)
    (hrun : (machine cap c b).run s acts = .ok last) :
    acts.length ≤
      4 * (last.client.sockets c).received.length + inFlight cap := by
  rcases start_coupled cap c b h client server with
    ⟨s', cbev, bev, hstart', hcoupled, hzero⟩
  rw [hstart] at hstart'
  cases hstart'
  have hlast : exists cbev bev, Coupled cap c b last cbev bev := by
    refine Machine.run_preserves
      (I := fun s => exists cbev bev, Coupled cap c b s cbev bev) ?_
      ⟨cbev, bev, hcoupled⟩ hrun
    intro t a next ht hnext
    rcases Coupled.step_coupled ht a with ⟨next', hnext', hcoupled'⟩
    rw [hnext] at hnext'
    cases hnext'
    exact hcoupled'
  rcases hlast with ⟨cbev', bev', hcoupled'⟩
  have hlength := length_add_moved_le heffective hrun
  rw [hzero] at hlength
  exact Nat.le_trans hlength hcoupled'.moved_le

theorem Coupled.exists_effective_run {cap : Capacity} {c b : ptr}
    {s : System ptr} (h : exists cbev bev, Coupled cap c b s cbev bev)
    (count : Nat) :
    exists acts last, acts.length = count ∧
      (machine cap c b).Along (Effective cap c b) s acts ∧
      (machine cap c b).run s acts = .ok last := by
  induction count generalizing s with
  | zero => exact ⟨[], s, rfl, trivial, rfl⟩
  | succ count ih =>
      rcases h with ⟨cbev, bev, h⟩
      rcases h.advances with ⟨a, next, hstep, hmoved, hnext⟩
      have hmachine : (machine cap c b).step s a = .ok next := hstep
      rcases ih hnext with ⟨acts, last, hlength, heffective, hrun⟩
      refine ⟨a :: acts, last, congrArg Nat.succ hlength,
        ⟨⟨next, hstep, hmoved⟩, ?_⟩, ?_⟩
      · intro next' hnext'
        rw [hmachine] at hnext'
        cases hnext'
        exact heffective
      · rw [Machine.run_cons_of_ok acts hmachine]
        exact hrun

/-- After more steps than the wires and the server can hold, a byte has come
back. -/
theorem returned_after_filling :
    exists s acts last, start 0 1 0 LoadClient.World.empty
        EchoServer.World.empty = .ok s ∧
      (machine shortWires 0 1).Along (Effective shortWires 0 1) s acts ∧
      (machine shortWires 0 1).run s acts = .ok last ∧
      acts.length = inFlight shortWires + 1 ∧
      0 < (last.client.sockets 0).received.length := by
  have hconnect : ¬ (0 : Int) < 0 := by
    decide
  rcases start_coupled shortWires 0 1 hconnect
    LoadClient.World.empty EchoServer.World.empty with
    ⟨s, cbev, bev, hstart, hcoupled, _⟩
  rcases Coupled.exists_effective_run ⟨cbev, bev, hcoupled⟩
    (inFlight shortWires + 1) with ⟨acts, last, hlength, heffective, hrun⟩
  have hreturned := returned_of_effective_run shortWires 0 1 hconnect
    LoadClient.World.empty EchoServer.World.empty hstart heffective hrun
  refine ⟨s, acts, last, hstart, heffective, hrun, hlength, ?_⟩
  omega

end EchoUnderLoad
end NetExperiment
