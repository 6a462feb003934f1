import NetExperiment.Libevent.Immediate

/-!
# The load client

A client that keeps its output buffer filled with copies of one block of data
and throws away whatever comes back.  Its callbacks are not deferred.

The bufferevent is made without a socket and connects on its own.  While it is
connecting nothing is read or written; the end of the connecting is an event,
which installs the callbacks that keep the data flowing and takes the event
callback away.
-/

namespace NetExperiment
namespace LoadClient

open Foundation
open Libevent

def DATA_LEN : Nat := 4 * 1024 * 1024

def data : List Byte :=
  List.replicate (DATA_LEN - 1) 48 ++ [0]

@[simp] theorem data_length : data.length = DATA_LEN := by
  unfold data
  rw [List.length_append, List.length_replicate]
  rfl

inductive DataCb where
  | readcb
  | writecb
  | writeData
deriving DecidableEq, Repr

inductive EventCb where
  | eventcb
deriving DecidableEq, Repr

inductive CbArg where
  | base
deriving DecidableEq, Repr

/-- Beside its bufferevent the loop keeps whether that is still connecting. -/
abbrev World (ptr : Type) := Loop ptr DataCb EventCb CbArg Bool

abbrev Result (ptr alpha : Type) := Except (Fault Resource ptr) alpha

abbrev Bev := Bufferevent DataCb EventCb CbArg

variable {ptr : Type} [DecidableEq ptr]

def World.empty : World ptr where
  bevs := Heap.empty
  sockets := fun _ => Socket.new
  memory := false

/-!
## Callbacks
-/

def readcb (b : ptr) (_base : Option CbArg) (s : World ptr) :
    Result ptr (World ptr) := do
  let len <- s.inputLength b
  s.evbufferDrainInput b len

def writecb (b : ptr) (_base : Option CbArg) (s : World ptr) :
    Result ptr (World ptr) :=
  s.evbufferAdd b data

def writeData (b : ptr) (base : Option CbArg) (s : World ptr) :
    Result ptr (World ptr) := do
  let s <- s.evbufferAdd b data
  let s <- s.buffereventSetcb b (some .readcb) (some .writecb) none base
  s.buffereventSetwatermarkWrite b (DATA_LEN / 2) DATA_LEN

/-- An end of file or an error is only printed. -/
def eventcb (b : ptr) (what : What) (base : Option CbArg) (s : World ptr) :
    Result ptr (World ptr) :=
  if what &&& BEV_EVENT_CONNECTED ≠ 0 then writeData b base s else .ok s

def program : Loop.Program ptr DataCb EventCb CbArg Bool where
  data
    | .readcb => readcb
    | .writecb => writecb
    | .writeData => writeData
  event
    | .eventcb => eventcb

def initClient (b : ptr) (socketConnect : Int) (s : World ptr) :
    Result ptr (World ptr) := do
  let s := s.buffereventSocketNew b
  if socketConnect < 0 then s.buffereventFree b
  else
    let s := { s with memory := true }
    let s <- s.buffereventSetcb b (some .readcb) (some .writeData)
      (some .eventcb) (some .base)
    s.buffereventEnable b true true

/-!
## Steps
-/

inductive ClientAction where
  | connected
  | refused
  | ready (r : Readiness)
deriving DecidableEq, Repr

/-- The connecting ends.  A refused connection is neither read nor written from
then on. -/
def finishConnecting (b : ptr) (bev : Bev) (established : Bool)
    (s : World ptr) : Result ptr (World ptr) :=
  let s := { s with memory := false }
  if established then
    s.callEvent program bev.eventcb b BEV_EVENT_CONNECTED bev.cbarg
  else
    (s.setBev b (bev.onChannel (Channel.disable true true))).callEvent program
      bev.eventcb b BEV_EVENT_ERROR bev.cbarg

def step (b : ptr) (s : World ptr) (a : ClientAction) :
    Result ptr (World ptr) :=
  match a, s.bevs b with
  | .connected, .live bev =>
      if s.memory = true then finishConnecting b bev true s else .ok s
  | .refused, .live bev =>
      if s.memory = true then finishConnecting b bev false s else .ok s
  | .ready r, .live bev =>
      if s.memory = true then .ok s else s.dispatchLive program b bev r
  | _, _ => .ok s

def machine (b : ptr) :
    Machine (World ptr) ClientAction (Fault Resource ptr) where
  step := step b

/-- A write fails: libevent stops writing before it looks for an event
callback. -/
def ClientAction.FailsWrite : ClientAction -> Prop
  | .ready (.event what) => what.Fatal ∧ what &&& BEV_EVENT_WRITING ≠ 0
  | _ => False

instance : (a : ClientAction) -> Decidable a.FailsWrite
  | .connected => .isFalse id
  | .refused => .isFalse id
  | .ready (.read _) => .isFalse id
  | .ready (.write _) => .isFalse id
  | .ready (.event _) => inferInstanceAs (Decidable (_ ∧ _))

/-!
## What the callbacks do to a live bufferevent
-/

section Callbacks

variable {s : World ptr} {b : ptr} {bev : Bev}

def emptied (bev : Bev) : Bev :=
  bev.onChannel fun c => { c with input := c.input.drop c.input.length }

def refilled (bev : Bev) : Bev :=
  bev.onChannel fun c => { c with output := c.output ++ data }

def started (base : Option CbArg) (bev : Bev) : Bev :=
  ((refilled bev).setcb (some .readcb) (some .writecb) none base).onChannel
    (Channel.setwatermarkWrite (DATA_LEN / 2) DATA_LEN)

theorem readcb_live (base : Option CbArg) (h : s.bevs b = .live bev) :
    readcb b base s = .ok (s.setBev b (emptied bev)) := by
  unfold readcb Loop.evbufferDrainInput
  rw [Loop.inputLength_live h, ok_bind, Loop.modifyBev_live _ h]
  rfl

theorem writecb_live (base : Option CbArg) (h : s.bevs b = .live bev) :
    writecb b base s = .ok (s.setBev b (refilled bev)) :=
  Loop.modifyBev_live _ h

theorem writeData_live (base : Option CbArg) (h : s.bevs b = .live bev) :
    writeData b base s = .ok (s.setBev b (started base bev)) := by
  unfold writeData Loop.evbufferAdd Loop.buffereventSetcb
    Loop.buffereventSetwatermarkWrite
  rw [Loop.modifyBev_live _ h, ok_bind, Loop.modifyBev_setBev, ok_bind,
    Loop.modifyBev_setBev]
  rfl

end Callbacks

/-!
## A client that streams

Once the client is connected, what it has sent and what it has queued are copies
of the block, one after the other.  A write that leaves half a block or less is
followed by a refill, so the queue holds at all times more than half a block and
at most one and a half.
-/

def copies (k : Nat) : List Byte :=
  (List.replicate k data).flatten

theorem copies_succ (k : Nat) : copies (k + 1) = copies k ++ data := by
  unfold copies
  rw [List.replicate_succ', List.flatten_append]
  simp

structure Streams (b : ptr) (s : World ptr) (bev : Bev) : Prop where
  live : s.bevs b = .live bev
  established : s.memory = false
  readcb : bev.readcb = some .readcb
  writecb : bev.writecb = some .writecb
  eventcb : bev.eventcb = none
  low : bev.wmWriteLow = DATA_LEN / 2
  input : bev.input = []
  filled : DATA_LEN / 2 < bev.output.length
  bounded : bev.output.length ≤ DATA_LEN + DATA_LEN / 2
  stream : exists k, (s.sockets b).sent ++ bev.output = copies k

theorem half_lt_DATA_LEN : DATA_LEN / 2 < DATA_LEN := by
  decide

section Streams

variable {s : World ptr} {b : ptr} {bev : Bev}

theorem Streams.reads (h : Streams b s bev) (bytes : List Byte)
    (hread : bev.enabledRead = true ∧ bytes ≠ []) :
    exists s' bev', s.dispatchLive program b bev (.read bytes) = .ok s' ∧
      Streams b s' bev' ∧ bev'.output = bev.output ∧
      bev'.enabledRead = bev.enabledRead ∧
      bev'.enabledWrite = bev.enabledWrite ∧
      (s'.sockets b).sent = (s.sockets b).sent ∧
      (s'.sockets b).received = (s.sockets b).received ++ bytes := by
  have hcall := readcb_live bev.cbarg
    (s := s.readBytes b bev bytes) (Loop.setBev_bevs_self s b _)
  simp only [Loop.dispatchLive]
  rw [if_pos hread, h.readcb]
  refine ⟨_, emptied (bev.onChannel (Channel.socketRead false bytes)), hcall,
    ?_, rfl, rfl, rfl, s.readBytes_sent b bev bytes,
    s.readBytes_received b bev bytes⟩
  refine ⟨Loop.setBev_bevs_self _ _ _, h.established, h.readcb, h.writecb,
    h.eventcb, h.low, List.drop_length, h.filled, h.bounded, ?_⟩
  show exists k, ((s.readBytes b bev bytes).sockets b).sent ++ bev.output =
    copies k
  rw [s.readBytes_sent]
  exact h.stream

theorem Streams.writes (h : Streams b s bev) {n : Nat}
    (hwrite : bev.enabledWrite = true ∧ 0 < n ∧ n ≤ bev.output.length) :
    exists s' bev', s.dispatchLive program b bev (.write n) = .ok s' ∧
      Streams b s' bev' ∧ bev'.enabledRead = bev.enabledRead ∧
      bev'.enabledWrite = bev.enabledWrite ∧
      (s'.sockets b).sent = (s.sockets b).sent ++ bev.output.take n ∧
      (s'.sockets b).received = (s.sockets b).received := by
  have hshorter : (bev.output.drop n).length ≤ bev.output.length :=
    (List.drop_sublist n bev.output).length_le
  have hstream : exists k, ((s.writeBytes b bev n).sockets b).sent ++
      bev.output.drop n = copies k := by
    rw [s.writeBytes_sent, List.append_assoc, List.take_append_drop]
    exact h.stream
  have hfilled := h.filled
  have hbounded := h.bounded
  simp only [Loop.dispatchLive]
  rw [if_pos hwrite, h.low, h.writecb]
  by_cases hlow : (bev.output.drop n).length ≤ DATA_LEN / 2
  · rw [if_pos hlow]
    refine ⟨_, refilled (bev.onChannel (Channel.socketWrite false n)),
      writecb_live bev.cbarg (Loop.setBev_bevs_self s b _), ?_, rfl, rfl,
      s.writeBytes_sent b bev n, s.writeBytes_received b bev n⟩
    have hlength : (bev.output.drop n ++ data).length =
        (bev.output.drop n).length + DATA_LEN := by
      rw [List.length_append, data_length]
    refine ⟨Loop.setBev_bevs_self _ _ _, h.established, h.readcb, h.writecb,
      h.eventcb, h.low, h.input, ?_, ?_, ?_⟩
    · show DATA_LEN / 2 < (bev.output.drop n ++ data).length
      have hhalf := half_lt_DATA_LEN
      omega
    · show (bev.output.drop n ++ data).length ≤ DATA_LEN + DATA_LEN / 2
      omega
    · rcases hstream with ⟨k, hk⟩
      refine ⟨k + 1, ?_⟩
      show ((s.writeBytes b bev n).sockets b).sent ++
        (bev.output.drop n ++ data) = copies (k + 1)
      rw [copies_succ, ← hk, List.append_assoc]
  · rw [if_neg hlow]
    refine ⟨_, bev.onChannel (Channel.socketWrite false n), rfl, ?_, rfl, rfl,
      s.writeBytes_sent b bev n, s.writeBytes_received b bev n⟩
    exact ⟨Loop.setBev_bevs_self _ _ _, h.established, h.readcb, h.writecb,
      h.eventcb, h.low, h.input, Nat.lt_of_not_le hlow,
      Nat.le_trans hshorter hbounded, hstream⟩

/-- What cannot be found on the socket changes nothing, the failure of a write
of a client that writes no more included. -/
theorem Streams.not_found (what : What) (h : ¬ bev.Finds what) :
    bev.enabledWrite = (bev.enabledWrite &&
      !decide (ClientAction.ready (.event what)).FailsWrite) := by
  cases hwrite : bev.enabledWrite with
  | false => rfl
  | true =>
      have hnot : ¬ (ClientAction.ready (.event what)).FailsWrite :=
        fun hfails => h (.inr ⟨hwrite, hfails.2⟩)
      rw [decide_eq_false hnot]
      rfl

/-- No event frees the bufferevent: the event callback is gone.  Only a failed
write keeps it from writing. -/
theorem Streams.step (h : Streams b s bev) (a : ClientAction) :
    exists s' bev', (machine b).step s a = .ok s' ∧ Streams b s' bev' ∧
      bev'.enabledWrite = (bev.enabledWrite && !decide a.FailsWrite) := by
  have hopen : ¬ s.memory = true := by
    rw [h.established]
    decide
  have hsame : bev.enabledWrite = (bev.enabledWrite && !false) :=
    (Bool.and_true _).symm
  simp only [machine, LoadClient.step, h.live]
  cases a with
  | connected => exact ⟨s, bev, if_neg hopen, h, hsame⟩
  | refused => exact ⟨s, bev, if_neg hopen, h, hsame⟩
  | ready r =>
      simp only [if_neg hopen]
      cases r with
      | read bytes =>
          by_cases hread : bev.enabledRead = true ∧ bytes ≠ []
          · rcases h.reads bytes hread with
              ⟨s', bev', hs', hnext, _, _, hwrite, _⟩
            exact ⟨s', bev', hs', hnext, hwrite.trans hsame⟩
          · exact ⟨s, bev, if_neg hread, h, hsame⟩
      | write n =>
          by_cases hwrite : bev.enabledWrite = true ∧ 0 < n ∧
              n ≤ bev.output.length
          · rcases h.writes hwrite with ⟨s', bev', hs', hnext, _, henabled, _⟩
            exact ⟨s', bev', hs', hnext, henabled.trans hsame⟩
          · exact ⟨s, bev, if_neg hwrite, h, hsame⟩
      | event what =>
          simp only [Loop.dispatchLive, h.eventcb]
          split
          · exact ⟨_, bev.onChannel (Channel.report false what), rfl,
              ⟨Loop.setBev_bevs_self _ _ _, h.established, h.readcb, h.writecb,
                h.eventcb, h.low, h.input, h.filled, h.bounded, h.stream⟩, rfl⟩
          · rename_i hfinds
            exact ⟨s, bev, rfl, h, Streams.not_found what hfinds⟩

theorem Streams.run (h : Streams b s bev) (acts : List ClientAction) :
    exists s' bev', (machine b).run s acts = .ok s' ∧ Streams b s' bev' ∧
      (bev'.enabledWrite = true <-> bev.enabledWrite = true ∧
        forall a, a ∈ acts -> ¬ a.FailsWrite) := by
  induction acts generalizing s bev with
  | nil => exact ⟨s, bev, rfl, h, by simp⟩
  | cons a rest ih =>
      rcases h.step a with ⟨next, bev1, hstep, hnext, hwrite⟩
      rcases ih hnext with ⟨s', bev', hrun, hlast, hiff⟩
      refine ⟨s', bev', ?_, hlast, ?_⟩
      · rw [Machine.run_cons_of_ok rest hstep]
        exact hrun
      · rw [hiff, hwrite, List.forall_mem_cons, Bool.and_eq_true,
          Bool.not_eq_true', decide_eq_false_iff_not, and_assoc]

end Streams

/-!
## Whole runs
-/

structure Connecting (b : ptr) (s : World ptr) (bev : Bev) : Prop where
  live : s.bevs b = .live bev
  pending : s.memory = true
  eventcb : bev.eventcb = some .eventcb
  buffers : bev.input = [] ∧ bev.output = []
  enabled : bev.enabledRead = true ∧ bev.enabledWrite = true
  socket : s.sockets b = Socket.new

theorem initClient_connecting (b : ptr) (s : World ptr) {socketConnect : Int}
    (h : ¬ socketConnect < 0) :
    exists s0 bev, initClient b socketConnect s = .ok s0 ∧
      Connecting b s0 bev := by
  have hnew : ({ s.buffereventSocketNew b with memory := true }).bevs b =
      .live (Bufferevent.new : Bev) := Function.update_self _ _ _
  unfold initClient Loop.buffereventSetcb Loop.buffereventEnable
  simp only [if_neg h]
  rw [Loop.modifyBev_live _ hnew, ok_bind, Loop.modifyBev_setBev]
  exact ⟨_, _, rfl, Loop.setBev_bevs_self _ _ _, rfl, rfl, ⟨rfl, rfl⟩,
    ⟨rfl, rfl⟩, Function.update_self _ _ _⟩

theorem Connecting.waits {b : ptr} {s : World ptr} {bev : Bev}
    (h : Connecting b s bev) (before : List Readiness) :
    (machine b).run s (before.map .ready) = .ok s := by
  induction before with
  | nil => rfl
  | cons r rest ih =>
      have hstep : (machine b).step s (.ready r) = .ok s := by
        simp only [machine, LoadClient.step, h.live]
        exact if_pos h.pending
      rw [List.map_cons, Machine.run_cons_of_ok _ hstep]
      exact ih

theorem Connecting.connected {b : ptr} {s : World ptr} {bev : Bev}
    (h : Connecting b s bev) :
    exists s' bev', (machine b).step s .connected = .ok s' ∧
      Streams b s' bev' ∧ bev'.enabledRead = true ∧
      bev'.enabledWrite = true ∧ s'.sockets b = Socket.new := by
  have hlive : ({ s with memory := false } : World ptr).bevs b = .live bev :=
    h.live
  have hcall : (machine b).step s .connected =
      writeData b bev.cbarg { s with memory := false } := by
    simp only [machine, LoadClient.step, h.live]
    rw [if_pos h.pending]
    simp only [finishConnecting, h.eventcb]
    rfl
  rw [hcall, writeData_live bev.cbarg hlive]
  refine ⟨_, started bev.cbarg bev, rfl, ?_, h.enabled.1, h.enabled.2,
    h.socket⟩
  have hlength : (bev.output ++ data).length = DATA_LEN := by
    rw [h.buffers.2, List.nil_append, data_length]
  refine ⟨Loop.setBev_bevs_self _ _ _, rfl, rfl, rfl, rfl, rfl, h.buffers.1,
    ?_, ?_, 1, ?_⟩
  · show DATA_LEN / 2 < (bev.output ++ data).length
    rw [hlength]
    exact half_lt_DATA_LEN
  · show (bev.output ++ data).length ≤ DATA_LEN + DATA_LEN / 2
    rw [hlength]
    exact Nat.le_add_right _ _
  · show (s.sockets b).sent ++ (bev.output ++ data) = copies 1
    rw [h.socket, h.buffers.2, copies_succ]
    rfl

/-- Whatever happens to a client after it was connected, it is never freed, its
queue holds more than half a block and at most one and a half, its input is
empty, and what it has sent and queued are copies of the block.  As long as no
write has failed, an end of file or not, whatever it has queued can be written;
after a failed write nothing is written any more. -/
theorem streams_of_run (b : ptr) (s : World ptr) {socketConnect : Int}
    (h : ¬ socketConnect < 0) (before : List Readiness)
    (later : List ClientAction) :
    exists s0 s1 s2 bev, initClient b socketConnect s = .ok s0 ∧
      (machine b).run s0 (before.map .ready ++ [.connected]) = .ok s1 ∧
      (machine b).run s1 later = .ok s2 ∧ Streams b s2 bev ∧
      ((forall a, a ∈ later -> ¬ a.FailsWrite) ->
        forall n, 0 < n -> n ≤ bev.output.length ->
          exists s3 bev3, (machine b).step s2 (.ready (.write n)) = .ok s3 ∧
            Streams b s3 bev3 ∧
            (s3.sockets b).sent = (s2.sockets b).sent ++ bev.output.take n) ∧
      ((exists a, a ∈ later ∧ a.FailsWrite) ->
        forall n, (machine b).step s2 (.ready (.write n)) = .ok s2) := by
  rcases initClient_connecting b s h with ⟨s0, bev0, hstart, hconnecting⟩
  rcases hconnecting.connected with ⟨s1, bev1, hstep, hstreams, _, hwrite1, _⟩
  rcases hstreams.run later with ⟨s2, bev, hrun, hlast, hiff⟩
  refine ⟨s0, s1, s2, bev, hstart, ?_, hrun, hlast, ?_, ?_⟩
  · rw [Machine.run_append (hconnecting.waits before),
      Machine.run_cons_of_ok [] hstep]
    rfl
  · intro hworks n hpos hn
    have henabled := hiff.mpr ⟨hwrite1, hworks⟩
    rcases hlast.writes ⟨henabled, hpos, hn⟩ with
      ⟨s3, bev3, hs3, hnext, _, _, hsent, _⟩
    refine ⟨s3, bev3, ?_, hnext, hsent⟩
    simp only [machine, LoadClient.step, hlast.live, hlast.established]
    exact hs3
  · intro hfails n
    rcases hfails with ⟨a, ha, hfailed⟩
    have hdisabled : ¬ bev.enabledWrite = true :=
      fun henabled => (hiff.mp henabled).2 a ha hfailed
    have hidle : ¬ (bev.enabledWrite = true ∧ 0 < n ∧
        n ≤ bev.output.length) := fun hwrite => hdisabled hwrite.1
    simp only [machine, LoadClient.step, hlast.live, hlast.established]
    exact if_neg hidle

/-- The server ends, and the client does not take notice until a write fails. -/
theorem streams_of_ended_server :
    exists s0 s1 s2 s3 : World Nat, initClient 0 0 World.empty = .ok s0 ∧
      (machine 0).run s0 [.connected] = .ok s1 ∧
      (machine 0).run s1 [.ready (.write 7), .ready (.read [48, 48]),
        .ready (.event (BEV_EVENT_EOF ||| BEV_EVENT_READING))] = .ok s2 ∧
      (machine 0).step s2 (.ready (.write 1)) = .ok s3 ∧
      (exists byte, (s3.sockets 0).sent = (s2.sockets 0).sent ++ [byte]) ∧
      exists t, (machine 0).run s1 [.ready (.write 7),
          .ready (.event (BEV_EVENT_ERROR ||| BEV_EVENT_WRITING))] = .ok t ∧
        (machine 0).step t (.ready (.write 1)) = .ok t := by
  have hconnect : ¬ (0 : Int) < 0 := by
    decide
  rcases streams_of_run 0 World.empty hconnect []
    [.ready (.write 7), .ready (.read [48, 48]),
      .ready (.event (BEV_EVENT_EOF ||| BEV_EVENT_READING))] with
    ⟨s0, s1, s2, bev, hs0, hs1, hs2, hstreams, hworks, _⟩
  rcases streams_of_run 0 World.empty hconnect []
    [.ready (.write 7),
      .ready (.event (BEV_EVENT_ERROR ||| BEV_EVENT_WRITING))] with
    ⟨u0, u1, t, _, hu0, hu1, ht, _, _, hfails⟩
  rw [hs0] at hu0
  cases hu0
  rw [hs1] at hu1
  cases hu1
  have hfilled := hstreams.filled
  rcases hworks (by decide +kernel) 1 (by decide) (by omega) with
    ⟨s3, _, hs3, _, hsent⟩
  refine ⟨s0, s1, s2, s3, hs0, hs1, hs2, hs3, ?_, t, ht, ?_⟩
  · rw [hsent]
    cases hqueue : bev.output with
    | nil =>
        rw [hqueue] at hfilled
        cases hfilled
    | cons byte rest => exact ⟨byte, rfl⟩
  · exact hfails ⟨_, List.mem_cons_of_mem _ List.mem_cons_self,
      by decide +kernel⟩ 1

end LoadClient
end NetExperiment
