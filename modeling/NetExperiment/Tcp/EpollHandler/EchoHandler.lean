import NetExperiment.Tcp.EpollHandler.SpliceEcho
import Mathlib.Data.List.TakeDrop

/-!
# The buffering echo handler

`EchoHandler` echoes a connection through one buffer of its own.  What was
received is ended by a zero byte for printing, sent with one call when the
socket is writable, and overwritten by the next receive.  The interest that the
handler installs makes sends and receives take turns.

A connection adds the history: the chunk that was received last, the chunks
before it, and what was sent.
-/

namespace NetExperiment
namespace EpollHandler

open Foundation

def BUFFER_SIZE : Nat := 1024

inductive Overrun where
  | outOfBounds (index : Nat)
deriving DecidableEq, Repr

structure EchoHandler where
  received : Int
  buffer : List Byte
  size : buffer.length = BUFFER_SIZE

inductive RecvResult where
  | failed
  | got (bytes : List Byte) (bounded : bytes.length ≤ BUFFER_SIZE)

namespace EchoHandler

def sendArg (h : EchoHandler) : Option (List Byte) :=
  if 0 < h.received then some (h.buffer.take h.received.toNat) else none

def recv (h : EchoHandler) : RecvResult -> EchoHandler
  | .failed => { h with received := -1 }
  | .got bytes bounded =>
      { received := bytes.length
        buffer := bytes ++ h.buffer.drop bytes.length
        size := by
          rw [List.length_append, List.length_drop, h.size]
          omega }

def terminate (h : EchoHandler) : Except Overrun EchoHandler :=
  if h.received.toNat < BUFFER_SIZE then
    .ok { h with
      buffer := h.buffer.set h.received.toNat 0
      size := by rw [List.length_set, h.size] }
  else .error (.outOfBounds h.received.toNat)

/-- What a call leaves behind: the handler, what it sent, and its calls on the
loop, in order. -/
structure Handled where
  handler : EchoHandler
  send : Option (List Byte)
  calls : List LoopCall

/-- One call, with the result of `recv`.  The result of `send` is only
printed. -/
def handle (h : EchoHandler) (events : Events) (r : RecvResult) :
    Except Overrun Handled :=
  if events &&& EPOLLHUP ≠ 0 then
    .ok { handler := h, send := none, calls := [.removeHandler] }
  else if events &&& EPOLLERR ≠ 0 then
    .ok { handler := h, send := none, calls := [] }
  else do
    let send := if events.Writable then h.sendArg else none
    let calls : List LoopCall :=
      if events.Writable then [.modifyHandler EPOLLIN] else []
    if events.Readable then
      let h := h.recv r
      let h <- if 0 < h.received then h.terminate else .ok h
      if 0 < h.received then
        .ok { handler := h, send := send,
              calls := calls ++ [.modifyHandler EPOLLOUT] }
      else
        .ok { handler := h, send := send, calls := calls ++ [.removeHandler] }
    else
      .ok { handler := h, send := send, calls := calls }

/-!
Without a hangup or an error, a call is the output branch and then the input
branch.
-/

def outputSend (h : EchoHandler) (events : Events) : Option (List Byte) :=
  if events.Writable then h.sendArg else none

def outputCalls (events : Events) : List LoopCall :=
  if events.Writable then [.modifyHandler EPOLLIN] else []

section Handle

variable {h : EchoHandler} {events : Events} (hhung : ¬ events.HungUp)
include hhung

theorem handle_served (r : RecvResult) :
    h.handle events r =
      if events.Readable then do
        let h' <- if 0 < (h.recv r).received then (h.recv r).terminate
          else .ok (h.recv r)
        if 0 < h'.received then
          .ok { handler := h', send := h.outputSend events,
                calls := outputCalls events ++ [.modifyHandler EPOLLOUT] }
        else
          .ok { handler := h', send := h.outputSend events,
                calls := outputCalls events ++ [.removeHandler] }
      else
        .ok { handler := h, send := h.outputSend events,
              calls := outputCalls events } := by
  unfold handle
  rw [if_neg (fun hhup => hhung (.inl hhup)),
    if_neg (fun herr => hhung (.inr herr))]
  rfl

theorem handle_not_readable (r : RecvResult) (hread : ¬ events.Readable) :
    h.handle events r =
      .ok { handler := h, send := h.outputSend events,
            calls := outputCalls events } := by
  rw [handle_served hhung, if_neg hread]

theorem handle_ended {r : RecvResult} (hread : events.Readable)
    (hend : ¬ 0 < (h.recv r).received) :
    h.handle events r =
      .ok { handler := h.recv r, send := h.outputSend events,
            calls := outputCalls events ++ [.removeHandler] } := by
  rw [handle_served hhung, if_pos hread]
  simp only [if_neg hend, ok_bind]

theorem handle_read {r : RecvResult} {h' : EchoHandler}
    (hread : events.Readable) (hpos : 0 < (h.recv r).received)
    (hstored : (h.recv r).terminate = .ok h') (hpos' : 0 < h'.received) :
    h.handle events r =
      .ok { handler := h', send := h.outputSend events,
            calls := outputCalls events ++ [.modifyHandler EPOLLOUT] } := by
  rw [handle_served hhung, if_pos hread]
  simp only [if_pos hpos, hstored, ok_bind, if_pos hpos']

theorem handle_overran {r : RecvResult} {e : Overrun}
    (hread : events.Readable) (hpos : 0 < (h.recv r).received)
    (hstored : (h.recv r).terminate = .error e) :
    h.handle events r = .error e := by
  rw [handle_served hhung, if_pos hread]
  simp only [if_pos hpos, hstored]
  rfl

end Handle

/-!
## A connection

The system reports what is ready of the installed interest, and hangups and
errors always.  A send takes some of the bytes that it is given, or none.
-/

inductive SendResult where
  | failed
  | took (n : Nat)
deriving DecidableEq, Repr

def SendResult.taken (bytes : List Byte) : SendResult -> List Byte
  | .failed => []
  | .took n => bytes.take n

def SendResult.result (bytes : List Byte) : SendResult -> Int
  | .failed => -1
  | .took n => min n bytes.length

structure Call where
  ready : Events
  send : SendResult
  recv : RecvResult

/-- The last chunk that was received, the bytes of the chunks before it, what
was sent, and whether the last send returned another number than it was
given. -/
structure Connection where
  handler : EchoHandler
  interest : Events
  live : Bool
  earlier : List Byte
  chunk : List Byte
  sent : List Byte
  shortSend : Bool

namespace Connection

/-- A new handler.  Nothing is assigned to its buffer. -/
def new (buffer : List Byte) (size : buffer.length = BUFFER_SIZE) :
    Connection where
  handler := { received := 0, buffer := buffer, size := size }
  interest := EPOLLIN ||| EPOLLOUT
  live := true
  earlier := []
  chunk := []
  sent := []
  shortSend := false

def reported (c : Connection) (a : Call) : Events :=
  a.ready &&& (c.interest ||| EPOLLHUP ||| EPOLLERR)

def doSend (c : Connection) (r : SendResult) : Option (List Byte) -> Connection
  | none => c
  | some bytes =>
      { c with
        sent := c.sent ++ r.taken bytes
        shortSend := decide (r.result bytes ≠ bytes.length) }

def doRecv (c : Connection) (events : Events) (r : RecvResult) : Connection :=
  if events.HungUp ∨ ¬ events.Readable then c
  else
    match r with
    | .failed => c
    | .got bytes _ =>
        if bytes = [] then c
        else { c with earlier := c.earlier ++ c.chunk, chunk := bytes }

def perform (c : Connection) : LoopCall -> Connection
  | .modifyHandler events => { c with interest := events }
  | .removeHandler => { c with live := false }
  | .close => c

def step (c : Connection) (a : Call) : Except Overrun Connection :=
  if c.live = true then do
    let r <- c.handler.handle (c.reported a) a.recv
    let c' := (c.doSend a.send r.send).doRecv (c.reported a) a.recv
    return r.calls.foldl perform { c' with handler := r.handler }
  else .ok c

def machine : Machine Connection Call Overrun where
  step := step

/-!
## What a call can do
-/

def output (c : Connection) (a : Call) : Connection :=
  if (c.reported a).Writable then
    { c.doSend a.send c.handler.sendArg with interest := EPOLLIN }
  else c

def Receives (c : Connection) (a : Call) (bytes : List Byte) : Prop :=
  c.live = true ∧ ¬ (c.reported a).HungUp ∧ (c.reported a).Readable ∧
    bytes ≠ [] ∧ exists bounded, a.recv = .got bytes bounded

inductive Step (c : Connection) (a : Call) : Except Overrun Connection -> Prop
  where
  | idle :
      (forall bytes, ¬ c.Receives a bytes) -> Step c a (.ok c)
  | removed :
      (forall bytes, ¬ c.Receives a bytes) ->
      Step c a (.ok { c with live := false })
  | wrote :
      (forall bytes, ¬ c.Receives a bytes) -> c.live = true ->
      (c.reported a).Writable -> Step c a (.ok (c.output a))
  | ended (handler : EchoHandler) :
      (forall bytes, ¬ c.Receives a bytes) -> c.live = true ->
      Step c a (.ok { c.output a with handler := handler, live := false })
  | read (bytes : List Byte) (handler : EchoHandler) :
      c.Receives a bytes -> bytes.length < BUFFER_SIZE ->
      handler.received = bytes.length ->
      handler.buffer.take bytes.length = bytes ->
      Step c a (.ok
        { c.output a with
          handler := handler
          interest := EPOLLOUT
          earlier := c.earlier ++ c.chunk
          chunk := bytes })
  | overran (bytes : List Byte) :
      c.Receives a bytes -> ¬ bytes.length < BUFFER_SIZE ->
      Step c a (.error (.outOfBounds bytes.length))

theorem recv_terminate {h : EchoHandler} {bytes : List Byte}
    (bounded : bytes.length ≤ BUFFER_SIZE) (hlt : bytes.length < BUFFER_SIZE) :
    exists h', (h.recv (.got bytes bounded)).terminate = .ok h' ∧
      h'.received = bytes.length ∧ h'.buffer.take bytes.length = bytes := by
  refine ⟨_, if_pos hlt, rfl, ?_⟩
  show ((bytes ++ h.buffer.drop bytes.length).set bytes.length 0).take
    bytes.length = bytes
  rw [List.take_set_of_le (Nat.le_refl _), List.take_left]

theorem not_receives_of_not_live {c : Connection} (h : ¬ c.live = true)
    (a : Call) (bytes : List Byte) : ¬ c.Receives a bytes :=
  fun hreceives => h hreceives.1

theorem not_receives_of_hungUp {c : Connection} {a : Call}
    (h : (c.reported a).HungUp) (bytes : List Byte) : ¬ c.Receives a bytes :=
  fun hreceives => hreceives.2.1 h

theorem not_receives_of_not_readable {c : Connection} {a : Call}
    (h : ¬ (c.reported a).Readable) (bytes : List Byte) :
    ¬ c.Receives a bytes :=
  fun hreceives => h hreceives.2.2.1

theorem doSend_earlier (c : Connection) (r : SendResult)
    (arg : Option (List Byte)) : (c.doSend r arg).earlier = c.earlier := by
  cases arg <;> rfl

theorem doSend_chunk (c : Connection) (r : SendResult)
    (arg : Option (List Byte)) : (c.doSend r arg).chunk = c.chunk := by
  cases arg <;> rfl

theorem output_handler (c : Connection) (a : Call) :
    (c.output a).handler = c.handler := by
  unfold output
  split
  · cases c.handler.sendArg <;> rfl
  · rfl

theorem perform_output (c : Connection) (a : Call) (handler : EchoHandler)
    (calls : List LoopCall) :
    (outputCalls (c.reported a) ++ calls).foldl perform
        { c.doSend a.send (c.handler.outputSend (c.reported a)) with
          handler := handler } =
      calls.foldl perform { c.output a with handler := handler } := by
  unfold outputCalls outputSend output
  split <;> rfl

theorem perform_output_read (c : Connection) (a : Call)
    (handler : EchoHandler) (earlier chunk : List Byte)
    (calls : List LoopCall) :
    (outputCalls (c.reported a) ++ calls).foldl perform
        { c.doSend a.send (c.handler.outputSend (c.reported a)) with
          handler := handler, earlier := earlier, chunk := chunk } =
      calls.foldl perform
        { c.output a with
          handler := handler, earlier := earlier, chunk := chunk } := by
  unfold outputCalls outputSend output
  split <;> rfl

theorem step_of_handle {c : Connection} {a : Call} {r : Handled}
    (hlive : c.live = true)
    (hhandle : c.handler.handle (c.reported a) a.recv = .ok r) :
    c.step a = .ok (r.calls.foldl perform
      { (c.doSend a.send r.send).doRecv (c.reported a) a.recv with
        handler := r.handler }) := by
  unfold step
  rw [if_pos hlive, hhandle]
  rfl

theorem step_cases_not_readable {c : Connection} {a : Call}
    (hlive : c.live = true) (hhung : ¬ (c.reported a).HungUp)
    (hread : ¬ (c.reported a).Readable) : Step c a (c.step a) := by
  have hnone := not_receives_of_not_readable hread
  have hsame : forall d : Connection, d.doRecv (c.reported a) a.recv = d :=
    fun d => if_pos (.inr hread)
  have hperform := perform_output c a c.handler []
  rw [List.append_nil] at hperform
  rw [step_of_handle hlive (handle_not_readable hhung a.recv hread), hsame,
    hperform, List.foldl_nil]
  have houtput : { c.output a with handler := c.handler } = c.output a := by
    rw [← output_handler c a]
  rw [houtput]
  by_cases hwrite : (c.reported a).Writable
  · exact Step.wrote hnone hlive hwrite
  · have hidle : c.output a = c := if_neg hwrite
    rw [hidle]
    exact Step.idle hnone

theorem step_cases_ended {c : Connection} {a : Call}
    (hlive : c.live = true) (hhung : ¬ (c.reported a).HungUp)
    (hread : (c.reported a).Readable)
    (hend : ¬ 0 < (c.handler.recv a.recv).received)
    (hsame : forall d : Connection, d.doRecv (c.reported a) a.recv = d)
    (hnone : forall bytes, ¬ c.Receives a bytes) : Step c a (c.step a) := by
  rw [step_of_handle hlive (handle_ended hhung hread hend), hsame,
    perform_output]
  exact Step.ended _ hnone hlive

theorem step_cases_readable {c : Connection} {a : Call}
    (hlive : c.live = true) (hhung : ¬ (c.reported a).HungUp)
    (hread : (c.reported a).Readable) : Step c a (c.step a) := by
  have hdo : ¬ ((c.reported a).HungUp ∨ ¬ (c.reported a).Readable) := by
    rintro (h | h)
    · exact hhung h
    · exact h hread
  cases hrecv : a.recv with
  | failed =>
      apply step_cases_ended hlive hhung hread
      · rw [hrecv]
        show ¬ (0 : Int) < -1
        decide
      · intro d
        unfold doRecv
        rw [if_neg hdo, hrecv]
      · intro bytes hreceives
        rcases hreceives with ⟨_, _, _, _, bounded, hgot⟩
        rw [hrecv] at hgot
        cases hgot
  | got bytes bounded =>
      by_cases hempty : bytes = []
      · subst hempty
        apply step_cases_ended hlive hhung hread
        · rw [hrecv]
          exact Int.lt_irrefl 0
        · intro d
          unfold doRecv
          rw [if_neg hdo, hrecv]
          exact if_pos rfl
        · intro other hreceives
          rcases hreceives with ⟨_, _, _, hother, bounded', hgot⟩
          rw [hrecv] at hgot
          cases hgot
          exact hother rfl
      · have hreceives : c.Receives a bytes :=
          ⟨hlive, hhung, hread, hempty, bounded, hrecv⟩
        have hpos : 0 < (c.handler.recv a.recv).received := by
          rw [hrecv]
          exact Int.natCast_pos.mpr (List.length_pos_iff.mpr hempty)
        by_cases hlt : bytes.length < BUFFER_SIZE
        · rcases recv_terminate (h := c.handler) bounded hlt with
            ⟨handler, hstored, hreceived, hbuffer⟩
          rw [← hrecv] at hstored
          have hpos' : 0 < handler.received := by
            rw [hreceived]
            exact Int.natCast_pos.mpr (List.length_pos_iff.mpr hempty)
          have hdone : forall d : Connection,
              d.doRecv (c.reported a) a.recv =
                { d with earlier := d.earlier ++ d.chunk, chunk := bytes } := by
            intro d
            unfold doRecv
            rw [if_neg hdo, hrecv]
            exact if_neg hempty
          rw [step_of_handle hlive
            (handle_read hhung hread hpos hstored hpos'), hdone,
            doSend_earlier, doSend_chunk, perform_output_read]
          exact Step.read bytes handler hreceives hlt hreceived hbuffer
        · have hstored : (c.handler.recv a.recv).terminate =
              .error (.outOfBounds bytes.length) := by
            rw [hrecv]
            exact if_neg hlt
          unfold step
          rw [if_pos hlive, handle_overran hhung hread hpos hstored]
          exact Step.overran bytes hreceives hlt

theorem step_cases (c : Connection) (a : Call) : Step c a (c.step a) := by
  by_cases hlive : c.live = true
  · by_cases hhup : (c.reported a) &&& EPOLLHUP ≠ 0
    · have hnone := not_receives_of_hungUp (c := c) (a := a) (.inl hhup)
      unfold step handle
      rw [if_pos hlive, if_pos hhup]
      simp only [ok_bind, pure_eq_ok, doSend, doRecv, List.foldl_cons,
        List.foldl_nil, perform]
      rw [if_pos (.inl (.inl hhup))]
      exact Step.removed hnone
    · by_cases herr : (c.reported a) &&& EPOLLERR ≠ 0
      · have hnone := not_receives_of_hungUp (c := c) (a := a) (.inr herr)
        unfold step handle
        rw [if_pos hlive, if_neg hhup, if_pos herr]
        simp only [ok_bind, pure_eq_ok, doSend, doRecv, List.foldl_nil]
        rw [if_pos (.inl (.inr herr))]
        exact Step.idle hnone
      · have hhung : ¬ (c.reported a).HungUp := by
          rintro (h | h)
          · exact hhup h
          · exact herr h
        by_cases hread : (c.reported a).Readable
        · exact step_cases_readable hlive hhung hread
        · exact step_cases_not_readable hlive hhung hread
  · unfold step
    rw [if_neg hlive]
    exact Step.idle (not_receives_of_not_live hlive a)

/-!
## Taking turns

The interest tells whose turn it is.  Before the first call it is anybody's, and
there is nothing to send.
-/

inductive Turn (c : Connection) : Prop where
  | first :
      c.interest = EPOLLIN ||| EPOLLOUT -> c.handler.received = 0 ->
      c.shortSend = false -> c.sent = c.earlier ++ c.chunk -> Turn c
  | reading :
      c.interest = EPOLLIN ->
      (c.shortSend = false <-> c.sent = c.earlier ++ c.chunk) -> Turn c
  | writing :
      c.interest = EPOLLOUT -> c.handler.received = c.chunk.length ->
      c.chunk ≠ [] -> c.handler.buffer.take c.chunk.length = c.chunk ->
      c.sent = c.earlier -> Turn c

/-- What was sent is a prefix of what was received, and all chunks before the
last one were sent completely. -/
def Faithful (c : Connection) : Prop :=
  c.earlier <+: c.sent ∧ c.sent <+: c.earlier ++ c.chunk

/-- A call that receives leaves room for the zero byte, and follows a send that
took all that it was given. -/
def Roomy (c : Connection) (a : Call) : Prop :=
  forall bytes, c.Receives a bytes ->
    bytes.length < BUFFER_SIZE ∧ c.shortSend = false

instance (c : Connection) (a : Call) : Decidable (c.Roomy a) :=
  match hrecv : a.recv with
  | .failed => .isTrue fun bytes hreceives => by
      rcases hreceives.2.2.2.2 with ⟨_, hgot⟩
      rw [hrecv] at hgot
      cases hgot
  | .got bytes bounded => decidable_of_iff
      (c.live = true -> ¬ (c.reported a).HungUp -> (c.reported a).Readable ->
        bytes ≠ [] -> bytes.length < BUFFER_SIZE ∧ c.shortSend = false)
      ⟨fun h other hreceives => by
          rcases hreceives with ⟨hlive, hhung, hread, hne, _, hgot⟩
          rw [hrecv] at hgot
          cases hgot
          exact h hlive hhung hread hne,
        fun h hlive hhung hread hne =>
          h bytes ⟨hlive, hhung, hread, hne, bounded, hrecv⟩⟩

theorem reported_and (c : Connection) (a : Call) {events : Events}
    (h : (c.interest ||| EPOLLHUP ||| EPOLLERR) &&& events = 0) :
    c.reported a &&& events = 0 := by
  unfold reported
  rw [BitVec.and_assoc, h]
  exact BitVec.and_zero

theorem not_writable_of_reading {c : Connection} (h : c.interest = EPOLLIN)
    (a : Call) : ¬ (c.reported a).Writable := by
  apply not_not_intro
  apply reported_and
  rw [h]
  decide

theorem not_readable_of_writing {c : Connection} (h : c.interest = EPOLLOUT)
    (a : Call) : ¬ (c.reported a).Readable := by
  apply not_not_intro
  apply reported_and
  rw [h]
  decide

theorem taken_eq_iff (r : SendResult) {bytes : List Byte} (h : bytes ≠ []) :
    r.taken bytes = bytes <-> r.result bytes = bytes.length := by
  cases r with
  | failed =>
      constructor
      · intro hnil
        exact absurd hnil.symm h
      · intro hresult
        have hlength : (-1 : Int) = bytes.length := hresult
        omega
  | took n =>
      show bytes.take n = bytes <->
        min (n : Int) bytes.length = bytes.length
      rw [List.take_eq_self_iff]
      omega

theorem taken_prefix (r : SendResult) (bytes : List Byte) :
    r.taken bytes <+: bytes := by
  cases r with
  | failed => exact List.nil_prefix
  | took n => exact List.take_prefix n bytes

/-- The output branch keeps what was sent in order, and then it is the turn of
the reader. -/
theorem Turn.output {c : Connection} (h : c.Turn) (hfaithful : c.Faithful)
    (a : Call) (hwrite : (c.reported a).Writable) :
    (c.output a).Turn ∧ (c.output a).Faithful := by
  have houtput : c.output a =
      { c.doSend a.send c.handler.sendArg with interest := EPOLLIN } :=
    if_pos hwrite
  cases h with
  | first hinterest hreceived hshort hsent =>
      have hnone : c.handler.sendArg = none := by
        unfold sendArg
        rw [hreceived]
        rfl
      rw [houtput, hnone]
      refine ⟨.reading rfl ?_, hfaithful⟩
      exact ⟨fun _ => hsent, fun _ => hshort⟩
  | reading hinterest _ =>
      exact absurd hwrite (not_writable_of_reading hinterest a)
  | writing hinterest hreceived hchunk hbuffer hsent =>
      have hsome : c.handler.sendArg = some c.chunk := by
        unfold sendArg
        rw [hreceived, if_pos (Int.natCast_pos.mpr
          (List.length_pos_iff.mpr hchunk)), Int.toNat_natCast, hbuffer]
      rw [houtput, hsome]
      have htaken := taken_eq_iff a.send hchunk
      refine ⟨.reading rfl ?_, ?_, ?_⟩
      · show decide (a.send.result c.chunk ≠ c.chunk.length) = false <->
          c.sent ++ a.send.taken c.chunk = c.earlier ++ c.chunk
        rw [hsent, List.append_cancel_left_eq, htaken,
          decide_eq_false_iff_not, not_not]
      · show c.earlier <+: c.sent ++ a.send.taken c.chunk
        rw [hsent]
        exact List.prefix_append _ _
      · show c.sent ++ a.send.taken c.chunk <+: c.earlier ++ c.chunk
        rw [hsent, List.prefix_append_right_inj]
        exact taken_prefix a.send c.chunk

theorem Turn.output_sent {c : Connection} (h : c.Turn) (a : Call)
    (hread : (c.reported a).Readable) :
    (c.output a).sent = c.sent ∧
      (c.shortSend = false <-> c.sent = c.earlier ++ c.chunk) := by
  cases h with
  | first hinterest hreceived hshort hsent =>
      have hnone : c.handler.sendArg = none := by
        unfold sendArg
        rw [hreceived]
        rfl
      refine ⟨?_, fun _ => hsent, fun _ => hshort⟩
      unfold Connection.output
      rw [hnone]
      split <;> rfl
  | reading hinterest hshort =>
      refine ⟨?_, hshort⟩
      unfold Connection.output
      rw [if_neg (not_writable_of_reading hinterest a)]
  | writing hinterest _ _ _ _ =>
      exact absurd hread (not_readable_of_writing hinterest a)

def TakesTurns (c : Connection) : Prop :=
  c.live = true -> c.Turn

theorem output_faithful {c : Connection} (h : c.Turn)
    (hfaithful : c.Faithful) (a : Call) : (c.output a).Faithful := by
  by_cases hwrite : (c.reported a).Writable
  · exact (h.output hfaithful a hwrite).2
  · have hidle : c.output a = c := if_neg hwrite
    rw [hidle]
    exact hfaithful

theorem faithful_read_iff {c : Connection} (hfaithful : c.Faithful)
    (bytes : List Byte) :
    c.earlier ++ c.chunk <+: c.sent ∧
        c.sent <+: c.earlier ++ c.chunk ++ bytes <->
      c.sent = c.earlier ++ c.chunk := by
  constructor
  · intro h
    exact hfaithful.2.eq_of_length_le h.1.length_le
  · intro h
    rw [h]
    exact ⟨List.prefix_refl _, List.prefix_append _ _⟩

theorem step_faithful {c : Connection} {a : Call} (h : c.TakesTurns)
    (hfaithful : c.Faithful) (hroomy : c.Roomy a) :
    exists next, machine.step c a = .ok next ∧ next.TakesTurns ∧
      next.Faithful := by
  have hcases := step_cases c a
  show exists next, c.step a = .ok next ∧ _
  cases hnext : c.step a with
  | error e =>
      rw [hnext] at hcases
      cases hcases with
      | overran bytes hreceives hfull =>
          exact absurd (hroomy bytes hreceives).1 hfull
  | ok next =>
      rw [hnext] at hcases
      refine ⟨next, rfl, ?_⟩
      cases hcases with
      | idle _ => exact ⟨h, hfaithful⟩
      | removed _ =>
          refine ⟨?_, hfaithful⟩
          intro hlive
          cases hlive
      | wrote _ hlive hwrite =>
          have houtput := (h hlive).output hfaithful a hwrite
          exact ⟨fun _ => houtput.1, houtput.2⟩
      | ended handler _ hlive =>
          refine ⟨?_, output_faithful (h hlive) hfaithful a⟩
          intro hdead
          cases hdead
      | read bytes handler hreceives hlt hreceived hbuffer =>
          have hsent := (h hreceives.1).output_sent a hreceives.2.2.1
          have hall := hsent.2.mp (hroomy bytes hreceives).2
          constructor
          · intro _
            exact .writing rfl hreceived hreceives.2.2.2.1 hbuffer
              (hsent.1.trans hall)
          · show c.earlier ++ c.chunk <+: (c.output a).sent ∧
              (c.output a).sent <+: c.earlier ++ c.chunk ++ bytes
            rw [hsent.1]
            exact (faithful_read_iff hfaithful bytes).mpr hall

theorem roomy_of_step {c next : Connection} {a : Call} (h : c.TakesTurns)
    (hfaithful : c.Faithful) (hstep : machine.step c a = .ok next)
    (hnext : next.Faithful) : c.Roomy a := by
  intro bytes hreceives
  have hcases := step_cases c a
  have hstep' : c.step a = .ok next := hstep
  rw [hstep'] at hcases
  cases hcases with
  | idle hnone => exact absurd hreceives (hnone bytes)
  | removed hnone => exact absurd hreceives (hnone bytes)
  | wrote hnone _ _ => exact absurd hreceives (hnone bytes)
  | ended _ hnone _ => exact absurd hreceives (hnone bytes)
  | read bytes' handler hreceives' hlt _ _ =>
      have hsame : bytes = bytes' := by
        rcases hreceives.2.2.2.2 with ⟨_, hgot⟩
        rcases hreceives'.2.2.2.2 with ⟨_, hgot'⟩
        rw [hgot] at hgot'
        cases hgot'
        rfl
      subst hsame
      have hsent := (h hreceives.1).output_sent a hreceives.2.2.1
      have hread : c.earlier ++ c.chunk <+: (c.output a).sent ∧
          (c.output a).sent <+: c.earlier ++ c.chunk ++ bytes := hnext
      rw [hsent.1] at hread
      exact ⟨hlt, hsent.2.mpr ((faithful_read_iff hfaithful bytes).mp hread)⟩

/-- A connection never writes behind the end of its buffer and sends each chunk
completely and once before the next one overwrites it, exactly if no receive
fills the buffer and no receive follows a short send. -/
theorem faithful_iff_roomy (buffer : List Byte)
    (size : buffer.length = BUFFER_SIZE) (acts : List Call) :
    machine.Always Faithful (new buffer size) acts <->
      machine.Along Roomy (new buffer size) acts := by
  refine Machine.always_iff_along (I := TakesTurns) ?_ ?_ ?_ ?_
  · intro c a hturns hfaithful hroomy
    exact step_faithful hturns hfaithful hroomy
  · intro c a next hturns hfaithful hstep hnext
    exact roomy_of_step hturns hfaithful hstep hnext
  · intro _
    exact .first rfl rfl rfl rfl
  · exact ⟨List.prefix_refl _, List.prefix_refl _⟩

def readCall (bytes : List Byte) (bounded : bytes.length ≤ BUFFER_SIZE) :
    Call where
  ready := EPOLLIN
  send := .failed
  recv := .got bytes bounded

def writeCall (n : Nat) : Call where
  ready := EPOLLOUT
  send := .took n
  recv := .failed

theorem faithful_of_full_sends :
    machine.Always Faithful
      (new (List.replicate BUFFER_SIZE 0) List.length_replicate)
      [readCall [1, 2] (by decide), writeCall 2, readCall [3] (by decide)] :=
  (faithful_iff_roomy _ _ _).mpr (by decide +kernel)

/-- A receive that fills the buffer makes the handler write behind its end.
After a short send the rest of the chunk is lost. -/
theorem full_buffer_overruns :
    machine.run (new (List.replicate BUFFER_SIZE 0) List.length_replicate)
        [readCall (List.replicate BUFFER_SIZE 1)
          (Nat.le_of_eq List.length_replicate)] =
      .error (.outOfBounds BUFFER_SIZE) ∧
    (exists c, machine.run
        (new (List.replicate BUFFER_SIZE 0) List.length_replicate)
        [readCall [1, 2] (by decide), writeCall 1, readCall [3] (by decide)] =
          .ok c ∧ c.earlier = [1, 2] ∧ c.chunk = [3] ∧ c.sent = [1]) ∧
    (¬ machine.Always Faithful
      (new (List.replicate BUFFER_SIZE 0) List.length_replicate)
      [readCall (List.replicate BUFFER_SIZE 1)
        (Nat.le_of_eq List.length_replicate)]) ∧
    ¬ machine.Always Faithful
      (new (List.replicate BUFFER_SIZE 0) List.length_replicate)
      [readCall [1, 2] (by decide), writeCall 1,
        readCall [3] (by decide)] := by
  have hoverrun : machine.run
      (new (List.replicate BUFFER_SIZE 0) List.length_replicate)
      [readCall (List.replicate BUFFER_SIZE 1)
        (Nat.le_of_eq List.length_replicate)] =
      .error (.outOfBounds BUFFER_SIZE) :=
    eq_of_errorIs (by decide +kernel)
  have hend : okWith (fun c : Connection =>
      decide (c.earlier = [1, 2] ∧ c.chunk = [3] ∧ c.sent = [1]))
      (machine.run (new (List.replicate BUFFER_SIZE 0) List.length_replicate)
        [readCall [1, 2] (by decide), writeCall 1,
          readCall [3] (by decide)]) = true := by
    decide +kernel
  rcases exists_of_okWith hend with ⟨c, hrun, hc⟩
  rcases of_decide_eq_true hc with ⟨hearlier, hchunk, hsent⟩
  refine ⟨hoverrun, ⟨c, hrun, hearlier, hchunk, hsent⟩, ?_, ?_⟩
  · intro halways
    rcases halways with ⟨_, next, hnext, _⟩
    rw [Machine.run_cons_of_ok [] hnext] at hoverrun
    cases hoverrun
  · intro halways
    have hprefix := (halways.last hrun).1
    rw [hearlier, hsent] at hprefix
    exact absurd hprefix.length_le (by decide)

end Connection
end EchoHandler
end EpollHandler
end NetExperiment
