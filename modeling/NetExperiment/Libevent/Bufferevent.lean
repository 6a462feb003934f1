import NetExperiment.Foundation.Heap
import Mathlib.Data.List.Basic

/-!
# Bufferevents

The part of libevent's socket bufferevents that callback code can observe: the
two buffers, the enabled directions, the write watermark, the callback slots
with their shared argument, and the callbacks that are scheduled but have not
run yet.

The buffers and flags of a bufferevent do not depend on the type of its
callbacks.  They form a `Channel`, and what libevent does to a channel only
asks whether a callback is installed.
-/

namespace NetExperiment
namespace Libevent

open Foundation

/-- The flag word passed to an event callback, a C short. -/
abbrev What := BitVec 16

def BEV_EVENT_READING : What := 0x01
def BEV_EVENT_WRITING : What := 0x02
def BEV_EVENT_EOF : What := 0x10
def BEV_EVENT_ERROR : What := 0x20
def BEV_EVENT_CONNECTED : What := 0x80

/-- The event ends the connection: end of file or an error. -/
def What.Fatal (what : What) : Prop :=
  what &&& (BEV_EVENT_EOF ||| BEV_EVENT_ERROR) ≠ 0

instance (what : What) : Decidable what.Fatal :=
  inferInstanceAs (Decidable (_ ≠ _))

theorem What.fatal_or (a b : What) :
    What.Fatal (a ||| b) <-> a.Fatal ∨ b.Fatal := by
  unfold What.Fatal
  have hsplit : (a ||| b) &&& (BEV_EVENT_EOF ||| BEV_EVENT_ERROR) =
      (a &&& (BEV_EVENT_EOF ||| BEV_EVENT_ERROR)) |||
        (b &&& (BEV_EVENT_EOF ||| BEV_EVENT_ERROR)) := by
    ext i
    simp [Bool.and_or_distrib_right]
  rw [hsplit]
  exact (not_congr BitVec.or_eq_zero_iff).trans not_and_or

theorem What.fatal_of_eof {what : What} (h : what &&& BEV_EVENT_EOF ≠ 0) :
    what.Fatal := by
  intro hzero
  apply h
  have hpart : what &&& BEV_EVENT_EOF =
      (what &&& (BEV_EVENT_EOF ||| BEV_EVENT_ERROR)) &&& BEV_EVENT_EOF := by
    rw [BitVec.and_assoc]
    rfl
  rw [hpart, hzero]
  exact BitVec.zero_and

theorem What.not_fatal_zero : ¬ What.Fatal 0 := by
  decide

structure Channel where
  input : List Byte
  output : List Byte
  enabledRead : Bool
  enabledWrite : Bool
  wmWriteLow : Nat
  wmWriteHigh : Nat
  readcbPending : Bool
  writecbPending : Bool
  eventcbPending : What
deriving DecidableEq, Repr

namespace Channel

/-- A new bufferevent has only writing enabled. -/
def new : Channel where
  input := []
  output := []
  enabledRead := false
  enabledWrite := true
  wmWriteLow := 0
  wmWriteHigh := 0
  readcbPending := false
  writecbPending := false
  eventcbPending := 0

/-- Bytes arrive from the socket.  The read callback is scheduled if there is
one. -/
def socketRead (installed : Bool) (bytes : List Byte) (c : Channel) :
    Channel :=
  { c with
    input := c.input ++ bytes
    readcbPending := c.readcbPending || installed }

/-- The socket accepts the first bytes of the output buffer.  The write
callback is scheduled if there is one and the output has fallen to the low
watermark. -/
def socketWrite (installed : Bool) (n : Nat) (c : Channel) : Channel :=
  { c with
    output := c.output.drop n
    writecbPending := c.writecbPending ||
      (installed && decide ((c.output.drop n).length ≤ c.wmWriteLow)) }

/-- An event is found on the socket.  After an end of file or an error libevent
stops the direction it was found in before it schedules the event callback. -/
def report (installed : Bool) (what : What) (c : Channel) : Channel :=
  { c with
    enabledRead := c.enabledRead &&
      !decide (what.Fatal ∧ what &&& BEV_EVENT_READING ≠ 0)
    enabledWrite := c.enabledWrite &&
      !decide (what.Fatal ∧ what &&& BEV_EVENT_WRITING ≠ 0)
    eventcbPending :=
      if installed then c.eventcbPending ||| what else c.eventcbPending }

theorem report_enabledRead (installed : Bool) {what : What} (c : Channel)
    (h : ¬ what.Fatal) :
    (c.report installed what).enabledRead = c.enabledRead := by
  have hnot : ¬ (what.Fatal ∧ what &&& BEV_EVENT_READING ≠ 0) :=
    fun hboth => h hboth.1
  show (c.enabledRead && !decide _) = c.enabledRead
  rw [decide_eq_false hnot]
  exact Bool.and_true _

/-!
A scheduled callback is taken off the schedule right before it runs.
-/

def takeReadcb (c : Channel) : Channel :=
  { c with readcbPending := false }

def takeWritecb (c : Channel) : Channel :=
  { c with writecbPending := false }

def takeEventcb (c : Channel) : Channel :=
  { c with eventcbPending := 0 }

def setwatermarkWrite (low high : Nat) (c : Channel) : Channel :=
  { c with wmWriteLow := low, wmWriteHigh := high }

def enable (read write : Bool) (c : Channel) : Channel :=
  { c with
    enabledRead := c.enabledRead || read
    enabledWrite := c.enabledWrite || write }

def disable (read write : Bool) (c : Channel) : Channel :=
  { c with
    enabledRead := c.enabledRead && !read
    enabledWrite := c.enabledWrite && !write }

end Channel

structure Bufferevent (dataCb eventCb arg : Type) extends Channel where
  readcb : Option dataCb
  writecb : Option dataCb
  eventcb : Option eventCb
  cbarg : Option arg
deriving DecidableEq, Repr

namespace Bufferevent

variable {dataCb eventCb arg : Type}

def new : Bufferevent dataCb eventCb arg where
  toChannel := Channel.new
  readcb := none
  writecb := none
  eventcb := none
  cbarg := none

def onChannel (f : Channel -> Channel) (b : Bufferevent dataCb eventCb arg) :
    Bufferevent dataCb eventCb arg :=
  { b with toChannel := f b.toChannel }

def setcb (readcb writecb : Option dataCb) (eventcb : Option eventCb)
    (cbarg : Option arg) (b : Bufferevent dataCb eventCb arg) :
    Bufferevent dataCb eventCb arg :=
  { b with
    readcb := readcb
    writecb := writecb
    eventcb := eventcb
    cbarg := cbarg }

end Bufferevent

structure Socket where
  received : List Byte
  sent : List Byte
deriving DecidableEq, Repr

def Socket.new : Socket where
  received := []
  sent := []

end Libevent
end NetExperiment
