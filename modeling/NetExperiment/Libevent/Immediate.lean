import NetExperiment.Libevent.Loop

/-!
# Callbacks that are not deferred

A bufferevent that was made without deferred callbacks runs them inside of the
read, the write or the failure that they are about, before anything else can
happen to it.
-/

namespace NetExperiment
namespace Libevent

open Foundation

inductive Readiness where
  | read (bytes : List Byte)
  | write (n : Nat)
  | event (what : What)
deriving DecidableEq, Repr

/-- An event is found by a read or a write, so only in a direction that is
enabled. -/
def Channel.Finds (c : Channel) (what : What) : Prop :=
  (c.enabledRead = true ∧ what &&& BEV_EVENT_READING ≠ 0) ∨
    (c.enabledWrite = true ∧ what &&& BEV_EVENT_WRITING ≠ 0)

instance (c : Channel) (what : What) : Decidable (c.Finds what) :=
  inferInstanceAs (Decidable (_ ∨ _))

namespace Loop

variable {ptr dataCb eventCb arg memory : Type} [DecidableEq ptr]

def callData (prog : Program ptr dataCb eventCb arg memory)
    (cb : Option dataCb) (b : ptr) (cbarg : Option arg)
    (s : Loop ptr dataCb eventCb arg memory) :
    Except (Fault Resource ptr) (Loop ptr dataCb eventCb arg memory) :=
  match cb with
  | some cb => prog.data cb b cbarg s
  | none => .ok s

def callEvent (prog : Program ptr dataCb eventCb arg memory)
    (cb : Option eventCb) (b : ptr) (what : What) (cbarg : Option arg)
    (s : Loop ptr dataCb eventCb arg memory) :
    Except (Fault Resource ptr) (Loop ptr dataCb eventCb arg memory) :=
  match cb with
  | some cb => prog.event cb b what cbarg s
  | none => .ok s

def readBytes (s : Loop ptr dataCb eventCb arg memory) (b : ptr)
    (bev : Bufferevent dataCb eventCb arg) (bytes : List Byte) :
    Loop ptr dataCb eventCb arg memory :=
  (s.setBev b (bev.onChannel (Channel.socketRead false bytes))).setSocket b
    { s.sockets b with received := (s.sockets b).received ++ bytes }

def writeBytes (s : Loop ptr dataCb eventCb arg memory) (b : ptr)
    (bev : Bufferevent dataCb eventCb arg) (n : Nat) :
    Loop ptr dataCb eventCb arg memory :=
  (s.setBev b (bev.onChannel (Channel.socketWrite false n))).setSocket b
    { s.sockets b with sent := (s.sockets b).sent ++ bev.output.take n }

section Histories

variable (s : Loop ptr dataCb eventCb arg memory) (b : ptr)
  (bev : Bufferevent dataCb eventCb arg)

theorem readBytes_received (bytes : List Byte) :
    ((s.readBytes b bev bytes).sockets b).received =
      (s.sockets b).received ++ bytes := by
  simp [readBytes, setSocket]

theorem readBytes_sent (bytes : List Byte) :
    ((s.readBytes b bev bytes).sockets b).sent = (s.sockets b).sent := by
  simp [readBytes, setSocket]

theorem writeBytes_received (n : Nat) :
    ((s.writeBytes b bev n).sockets b).received = (s.sockets b).received := by
  simp [writeBytes, setSocket]

theorem writeBytes_sent (n : Nat) :
    ((s.writeBytes b bev n).sockets b).sent =
      (s.sockets b).sent ++ bev.output.take n := by
  simp [writeBytes, setSocket]

end Histories

/-- The read callback runs after each read, the write callback after a write
that leaves no more than the low watermark, and the event callback after the
direction of a failure has been stopped. -/
def dispatchLive (prog : Program ptr dataCb eventCb arg memory)
    (s : Loop ptr dataCb eventCb arg memory) (b : ptr)
    (bev : Bufferevent dataCb eventCb arg) :
    Readiness ->
      Except (Fault Resource ptr) (Loop ptr dataCb eventCb arg memory)
  | .read bytes =>
      if bev.enabledRead = true ∧ bytes ≠ [] then
        callData prog bev.readcb b bev.cbarg (s.readBytes b bev bytes)
      else .ok s
  | .write n =>
      if bev.enabledWrite = true ∧ 0 < n ∧ n ≤ bev.output.length then
        if (bev.output.drop n).length ≤ bev.wmWriteLow then
          callData prog bev.writecb b bev.cbarg (s.writeBytes b bev n)
        else .ok (s.writeBytes b bev n)
      else .ok s
  | .event what =>
      if bev.Finds what then
        callEvent prog bev.eventcb b what bev.cbarg
          (s.setBev b (bev.onChannel (Channel.report false what)))
      else .ok s

/-- One event on the socket of a bufferevent.  Nothing happens to one that is
not live. -/
def dispatch (prog : Program ptr dataCb eventCb arg memory) (b : ptr)
    (s : Loop ptr dataCb eventCb arg memory) (r : Readiness) :
    Except (Fault Resource ptr) (Loop ptr dataCb eventCb arg memory) :=
  match s.bevs b with
  | .live bev => s.dispatchLive prog b bev r
  | _ => .ok s

theorem dispatch_live {prog : Program ptr dataCb eventCb arg memory}
    {s : Loop ptr dataCb eventCb arg memory} {b : ptr}
    {bev : Bufferevent dataCb eventCb arg} (r : Readiness)
    (h : s.bevs b = .live bev) :
    dispatch prog b s r = s.dispatchLive prog b bev r := by
  simp only [dispatch, h]

theorem dispatch_freed {prog : Program ptr dataCb eventCb arg memory}
    {s : Loop ptr dataCb eventCb arg memory} {b : ptr} (r : Readiness)
    (h : s.bevs b = .freed) : dispatch prog b s r = .ok s := by
  simp only [dispatch, h]

theorem dispatch_notLive {prog : Program ptr dataCb eventCb arg memory}
    {s : Loop ptr dataCb eventCb arg memory} {b : ptr} (r : Readiness)
    (h : ¬ (s.bevs b).IsLive) : dispatch prog b s r = .ok s := by
  unfold dispatch
  split
  · rename_i bev hbev
    exact absurd ⟨bev, hbev⟩ h
  · rfl

def immediate (prog : Program ptr dataCb eventCb arg memory) (b : ptr) :
    Machine (Loop ptr dataCb eventCb arg memory) Readiness
      (Fault Resource ptr) where
  step := dispatch prog b

end Loop
end Libevent
end NetExperiment
