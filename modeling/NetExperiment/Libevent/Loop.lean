import NetExperiment.Foundation.Machine
import NetExperiment.Libevent.Bufferevent

/-!
# The event loop

A program built on libevent is its callbacks.  This module runs them: the
network feeds and drains the buffers of the live bufferevents, and deferred
callbacks run later, one at a time and in any order, with the callbacks and the
argument that are installed when they run.  A freed bufferevent takes part in
nothing any more.
-/

namespace NetExperiment
namespace Libevent

open Foundation

inductive Resource where
  | object
  | bufferevent
deriving DecidableEq, Repr

/-- The memory of a program: its bufferevents, the history of their sockets,
and whatever else the program keeps. -/
structure Loop (ptr dataCb eventCb arg memory : Type) where
  bevs : Heap ptr (Bufferevent dataCb eventCb arg)
  sockets : ptr -> Socket
  memory : memory

inductive Occurrence where
  | socketRead (bytes : List Byte)
  | socketWrite (n : Nat)
  | report (what : What)
  | deferredRead
  | deferredWrite
  | deferredEvent
deriving DecidableEq, Repr

structure Action (ptr : Type) where
  target : ptr
  occurrence : Occurrence
deriving DecidableEq, Repr

def Action.map {name ptr : Type} (f : name -> ptr) (a : Action name) :
    Action ptr where
  target := f a.target
  occurrence := a.occurrence

/-- The action is the discovery of an end of file or an error on the socket of
a given bufferevent. -/
def Action.ReportsFatal {ptr : Type} (b : ptr) (a : Action ptr) : Prop :=
  a.target = b ∧ exists what : What, a.occurrence = .report what ∧ what.Fatal

namespace Loop

variable {ptr dataCb eventCb arg memory : Type} [DecidableEq ptr]

def view (s : Loop ptr dataCb eventCb arg memory) (p : ptr) :
    Cell (Bufferevent dataCb eventCb arg) × Socket :=
  (s.bevs p, s.sockets p)

def setBev (s : Loop ptr dataCb eventCb arg memory) (b : ptr)
    (bev : Bufferevent dataCb eventCb arg) :
    Loop ptr dataCb eventCb arg memory :=
  { s with bevs := Function.update s.bevs b (.live bev) }

def setSocket (s : Loop ptr dataCb eventCb arg memory) (b : ptr)
    (socket : Socket) : Loop ptr dataCb eventCb arg memory :=
  { s with sockets := Function.update s.sockets b socket }

@[simp] theorem setBev_bevs_self (s : Loop ptr dataCb eventCb arg memory)
    (b : ptr) (bev : Bufferevent dataCb eventCb arg) :
    (s.setBev b bev).bevs b = .live bev := by
  simp [setBev]

theorem setBev_bevs_of_ne (s : Loop ptr dataCb eventCb arg memory) {b p : ptr}
    (bev : Bufferevent dataCb eventCb arg) (h : p ≠ b) :
    (s.setBev b bev).bevs p = s.bevs p :=
  Function.update_of_ne h _ _

@[simp] theorem setBev_setBev (s : Loop ptr dataCb eventCb arg memory)
    (b : ptr) (bev bev' : Bufferevent dataCb eventCb arg) :
    (s.setBev b bev).setBev b bev' = s.setBev b bev' := by
  simp [setBev]

/-!
## The library functions that callbacks call
-/

def modifyBev (s : Loop ptr dataCb eventCb arg memory) (b : ptr)
    (f : Bufferevent dataCb eventCb arg -> Bufferevent dataCb eventCb arg) :
    Except (Fault Resource ptr) (Loop ptr dataCb eventCb arg memory) := do
  let bevs <- s.bevs.modify Resource.bufferevent b f
  return { s with bevs := bevs }

def buffereventSocketNew (s : Loop ptr dataCb eventCb arg memory) (b : ptr) :
    Loop ptr dataCb eventCb arg memory :=
  { s with
    bevs := s.bevs.alloc b Bufferevent.new
    sockets := Function.update s.sockets b Socket.new }

def buffereventFree (s : Loop ptr dataCb eventCb arg memory) (b : ptr) :
    Except (Fault Resource ptr) (Loop ptr dataCb eventCb arg memory) := do
  let bevs <- s.bevs.free Resource.bufferevent b
  return { s with bevs := bevs }

def buffereventSetcb (s : Loop ptr dataCb eventCb arg memory) (b : ptr)
    (readcb writecb : Option dataCb) (eventcb : Option eventCb)
    (cbarg : Option arg) :
    Except (Fault Resource ptr) (Loop ptr dataCb eventCb arg memory) :=
  s.modifyBev b (Bufferevent.setcb readcb writecb eventcb cbarg)

def buffereventSetwatermarkWrite (s : Loop ptr dataCb eventCb arg memory)
    (b : ptr) (low high : Nat) :
    Except (Fault Resource ptr) (Loop ptr dataCb eventCb arg memory) :=
  s.modifyBev b (Bufferevent.onChannel (Channel.setwatermarkWrite low high))

def buffereventEnable (s : Loop ptr dataCb eventCb arg memory) (b : ptr)
    (read write : Bool) :
    Except (Fault Resource ptr) (Loop ptr dataCb eventCb arg memory) :=
  s.modifyBev b (Bufferevent.onChannel (Channel.enable read write))

def buffereventDisable (s : Loop ptr dataCb eventCb arg memory) (b : ptr)
    (read write : Bool) :
    Except (Fault Resource ptr) (Loop ptr dataCb eventCb arg memory) :=
  s.modifyBev b (Bufferevent.onChannel (Channel.disable read write))

def outputLength (s : Loop ptr dataCb eventCb arg memory) (b : ptr) :
    Except (Fault Resource ptr) Nat := do
  let bev <- s.bevs.read Resource.bufferevent b
  return bev.output.length

def inputLength (s : Loop ptr dataCb eventCb arg memory) (b : ptr) :
    Except (Fault Resource ptr) Nat := do
  let bev <- s.bevs.read Resource.bufferevent b
  return bev.input.length

def evbufferDrainInput (s : Loop ptr dataCb eventCb arg memory) (b : ptr)
    (len : Nat) :
    Except (Fault Resource ptr) (Loop ptr dataCb eventCb arg memory) :=
  s.modifyBev b
    (Bufferevent.onChannel fun c => { c with input := c.input.drop len })

def evbufferAdd (s : Loop ptr dataCb eventCb arg memory) (b : ptr)
    (bytes : List Byte) :
    Except (Fault Resource ptr) (Loop ptr dataCb eventCb arg memory) :=
  s.modifyBev b
    (Bufferevent.onChannel fun c => { c with output := c.output ++ bytes })

/-- Move the whole input buffer of one bufferevent to the end of the output
buffer of another one, or of the same one. -/
def evbufferAddBuffer (s : Loop ptr dataCb eventCb arg memory)
    (dst src : ptr) :
    Except (Fault Resource ptr) (Loop ptr dataCb eventCb arg memory) := do
  let bev <- s.bevs.read Resource.bufferevent src
  let s <- s.modifyBev dst
    (Bufferevent.onChannel fun c => { c with output := c.output ++ bev.input })
  s.modifyBev src (Bufferevent.onChannel fun c => { c with input := [] })

/-!
On live bufferevents these functions never fault.
-/

theorem modifyBev_live {s : Loop ptr dataCb eventCb arg memory} {b : ptr}
    {bev : Bufferevent dataCb eventCb arg}
    (f : Bufferevent dataCb eventCb arg -> Bufferevent dataCb eventCb arg)
    (h : s.bevs b = .live bev) :
    s.modifyBev b f = .ok (s.setBev b (f bev)) := by
  unfold modifyBev
  rw [Heap.modify_live _ f h]
  rfl

theorem modifyBev_setBev (s : Loop ptr dataCb eventCb arg memory) (b : ptr)
    (bev : Bufferevent dataCb eventCb arg)
    (f : Bufferevent dataCb eventCb arg -> Bufferevent dataCb eventCb arg) :
    (s.setBev b bev).modifyBev b f = .ok (s.setBev b (f bev)) := by
  rw [modifyBev_live f (setBev_bevs_self s b bev), setBev_setBev]

omit [DecidableEq ptr] in
theorem outputLength_live {s : Loop ptr dataCb eventCb arg memory} {b : ptr}
    {bev : Bufferevent dataCb eventCb arg} (h : s.bevs b = .live bev) :
    s.outputLength b = .ok bev.output.length := by
  unfold outputLength
  rw [Heap.read_live _ h]
  rfl

omit [DecidableEq ptr] in
theorem inputLength_live {s : Loop ptr dataCb eventCb arg memory} {b : ptr}
    {bev : Bufferevent dataCb eventCb arg} (h : s.bevs b = .live bev) :
    s.inputLength b = .ok bev.input.length := by
  unfold inputLength
  rw [Heap.read_live _ h]
  rfl

theorem buffereventFree_live {s : Loop ptr dataCb eventCb arg memory}
    {b : ptr} {bev : Bufferevent dataCb eventCb arg}
    (h : s.bevs b = .live bev) :
    s.buffereventFree b =
      .ok { s with bevs := Function.update s.bevs b .freed } := by
  unfold buffereventFree
  rw [Heap.free_live _ h]
  rfl

/-!
## Steps
-/

structure Program (ptr dataCb eventCb arg memory : Type) where
  data : dataCb -> ptr -> Option arg ->
    Loop ptr dataCb eventCb arg memory ->
      Except (Fault Resource ptr) (Loop ptr dataCb eventCb arg memory)
  event : eventCb -> ptr -> What -> Option arg ->
    Loop ptr dataCb eventCb arg memory ->
      Except (Fault Resource ptr) (Loop ptr dataCb eventCb arg memory)

def stepLive (prog : Program ptr dataCb eventCb arg memory)
    (s : Loop ptr dataCb eventCb arg memory) (b : ptr)
    (bev : Bufferevent dataCb eventCb arg) :
    Occurrence ->
      Except (Fault Resource ptr) (Loop ptr dataCb eventCb arg memory)
  | .socketRead bytes =>
      if bev.enabledRead = true ∧ bytes ≠ [] then
        .ok ((s.setBev b
          (bev.onChannel
            (Channel.socketRead bev.readcb.isSome bytes))).setSocket b
            { s.sockets b with
              received := (s.sockets b).received ++ bytes })
      else .ok s
  | .socketWrite n =>
      if bev.enabledWrite = true ∧ 0 < n ∧ n ≤ bev.output.length then
        .ok ((s.setBev b
          (bev.onChannel
            (Channel.socketWrite bev.writecb.isSome n))).setSocket b
            { s.sockets b with
              sent := (s.sockets b).sent ++ bev.output.take n })
      else .ok s
  | .report what =>
      .ok (s.setBev b
        (bev.onChannel (Channel.report bev.eventcb.isSome what)))
  | .deferredRead =>
      match bev.readcb with
      | some cb =>
          if bev.readcbPending = true then
            prog.data cb b bev.cbarg
              (s.setBev b (bev.onChannel Channel.takeReadcb))
          else .ok s
      | none => .ok s
  | .deferredWrite =>
      match bev.writecb with
      | some cb =>
          if bev.writecbPending = true then
            prog.data cb b bev.cbarg
              (s.setBev b (bev.onChannel Channel.takeWritecb))
          else .ok s
      | none => .ok s
  | .deferredEvent =>
      match bev.eventcb with
      | some cb =>
          if bev.eventcbPending ≠ 0 then
            prog.event cb b bev.eventcbPending bev.cbarg
              (s.setBev b (bev.onChannel Channel.takeEventcb))
          else .ok s
      | none => .ok s

theorem stepLive_deferredRead {prog : Program ptr dataCb eventCb arg memory}
    {s : Loop ptr dataCb eventCb arg memory} {b : ptr}
    {bev : Bufferevent dataCb eventCb arg} {cb : dataCb}
    (hcb : bev.readcb = some cb) (hpending : bev.readcbPending = true) :
    s.stepLive prog b bev .deferredRead =
      prog.data cb b bev.cbarg
        (s.setBev b (bev.onChannel Channel.takeReadcb)) := by
  simp only [stepLive, hcb, hpending, if_true]

theorem stepLive_deferredWrite {prog : Program ptr dataCb eventCb arg memory}
    {s : Loop ptr dataCb eventCb arg memory} {b : ptr}
    {bev : Bufferevent dataCb eventCb arg} {cb : dataCb}
    (hcb : bev.writecb = some cb) (hpending : bev.writecbPending = true) :
    s.stepLive prog b bev .deferredWrite =
      prog.data cb b bev.cbarg
        (s.setBev b (bev.onChannel Channel.takeWritecb)) := by
  simp only [stepLive, hcb, hpending, if_true]

theorem stepLive_deferredWrite_idle
    {prog : Program ptr dataCb eventCb arg memory}
    {s : Loop ptr dataCb eventCb arg memory} {b : ptr}
    {bev : Bufferevent dataCb eventCb arg}
    (h : ¬ (bev.writecb.isSome = true ∧ bev.writecbPending = true)) :
    s.stepLive prog b bev .deferredWrite = .ok s := by
  simp only [stepLive]
  split
  · rename_i cb hcb
    apply if_neg
    intro hpending
    exact h ⟨by rw [hcb]; rfl, hpending⟩
  · rfl

theorem stepLive_deferredEvent {prog : Program ptr dataCb eventCb arg memory}
    {s : Loop ptr dataCb eventCb arg memory} {b : ptr}
    {bev : Bufferevent dataCb eventCb arg} {cb : eventCb}
    (hcb : bev.eventcb = some cb) (hpending : bev.eventcbPending ≠ 0) :
    s.stepLive prog b bev .deferredEvent =
      prog.event cb b bev.eventcbPending bev.cbarg
        (s.setBev b (bev.onChannel Channel.takeEventcb)) := by
  simp only [stepLive, hcb]
  exact if_pos hpending

theorem stepLive_deferredEvent_idle
    {prog : Program ptr dataCb eventCb arg memory}
    {s : Loop ptr dataCb eventCb arg memory} {b : ptr}
    {bev : Bufferevent dataCb eventCb arg} (h : bev.eventcbPending = 0) :
    s.stepLive prog b bev .deferredEvent = .ok s := by
  simp only [stepLive]
  split
  · exact if_neg (not_not.mpr h)
  · rfl

/-- One action.  Nothing happens to a bufferevent that is not live. -/
def step (prog : Program ptr dataCb eventCb arg memory)
    (s : Loop ptr dataCb eventCb arg memory) (a : Action ptr) :
    Except (Fault Resource ptr) (Loop ptr dataCb eventCb arg memory) :=
  match s.bevs a.target with
  | .live bev => s.stepLive prog a.target bev a.occurrence
  | _ => .ok s

theorem step_live {prog : Program ptr dataCb eventCb arg memory}
    {s : Loop ptr dataCb eventCb arg memory} {b : ptr}
    {bev : Bufferevent dataCb eventCb arg} (o : Occurrence)
    (h : s.bevs b = .live bev) :
    step prog s { target := b, occurrence := o } =
      s.stepLive prog b bev o := by
  simp only [step, h]

theorem step_notLive {prog : Program ptr dataCb eventCb arg memory}
    {s : Loop ptr dataCb eventCb arg memory} {a : Action ptr}
    (h : ¬ (s.bevs a.target).IsLive) : step prog s a = .ok s := by
  unfold step
  split
  · rename_i bev hbev
    exact absurd ⟨bev, hbev⟩ h
  · rfl

/-- The action runs the event callback of a live bufferevent for an end of file
or an error. -/
def DeliversFatal (b : ptr) (s : Loop ptr dataCb eventCb arg memory)
    (a : Action ptr) : Prop :=
  a.target = b ∧ a.occurrence = .deferredEvent ∧
    exists bev, s.bevs b = .live bev ∧ bev.eventcbPending.Fatal

def machine (prog : Program ptr dataCb eventCb arg memory) :
    Machine (Loop ptr dataCb eventCb arg memory) (Action ptr)
      (Fault Resource ptr) where
  step := step prog

/-!
## What the loop has still to do

Bytes arrive and events are found when the peers will it.  All else that can
happen is work that the loop has already been given: output that a socket takes
and callbacks that are scheduled.
-/

end Loop

/-- The occurrence is work that a channel has been given, when callbacks are
installed as told. -/
def Channel.Busy (readcb writecb eventcb : Bool) (c : Channel) :
    Occurrence -> Prop
  | .socketRead _ => False
  | .socketWrite n =>
      c.enabledWrite = true ∧ 0 < n ∧ n ≤ c.output.length
  | .report _ => False
  | .deferredRead => readcb = true ∧ c.readcbPending = true
  | .deferredWrite => writecb = true ∧ c.writecbPending = true
  | .deferredEvent => eventcb = true ∧ c.eventcbPending ≠ 0

instance (readcb writecb eventcb : Bool) (c : Channel) (o : Occurrence) :
    Decidable (c.Busy readcb writecb eventcb o) :=
  match o with
  | .socketRead _ => inferInstanceAs (Decidable False)
  | .socketWrite _ => inferInstanceAs (Decidable (_ ∧ _ ∧ _))
  | .report _ => inferInstanceAs (Decidable False)
  | .deferredRead => inferInstanceAs (Decidable (_ ∧ _))
  | .deferredWrite => inferInstanceAs (Decidable (_ ∧ _))
  | .deferredEvent => inferInstanceAs (Decidable (_ ∧ _))

/-- Two for each byte, which may have to be forwarded and written, and one for
each scheduled callback. -/
def Channel.work (c : Channel) : Nat :=
  2 * (c.input.length + c.output.length) + c.readcbPending.toNat +
    c.writecbPending.toNat + (c.eventcbPending != 0).toNat

namespace Loop

variable {ptr dataCb eventCb arg memory : Type}

def Busy (s : Loop ptr dataCb eventCb arg memory) (a : Action ptr) : Prop :=
  exists bev, s.bevs a.target = .live bev ∧
    bev.toChannel.Busy bev.readcb.isSome bev.writecb.isSome
      bev.eventcb.isSome a.occurrence

instance (s : Loop ptr dataCb eventCb arg memory) (a : Action ptr) :
    Decidable (s.Busy a) :=
  inferInstanceAs (Decidable (exists _, _ ∧ _))

/-- What is left to do for one bufferevent. -/
def work (s : Loop ptr dataCb eventCb arg memory) (b : ptr) : Nat :=
  match s.bevs b with
  | .live bev => bev.toChannel.work
  | _ => 0

end Loop
end Libevent
end NetExperiment
