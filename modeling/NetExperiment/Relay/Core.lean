import NetExperiment.Libevent.Loop

/-!
# A buffered relay between two endpoints

What a two-way relay on bufferevents is for, without pointers, callback slots
or callback arguments.  Bytes read from one endpoint are queued for the other
one.  An endpoint is no longer read while too much is queued for the other one,
and reading goes on once that queue has drained to half.  When an endpoint ends,
what is queued for the other one is flushed before that one is closed too.

The relay takes the same actions as the event loop of a program, so a program
can be compared with it step by step.
-/

namespace NetExperiment
namespace Relay

open Foundation
open Libevent

inductive Side where
  | accepted
  | upstream
deriving DecidableEq, Repr

namespace Side

def other : Side -> Side
  | accepted => upstream
  | upstream => accepted

@[simp] theorem other_other (x : Side) : x.other.other = x := by
  cases x <;> rfl

@[simp] theorem other_ne (x : Side) : x.other ≠ x := by
  cases x <;> simp [other]

@[simp] theorem ne_other (x : Side) : x ≠ x.other := by
  cases x <;> simp [other]

theorem eq_or_eq_other (x y : Side) : y = x ∨ y = x.other := by
  cases x <;> cases y <;> simp [other]

theorem funext_other {alpha : Type _} {f g : Side -> alpha} (x : Side)
    (hself : f x = g x) (hother : f x.other = g x.other) : f = g := by
  funext z
  rcases eq_or_eq_other x z with hz | hz
  · rw [hz, hself]
  · rw [hz, hother]

theorem forall_iff {P : Side -> Prop} :
    (forall x, P x) <-> P accepted ∧ P upstream := by
  constructor
  · intro h
    exact ⟨h accepted, h upstream⟩
  · intro h x
    cases x with
    | accepted => exact h.1
    | upstream => exact h.2

instance {P : Side -> Prop} [DecidablePred P] : Decidable (forall x, P x) :=
  decidable_of_iff' _ forall_iff

end Side

/-- An endpoint while both endpoints are open.  It is draining while the other
endpoint is held back until its output has shrunk. -/
structure Endpoint extends Channel where
  draining : Bool
deriving DecidableEq, Repr

def Endpoint.onChannel (f : Channel -> Channel) (e : Endpoint) : Endpoint :=
  { e with toChannel := f e.toChannel }

def Endpoint.new : Endpoint where
  toChannel := Channel.new.enable true true
  draining := false

inductive Phase where
  | relaying (ends : Side -> Endpoint)
  | closing (survivor : Side) (c : Channel)
  | closed

structure State where
  phase : Phase
  sockets : Side -> Socket

def State.new : State where
  phase := .relaying (fun _ => Endpoint.new)
  sockets := fun _ => Socket.new

/-!
## What the relay does
-/

/-- Queue the input of one endpoint for the other one. -/
def moved (x : Side) (ends : Side -> Endpoint) : Side -> Endpoint :=
  Function.update
    (Function.update ends x.other
      ((ends x.other).onChannel fun c =>
        { c with output := c.output ++ (ends x).input }))
    x ((ends x).onChannel fun c => { c with input := [] })

def paused (maxOutput : Nat) (x : Side) (ends : Side -> Endpoint) :
    Side -> Endpoint :=
  Function.update
    (Function.update ends x.other
      { (ends x.other).onChannel
          (Channel.setwatermarkWrite (maxOutput / 2) maxOutput) with
        draining := true })
    x ((ends x).onChannel (Channel.disable true false))

/-- Queue the input of one endpoint for the other one, and stop reading it if
too much is queued. -/
def forward (maxOutput : Nat) (x : Side) (ends : Side -> Endpoint) :
    Side -> Endpoint :=
  if maxOutput ≤ (moved x ends x.other).output.length then
    paused maxOutput x (moved x ends)
  else moved x ends

def resume (y : Side) (ends : Side -> Endpoint) : Side -> Endpoint :=
  Function.update
    (Function.update ends y
      { (ends y).onChannel (Channel.setwatermarkWrite 0 0) with
        draining := false })
    y.other ((ends y.other).onChannel (Channel.enable true false))

def finish (maxOutput : Nat) (x : Side) (ends : Side -> Endpoint) : Phase :=
  if (forward maxOutput x ends x.other).output.length ≠ 0 then
    .closing x.other
      ((forward maxOutput x ends x.other).disable true false)
  else .closed

def stepRelaying (maxOutput : Nat) (ends : Side -> Endpoint)
    (sockets : Side -> Socket) (x : Side) : Occurrence -> State
  | .socketRead bytes =>
      if (ends x).enabledRead = true ∧ bytes ≠ [] then
        { phase := .relaying (Function.update ends x
            ((ends x).onChannel (Channel.socketRead true bytes)))
          sockets := Function.update sockets x
            { sockets x with received := (sockets x).received ++ bytes } }
      else { phase := .relaying ends, sockets := sockets }
  | .socketWrite n =>
      if (ends x).enabledWrite = true ∧ 0 < n ∧
          n ≤ (ends x).output.length then
        { phase := .relaying (Function.update ends x
            ((ends x).onChannel (Channel.socketWrite (ends x).draining n)))
          sockets := Function.update sockets x
            { sockets x with
              sent := (sockets x).sent ++ (ends x).output.take n } }
      else { phase := .relaying ends, sockets := sockets }
  | .report what =>
      { phase := .relaying (Function.update ends x
          ((ends x).onChannel (Channel.report true what)))
        sockets := sockets }
  | .deferredRead =>
      if (ends x).readcbPending = true then
        { phase := .relaying (forward maxOutput x
          (Function.update ends x ((ends x).onChannel Channel.takeReadcb)))
          sockets := sockets }
      else { phase := .relaying ends, sockets := sockets }
  | .deferredWrite =>
      if (ends x).draining = true ∧ (ends x).writecbPending = true then
        { phase := .relaying (resume x
          (Function.update ends x ((ends x).onChannel Channel.takeWritecb)))
          sockets := sockets }
      else { phase := .relaying ends, sockets := sockets }
  | .deferredEvent =>
      let handled := Function.update ends x
        ((ends x).onChannel Channel.takeEventcb)
      if (ends x).eventcbPending.Fatal then
        { phase := finish maxOutput x handled, sockets := sockets }
      else { phase := .relaying handled, sockets := sockets }

/-- The surviving endpoint flushes its output; the other one is gone.  A second
end of file or error closes it with what is left. -/
def stepClosing (y : Side) (c : Channel) (sockets : Side -> Socket) :
    Occurrence -> State
  | .socketRead bytes =>
      if c.enabledRead = true ∧ bytes ≠ [] then
        { phase := .closing y (c.socketRead false bytes)
          sockets := Function.update sockets y
            { sockets y with received := (sockets y).received ++ bytes } }
      else { phase := .closing y c, sockets := sockets }
  | .socketWrite n =>
      if c.enabledWrite = true ∧ 0 < n ∧ n ≤ c.output.length then
        { phase := .closing y (c.socketWrite true n)
          sockets := Function.update sockets y
            { sockets y with sent := (sockets y).sent ++ c.output.take n } }
      else { phase := .closing y c, sockets := sockets }
  | .report what =>
      { phase := .closing y (c.report true what), sockets := sockets }
  | .deferredRead => { phase := .closing y c, sockets := sockets }
  | .deferredWrite =>
      if c.writecbPending = true then
        if c.output.length = 0 then
          { phase := .closed, sockets := sockets }
        else
          { phase := .closing y c.takeWritecb, sockets := sockets }
      else { phase := .closing y c, sockets := sockets }
  | .deferredEvent =>
      if c.eventcbPending.Fatal then
        { phase := .closed, sockets := sockets }
      else
        { phase := .closing y c.takeEventcb, sockets := sockets }

def step (maxOutput : Nat) (s : State) (a : Action Side) : State :=
  match s.phase with
  | .relaying ends =>
      stepRelaying maxOutput ends s.sockets a.target a.occurrence
  | .closing y c =>
      if a.target = y then stepClosing y c s.sockets a.occurrence else s
  | .closed => s

def machine (maxOutput : Nat) : Machine State (Action Side) Empty where
  step := fun s a => .ok (step maxOutput s a)

def State.eventcbPending (s : State) (y : Side) : What :=
  match s.phase with
  | .relaying ends => (ends y).eventcbPending
  | .closing z c => if z = y then c.eventcbPending else 0
  | .closed => 0

theorem State.eventcbPending_closing (y : Side) (c : Channel)
    (sockets : Side -> Socket) :
    State.eventcbPending { phase := .closing y c, sockets := sockets } y =
      c.eventcbPending :=
  if_pos rfl

/-- The action runs the event callback of an endpoint for an end of file or an
error. -/
def State.DeliversFatal (y : Side) (s : State) (a : Action Side) : Prop :=
  a.target = y ∧ a.occurrence = .deferredEvent ∧ (s.eventcbPending y).Fatal

/-!
## What a step can do

Every fact about a step is proved by cases on these two relations.
-/

inductive RelayingStep (maxOutput : Nat) (ends : Side -> Endpoint)
    (sockets : Side -> Socket) (x : Side) : Occurrence -> State -> Prop where
  | idle (o : Occurrence) :
      RelayingStep maxOutput ends sockets x o
        { phase := .relaying ends, sockets := sockets }
  | read (bytes : List Byte) :
      (ends x).enabledRead = true ->
      RelayingStep maxOutput ends sockets x (.socketRead bytes)
        { phase := .relaying (Function.update ends x
            ((ends x).onChannel (Channel.socketRead true bytes)))
          sockets := Function.update sockets x
            { sockets x with received := (sockets x).received ++ bytes } }
  | write (n : Nat) :
      RelayingStep maxOutput ends sockets x (.socketWrite n)
        { phase := .relaying (Function.update ends x
            ((ends x).onChannel (Channel.socketWrite (ends x).draining n)))
          sockets := Function.update sockets x
            { sockets x with
              sent := (sockets x).sent ++ (ends x).output.take n } }
  | report (what : What) :
      RelayingStep maxOutput ends sockets x (.report what)
        { phase := .relaying (Function.update ends x
            ((ends x).onChannel (Channel.report true what)))
          sockets := sockets }
  | forwarded :
      RelayingStep maxOutput ends sockets x .deferredRead
        { phase := .relaying (forward maxOutput x
            (Function.update ends x ((ends x).onChannel Channel.takeReadcb)))
          sockets := sockets }
  | resumed :
      (ends x).draining = true -> (ends x).writecbPending = true ->
      RelayingStep maxOutput ends sockets x .deferredWrite
        { phase := .relaying (resume x
            (Function.update ends x ((ends x).onChannel Channel.takeWritecb)))
          sockets := sockets }
  | handled :
      RelayingStep maxOutput ends sockets x .deferredEvent
        { phase := .relaying
            (Function.update ends x ((ends x).onChannel Channel.takeEventcb))
          sockets := sockets }
  | finished :
      (ends x).eventcbPending.Fatal ->
      RelayingStep maxOutput ends sockets x .deferredEvent
        { phase := finish maxOutput x
            (Function.update ends x ((ends x).onChannel Channel.takeEventcb))
          sockets := sockets }

theorem stepRelaying_cases (maxOutput : Nat) (ends : Side -> Endpoint)
    (sockets : Side -> Socket) (x : Side) (o : Occurrence) :
    RelayingStep maxOutput ends sockets x o
      (stepRelaying maxOutput ends sockets x o) := by
  cases o with
  | socketRead bytes =>
      simp only [stepRelaying]
      split
      · rename_i h
        exact RelayingStep.read bytes h.1
      · exact RelayingStep.idle _
  | socketWrite n =>
      simp only [stepRelaying]
      split
      · exact RelayingStep.write n
      · exact RelayingStep.idle _
  | report what => exact RelayingStep.report what
  | deferredRead =>
      simp only [stepRelaying]
      split
      · exact RelayingStep.forwarded
      · exact RelayingStep.idle _
  | deferredWrite =>
      simp only [stepRelaying]
      split
      · rename_i h
        exact RelayingStep.resumed h.1 h.2
      · exact RelayingStep.idle _
  | deferredEvent =>
      simp only [stepRelaying]
      split
      · rename_i h
        exact RelayingStep.finished h
      · exact RelayingStep.handled

inductive ClosingStep (y : Side) (c : Channel) (sockets : Side -> Socket) :
    Occurrence -> State -> Prop where
  | idle (o : Occurrence) :
      ClosingStep y c sockets o { phase := .closing y c, sockets := sockets }
  | read (bytes : List Byte) :
      ClosingStep y c sockets (.socketRead bytes)
        { phase := .closing y (c.socketRead false bytes)
          sockets := Function.update sockets y
            { sockets y with received := (sockets y).received ++ bytes } }
  | write (n : Nat) :
      ClosingStep y c sockets (.socketWrite n)
        { phase := .closing y (c.socketWrite true n)
          sockets := Function.update sockets y
            { sockets y with sent := (sockets y).sent ++ c.output.take n } }
  | report (what : What) :
      ClosingStep y c sockets (.report what)
        { phase := .closing y (c.report true what), sockets := sockets }
  | flushed :
      c.output.length = 0 ->
      ClosingStep y c sockets .deferredWrite
        { phase := .closed, sockets := sockets }
  | waited :
      c.output.length ≠ 0 ->
      ClosingStep y c sockets .deferredWrite
        { phase := .closing y c.takeWritecb, sockets := sockets }
  | handled :
      ClosingStep y c sockets .deferredEvent
        { phase := .closing y c.takeEventcb, sockets := sockets }
  | dropped :
      c.eventcbPending.Fatal ->
      ClosingStep y c sockets .deferredEvent
        { phase := .closed, sockets := sockets }

theorem stepClosing_cases (y : Side) (c : Channel) (sockets : Side -> Socket)
    (o : Occurrence) :
    ClosingStep y c sockets o (stepClosing y c sockets o) := by
  cases o with
  | socketRead bytes =>
      simp only [stepClosing]
      split
      · exact ClosingStep.read bytes
      · exact ClosingStep.idle _
  | socketWrite n =>
      simp only [stepClosing]
      split
      · exact ClosingStep.write n
      · exact ClosingStep.idle _
  | report what => exact ClosingStep.report what
  | deferredRead => exact ClosingStep.idle _
  | deferredWrite =>
      simp only [stepClosing]
      split
      · split
        · rename_i h
          exact ClosingStep.flushed h
        · rename_i h
          exact ClosingStep.waited h
      · exact ClosingStep.idle _
  | deferredEvent =>
      simp only [stepClosing]
      split
      · rename_i h
        exact ClosingStep.dropped h
      · exact ClosingStep.handled

end Relay
end NetExperiment
