import NetExperiment.Foundation.Machine
import NetExperiment.Foundation.Heap
import Mathlib.Data.List.Basic

/-!
# The splicing echo handler

`SpliceEchoHandler` echoes a connection through a pipe: one splice moves bytes
from the socket to the pipe, another one moves them back.  The handler keeps one
counter, to which it adds the result of the first splice and from which it
subtracts the result of the second one, and closes the connection when the
counter is not positive after a read.

The function itself is a pure function of the counter, the event mask and the
two results.  It returns the calls it makes on the loop.  A connection adds what
the function cannot see: the bytes in the pipe and the history of the socket.
-/

namespace NetExperiment
namespace EpollHandler

open Foundation

abbrev Events := BitVec 32

def EPOLLIN : Events := 0x001
def EPOLLOUT : Events := 0x004
def EPOLLERR : Events := 0x008
def EPOLLHUP : Events := 0x010
def EPOLLET : Events := 0x80000000

/-- The mask makes the handler close the connection without looking at the
rest. -/
def Events.HungUp (events : Events) : Prop :=
  events &&& EPOLLHUP ≠ 0 ∨ events &&& EPOLLERR ≠ 0

def Events.Readable (events : Events) : Prop :=
  events &&& EPOLLIN ≠ 0

def Events.Writable (events : Events) : Prop :=
  events &&& EPOLLOUT ≠ 0

instance (events : Events) : Decidable events.HungUp :=
  inferInstanceAs (Decidable (_ ∨ _))

instance (events : Events) : Decidable events.Readable :=
  inferInstanceAs (Decidable (_ ≠ _))

instance (events : Events) : Decidable events.Writable :=
  inferInstanceAs (Decidable (_ ≠ _))

def dataLen : Nat := 4 * 1024 * 1024

def toInt32 (x : Int) : Int :=
  x.bmod 0x100000000

def toSize (x : Int) : Nat :=
  (x.emod 0x10000000000000000).toNat

theorem toInt32_add (x y : Int) : toInt32 (toInt32 x + y) = toInt32 (x + y) :=
  Int.bmod_add_bmod

theorem toInt32_sub (x y : Int) : toInt32 (toInt32 x - y) = toInt32 (x - y) :=
  Int.bmod_sub_bmod

/-!
## The handler
-/

inductive LoopCall where
  | modifyHandler (events : Events)
  | removeHandler
  | close
deriving DecidableEq, Repr

namespace SpliceEchoHandler

def readInterest : Events := EPOLLIN ||| EPOLLET ||| EPOLLHUP ||| EPOLLERR

def writeInterest : Events := EPOLLOUT ||| EPOLLET ||| EPOLLHUP ||| EPOLLERR

def afterOutput (received : Int) (events : Events) (out : Int) : Int :=
  if events.Writable then toInt32 (received - out) else received

/-- One call, with the results of the splice to the socket and of the splice
from it.  Returns the counter and the calls on the loop, in order. -/
def handle (received : Int) (events : Events) (out inp : Int) :
    Int × List LoopCall :=
  if events &&& EPOLLHUP ≠ 0 then (received, [.removeHandler, .close])
  else if events &&& EPOLLERR ≠ 0 then (received, [.removeHandler, .close])
  else
    let received := afterOutput received events out
    let calls : List LoopCall :=
      if events.Writable then [.modifyHandler readInterest] else []
    if events.Readable then
      let received := toInt32 (received + inp)
      if received < 0 then (received, calls ++ [.removeHandler])
      else if received = 0 then (received, calls ++ [.removeHandler])
      else (received, calls ++ [.modifyHandler writeInterest])
    else (received, calls)

theorem handle_hungUp (received : Int) {events : Events} (out inp : Int)
    (h : events.HungUp) :
    handle received events out inp = (received, [.removeHandler, .close]) := by
  unfold handle
  rcases h with h | h
  · rw [if_pos h]
  · by_cases hhup : events &&& EPOLLHUP ≠ 0
    · rw [if_pos hhup]
    · rw [if_neg hhup, if_pos h]

theorem handle_eq (received : Int) {events : Events} (out inp : Int)
    (h : ¬ events.HungUp) :
    handle received events out inp =
      (if events.Readable then
        (toInt32 (afterOutput received events out + inp),
          (if events.Writable then [.modifyHandler readInterest] else []) ++
            (if toInt32 (afterOutput received events out + inp) ≤ 0 then
              [.removeHandler]
            else [.modifyHandler writeInterest]))
      else
        (afterOutput received events out,
          if events.Writable then [.modifyHandler readInterest] else [])) := by
  unfold handle
  rcases not_or.mp h with ⟨hhup, herr⟩
  rw [if_neg hhup, if_neg herr]
  by_cases hread : events.Readable
  · simp only [if_pos hread]
    by_cases hneg : toInt32 (afterOutput received events out + inp) < 0
    · rw [if_pos hneg, if_pos (Int.le_of_lt hneg)]
    · rw [if_neg hneg]
      by_cases hzero : toInt32 (afterOutput received events out + inp) = 0
      · rw [if_pos hzero, if_pos (Int.le_of_eq hzero)]
      · have hpos : ¬ toInt32 (afterOutput received events out + inp) ≤ 0 := by
          omega
        rw [if_neg hzero, if_neg hpos]
  · simp only [if_neg hread]

end SpliceEchoHandler

/-!
## A connection

The environment chooses the event mask of a call and the results of its
splices.  Results that the system cannot return make the call impossible.
-/

inductive SpliceOut where
  | blocked
  | moved (n : Nat)
deriving DecidableEq, Repr

inductive SpliceIn where
  | blocked
  | moved (bytes : List Byte)
deriving DecidableEq, Repr

def SpliceOut.result : SpliceOut -> Int
  | .blocked => -1
  | .moved n => n

def SpliceIn.result : SpliceIn -> Int
  | .blocked => -1
  | .moved bytes => bytes.length

/-- What the input splice of a call can return.  A pipe is full when its buffers
are used, and a buffer may hold few bytes or many, so that only the length of the
call bounds the bytes. -/
def SpliceIn.Possible : SpliceIn -> Prop
  | .blocked => True
  | .moved bytes => bytes.length ≤ dataLen

instance : (r : SpliceIn) -> Decidable r.Possible
  | .blocked => .isTrue trivial
  | .moved _ => inferInstanceAs (Decidable (_ ≤ _))

structure Call where
  events : Events
  out : SpliceOut
  inp : SpliceIn
deriving DecidableEq, Repr

structure Connection where
  received : Int
  pipe : List Byte
  interest : Events
  live : Bool
  eofSeen : Bool
  fromSocket : List Byte
  toSocket : List Byte
  outBlocked : Nat
  inBlocked : Nat
deriving DecidableEq, Repr

namespace Connection

def new : Connection where
  received := 0
  pipe := []
  interest := EPOLLIN ||| EPOLLOUT ||| EPOLLHUP ||| EPOLLERR
  live := true
  eofSeen := false
  fromSocket := []
  toSocket := []
  outBlocked := 0
  inBlocked := 0

def spliceOut (c : Connection) : SpliceOut -> Connection
  | .blocked => { c with outBlocked := c.outBlocked + 1 }
  | .moved n =>
      { c with
        pipe := c.pipe.drop n
        toSocket := c.toSocket ++ c.pipe.take n }

/-- The splice from the socket to the pipe.  It moves no byte only at the end of
the stream. -/
def spliceIn (c : Connection) : SpliceIn -> Connection
  | .blocked => { c with inBlocked := c.inBlocked + 1 }
  | .moved bytes =>
      { c with
        pipe := c.pipe ++ bytes
        fromSocket := c.fromSocket ++ bytes
        eofSeen := c.eofSeen || bytes.isEmpty }

def OutPossible (c : Connection) : SpliceOut -> Prop
  | .blocked => True
  | .moved n =>
      n ≤ toSize c.received ∧ n ≤ c.pipe.length ∧
        (n = 0 -> toSize c.received = 0 ∨ c.pipe = [])

instance (c : Connection) : (r : SpliceOut) -> Decidable (c.OutPossible r)
  | .blocked => .isTrue trivial
  | .moved _ => inferInstanceAs (Decidable (_ ∧ _ ∧ (_ -> _)))

def outputDone (c : Connection) (a : Call) : Connection :=
  if a.events.Writable then c.spliceOut a.out else c

def inputDone (c : Connection) (a : Call) : Connection :=
  if a.events.Readable then c.spliceIn a.inp else c

def Possible (c : Connection) (a : Call) : Prop :=
  a.events.HungUp ∨
    ((a.events.Writable -> c.OutPossible a.out) ∧
      (a.events.Readable -> a.inp.Possible))

instance (c : Connection) (a : Call) : Decidable (c.Possible a) :=
  inferInstanceAs (Decidable (_ ∨ ((_ -> _) ∧ (_ -> _))))

def perform (c : Connection) : LoopCall -> Connection
  | .modifyHandler events => { c with interest := events }
  | .removeHandler => { c with live := false }
  | .close => c

def step (c : Connection) (a : Call) : Connection :=
  if c.live = true ∧ c.Possible a then
    let moved :=
      if a.events.HungUp then c else (c.outputDone a).inputDone a
    let (received, calls) := SpliceEchoHandler.handle c.received a.events
      a.out.result a.inp.result
    calls.foldl perform { moved with received := received }
  else c

def machine : Machine Connection Call Empty where
  step := fun c a => .ok (step c a)

/-!
## What a call can do
-/

def outputCounter (c : Connection) (a : Call) : Int :=
  SpliceEchoHandler.afterOutput c.received a.events a.out.result

def inputCounter (c : Connection) (a : Call) : Int :=
  toInt32 (c.outputCounter a + a.inp.result)

inductive Step (c : Connection) (a : Call) : Connection -> Prop where
  | idle :
      (c.live = true -> c.Possible a ->
        ¬ a.events.HungUp ∧ ¬ a.events.Writable ∧ ¬ a.events.Readable) ->
      Step c a c
  | hungUp :
      a.events.HungUp -> Step c a { c with live := false }
  | wrote :
      c.live = true -> c.Possible a -> ¬ a.events.HungUp ->
      a.events.Writable -> ¬ a.events.Readable ->
      Step c a
        { c.spliceOut a.out with
          received := toInt32 (c.received - a.out.result)
          interest := SpliceEchoHandler.readInterest }
  | read :
      c.live = true -> c.Possible a -> ¬ a.events.HungUp ->
      a.events.Readable -> ¬ c.inputCounter a ≤ 0 ->
      Step c a
        { (c.outputDone a).spliceIn a.inp with
          received := c.inputCounter a
          interest := SpliceEchoHandler.writeInterest }
  | closed (interest : Events) :
      c.live = true -> c.Possible a -> ¬ a.events.HungUp ->
      a.events.Readable -> c.inputCounter a ≤ 0 ->
      Step c a
        { (c.outputDone a).spliceIn a.inp with
          received := c.inputCounter a
          interest := interest
          live := false }

theorem Possible.out {c : Connection} {a : Call} (h : c.Possible a)
    (hhung : ¬ a.events.HungUp) (hwrite : a.events.Writable) :
    c.OutPossible a.out :=
  (h.resolve_left hhung).1 hwrite

theorem spliceOut_live (c : Connection) (r : SpliceOut) :
    (c.spliceOut r).live = c.live := by
  cases r <;> rfl

theorem spliceIn_live (c : Connection) (r : SpliceIn) :
    (c.spliceIn r).live = c.live := by
  cases r <;> rfl

theorem outputDone_live (c : Connection) (a : Call) :
    (c.outputDone a).live = c.live := by
  unfold outputDone
  split
  · exact spliceOut_live c a.out
  · rfl

theorem step_cases (c : Connection) (a : Call) : Step c a (step c a) := by
  unfold step
  split
  · rename_i hpossible
    by_cases hhung : a.events.HungUp
    · rw [SpliceEchoHandler.handle_hungUp _ _ _ hhung]
      simp only [if_pos hhung, List.foldl_cons, List.foldl_nil, perform]
      exact Step.hungUp hhung
    · rw [SpliceEchoHandler.handle_eq _ _ _ hhung]
      simp only [if_neg hhung, inputDone]
      by_cases hread : a.events.Readable
      · simp only [if_pos hread]
        by_cases hclose : c.inputCounter a ≤ 0
        · have hcounter : toInt32 (SpliceEchoHandler.afterOutput c.received
              a.events a.out.result + a.inp.result) ≤ 0 := hclose
          simp only [if_pos hcounter]
          by_cases hwrite : a.events.Writable
          · simp only [if_pos hwrite, List.cons_append, List.nil_append,
              List.foldl_cons, List.foldl_nil, perform]
            exact Step.closed _ hpossible.1 hpossible.2 hhung hread hclose
          · simp only [if_neg hwrite, List.nil_append, List.foldl_cons,
              List.foldl_nil, perform]
            exact Step.closed _ hpossible.1 hpossible.2 hhung hread hclose
        · have hcounter : ¬ toInt32 (SpliceEchoHandler.afterOutput c.received
              a.events a.out.result + a.inp.result) ≤ 0 := hclose
          simp only [if_neg hcounter]
          by_cases hwrite : a.events.Writable
          · simp only [if_pos hwrite, List.cons_append, List.nil_append,
              List.foldl_cons, List.foldl_nil, perform]
            exact Step.read hpossible.1 hpossible.2 hhung hread hclose
          · simp only [if_neg hwrite, List.nil_append, List.foldl_cons,
              List.foldl_nil, perform]
            exact Step.read hpossible.1 hpossible.2 hhung hread hclose
      · simp only [if_neg hread]
        by_cases hwrite : a.events.Writable
        · simp only [SpliceEchoHandler.afterOutput, outputDone, if_pos hwrite,
            List.foldl_cons, List.foldl_nil, perform]
          exact Step.wrote hpossible.1 hpossible.2 hhung hwrite hread
        · simp only [SpliceEchoHandler.afterOutput, outputDone, if_neg hwrite,
            List.foldl_nil]
          exact Step.idle fun _ _ => ⟨hhung, hwrite, hread⟩
  · rename_i hidle
    exact Step.idle fun hlive hpossible => absurd ⟨hlive, hpossible⟩ hidle

end Connection
end EpollHandler
end NetExperiment
