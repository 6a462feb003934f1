import NetExperiment.Tcp.EpollHandler.IOLoop

/-!
# The traffic of the epoll server

The loop together with the bytes in the sockets and pipes of its connections.  A
splice goes through whatever files its descriptors refer to when it is called.
When these are the files of the handler's own connection, a call does what it
does in the model of a single connection.
-/

namespace NetExperiment
namespace EpollHandler

open Foundation

/-!
## What the files hold
-/

/-- The bytes in the pipe of a connection, and the bytes that were read from its
socket and written to it. -/
structure Flow where
  pipe : List Byte
  fromSocket : List Byte
  toSocket : List Byte
deriving DecidableEq, Repr

namespace Flow

def new : Flow where
  pipe := []
  fromSocket := []
  toSocket := []

/-- What was read from the socket was written back to it or is in the pipe. -/
def Echoed (f : Flow) : Prop :=
  f.fromSocket = f.toSocket ++ f.pipe

def take (n : Nat) (f : Flow) : Flow :=
  { f with pipe := f.pipe.drop n }

def written (bytes : List Byte) (f : Flow) : Flow :=
  { f with toSocket := f.toSocket ++ bytes }

def read (bytes : List Byte) (f : Flow) : Flow :=
  { f with fromSocket := f.fromSocket ++ bytes }

def put (bytes : List Byte) (f : Flow) : Flow :=
  { f with pipe := f.pipe ++ bytes }

/-- What a splice from the pipe can return when it is asked for as many bytes as
the counter says. -/
def OutPossible (received : Int) (f : Flow) : SpliceOut -> Prop
  | .blocked => True
  | .moved n =>
      n ≤ toSize received ∧ n ≤ f.pipe.length ∧
        (n = 0 -> toSize received = 0 ∨ f.pipe = [])

instance (received : Int) (f : Flow) :
    (r : SpliceOut) -> Decidable (f.OutPossible received r)
  | .blocked => .isTrue trivial
  | .moved _ => inferInstanceAs (Decidable (_ ∧ _ ∧ (_ -> _)))

end Flow

/-- What all pipes and sockets hold, by the number of the connection that they
were opened for. -/
abbrev Flows := Nat -> Flow

namespace Flows

def modify (k : Nat) (f : Flow -> Flow) (flows : Flows) : Flows :=
  Function.update flows k (f (flows k))

def spliceOut (source target : Option File) (r : SpliceOut) (flows : Flows) :
    Flows :=
  match source, target, r with
  | some (.pipeEnd i), some (.socket j), .moved n =>
      (flows.modify i (Flow.take n)).modify j
        (Flow.written ((flows i).pipe.take n))
  | _, _, _ => flows

def spliceIn (source target : Option File) (r : SpliceIn) (flows : Flows) :
    Flows :=
  match source, target, r with
  | some (.socket i), some (.pipeEnd j), .moved bytes =>
      (flows.modify i (Flow.read bytes)).modify j (Flow.put bytes)
  | _, _, _ => flows

/-- A splice between files of other kinds fails. -/
def outPossible (received : Int) (source target : Option File)
    (flows : Flows) (r : SpliceOut) : Bool :=
  match source, target with
  | some (.pipeEnd i), some (.socket _) =>
      decide ((flows i).OutPossible received r)
  | _, _ => decide (r = .blocked)

def inPossible (source target : Option File) (r : SpliceIn) : Bool :=
  match source, target with
  | some (.socket _), some (.pipeEnd _) => decide r.Possible
  | _, _ => decide (r = .blocked)

end Flows

/-!
## The server
-/

inductive Traffic (ptr : Type) where
  | wait (ready : List (Fd × Events))
  | waitFailed
  | dispatch (r : Results ptr) (out : SpliceOut) (inp : SpliceIn)

def Traffic.action {ptr : Type} : Traffic ptr -> IOLoop.Action ptr
  | .wait ready => .wait ready
  | .waitFailed => .waitFailed
  | .dispatch r out inp =>
      .dispatch { r with out := out.result, inp := inp.result }

structure Server (ptr : Type) where
  loop : IOLoop ptr
  flows : Flows

structure Called where
  fd : Fd
  client : Client
  call : Call
deriving DecidableEq, Repr

namespace Called

variable (files : Fd -> Option File) (flows : Flows) (x : Called)

def outputDone : Flows :=
  if x.call.events.Writable then
    flows.spliceOut (files x.client.pipefd0) (files x.fd) x.call.out
  else flows

def inputDone : Flows :=
  if x.call.events.Readable then
    flows.spliceIn (files x.fd) (files x.client.pipefd1) x.call.inp
  else flows

/-- What the files hold after the call. -/
def moved : Flows :=
  if x.call.events.HungUp then flows
  else x.inputDone files (x.outputDone files flows)

def Possible : Prop :=
  x.call.events.HungUp ∨
    ((x.call.events.Writable ->
        flows.outPossible x.client.received (files x.client.pipefd0)
          (files x.fd) x.call.out = true) ∧
      (x.call.events.Readable ->
        Flows.inPossible (files x.fd) (files x.client.pipefd1) x.call.inp =
          true))

instance : Decidable (x.Possible files flows) :=
  inferInstanceAs (Decidable (_ ∨ ((_ -> _) ∧ (_ -> _))))

end Called

namespace Server

variable {ptr : Type} [DecidableEq ptr]

def called (s : Server ptr) : Traffic ptr -> Option Called
  | .dispatch r out inp =>
      if s.loop.Possible r then do
        let e <- s.loop.batch.head?
        let p <- s.loop.handlers e.fd
        match s.loop.objects p with
        | .live (.spliceEcho client) =>
            some { fd := e.fd
                   client := client
                   call := { events := e.events, out := out, inp := inp } }
        | _ => none
      else none
  | _ => none

def Possible (s : Server ptr) (act : Traffic ptr) : Prop :=
  forall x, s.called act = some x -> x.Possible s.loop.files s.flows

instance (s : Server ptr) (act : Traffic ptr) : Decidable (s.Possible act) :=
  match h : s.called act with
  | none => .isTrue fun x hx => by rw [h] at hx; cases hx
  | some x => decidable_of_iff (x.Possible s.loop.files s.flows)
      ⟨fun hx y hy => by rw [h] at hy; cases hy; exact hx, fun hall => hall x h⟩

/-- What the files hold after a step. -/
def moved (s : Server ptr) (act : Traffic ptr) : Flows :=
  match s.called act with
  | none => s.flows
  | some x => x.moved s.loop.files s.flows

def step (s : Server ptr) (act : Traffic ptr) :
    Except (Fault Resource ptr) (Server ptr) :=
  if s.Possible act then do
    let loop <- s.loop.step act.action
    return { loop := loop, flows := s.moved act }
  else .ok s

def machine : Machine (Server ptr) (Traffic ptr) (Fault Resource ptr) where
  step := step

def initial (listen : Fd) (server : ptr) (others : Fd -> Bool) :
    Server ptr where
  loop := IOLoop.initial listen server others
  flows := fun _ => Flow.new

def callOf (k : Nat) (s : Server ptr) (act : Traffic ptr) : Option Call :=
  if s.Possible act then
    ((s.called act).filter fun x => decide (x.client.conn = k)).map Called.call
  else none

end Server

/-!
## One connection
-/

namespace Connection

def flow (c : Connection) : Flow where
  pipe := c.pipe
  fromSocket := c.fromSocket
  toSocket := c.toSocket

/-- The connection after the splices of a call. -/
def moved (c : Connection) (a : Call) : Connection :=
  if a.events.HungUp then c else (c.outputDone a).inputDone a

theorem foldl_perform (calls : List LoopCall) (c : Connection) :
    (calls.foldl perform c).flow = c.flow ∧
      (calls.foldl perform c).received = c.received ∧
      ((calls.foldl perform c).live = true <->
        c.live = true ∧ LoopCall.removeHandler ∉ calls) := by
  induction calls generalizing c with
  | nil => exact ⟨rfl, rfl, by simp⟩
  | cons call rest ih =>
      rcases ih (c.perform call) with ⟨hflow, hreceived, hlive⟩
      rw [List.foldl_cons]
      cases call with
      | modifyHandler events =>
          refine ⟨hflow, hreceived, hlive.trans ?_⟩
          simp [perform]
      | removeHandler =>
          refine ⟨hflow, hreceived, hlive.trans ?_⟩
          simp [perform]
      | close =>
          refine ⟨hflow, hreceived, hlive.trans ?_⟩
          simp [perform]

theorem step_of_possible {c : Connection} {a : Call} (hlive : c.live = true)
    (hpossible : c.Possible a) :
    (step c a).flow = (c.moved a).flow ∧
      (step c a).received = (SpliceEchoHandler.handle c.received a.events
        a.out.result a.inp.result).1 ∧
      ((step c a).live = true <-> LoopCall.removeHandler ∉
        (SpliceEchoHandler.handle c.received a.events a.out.result
          a.inp.result).2) := by
  have hmoved : (c.moved a).live = true := by
    unfold moved inputDone
    split
    · exact hlive
    · split
      · rw [spliceIn_live, outputDone_live]
        exact hlive
      · rw [outputDone_live]
        exact hlive
  rcases foldl_perform (SpliceEchoHandler.handle c.received a.events
    a.out.result a.inp.result).2 { c.moved a with
      received := (SpliceEchoHandler.handle c.received a.events
        a.out.result a.inp.result).1 } with ⟨hflow, hreceived, hstill⟩
  unfold step
  rw [if_pos ⟨hlive, hpossible⟩]
  refine ⟨hflow, hreceived, hstill.trans ?_⟩
  exact and_iff_right hmoved

theorem spliceOut_echoed {c : Connection} (h : c.flow.Echoed)
    (r : SpliceOut) : (c.spliceOut r).flow.Echoed := by
  cases r with
  | blocked => exact h
  | moved n =>
      show c.fromSocket = c.toSocket ++ c.pipe.take n ++ c.pipe.drop n
      rw [List.append_assoc, List.take_append_drop]
      exact h

theorem spliceIn_echoed {c : Connection} (h : c.flow.Echoed)
    (r : SpliceIn) : (c.spliceIn r).flow.Echoed := by
  cases r with
  | blocked => exact h
  | moved bytes =>
      have hbytes : c.fromSocket = c.toSocket ++ c.pipe := h
      show c.fromSocket ++ bytes = c.toSocket ++ (c.pipe ++ bytes)
      rw [hbytes, List.append_assoc]

theorem outputDone_echoed {c : Connection} (h : c.flow.Echoed) (a : Call) :
    (c.outputDone a).flow.Echoed := by
  unfold outputDone
  split
  · exact spliceOut_echoed h a.out
  · exact h

theorem moved_echoed {c : Connection} (h : c.flow.Echoed) (a : Call) :
    (c.moved a).flow.Echoed := by
  unfold moved
  split
  · exact h
  · unfold inputDone
    split
    · exact spliceIn_echoed (outputDone_echoed h a) a.inp
    · exact outputDone_echoed h a

theorem step_echoed {c : Connection} (h : c.flow.Echoed) (a : Call) :
    (step c a).flow.Echoed := by
  by_cases hcalled : c.live = true ∧ c.Possible a
  · rw [(step_of_possible hcalled.1 hcalled.2).1]
    exact moved_echoed h a
  · unfold step
    rw [if_neg hcalled]
    exact h

end Connection

structure Called.OwnFiles (files : Fd -> Option File) (x : Called) :
    Prop where
  pipe0 : files x.client.pipefd0 = some (.pipeEnd x.client.conn)
  pipe1 : files x.client.pipefd1 = some (.pipeEnd x.client.conn)
  socket : files x.fd = some (.socket x.client.conn)

section OwnFiles

variable {flows : Flows} {k : Nat} {c : Connection}

theorem update_flow (h : flows k = c.flow) :
    Function.update flows k c.flow = flows :=
  Function.update_eq_self_iff.mpr h.symm

theorem spliceOut_own (h : flows k = c.flow) (r : SpliceOut) :
    flows.spliceOut (some (.pipeEnd k)) (some (.socket k)) r =
      Function.update flows k (c.spliceOut r).flow := by
  cases r with
  | blocked => exact (update_flow h).symm
  | moved n =>
      simp only [Flows.spliceOut, Flows.modify, Function.update_self,
        Function.update_idem, h]
      rfl

theorem spliceIn_own (h : flows k = c.flow) (r : SpliceIn) :
    flows.spliceIn (some (.socket k)) (some (.pipeEnd k)) r =
      Function.update flows k (c.spliceIn r).flow := by
  cases r with
  | blocked => exact (update_flow h).symm
  | moved bytes =>
      simp only [Flows.spliceIn, Flows.modify, Function.update_self,
        Function.update_idem, h]
      rfl

variable {files : Fd -> Option File} {x : Called}

theorem outputDone_own (hfiles : x.OwnFiles files)
    (h : flows x.client.conn = c.flow) :
    x.outputDone files flows =
      Function.update flows x.client.conn (c.outputDone x.call).flow := by
  unfold Called.outputDone Connection.outputDone
  split
  · rw [hfiles.pipe0, hfiles.socket]
    exact spliceOut_own h x.call.out
  · exact (update_flow h).symm

theorem inputDone_own (hfiles : x.OwnFiles files)
    (h : flows x.client.conn = c.flow) :
    x.inputDone files flows =
      Function.update flows x.client.conn (c.inputDone x.call).flow := by
  unfold Called.inputDone Connection.inputDone
  split
  · rw [hfiles.pipe1, hfiles.socket]
    exact spliceIn_own h x.call.inp
  · exact (update_flow h).symm

theorem moved_own (hfiles : x.OwnFiles files)
    (h : flows x.client.conn = c.flow) :
    x.moved files flows =
      Function.update flows x.client.conn (c.moved x.call).flow := by
  unfold Called.moved Connection.moved
  split
  · exact (update_flow h).symm
  · rw [outputDone_own hfiles h,
      inputDone_own hfiles (Function.update_self _ _ _), Function.update_idem]

theorem moved_other (hfiles : x.OwnFiles files) {j : Nat}
    (hj : j ≠ x.client.conn) : x.moved files flows j = flows j := by
  let alone : Connection := { Connection.new with
    pipe := (flows x.client.conn).pipe
    fromSocket := (flows x.client.conn).fromSocket
    toSocket := (flows x.client.conn).toSocket }
  rw [moved_own (c := alone) hfiles rfl, Function.update_of_ne hj]

theorem possible_own (hfiles : x.OwnFiles files)
    (h : flows x.client.conn = c.flow)
    (hreceived : x.client.received = c.received)
    (hpossible : x.Possible files flows) : c.Possible x.call := by
  rcases hpossible with hhung | ⟨hout, hinp⟩
  · exact .inl hhung
  · refine .inr ⟨?_, ?_⟩
    · intro hwrite
      have hmoved := hout hwrite
      rw [hfiles.pipe0, hfiles.socket] at hmoved
      have hflow := of_decide_eq_true hmoved
      rw [h, hreceived] at hflow
      cases hcall : x.call.out with
      | blocked => trivial
      | moved n =>
          rw [hcall] at hflow
          exact hflow
    · intro hread
      have hmoved := hinp hread
      rw [hfiles.pipe1, hfiles.socket] at hmoved
      exact of_decide_eq_true hmoved

end OwnFiles

end EpollHandler
end NetExperiment
