import NetExperiment.Tcp.EpollHandler.SpliceEcho

/-!
# The epoll loop

`IOLoop` dispatches the events of one epoll batch after the other to the
handlers in its map.  The handler of the listening socket accepts connections
and adds a handler for each of them; the handler of a connection removes itself,
which deletes it and closes its descriptors in the middle of a batch.

Descriptors, epoll registrations and open files are those of the process.  Every
accepted connection gets a number that the program never sees.  It marks the
files and the handler of the connection and the events reported for it, so that
a reused descriptor number can be told from the old one.
-/

namespace NetExperiment
namespace EpollHandler

open Foundation

abbrev Fd := Int

inductive File where
  | listening
  | socket (conn : Nat)
  | pipeEnd (conn : Nat)
  | other
deriving DecidableEq, Repr

/-- What never changes about a client handler.  The pipe descriptors are what
the array holds after the call of pipe, successful or not. -/
structure Identity where
  pipefd0 : Fd
  pipefd1 : Fd
  conn : Nat
  pipeOpened : Bool
deriving DecidableEq, Repr

structure Client extends Identity where
  received : Int
deriving DecidableEq, Repr

inductive Handler where
  | server
  | spliceEcho (client : Client)
deriving DecidableEq, Repr

def Handler.conn : Handler -> Option Nat
  | .server => none
  | .spliceEcho client => some client.conn

structure Registration where
  events : Events
  conn : Option Nat
deriving DecidableEq, Repr

structure Event where
  fd : Fd
  events : Events
  conn : Option Nat
deriving DecidableEq, Repr

/-- One call of close: what the descriptor referred to at that moment, and the
connection that was being torn down. -/
structure Close where
  fd : Fd
  file : Option File
  conn : Nat
deriving DecidableEq, Repr

/-- The loop with what it uses of the process.  The calls of close and the
connections whose handlers were deleted are recorded. -/
structure IOLoop (ptr : Type) where
  handlers : Fd -> Option ptr
  objects : Heap ptr Handler
  files : Fd -> Option File
  epoll : Fd -> Option Registration
  batch : List Event
  nextConn : Nat
  closes : List Close
  deleted : List Nat

inductive Resource where
  | handler
deriving DecidableEq, Repr

inductive Pipe where
  | opened (pipefd0 pipefd1 : Fd)
  | failed (pipefd0 pipefd1 : Fd)
deriving DecidableEq, Repr

/-- What the system calls of one dispatch return, and where a new handler is
placed.  A dispatch changes the interest of a descriptor at most once to each
mask, so the results of these calls are given by mask. -/
structure Results (ptr : Type) where
  accept : Fd
  pipe : Pipe
  handler : ptr
  out : Int
  inp : Int
  ctlAddListener : Bool
  ctlAddClient : Bool
  ctlMod : Events -> Bool
  ctlDel : Bool

namespace IOLoop

variable {ptr : Type} [DecidableEq ptr]

/-!
## Member functions
-/

/-- The registration is made unless the descriptor has one already. -/
def addHandler (fd : Fd) (handler : ptr) (events : Events) (conn : Option Nat)
    (ctl : Bool) (s : IOLoop ptr) : IOLoop ptr :=
  { s with
    handlers := Function.update s.handlers fd (some handler)
    epoll :=
      if ctl = true ∧ s.epoll fd = none then
        Function.update s.epoll fd (some { events := events, conn := conn })
      else s.epoll }

def modifyHandler (fd : Fd) (events : Events) (ctl : Bool) (s : IOLoop ptr) :
    IOLoop ptr :=
  { s with
    epoll :=
      if ctl = true then
        Function.update s.epoll fd
          ((s.epoll fd).map fun (reg : Registration) =>
            { reg with events := events })
      else s.epoll }

/-- The system call close.  It takes the file out of the epoll set; nothing
happens if the descriptor is not open. -/
def close (conn : Nat) (fd : Fd) (s : IOLoop ptr) : IOLoop ptr :=
  let s : IOLoop ptr := { s with
    closes := s.closes ++ [{ fd := fd, file := s.files fd, conn := conn }] }
  match s.files fd with
  | none => s
  | some _ =>
      { s with
        files := Function.update s.files fd none
        epoll := Function.update s.epoll fd none }

/-- Delete a handler.  The destructor of a client handler closes both ends of
its pipe; deleting a null pointer does nothing. -/
def deleteHandler (handler : Option ptr) (s : IOLoop ptr) :
    Except (Fault Resource ptr) (IOLoop ptr) :=
  match handler with
  | none => .ok s
  | some p => do
      let objects <- s.objects.free Resource.handler p
      let object <- s.objects.read Resource.handler p
      let s := { s with objects := objects }
      match object with
      | .server => return s
      | .spliceEcho client =>
          let s := { s with deleted := s.deleted ++ [client.conn] }
          let s := close client.conn client.pipefd0 s
          return close client.conn client.pipefd1 s

def removeHandler (conn : Nat) (fd : Fd) (ctl : Bool) (s : IOLoop ptr) :
    Except (Fault Resource ptr) (IOLoop ptr) := do
  let handler := s.handlers fd
  let s := { s with handlers := Function.update s.handlers fd none }
  let s <- deleteHandler handler s
  let s :=
    if ctl = true then { s with epoll := Function.update s.epoll fd none }
    else s
  return close conn fd s

/-!
## Handlers
-/

/-- The constructor of a client handler: the members and the files after the
call of pipe. -/
def openPipe (conn : Nat) : Pipe -> IOLoop ptr -> Client × IOLoop ptr
  | .opened pipefd0 pipefd1, s =>
      ({ pipefd0 := pipefd0
         pipefd1 := pipefd1
         conn := conn
         pipeOpened := true
         received := 0 },
        { s with
          files := Function.update
            (Function.update s.files pipefd0 (some (.pipeEnd conn)))
            pipefd1 (some (.pipeEnd conn)) })
  | .failed pipefd0 pipefd1, s =>
      ({ pipefd0 := pipefd0
         pipefd1 := pipefd1
         conn := conn
         pipeOpened := false
         received := 0 }, s)

def serverHandle (this : ptr) (fd : Fd) (r : Results ptr) (s : IOLoop ptr) :
    IOLoop ptr :=
  let client := r.accept
  if client < 0 then addHandler fd this EPOLLIN none r.ctlAddListener s
  else
    let conn := s.nextConn
    let s := { s with
      files := Function.update s.files client (some (.socket conn))
      nextConn := conn + 1 }
    let s := addHandler fd this EPOLLIN none r.ctlAddListener s
    let (object, s) := openPipe conn r.pipe s
    let s := { s with objects := s.objects.alloc r.handler (.spliceEcho object) }
    addHandler client r.handler
      (EPOLLIN ||| EPOLLOUT ||| EPOLLHUP ||| EPOLLERR) (some conn)
      r.ctlAddClient s

def perform (conn : Nat) (fd : Fd) (r : Results ptr) (s : IOLoop ptr) :
    LoopCall -> Except (Fault Resource ptr) (IOLoop ptr)
  | .modifyHandler events => .ok (modifyHandler fd events (r.ctlMod events) s)
  | .removeHandler => removeHandler conn fd r.ctlDel s
  | .close => .ok (close conn fd s)

def clientHandle (this : ptr) (client : Client) (fd : Fd) (events : Events)
    (r : Results ptr) (s : IOLoop ptr) :
    Except (Fault Resource ptr) (IOLoop ptr) :=
  let (received, calls) :=
    SpliceEchoHandler.handle client.received events r.out r.inp
  let s := { s with
    objects := Function.update s.objects this
      (.live (.spliceEcho { client with received := received })) }
  calls.foldlM (perform client.conn fd r) s

/-!
## The loop
-/

def MAX_EVENTS : Nat := 10

def PipePossible (s : IOLoop ptr) (client : Fd) : Pipe -> Prop
  | .opened pipefd0 pipefd1 =>
      s.files pipefd0 = none ∧ s.files pipefd1 = none ∧ pipefd0 ≠ pipefd1 ∧
        pipefd0 ≠ client ∧ pipefd1 ≠ client
  | .failed _ _ => True

/-- What the system can return: accept opens a descriptor that was not open,
and the allocator does not hand out a handler that is in use. -/
def Possible (s : IOLoop ptr) (r : Results ptr) : Prop :=
  r.accept < 0 ∨
    (s.files r.accept = none ∧ ¬ (s.objects r.handler).IsLive ∧
      s.PipePossible r.accept r.pipe)

omit [DecidableEq ptr] in
instance (s : IOLoop ptr) (client : Fd) :
    (p : Pipe) -> Decidable (s.PipePossible client p)
  | .opened _ _ => inferInstanceAs (Decidable (_ ∧ _ ∧ _ ∧ _ ∧ _))
  | .failed _ _ => .isTrue trivial

instance (s : IOLoop ptr) (r : Results ptr) : Decidable (s.Possible r) :=
  inferInstanceAs (Decidable (_ ∨ (_ ∧ _ ∧ _)))

def dispatch (r : Results ptr) (s : IOLoop ptr) :
    Except (Fault Resource ptr) (IOLoop ptr) :=
  match s.batch with
  | [] => .ok s
  | e :: rest =>
      let s := { s with batch := rest }
      match s.handlers e.fd with
      | none => .error (.nullPointer .handler)
      | some p => do
          let object <- s.objects.read Resource.handler p
          match object with
          | .server => return serverHandle p e.fd r s
          | .spliceEcho client => clientHandle p client e.fd e.events r s

/-- What epoll can report: at most as many events as asked for, for different
descriptors that are registered. -/
def Ready (s : IOLoop ptr) (ready : List (Fd × Events)) : Prop :=
  s.batch = [] ∧ ready.length ≤ MAX_EVENTS ∧ (ready.map Prod.fst).Nodup ∧
    forall e, e ∈ ready -> s.epoll e.1 ≠ none

instance (s : IOLoop ptr) (ready : List (Fd × Events)) :
    Decidable (s.Ready ready) :=
  inferInstanceAs (Decidable (_ ∧ _ ∧ _ ∧ _))

def reported (s : IOLoop ptr) (ready : List (Fd × Events)) : List Event :=
  ready.map fun e =>
    { fd := e.1
      events := e.2
      conn := (s.epoll e.1).bind Registration.conn }

inductive Action (ptr : Type) where
  | wait (ready : List (Fd × Events))
  | waitFailed
  | dispatch (r : Results ptr)

/-- One step of the loop.  A call of epoll that fails leaves no events. -/
def step (s : IOLoop ptr) :
    Action ptr -> Except (Fault Resource ptr) (IOLoop ptr)
  | .wait ready =>
      if s.Ready ready then .ok { s with batch := s.reported ready } else .ok s
  | .waitFailed => .ok s
  | .dispatch r => if s.Possible r then s.dispatch r else .ok s

def machine : Machine (IOLoop ptr) (Action ptr) (Fault Resource ptr) where
  step := step

/-- The loop after the constructor of the server handler.  Some other
descriptors of the process are open. -/
def initial (listen : Fd) (server : ptr) (others : Fd -> Bool) :
    IOLoop ptr where
  handlers := Function.update (fun _ => none) listen (some server)
  objects := Function.update Heap.empty server (.live .server)
  files := Function.update
    (fun fd => if others fd then some .other else none) listen
    (some .listening)
  epoll := Function.update (fun _ => none) listen
    (some { events := EPOLLIN, conn := none })
  batch := []
  nextConn := 0
  closes := []
  deleted := []

end IOLoop
end EpollHandler
end NetExperiment
