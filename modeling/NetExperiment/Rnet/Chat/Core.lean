import Mathlib.Data.List.AList
import NetExperiment.Foundation.Machine

/-!
# The chat server

One task for each client runs `process`.  The tasks share a map from client
addresses to the transmit halves of their channels, and touch it only while
they hold its lock.  Between two awaits a task runs alone, so a step of the
model is what one task does from one await to the next one.

What an awaited operation yields is chosen by the environment: the result of a
socket write, what the line codec has to offer, or the lock.

Two things are kept for the statements only: the list of all broadcasts in the
order of the lock, and for each task the messages it has taken from its channel
and the number of broadcasts before it was registered.
-/

namespace NetExperiment
namespace Chat

open Foundation

inductive Notice where
  | joined
  | line
  | left
deriving DecidableEq, Repr

structure Broadcast (addr : Type) where
  sender : addr
  author : Nat
  notice : Notice
  text : String
deriving DecidableEq, Repr

inductive Stage where
  | prompting
  | naming
  | registering (username : String)
  | joining (username : String)
  | polling (username : String)
  | broadcasting (username msg : String)
  | sending (username msg : String)
  | leaving (username : String)
  | returned (ok : Bool)
deriving DecidableEq, Repr

def Stage.running : Stage -> Bool
  | .returned _ => false
  | _ => true

structure Task (addr : Type) where
  addr : addr
  stage : Stage
  rx : List String
  taken : List String
  start : Option Nat
deriving DecidableEq, Repr

/-- The tasks by number, the shared map and all broadcasts so far.  A transmit
half is known by the number of the task that has the receive half. -/
structure State (addr : Type) where
  tasks : List (Task addr)
  peers : AList (fun _ : addr => Nat)
  log : List (Broadcast addr)

variable {addr : Type} [DecidableEq addr]

def State.new : State addr where
  tasks := []
  peers := ∅
  log := []

def Task.new (a : addr) : Task addr where
  addr := a
  stage := .prompting
  rx := []
  taken := []
  start := none

/-- Send on a channel.  The channel of a task that has returned is closed, and
the error is ignored. -/
def Task.receive (msg : String) (p : Task addr) : Task addr :=
  if p.stage.running then { p with rx := p.rx ++ [msg] } else p

def Task.enter (stage : Stage) (p : Task addr) : Task addr :=
  { p with stage := stage }

def State.modifyTask (t : Nat) (f : Task addr -> Task addr) (s : State addr) :
    State addr :=
  { s with tasks := s.tasks.modify t f }

/-!
## The shared map
-/

def broadcast (b : Broadcast addr) (s : State addr) : State addr :=
  { s with
    tasks := s.peers.entries.foldl
      (fun tasks peer =>
        if peer.1 ≠ b.sender then tasks.modify peer.2 (Task.receive b.text)
        else tasks)
      s.tasks
    log := s.log ++ [b] }

def peerNew (t : Nat) (a : addr) (s : State addr) : State addr :=
  { s with
    tasks := s.tasks.modify t fun p =>
      { p with rx := [], taken := [], start := some s.log.length }
    peers := s.peers.insert a t }

/-!
## The stream of a peer
-/

inductive LineResult where
  | line (text : String)
  | error
  | ended
deriving DecidableEq, Repr

inductive Message where
  | broadcast (msg : String)
  | received (msg : String)
deriving DecidableEq, Repr

inductive Poll where
  | pending
  | item (r : Except Unit Message)
  | exhausted

/-- Poll the channel first and the lines only if it is empty. -/
def pollNext (rx : List String) (lines : Option LineResult) :
    Poll × List String :=
  match rx with
  | v :: rest => (.item (.ok (.received v)), rest)
  | [] =>
      match lines with
      | none => (.pending, [])
      | some (.line message) => (.item (.ok (.broadcast message)), [])
      | some .error => (.item (.error ()), [])
      | some .ended => (.exhausted, [])

/-!
## A client
-/

def joinedText (username : String) : String :=
  username ++ " has joined the chat"

def lineText (username msg : String) : String :=
  username ++ ": " ++ msg

def leftText (username : String) : String :=
  username ++ " has left the chat"

inductive Outcome where
  | sent (ok : Bool)
  | polled (lines : Option LineResult)
  | peerAddrFailed
  | locked
deriving DecidableEq, Repr

def processNext (t : Nat) (username : String) (p : Task addr)
    (lines : Option LineResult) (s : State addr) : State addr :=
  match pollNext p.rx lines with
  | (.item (.ok (.received msg)), rest) =>
      s.modifyTask t fun p =>
        { p with
          rx := rest
          taken := p.taken ++ [msg]
          stage := .sending username msg }
  | (.item (.ok (.broadcast msg)), _) =>
      s.modifyTask t (Task.enter (.broadcasting username msg))
  | (.item (.error _), _) => s
  | (.exhausted, _) => s.modifyTask t (Task.enter (.leaving username))
  | (.pending, _) => s

def process (t : Nat) (p : Task addr) (s : State addr) :
    Stage -> Outcome -> State addr
  | .prompting, .sent true => s.modifyTask t (Task.enter .naming)
  | .prompting, .sent false => s.modifyTask t (Task.enter (.returned false))
  | .naming, .polled (some (.line username)) =>
      s.modifyTask t (Task.enter (.registering username))
  | .naming, .polled (some _) => s.modifyTask t (Task.enter (.returned true))
  | .registering _, .peerAddrFailed =>
      s.modifyTask t (Task.enter (.returned false))
  | .registering username, .locked =>
      (peerNew t p.addr s).modifyTask t (Task.enter (.joining username))
  | .joining username, .locked =>
      (broadcast ⟨p.addr, t, .joined, joinedText username⟩ s).modifyTask t
        (Task.enter (.polling username))
  | .polling username, .polled lines => processNext t username p lines s
  | .broadcasting username msg, .locked =>
      (broadcast ⟨p.addr, t, .line, lineText username msg⟩ s).modifyTask t
        (Task.enter (.polling username))
  | .sending username _, .sent true =>
      s.modifyTask t (Task.enter (.polling username))
  | .sending _ _, .sent false =>
      -- the error is returned as it is: the map keeps the entry
      s.modifyTask t (Task.enter (.returned false))
  | .leaving username, .locked =>
      (broadcast ⟨p.addr, t, .left, leftText username⟩
        { s with peers := s.peers.erase p.addr }).modifyTask t
        (Task.enter (.returned true))
  | _, _ => s

inductive Act (addr : Type) where
  | accept (a : addr)
  | task (t : Nat) (o : Outcome)
deriving DecidableEq, Repr

def step (s : State addr) : Act addr -> State addr
  | .accept a => { s with tasks := s.tasks ++ [Task.new a] }
  | .task t o =>
      match s.tasks[t]? with
      | none => s
      | some p => process t p s p.stage o

/-!
## What a step can do

Every fact about a step of a task is proved by cases on this relation.
-/

def Stage.early : Stage -> Bool
  | .prompting => true
  | .naming => true
  | .registering _ => true
  | _ => false

def Stage.talking : Stage -> Bool
  | .polling _ => true
  | .broadcasting _ _ => true
  | .sending _ _ => true
  | .leaving _ => true
  | _ => false

inductive ProcessStep (t : Nat) (p : Task addr) (s : State addr) :
    Outcome -> State addr -> Prop where
  | idle (o : Outcome) : ProcessStep t p s o s
  | prepared (o : Outcome) (stage : Stage) :
      p.stage.early = true ->
      (stage.early = true ∨ exists ok, stage = .returned ok) ->
      ProcessStep t p s o (s.modifyTask t (Task.enter stage))
  | registered (username : String) :
      p.stage = .registering username ->
      ProcessStep t p s .locked
        ((peerNew t p.addr s).modifyTask t (Task.enter (.joining username)))
  | joined (username : String) :
      p.stage = .joining username ->
      ProcessStep t p s .locked
        ((broadcast ⟨p.addr, t, .joined, joinedText username⟩ s).modifyTask t
          (Task.enter (.polling username)))
  | moved (o : Outcome) (stage : Stage) :
      p.stage.talking = true -> stage.talking = true ->
      ProcessStep t p s o (s.modifyTask t (Task.enter stage))
  | took (o : Outcome) (username msg : String) (rest : List String) :
      p.stage = .polling username -> p.rx = msg :: rest ->
      ProcessStep t p s o (s.modifyTask t fun p =>
        { p with
          rx := rest
          taken := p.taken ++ [msg]
          stage := .sending username msg })
  | said (username msg : String) :
      p.stage = .broadcasting username msg ->
      ProcessStep t p s .locked
        ((broadcast ⟨p.addr, t, .line, lineText username msg⟩ s).modifyTask t
          (Task.enter (.polling username)))
  | failed (username msg : String) :
      p.stage = .sending username msg ->
      ProcessStep t p s (.sent false)
        (s.modifyTask t (Task.enter (.returned false)))
  | left (username : String) :
      p.stage = .leaving username ->
      ProcessStep t p s .locked
        ((broadcast ⟨p.addr, t, .left, leftText username⟩
          { s with peers := s.peers.erase p.addr }).modifyTask t
          (Task.enter (.returned true)))

theorem processNext_cases {t : Nat} {p : Task addr} {s : State addr}
    {username : String} (hstage : p.stage = .polling username)
    (lines : Option LineResult) :
    ProcessStep t p s (.polled lines) (processNext t username p lines s) := by
  have htalking : p.stage.talking = true := by
    rw [hstage]
    rfl
  unfold processNext
  cases hrx : p.rx with
  | cons msg rest => exact ProcessStep.took _ username msg rest hstage hrx
  | nil =>
      cases lines with
      | none => exact ProcessStep.idle _
      | some r =>
          cases r with
          | line message => exact ProcessStep.moved _ _ htalking rfl
          | error => exact ProcessStep.idle _
          | ended => exact ProcessStep.moved _ _ htalking rfl

theorem process_cases (t : Nat) (p : Task addr) (s : State addr)
    (o : Outcome) : ProcessStep t p s o (process t p s p.stage o) := by
  cases hstage : p.stage with
  | prompting =>
      have hearly : p.stage.early = true := by rw [hstage]; rfl
      cases o with
      | sent ok =>
          cases ok with
          | true => exact ProcessStep.prepared _ _ hearly (.inl rfl)
          | false => exact ProcessStep.prepared _ _ hearly (.inr ⟨_, rfl⟩)
      | _ => exact ProcessStep.idle _
  | naming =>
      have hearly : p.stage.early = true := by rw [hstage]; rfl
      cases o with
      | polled lines =>
          cases lines with
          | none => exact ProcessStep.idle _
          | some r =>
              cases r with
              | line text => exact ProcessStep.prepared _ _ hearly (.inl rfl)
              | error => exact ProcessStep.prepared _ _ hearly (.inr ⟨_, rfl⟩)
              | ended => exact ProcessStep.prepared _ _ hearly (.inr ⟨_, rfl⟩)
      | _ => exact ProcessStep.idle _
  | registering username =>
      have hearly : p.stage.early = true := by rw [hstage]; rfl
      cases o with
      | peerAddrFailed => exact ProcessStep.prepared _ _ hearly (.inr ⟨_, rfl⟩)
      | locked => exact ProcessStep.registered username hstage
      | _ => exact ProcessStep.idle _
  | joining username =>
      cases o with
      | locked => exact ProcessStep.joined username hstage
      | _ => exact ProcessStep.idle _
  | polling username =>
      cases o with
      | polled lines => exact processNext_cases hstage lines
      | _ => exact ProcessStep.idle _
  | broadcasting username msg =>
      cases o with
      | locked => exact ProcessStep.said username msg hstage
      | _ => exact ProcessStep.idle _
  | sending username msg =>
      have htalking : p.stage.talking = true := by rw [hstage]; rfl
      cases o with
      | sent ok =>
          cases ok with
          | true => exact ProcessStep.moved _ _ htalking rfl
          | false => exact ProcessStep.failed username msg hstage
      | _ => exact ProcessStep.idle _
  | leaving username =>
      cases o with
      | locked => exact ProcessStep.left username hstage
      | _ => exact ProcessStep.idle _
  | returned ok => exact ProcessStep.idle _

theorem step_task_cases (s : State addr) (t : Nat) (o : Outcome) :
    (s.tasks[t]? = none ∧ step s (.task t o) = s) ∨
      exists p, s.tasks[t]? = some p ∧
        ProcessStep t p s o (step s (.task t o)) := by
  cases hp : s.tasks[t]? with
  | none =>
      refine .inl ⟨rfl, ?_⟩
      simp only [step, hp]
  | some p =>
      refine .inr ⟨p, rfl, ?_⟩
      simp only [step, hp]
      exact process_cases t p s o

def machine : Machine (State addr) (Act addr) Empty where
  step := fun s act => .ok (step s act)

end Chat
end NetExperiment
