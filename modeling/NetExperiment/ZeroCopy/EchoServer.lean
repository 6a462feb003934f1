import NetExperiment.Libevent.Immediate

/-!
# The buffered echo server

One bufferevent for each client, whose input is moved to its own output.  When
too much is queued, reading stops until half of it has been written.

The callbacks print what happened to a connection.  In place of this the model
keeps, for each bufferevent, the event that it was freed for.
-/

namespace NetExperiment
namespace EchoServer

open Foundation
open Libevent

def MAX_OUTPUT : Nat := 4 * 1024 * 1024

inductive DataCb where
  | sockertReadCb2
  | drainedWritecb
deriving DecidableEq, Repr

inductive EventCb where
  | eventCb2
deriving DecidableEq, Repr

inductive CbArg (ptr : Type) where
  | base
  | bufferevent (bev : ptr)
deriving DecidableEq, Repr

abbrev World (ptr : Type) :=
  Loop ptr DataCb EventCb (CbArg ptr) (ptr -> Option What)

abbrev Result (ptr alpha : Type) := Except (Fault Resource ptr) alpha

variable {ptr : Type} [DecidableEq ptr]

def World.empty : World ptr where
  bevs := Heap.empty
  sockets := fun _ => Socket.new
  memory := fun _ => none

def setClosed (bev : ptr) (what : Option What) (s : World ptr) : World ptr :=
  { s with memory := Function.update s.memory bev what }

/-!
## Callbacks
-/

def drainedWritecb (bev : ptr) (_ctx : Option (CbArg ptr)) (s : World ptr) :
    Result ptr (World ptr) := do
  let s <- s.buffereventSetcb bev (some .sockertReadCb2) none
    (some .eventCb2) none
  let s <- s.buffereventSetwatermarkWrite bev 0 0
  s.buffereventEnable bev true false

def sockertReadCb2 (bev : ptr) (_arg : Option (CbArg ptr)) (s : World ptr) :
    Result ptr (World ptr) := do
  let s <- s.evbufferAddBuffer bev bev
  let queued <- s.outputLength bev
  if MAX_OUTPUT ≤ queued then
    let s <- s.buffereventSetcb bev none (some .drainedWritecb)
      (some .eventCb2) (some (.bufferevent bev))
    let s <- s.buffereventSetwatermarkWrite bev (MAX_OUTPUT / 2) MAX_OUTPUT
    s.buffereventDisable bev true false
  else return s

/-- Whatever the event is, the bufferevent is freed. -/
def eventCb2 (bev : ptr) (what : What) (_arg : Option (CbArg ptr))
    (s : World ptr) : Result ptr (World ptr) := do
  let s <- s.buffereventFree bev
  return setClosed bev (some what) s

def program : Loop.Program ptr DataCb EventCb (CbArg ptr)
    (ptr -> Option What) where
  data
    | .sockertReadCb2 => sockertReadCb2
    | .drainedWritecb => drainedWritecb
  event
    | .eventCb2 => eventCb2

def acceptCb2 (bev : ptr) (s : World ptr) : Result ptr (World ptr) := do
  let s := setClosed bev none (s.buffereventSocketNew bev)
  let s <- s.buffereventSetcb bev (some .sockertReadCb2) none
    (some .eventCb2) (some .base)
  s.buffereventEnable bev true false

def machine (b : ptr) : Machine (World ptr) Readiness (Fault Resource ptr) :=
  Loop.immediate program b

/-!
## What each callback does to a live bufferevent
-/

abbrev Bev (ptr : Type) := Bufferevent DataCb EventCb (CbArg ptr)

def echoed (bev : Bev ptr) : Bev ptr :=
  bev.onChannel fun c => { c with output := c.output ++ c.input, input := [] }

def choked (b : ptr) (bev : Bev ptr) : Bev ptr :=
  ((bev.setcb none (some .drainedWritecb) (some .eventCb2)
    (some (.bufferevent b))).onChannel
    (Channel.setwatermarkWrite (MAX_OUTPUT / 2) MAX_OUTPUT)).onChannel
    (Channel.disable true false)

def drained (bev : Bev ptr) : Bev ptr :=
  ((bev.setcb (some .sockertReadCb2) none (some .eventCb2) none).onChannel
    (Channel.setwatermarkWrite 0 0)).onChannel (Channel.enable true false)

theorem drainedWritecb_live {s : World ptr} {b : ptr} {bev : Bev ptr}
    (ctx : Option (CbArg ptr)) (h : s.bevs b = .live bev) :
    drainedWritecb b ctx s = .ok (s.setBev b (drained bev)) := by
  unfold drainedWritecb Loop.buffereventSetcb
    Loop.buffereventSetwatermarkWrite Loop.buffereventEnable
  rw [Loop.modifyBev_live _ h, ok_bind, Loop.modifyBev_setBev, ok_bind,
    Loop.modifyBev_setBev]
  rfl

theorem evbufferAddBuffer_self {s : World ptr} {b : ptr} {bev : Bev ptr}
    (h : s.bevs b = .live bev) :
    s.evbufferAddBuffer b b = .ok (s.setBev b (echoed bev)) := by
  unfold Loop.evbufferAddBuffer
  rw [Heap.read_live _ h, ok_bind, Loop.modifyBev_live _ h, ok_bind,
    Loop.modifyBev_setBev]
  rfl

def afterRead (b : ptr) (bev : Bev ptr) : Bev ptr :=
  if MAX_OUTPUT ≤ (echoed bev).output.length then choked b (echoed bev)
  else echoed bev

theorem sockertReadCb2_live {s : World ptr} {b : ptr} {bev : Bev ptr}
    (arg : Option (CbArg ptr)) (h : s.bevs b = .live bev) :
    sockertReadCb2 b arg s = .ok (s.setBev b (afterRead b bev)) := by
  unfold sockertReadCb2 afterRead Loop.buffereventSetcb
    Loop.buffereventSetwatermarkWrite Loop.buffereventDisable
  rw [evbufferAddBuffer_self h, ok_bind,
    Loop.outputLength_live (Loop.setBev_bevs_self _ _ _), ok_bind]
  by_cases hfull : MAX_OUTPUT ≤ (echoed bev).output.length
  · rw [if_pos hfull, if_pos hfull, Loop.modifyBev_setBev, ok_bind,
      Loop.modifyBev_setBev, ok_bind, Loop.modifyBev_setBev]
    rfl
  · rw [if_neg hfull, if_neg hfull]
    rfl

theorem eventCb2_live {s : World ptr} {b : ptr} {bev : Bev ptr}
    (what : What) (arg : Option (CbArg ptr)) (h : s.bevs b = .live bev) :
    eventCb2 b what arg s = .ok (setClosed b (some what)
      { s with bevs := Function.update s.bevs b .freed }) := by
  unfold eventCb2
  rw [Loop.buffereventFree_live h]
  rfl

theorem acceptCb2_eq (b : ptr) (s : World ptr) :
    acceptCb2 b s =
      .ok ((setClosed b none (s.buffereventSocketNew b)).setBev b
        ((Bufferevent.new.setcb (some .sockertReadCb2) none (some .eventCb2)
          (some .base)).onChannel (Channel.enable true false))) := by
  have hnew : (setClosed b none (s.buffereventSocketNew b)).bevs b =
      .live Bufferevent.new := Function.update_self _ _ _
  unfold acceptCb2 Loop.buffereventSetcb Loop.buffereventEnable
  dsimp only
  rw [Loop.modifyBev_live _ hnew, ok_bind, Loop.modifyBev_setBev]

/-!
## The invariant

Nothing stays in the input buffer, so what was read and not written is what the
output buffer holds.
-/

structure Echoing (b : ptr) (s : World ptr) (bev : Bev ptr) : Prop where
  live : s.bevs b = .live bev
  bytes : (s.sockets b).received = (s.sockets b).sent ++ bev.output
  input : bev.input = []
  readcb : bev.enabledRead = true -> bev.readcb = some .sockertReadCb2
  writecb : forall cb, bev.writecb = some cb -> cb = .drainedWritecb
  eventcb : bev.eventcb = some .eventCb2
  opened : s.memory b = none

structure Closed (b : ptr) (s : World ptr) : Prop where
  freed : s.bevs b = .freed
  bytes : (s.sockets b).sent <+: (s.sockets b).received

def Served (b : ptr) (s : World ptr) : Prop :=
  (exists bev, Echoing b s bev) ∨ Closed b s

theorem acceptCb2_served (b : ptr) (s : World ptr) :
    exists s', acceptCb2 b s = .ok s' ∧ exists bev, Echoing b s' bev := by
  refine ⟨_, acceptCb2_eq b s, _, Loop.setBev_bevs_self _ _ _, ?_, rfl,
    fun _ => rfl, ?_, rfl, Function.update_self _ _ _⟩
  · have hsocket : (s.buffereventSocketNew b).sockets b = Socket.new :=
      Function.update_self _ _ _
    show ((s.buffereventSocketNew b).sockets b).received =
      ((s.buffereventSocketNew b).sockets b).sent ++ []
    rw [hsocket]
    rfl
  · intro cb hcb
    cases hcb

/-!
### Reading
-/

theorem echoing_afterRead {b : ptr} {s : World ptr} {bev : Bev ptr}
    (h : Echoing b s bev) (henabled : bev.enabledRead = true)
    (bytes : List Byte) :
    Echoing b
      ((s.readBytes b bev bytes).setBev b
        (afterRead b (bev.onChannel (Channel.socketRead false bytes))))
      (afterRead b (bev.onChannel (Channel.socketRead false bytes))) := by
  have hsocket : ((s.readBytes b bev bytes).sockets b) =
      { s.sockets b with received := (s.sockets b).received ++ bytes } :=
    Function.update_self _ _ _
  have hbytes : ((s.readBytes b bev bytes).sockets b).received =
      ((s.readBytes b bev bytes).sockets b).sent ++
        (echoed (bev.onChannel (Channel.socketRead false bytes))).output := by
    rw [hsocket]
    show (s.sockets b).received ++ bytes =
      (s.sockets b).sent ++ (bev.output ++ (bev.input ++ bytes))
    rw [h.bytes, h.input, List.nil_append, List.append_assoc]
  unfold afterRead
  split
  · refine ⟨Loop.setBev_bevs_self _ _ _, hbytes, rfl, ?_, ?_, rfl, h.opened⟩
    · intro hread
      have hoff : (bev.enabledRead && false) = true := hread
      rw [Bool.and_false] at hoff
      cases hoff
    · intro cb hcb
      exact (Option.some.inj hcb).symm
  · exact ⟨Loop.setBev_bevs_self _ _ _, hbytes, rfl,
      fun _ => h.readcb henabled, h.writecb, h.eventcb, h.opened⟩

/-!
### Writing
-/

theorem echoing_writeBytes {b : ptr} {s : World ptr} {bev : Bev ptr}
    (h : Echoing b s bev) (n : Nat) :
    Echoing b (s.writeBytes b bev n)
      (bev.onChannel (Channel.socketWrite false n)) := by
  have hsocket : ((s.writeBytes b bev n).sockets b) =
      { s.sockets b with sent := (s.sockets b).sent ++ bev.output.take n } :=
    Function.update_self _ _ _
  refine ⟨Loop.setBev_bevs_self _ _ _, ?_, h.input, h.readcb, h.writecb,
    h.eventcb, h.opened⟩
  rw [hsocket]
  show (s.sockets b).received =
    (s.sockets b).sent ++ bev.output.take n ++ bev.output.drop n
  rw [List.append_assoc, List.take_append_drop]
  exact h.bytes

theorem echoing_drained {b : ptr} {s : World ptr} {bev : Bev ptr}
    (h : Echoing b s bev) :
    Echoing b (s.setBev b (drained bev)) (drained bev) := by
  refine ⟨Loop.setBev_bevs_self _ _ _, h.bytes, h.input, fun _ => rfl, ?_,
    rfl, h.opened⟩
  intro cb hcb
  cases hcb

/-!
### What an event on the socket does
-/

theorem dispatch_read {b : ptr} {s : World ptr} {bev : Bev ptr}
    (h : Echoing b s bev) (bytes : List Byte) :
    exists s' bev', s.dispatchLive program b bev (.read bytes) = .ok s' ∧
      Echoing b s' bev' := by
  simp only [Loop.dispatchLive]
  by_cases hread : bev.enabledRead = true ∧ bytes ≠ []
  · rw [if_pos hread, h.readcb hread.1]
    exact ⟨_, _, sockertReadCb2_live bev.cbarg (Loop.setBev_bevs_self _ _ _),
      echoing_afterRead h hread.1 bytes⟩
  · rw [if_neg hread]
    exact ⟨s, bev, rfl, h⟩

theorem dispatch_write {b : ptr} {s : World ptr} {bev : Bev ptr}
    (h : Echoing b s bev) (n : Nat) :
    exists s' bev', s.dispatchLive program b bev (.write n) = .ok s' ∧
      Echoing b s' bev' := by
  have hwritten := echoing_writeBytes h n
  simp only [Loop.dispatchLive]
  split
  · split
    · cases hcb : bev.writecb with
      | none => exact ⟨_, _, rfl, hwritten⟩
      | some cb =>
          rw [h.writecb cb hcb]
          exact ⟨_, _, drainedWritecb_live bev.cbarg hwritten.live,
            echoing_drained hwritten⟩
    · exact ⟨_, _, rfl, hwritten⟩
  · exact ⟨s, bev, rfl, h⟩

theorem dispatch_event {b : ptr} {s : World ptr} {bev : Bev ptr}
    (h : Echoing b s bev) {what : What} (hfound : bev.Finds what) :
    exists s', s.dispatchLive program b bev (.event what) = .ok s' ∧
      s'.bevs b = .freed ∧ s'.sockets b = s.sockets b ∧
      s'.memory b = some what := by
  simp only [Loop.dispatchLive]
  rw [if_pos hfound, h.eventcb]
  refine ⟨_, eventCb2_live what bev.cbarg (Loop.setBev_bevs_self _ _ _), ?_,
    rfl, ?_⟩
  · exact Function.update_self _ _ _
  · exact Function.update_self _ _ _

theorem dispatch_echoing {b : ptr} {s : World ptr} {bev : Bev ptr}
    (h : Echoing b s bev) (r : Readiness) :
    (exists s' bev', (machine b).step s r = .ok s' ∧ Echoing b s' bev' ∧
      forall what, r = .event what -> ¬ bev.Finds what) ∨
    (exists what s', r = .event what ∧ bev.Finds what ∧
      (machine b).step s r = .ok s' ∧ s'.bevs b = .freed ∧
      s'.sockets b = s.sockets b ∧ s'.memory b = some what) := by
  have hstep : (machine b).step s r = s.dispatchLive program b bev r :=
    Loop.dispatch_live r h.live
  rw [hstep]
  cases r with
  | read bytes =>
      rcases dispatch_read h bytes with ⟨s', bev', hs', hnext⟩
      refine .inl ⟨s', bev', hs', hnext, ?_⟩
      intro what hwhat
      cases hwhat
  | write n =>
      rcases dispatch_write h n with ⟨s', bev', hs', hnext⟩
      refine .inl ⟨s', bev', hs', hnext, ?_⟩
      intro what hwhat
      cases hwhat
  | event what =>
      by_cases hfound : bev.Finds what
      · rcases dispatch_event h hfound with ⟨s', hs', hrest⟩
        exact .inr ⟨what, s', rfl, hfound, hs', hrest⟩
      · refine .inl ⟨s, bev, if_neg hfound, h, ?_⟩
        intro other hother
        cases hother
        exact hfound

/-!
## Echoing everything
-/

/-- The client ended its sending side, and nothing else went wrong. -/
def EndsSending (what : What) : Prop :=
  what &&& BEV_EVENT_EOF ≠ 0 ∧ what &&& BEV_EVENT_ERROR = 0

instance (what : What) : Decidable (EndsSending what) :=
  inferInstanceAs (Decidable (_ ∧ _))

/-- What was written is a prefix of what was read, and all of it once the
bufferevent has been freed at the end of the client's stream. -/
def Echoes (b : ptr) (s : World ptr) : Prop :=
  (s.sockets b).sent <+: (s.sockets b).received ∧
    forall what, s.memory b = some what -> EndsSending what ->
      (s.sockets b).sent = (s.sockets b).received

/-- An end of the client's stream that is found finds an empty output buffer. -/
def EndsDrained (b : ptr) (s : World ptr) (r : Readiness) : Prop :=
  forall bev what, s.bevs b = .live bev -> r = .event what ->
    bev.Finds what -> EndsSending what -> bev.output = []

omit [DecidableEq ptr] in
theorem Echoing.echoes {b : ptr} {s : World ptr} {bev : Bev ptr}
    (h : Echoing b s bev) : Echoes b s := by
  refine ⟨⟨bev.output, h.bytes.symm⟩, ?_⟩
  intro what hwhat
  rw [h.opened] at hwhat
  cases hwhat

omit [DecidableEq ptr] in
theorem Echoing.sent_eq_iff {b : ptr} {s : World ptr} {bev : Bev ptr}
    (h : Echoing b s bev) :
    (s.sockets b).sent = (s.sockets b).received <-> bev.output = [] := by
  rw [h.bytes]
  exact List.self_eq_append_right

omit [DecidableEq ptr] in
theorem Served.sent_prefix {b : ptr} {s : World ptr} (h : Served b s) :
    (s.sockets b).sent <+: (s.sockets b).received := by
  rcases h with ⟨bev, hbev⟩ | hclosed
  · exact hbev.echoes.1
  · exact hclosed.bytes

theorem Served.step {b : ptr} {s : World ptr} (h : Served b s)
    (r : Readiness) :
    exists next, (machine b).step s r = .ok next ∧ Served b next := by
  rcases h with ⟨bev, hbev⟩ | hclosed
  · rcases dispatch_echoing hbev r with ⟨s', bev', hstep, hnext, _⟩ |
      ⟨what, s', _, _, hstep, hfreed, hsockets, _⟩
    · exact ⟨s', hstep, .inl ⟨bev', hnext⟩⟩
    · exact ⟨s', hstep, .inr ⟨hfreed, hsockets ▸ hbev.echoes.1⟩⟩
  · exact ⟨s, Loop.dispatch_freed r hclosed.freed, .inr hclosed⟩

theorem echoes_of_drained {b : ptr} {s next : World ptr} {r : Readiness}
    (h : Served b s) (hP : Echoes b s) (hC : EndsDrained b s r)
    (hstep : (machine b).step s r = .ok next) : Echoes b next := by
  rcases h with ⟨bev, hbev⟩ | hclosed
  · rcases dispatch_echoing hbev r with ⟨s', bev', hs', hnext, _⟩ |
      ⟨what, s', hr, hfound, hs', _, hsockets, hmemory⟩
    · rw [hs'] at hstep
      cases hstep
      exact hnext.echoes
    · rw [hs'] at hstep
      cases hstep
      refine ⟨hsockets ▸ hP.1, ?_⟩
      intro other hother hends
      rw [hmemory] at hother
      cases hother
      rw [hsockets]
      exact hbev.sent_eq_iff.mpr (hC bev what hbev.live hr hfound hends)
  · have hsame : (machine b).step s r = .ok s :=
      Loop.dispatch_freed r hclosed.freed
    rw [hsame] at hstep
    cases hstep
    exact hP

theorem drained_of_step {b : ptr} {s next : World ptr} {r : Readiness}
    (h : Served b s) (hstep : (machine b).step s r = .ok next)
    (hP : Echoes b next) : EndsDrained b s r := by
  intro bev what hlive hr hfound hends
  rcases h with ⟨bev', hbev⟩ | hclosed
  · have hsame := hbev.live
    rw [hlive] at hsame
    cases hsame
    rcases dispatch_echoing hbev r with ⟨_, _, _, _, hnone⟩ |
      ⟨what', s', hr', _, hs', _, hsockets, hmemory⟩
    · exact absurd hfound (hnone what hr)
    · rw [hs'] at hstep
      cases hstep
      rw [hr] at hr'
      cases hr'
      have hall := hP.2 what hmemory hends
      rw [hsockets] at hall
      exact hbev.sent_eq_iff.mp hall
  · have hfreed := hclosed.freed
    rw [hlive] at hfreed
    cases hfreed

/-- What an accepted connection writes is at all times a prefix of what it has
read.  It writes everything before it is closed at the end of the client's
stream exactly if the output buffer is empty whenever that end is found. -/
theorem echoes_iff_drained (b : ptr) (s : World ptr) (acts : List Readiness) :
    exists s0, acceptCb2 b s = .ok s0 ∧
      (machine b).Always
        (fun s => (s.sockets b).sent <+: (s.sockets b).received) s0 acts ∧
      ((machine b).Always (Echoes b) s0 acts <->
        (machine b).Along (EndsDrained b) s0 acts) := by
  rcases acceptCb2_served b s with ⟨s0, hstart, bev, hbev⟩
  have hserved : Served b s0 := .inl ⟨bev, hbev⟩
  refine ⟨s0, hstart, ?_, ?_⟩
  · exact Machine.always_of_step (I := Served b) (fun _ => Served.sent_prefix)
      (fun _ r ht => ht.step r) hserved acts
  · refine Machine.always_iff_along (I := Served b) ?_ ?_ hserved hbev.echoes
    · intro t r ht hP hC
      rcases ht.step r with ⟨next, hnext, hserved'⟩
      exact ⟨next, hnext, hserved', echoes_of_drained ht hP hC hnext⟩
    · intro t r next ht _ hnext hnextP
      exact drained_of_step ht hnext hnextP

/-- The client sends two bytes and ends; the server writes the first one, and
then finds the end. -/
def hastyClient : List Readiness :=
  [.read [1, 2], .write 1, .event (BEV_EVENT_EOF ||| BEV_EVENT_READING)]

theorem hastyClient_loses_byte :
    exists s0 last : World Nat,
      acceptCb2 0 World.empty = .ok s0 ∧
      (machine 0).run s0 hastyClient = .ok last ∧
      last.bevs 0 = .freed ∧
      (last.sockets 0).received = [1, 2] ∧ (last.sockets 0).sent = [1] ∧
      ¬ (machine 0).Always (Echoes 0) s0 hastyClient := by
  have hend : okWith (fun s0 => okWith (fun last : World Nat =>
      decide (last.bevs 0 = .freed ∧ (last.sockets 0).received = [1, 2] ∧
        (last.sockets 0).sent = [1] ∧
        last.memory 0 = some (BEV_EVENT_EOF ||| BEV_EVENT_READING)))
      ((machine 0).run s0 hastyClient)) (acceptCb2 0 World.empty) = true := by
    decide +kernel
  rcases exists_of_okWith hend with ⟨s0, hstart, hend'⟩
  rcases exists_of_okWith hend' with ⟨last, hrun, hlast⟩
  rcases of_decide_eq_true hlast with ⟨hfreed, hreceived, hsent, hmemory⟩
  refine ⟨s0, last, hstart, hrun, hfreed, hreceived, hsent, ?_⟩
  intro halways
  have hall := (halways.last hrun).2 _ hmemory (by decide)
  rw [hreceived, hsent] at hall
  cases hall

end EchoServer
end NetExperiment
