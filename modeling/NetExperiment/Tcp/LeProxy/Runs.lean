import NetExperiment.Tcp.LeProxy.Refinement

/-!
# Runs of a linked pair

What holds in every state that a pair of bufferevents reaches after it was set
up, whatever happens to its two endpoints and in whatever order.
-/

namespace NetExperiment
namespace LeProxy

open Foundation
open Libevent
open Relay

variable {ptr : Type} [DecidableEq ptr]

/-- The pair as the accept callback leaves it: linked, or already freed when the
connect call failed. -/
def initialState (socketConnect : Int) : Relay.State :=
  if socketConnect < 0 then
    { phase := .closed, sockets := fun _ => Socket.new }
  else Relay.State.new

theorem acceptCb_embed (place : Allocation ptr) (socketConnect : Int)
    (background : World ptr) :
    acceptCb place socketConnect background =
      .ok (place.layout.embed background (initialState socketConnect)) := by
  unfold initialState
  split
  · rename_i h
    exact acceptCb_failed place background h
  · rename_i h
    exact acceptCb_started place background h

theorem openOrEnded_initialState (socketConnect : Int) :
    (initialState socketConnect).OpenOrEnded := by
  unfold initialState
  split
  · exact .inr State.Ended.closed
  · exact openOrEnded_new

/-!
## Lifetime of the bufferevents
-/

/-- A bufferevent that is alone and flushes its last output: something will
still happen to it. -/
structure FlushesAlone (bev : Bufferevent DataCb EventCb ptr) : Prop where
  cbarg : bev.cbarg = none
  enabledRead : bev.enabledRead = false
  writecb : bev.writecb = some .closeOnFinishedWritecb
  wakeup : bev.output ≠ [] ∨ bev.writecbPending = true ∨
    bev.eventcbPending.Fatal

omit [DecidableEq ptr] in
theorem flushesAlone_of_ended {place : Allocation ptr} {background : World ptr}
    {r : Relay.State} (h : r.Ended) :
    (exists y, (place.layout.embed background r).bevs (place.bufferAt y) =
      .freed) ∧
    forall y bev, (place.layout.embed background r).bevs (place.bufferAt y) =
      .live bev -> FlushesAlone bev := by
  cases h with
  | @closing y c sockets hread hwakeup =>
      refine ⟨⟨y.other, ?_⟩, ?_⟩
      · exact (Layout.embed_bevs y.other).trans (if_neg (Side.other_ne y))
      · intro z bev hbev
        have hcell := (Layout.embed_bevs z).symm.trans hbev
        by_cases hz : z = y
        · simp only [Layout.bevsOf, if_pos hz] at hcell
          cases hcell
          refine ⟨rfl, hread, rfl, ?_⟩
          by_cases hempty : c.output = []
          · exact .inr (.inl (hwakeup hempty))
          · exact .inl hempty
        · simp only [Layout.bevsOf, if_neg hz] at hcell
          cases hcell
  | closed =>
      refine ⟨⟨.accepted, Layout.embed_bevs .accepted⟩, ?_⟩
      intro z bev hbev
      have hcell := (Layout.embed_bevs z).symm.trans hbev
      cases hcell

omit [DecidableEq ptr] in
theorem live_or_freed {place : Allocation ptr} {background : World ptr}
    (r : Relay.State) (x : Side) :
    ((place.layout.embed background r).bevs (place.bufferAt x)).IsLive ∨
      (place.layout.embed background r).bevs (place.bufferAt x) = .freed := by
  have hcell : (place.layout.embed background r).bevs (place.bufferAt x) =
      place.layout.bevsOf r.phase x := Layout.embed_bevs x
  rw [hcell]
  exact Layout.bevsOf_live_or_freed r.phase x

theorem openOrEnded_of_run {maxOutput : Nat} {socketConnect : Int}
    {r : Relay.State} {acts : List (Action Side)}
    (h : (Relay.machine maxOutput).run (initialState socketConnect) acts =
      .ok r) : r.OpenOrEnded := by
  refine Machine.run_preserves ?_ (openOrEnded_initialState socketConnect) h
  intro s a next hs hnext
  cases hnext
  exact step_openOrEnded a hs

theorem ended_of_run {maxOutput : Nat} {r last : Relay.State}
    {acts : List (Action Side)} (hr : r.Ended)
    (h : (Relay.machine maxOutput).run r acts = .ok last) : last.Ended := by
  refine Machine.run_preserves ?_ hr h
  intro s a next hs hnext
  cases hnext
  exact step_ended a hs

/-- No run of a pair that the accept callback set up frees a bufferevent twice
or uses it after it was freed.  Once an end of file or an error was handled, at
most one bufferevent is live, and that one flushes its last output alone. -/
theorem lifecycle_of_run (place : Allocation ptr) (socketConnect : Int)
    (background : World ptr) (acts : List (Action Side)) :
    exists s0 s, acceptCb place socketConnect background = .ok s0 ∧
      (place.machine MAX_OUTPUT).run s0 acts = .ok s ∧
      (forall x, (s.bevs (place.bufferAt x)).IsLive ∨
        s.bevs (place.bufferAt x) = .freed) ∧
      (socketConnect < 0 -> forall x, s.bevs (place.bufferAt x) = .freed) ∧
      forall (front later : List (Action Side)) (a : Action Side) (x : Side)
        (mid : World ptr), acts = front ++ a :: later ->
        (place.machine MAX_OUTPUT).run s0 front = .ok mid ->
        mid.DeliversFatal (place.bufferAt x) (a.map place.bufferAt) ->
        (exists y, s.bevs (place.bufferAt y) = .freed) ∧
          forall y bev, s.bevs (place.bufferAt y) = .live bev ->
            FlushesAlone bev := by
  rcases run_embed place background MAX_OUTPUT (initialState socketConnect)
    acts with ⟨last, habstract, hconcrete⟩
  refine ⟨_, _, acceptCb_embed place socketConnect background, hconcrete,
    live_or_freed last, ?_, ?_⟩
  · intro hfailed x
    have hclosed : (initialState socketConnect).phase = .closed := by
      unfold initialState
      rw [if_pos hfailed]
    have hlast : last.phase = .closed := by
      refine Machine.run_preserves (I := fun r => r.phase = .closed) ?_ hclosed
        habstract
      intro r a next hr hnext
      cases hnext
      simp only [Relay.step, hr]
    refine (Layout.embed_bevs x).trans ?_
    rw [hlast]
    rfl
  · intro front later a x mid hacts hfront hfatal
    rw [hacts] at habstract
    rcases Machine.run_append_ok habstract with ⟨before, hbefore, hrest⟩
    rcases Machine.run_cons_ok hrest with ⟨after, hafter, hlater⟩
    cases hafter
    -- the state before the event is the image of the relay's state
    have hmid : mid = place.layout.embed background before := by
      rcases run_embed place background MAX_OUTPUT (initialState socketConnect)
        front with ⟨reached, hreached, himage⟩
      rw [hreached] at hbefore
      cases hbefore
      rw [himage] at hfront
      cases hfront
      rfl
    rw [hmid] at hfatal
    have hends : before.DeliversFatal x a :=
      (Layout.deliversFatal_embed (L := place.layout)).mp hfatal
    have hended : (Relay.step MAX_OUTPUT before a).Ended :=
      step_ended_of_deliversFatal (openOrEnded_of_run hbefore) hends
    exact flushesAlone_of_ended (ended_of_run hended hlater)

/-!
A connection from a local client, for runs on fixed inputs.
-/

def localPlace : Allocation Nat := ⟨0, 1, by decide⟩

def localCheck (acts : List (Action Side))
    (check : Result Nat (World Nat) -> Bool) : Bool :=
  match acceptCb localPlace 0 World.empty with
  | .ok s0 => check ((localPlace.machine MAX_OUTPUT).run s0 acts)
  | .error _ => false

theorem of_localCheck {acts : List (Action Side)}
    {check : Result Nat (World Nat) -> Bool} {s0 : World Nat}
    (hstart : acceptCb localPlace 0 World.empty = .ok s0)
    (h : localCheck acts check = true) :
    check ((localPlace.machine MAX_OUTPUT).run s0 acts) = true := by
  unfold localCheck at h
  rw [hstart] at h
  exact h

def endTrace : List (Action Side) :=
  [⟨.accepted, .socketRead [65]⟩, ⟨.accepted, .deferredRead⟩,
    ⟨.accepted, .report (BEV_EVENT_EOF ||| BEV_EVENT_READING)⟩]

/-- The server side flushes the byte alone. -/
theorem lifecycle_of_end :
    exists (s0 s : World Nat) (bev : Bufferevent DataCb EventCb Nat),
      acceptCb localPlace 0 World.empty = .ok s0 ∧
      (localPlace.machine MAX_OUTPUT).run s0
        (endTrace ++ [⟨.accepted, .deferredEvent⟩]) = .ok s ∧
      s.bevs (localPlace.bufferAt .upstream) = .live bev ∧
      FlushesAlone bev := by
  have hfront : localCheck endTrace (okWith fun mid =>
      (mid.bevs (localPlace.bufferAt .accepted)).liveWith fun bev =>
        decide bev.eventcbPending.Fatal) = true := by
    decide +kernel
  have hend : localCheck (endTrace ++ [⟨.accepted, .deferredEvent⟩])
      (okWith fun s => (s.bevs (localPlace.bufferAt .upstream)).liveWith
        fun _ => true) = true := by
    decide +kernel
  rcases lifecycle_of_run localPlace 0 World.empty
    (endTrace ++ [⟨.accepted, .deferredEvent⟩]) with
    ⟨s0, s, hstart, hrun, _, _, hlater⟩
  rcases exists_of_okWith (of_localCheck hstart hfront) with
    ⟨mid, hmid, hpending⟩
  rcases Cell.exists_of_liveWith hpending with ⟨source, hsource, hfatal⟩
  rcases exists_of_okWith (of_localCheck hstart hend) with ⟨s', hs', hlive⟩
  rw [hrun] at hs'
  cases hs'
  rcases Cell.exists_of_liveWith hlive with ⟨bev, hbev, _⟩
  refine ⟨s0, s, bev, hstart, hrun, hbev, ?_⟩
  exact (hlater endTrace [] ⟨.accepted, .deferredEvent⟩ .accepted mid rfl hmid
    ⟨rfl, rfl, source, hsource, of_decide_eq_true hfatal⟩).2 .upstream bev hbev

end LeProxy
end NetExperiment
