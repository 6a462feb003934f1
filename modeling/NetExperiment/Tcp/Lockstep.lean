import NetExperiment.Tcp.LeProxy.Runs
import NetExperiment.Tcp.TransparentTcpProxy.Runs

/-!
# The transparent proxy and le_proxy in lockstep

Both programs keep the same relay: one with objects that own the bufferevents,
the other with bufferevents that point to each other.  Given the same output
limit, their endpoints agree in every state, as long as no end of file or error
is handled for the survivor of a pair.
-/

namespace NetExperiment
namespace Tcp

open Foundation
open Libevent
open Relay

def correspondingCb : TransparentTcpProxy.DataCb -> LeProxy.DataCb
  | .readcb => .readcb
  | .drainedWritecb => .drainedWritecb
  | .closeOnFinishedWritecb => .closeOnFinishedWritecb

/-- An endpoint is freed in both programs, or it is live in both with the same
buffers, flags, watermarks and pending callbacks and with corresponding
callbacks installed. -/
inductive EndpointsAgree {ptr ptr' : Type} :
    Cell (Bufferevent TransparentTcpProxy.DataCb TransparentTcpProxy.EventCb
      ptr) ->
    Cell (Bufferevent LeProxy.DataCb LeProxy.EventCb ptr') -> Prop where
  | freed : EndpointsAgree .freed .freed
  | live {b : Bufferevent TransparentTcpProxy.DataCb
        TransparentTcpProxy.EventCb ptr}
      {b' : Bufferevent LeProxy.DataCb LeProxy.EventCb ptr'} :
      b.toChannel = b'.toChannel ->
      b.readcb.map correspondingCb = b'.readcb ->
      b.writecb.map correspondingCb = b'.writecb ->
      EndpointsAgree (.live b) (.live b')

theorem endpointsAgree_of_phase {ptr ptr' : Type}
    (place : TransparentTcpProxy.Allocation ptr)
    (place' : LeProxy.Allocation ptr') (phase : Phase) (x : Side) :
    EndpointsAgree (TransparentTcpProxy.bevsOf place phase x)
      (place'.layout.bevsOf phase x) := by
  cases phase with
  | relaying ends =>
      refine EndpointsAgree.live rfl rfl ?_
      unfold TransparentTcpProxy.relayingBev Layout.relayingBev
      cases (ends x).draining <;> rfl
  | closing y c =>
      by_cases hx : x = y
      · simp only [TransparentTcpProxy.bevsOf, Layout.bevsOf, if_pos hx]
        exact EndpointsAgree.live rfl rfl rfl
      · simp only [TransparentTcpProxy.bevsOf, Layout.bevsOf, if_neg hx]
        exact EndpointsAgree.freed
  | closed => exact EndpointsAgree.freed

/-- Started on the same connection and given the same output limit, the two
programs stay in lockstep for every sequence of actions in which the survivor
of a pair does not end. -/
theorem lockstep_of_run {ptr ptr' : Type} [DecidableEq ptr]
    [DecidableEq ptr'] {place : TransparentTcpProxy.Allocation ptr}
    (hplace : place.Distinct) {conn : TransparentTcpProxy.Incoming}
    {results : TransparentTcpProxy.SystemResults}
    {background t0 : TransparentTcpProxy.World ptr}
    (hstart : TransparentTcpProxy.acceptConnection place conn results
      background = .ok (true, t0))
    (place' : LeProxy.Allocation ptr') {socketConnect : Int}
    (hconnect : ¬ socketConnect < 0) (background' : LeProxy.World ptr')
    (maxOutput : Nat) (acts : List (Action Side))
    (hquiet : (place.machine maxOutput).Along
      (fun s a => ¬ TransparentTcpProxy.EventWhileClosing place s a) t0
      acts) :
    exists t l0 l,
      (place.machine maxOutput).run t0 acts = .ok t ∧
      LeProxy.acceptCb place' socketConnect background' = .ok l0 ∧
      (place'.machine maxOutput).run l0 acts = .ok l ∧
      forall x,
        EndpointsAgree (t.bevs (place.bufferAt x))
          (l.bevs (place'.bufferAt x)) ∧
        t.sockets (place.bufferAt x) = l.sockets (place'.bufferAt x) := by
  rcases TransparentTcpProxy.acceptConnection_embed hplace hstart with
    ⟨pair, rfl⟩
  rcases TransparentTcpProxy.run_embed pair background maxOutput hquiet with
    ⟨last, habstract, hrun⟩
  rcases LeProxy.run_embed place' background' maxOutput State.new acts with
    ⟨last', habstract', hrun'⟩
  -- both programs are images of the one run of the relay
  rw [habstract] at habstract'
  cases habstract'
  refine ⟨_, _, _, hrun, LeProxy.acceptCb_started place' background' hconnect,
    hrun', ?_⟩
  intro x
  have hcell : (place'.layout.embed background' last).bevs
      (place'.bufferAt x) = place'.layout.bevsOf last.phase x :=
    Layout.embed_bevs x
  have hsocket : (place'.layout.embed background' last).sockets
      (place'.bufferAt x) = last.sockets x := Layout.embed_sockets x
  rw [TransparentTcpProxy.embed_bevs, TransparentTcpProxy.embed_sockets, hcell,
    hsocket]
  exact ⟨endpointsAgree_of_phase place place' last.phase x, rfl⟩

/-- A client of both programs sends a byte and ends, and the byte is flushed to
the server. -/
theorem lockstep_of_flush :
    exists t l0 l,
      (exists t0, TransparentTcpProxy.acceptConnection
          TransparentTcpProxy.localPlace TransparentTcpProxy.localConn
          TransparentTcpProxy.localResults TransparentTcpProxy.World.empty =
          .ok (true, t0) ∧
        (TransparentTcpProxy.localPlace.machine 4).run t0
          (TransparentTcpProxy.endTrace ++ [⟨.upstream, .socketWrite 1⟩]) =
          .ok t) ∧
      LeProxy.acceptCb LeProxy.localPlace 0 LeProxy.World.empty = .ok l0 ∧
      (LeProxy.localPlace.machine 4).run l0
        (TransparentTcpProxy.endTrace ++ [⟨.upstream, .socketWrite 1⟩]) =
        .ok l ∧
      forall x, EndpointsAgree (t.bevs (TransparentTcpProxy.localPlace.bufferAt
        x)) (l.bevs (LeProxy.localPlace.bufferAt x)) := by
  have hcheck : TransparentTcpProxy.localCheck [] (okWith fun t0 => decide
      ((TransparentTcpProxy.localPlace.machine 4).Along
        (fun s a => ¬ TransparentTcpProxy.EventWhileClosing
          TransparentTcpProxy.localPlace s a) t0
        (TransparentTcpProxy.endTrace ++ [⟨.upstream, .socketWrite 1⟩]))) =
      true := by
    decide +kernel
  rcases TransparentTcpProxy.exists_of_localCheck hcheck with
    ⟨t0, hstart, hok⟩
  rcases exists_of_okWith hok with ⟨_, hrun, hquiet⟩
  cases hrun
  have hconnect : ¬ (0 : Int) < 0 := by decide
  rcases lockstep_of_run (by decide) hstart LeProxy.localPlace hconnect
    LeProxy.World.empty 4 _ (of_decide_eq_true hquiet) with
    ⟨t, l0, l, ht, hl0, hl, hagree⟩
  exact ⟨t, l0, l, ⟨t0, hstart, ht⟩, hl0, hl, fun x => (hagree x).1⟩

end Tcp
end NetExperiment
