import NetExperiment.Relay.Progress
import NetExperiment.Tcp.LeProxy.Runs
import NetExperiment.Tcp.TransparentTcpProxy.Runs

/-!
# Proxies that are left to themselves

After any run, when the peers send nothing more and no events are found, a proxy
has a bounded number of things to do, in whatever order it does them.  When it
has done them, all that was read has been delivered, or the connection is
closed.
-/

namespace NetExperiment

open Foundation
open Libevent
open Relay

variable {ptr : Type} [DecidableEq ptr]

namespace LeProxy

theorem simulates (place : Allocation ptr) (background : World ptr)
    (maxOutput : Nat) :
    Machine.Simulates (place.machine maxOutput) (Relay.machine maxOutput)
      (place.layout.embed background) := by
  intro r a s hstep
  rw [step_embed place background maxOutput r a] at hstep
  cases hstep
  exact ⟨_, rfl, rfl⟩

theorem sound_initialState (socketConnect : Int) :
    (initialState socketConnect).Sound MAX_OUTPUT := by
  unfold initialState
  split
  · exact sound_closed MAX_OUTPUT _
  · exact sound_new (by decide)

/-- A pair of bufferevents that is left to itself stops after at most two steps
for each byte in its buffers and one for each callback that is scheduled, and
then all is delivered or both are freed. -/
theorem worked_off_of_run {place : Allocation ptr} {socketConnect : Int}
    {background s0 s last : World ptr} {acts more : List (Action Side)}
    (hstart : acceptCb place socketConnect background = .ok s0)
    (hrun : (place.machine MAX_OUTPUT).run s0 acts = .ok s)
    (hbusy : (place.machine MAX_OUTPUT).Along
      (fun s a => s.Busy (a.map place.bufferAt)) s more)
    (hmore : (place.machine MAX_OUTPUT).run s more = .ok last) :
    more.length ≤ s.work (place.bufferAt .accepted) +
        s.work (place.bufferAt .upstream) ∧
      ((forall a : Action Side, ¬ last.Busy (a.map place.bufferAt)) ->
        Delivered place.bufferAt last) := by
  rw [acceptCb_embed] at hstart
  cases hstart
  have hsimulates := simulates place background MAX_OUTPUT
  rcases hsimulates.run_preserves (sound_of_step (by decide))
    (sound_initialState socketConnect) hrun with ⟨r, rfl, hsound⟩
  exact Layout.works_off (L := place.layout) (by decide) hsimulates hsound
    hbusy hmore

/-- What is left to do after the client has ended: handle the end, write the
byte and close. -/
def closeTrace : List (Action Side) :=
  [⟨.accepted, .deferredEvent⟩, ⟨.upstream, .socketWrite 1⟩,
    ⟨.upstream, .deferredWrite⟩]

theorem worked_off_after_end :
    exists s0 s last : World Nat,
      acceptCb localPlace 0 World.empty = .ok s0 ∧
      (localPlace.machine MAX_OUTPUT).run s0 endTrace = .ok s ∧
      (localPlace.machine MAX_OUTPUT).run s closeTrace = .ok last ∧
      closeTrace.length ≤ s.work (localPlace.bufferAt .accepted) +
        s.work (localPlace.bufferAt .upstream) ∧
      Delivered localPlace.bufferAt last := by
  have hcheck : localCheck endTrace (okWith fun s =>
      decide ((localPlace.machine MAX_OUTPUT).Along
        (fun s a => s.Busy (a.map localPlace.bufferAt)) s closeTrace) &&
      okWith (fun last => decide (forall x,
        last.bevs (localPlace.bufferAt x) = .freed))
        ((localPlace.machine MAX_OUTPUT).run s closeTrace)) = true := by
    decide +kernel
  have hstart := acceptCb_embed localPlace 0 World.empty
  rcases exists_of_okWith (of_localCheck hstart hcheck) with ⟨s, hrun, hs⟩
  rcases Bool.and_eq_true_iff.mp hs with ⟨hbusy, hlast⟩
  rcases exists_of_okWith hlast with ⟨last, hmore, hfreed⟩
  rcases worked_off_of_run hstart hrun (of_decide_eq_true hbusy) hmore with
    ⟨hlength, hidle⟩
  exact ⟨_, s, last, hstart, hrun, hmore, hlength,
    hidle (Layout.not_busy_of_freed (of_decide_eq_true hfreed))⟩

end LeProxy

namespace TransparentTcpProxy

/-- A pair of proxy objects that is left to itself does the same, as long as no
end of file or error that waits for a flushing endpoint is handled.  Then no step
faults either. -/
theorem pair_worked_off {place : Allocation ptr} (hplace : place.Distinct)
    {conn : Incoming} {results : SystemResults}
    {background s0 s : World ptr} {acts more : List (Action Side)}
    (hstart : acceptConnection place conn results background =
      .ok (true, s0))
    (hrun : (place.machine MAX_OUTPUT).run s0 acts = .ok s)
    (hbusy : (place.machine MAX_OUTPUT).Along
      (fun s a => s.Busy (a.map place.bufferAt)) s more)
    (hclosing : (place.machine MAX_OUTPUT).Along
      (fun s a => ¬ EventWhileClosing place s a) s more) :
    exists last, (place.machine MAX_OUTPUT).run s more = .ok last ∧
      more.length ≤ s.work (place.bufferAt .accepted) +
        s.work (place.bufferAt .upstream) ∧
      ((forall a : Action Side, ¬ last.Busy (a.map place.bufferAt)) ->
        Delivered place.bufferAt last) := by
  rcases acceptConnection_embed hplace hstart with ⟨pair, rfl⟩
  have hembed : (pair.layout background).embed background =
      embed pair background :=
    funext (layout_embed pair background)
  have hsimulates := simulates pair background MAX_OUTPUT
  rcases hsimulates.run_preserves (sound_of_step MAX_OUTPUT_pos)
    (sound_new MAX_OUTPUT_pos) hrun with ⟨r, rfl, hsound⟩
  rcases run_embed pair background MAX_OUTPUT hclosing with ⟨last, _, hmore⟩
  refine ⟨embed pair background last, hmore, ?_⟩
  rw [← hembed] at hsimulates hbusy hmore ⊢
  exact Layout.works_off (L := pair.layout background) MAX_OUTPUT_pos
    hsimulates hsound hbusy hmore

def closeTrace : List (Action Side) :=
  [⟨.upstream, .socketWrite 1⟩, ⟨.upstream, .deferredWrite⟩]

theorem pair_worked_off_after_end :
    exists s0 s last : World Nat,
      acceptConnection localPlace localConn localResults World.empty =
        .ok (true, s0) ∧
      (localPlace.machine MAX_OUTPUT).run s0 endTrace = .ok s ∧
      (localPlace.machine MAX_OUTPUT).run s closeTrace = .ok last ∧
      closeTrace.length ≤ s.work (localPlace.bufferAt .accepted) +
        s.work (localPlace.bufferAt .upstream) ∧
      Delivered localPlace.bufferAt last := by
  have hcheck : localCheck endTrace (okWith fun s =>
      decide ((localPlace.machine MAX_OUTPUT).Along
        (fun s a => s.Busy (a.map localPlace.bufferAt)) s closeTrace) &&
      decide ((localPlace.machine MAX_OUTPUT).Along
        (fun s a => ¬ EventWhileClosing localPlace s a) s closeTrace) &&
      okWith (fun last => decide (forall x,
        last.bevs (localPlace.bufferAt x) = .freed))
        ((localPlace.machine MAX_OUTPUT).run s closeTrace)) = true := by
    decide +kernel
  rcases exists_of_localCheck hcheck with ⟨s0, hstart, hs0⟩
  rcases exists_of_okWith hs0 with ⟨s, hrun, hs⟩
  simp only [Bool.and_eq_true, decide_eq_true_eq] at hs
  rcases hs with ⟨⟨hbusy, hclosing⟩, hlast⟩
  rcases exists_of_okWith hlast with ⟨last, hmore, hfreed⟩
  rcases pair_worked_off (by decide) hstart hrun hbusy hclosing with
    ⟨last', hmore', hlength, hidle⟩
  rw [hmore] at hmore'
  cases hmore'
  exact ⟨s0, s, last, hstart, hrun, hmore, hlength,
    hidle (Layout.not_busy_of_freed (of_decide_eq_true hfreed))⟩

end TransparentTcpProxy
end NetExperiment
