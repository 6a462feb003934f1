import NetExperiment.Foundation.Parts
import NetExperiment.Relay.Embedding

/-!
# Relays that share a loop

A program keeps many relays on one event loop.  A pair holds the pointers of
its endpoints only while they are live; the pointer of an endpoint that is gone
may already belong to another pair, also while the survivor flushes its output.
So a pair is looked at through its live endpoints alone.
-/

namespace NetExperiment
namespace Relay

open Foundation
open Libevent

def Phase.sides : Phase -> Set Side
  | .relaying _ => Set.univ
  | .closing y _ => {y}
  | .closed => ∅

theorem ClosingStep.sides_subset {y : Side} {c : Channel}
    {sockets : Side -> Socket} {o : Occurrence} {s : State}
    (hstep : ClosingStep y c sockets o s) : s.phase.sides ⊆ {y} := by
  cases hstep with
  | flushed _ => exact Set.empty_subset _
  | dropped _ => exact Set.empty_subset _
  | _ => exact Set.Subset.refl _

theorem step_sides {maxOutput : Nat} (s : State) (a : Action Side) :
    (step maxOutput s a).phase.sides ⊆ s.phase.sides := by
  cases hphase : s.phase with
  | relaying ends => exact Set.subset_univ _
  | closing y c =>
      simp only [step, hphase]
      split
      · exact (stepClosing_cases y c s.sockets a.occurrence).sides_subset
      · rw [hphase]
  | closed =>
      simp only [step, hphase]
      exact Set.Subset.refl _

theorem step_of_notMem_sides {maxOutput : Nat} {s : State} {a : Action Side}
    (h : a.target ∉ s.phase.sides) : step maxOutput s a = s := by
  cases hphase : s.phase with
  | relaying ends =>
      rw [hphase] at h
      exact absurd (Set.mem_univ a.target) h
  | closing y c =>
      rw [hphase] at h
      simp only [step, hphase]
      exact if_neg h
  | closed => simp only [step, hphase]

namespace Layout

variable {ptr dataCb eventCb arg memory : Type}
  {L : Layout ptr dataCb eventCb arg memory}

theorem bevsOf_isLive_iff {phase : Phase} {x : Side} :
    (L.bevsOf phase x).IsLive <-> x ∈ phase.sides := by
  cases phase with
  | relaying ends => exact iff_of_true ⟨_, rfl⟩ (Set.mem_univ x)
  | closing y c =>
      by_cases hx : x = y
      · exact iff_of_true ⟨_, if_pos hx⟩ hx
      · refine iff_of_false ?_ hx
        simp only [bevsOf, if_neg hx]
        exact Cell.not_isLive_freed
  | closed => exact iff_of_false Cell.not_isLive_freed (Set.notMem_empty x)

def Agrees (L : Layout ptr dataCb eventCb arg memory) (r : State) (x : Side)
    (s : Loop ptr dataCb eventCb arg memory) : Prop :=
  s.bevs (L.bufferAt x) = L.bevsOf r.phase x ∧
    s.sockets (L.bufferAt x) = r.sockets x

theorem agrees_iff {r : State} {x : Side}
    {s : Loop ptr dataCb eventCb arg memory} :
    L.Agrees r x s <->
      s.view (L.bufferAt x) = (L.bevsOf r.phase x, r.sockets x) := by
  rw [Prod.ext_iff]
  exact Iff.rfl

theorem Agrees.mem_sides {r : State} {x : Side}
    {s : Loop ptr dataCb eventCb arg memory} (h : L.Agrees r x s)
    (hlive : (s.bevs (L.bufferAt x)).IsLive) : x ∈ r.phase.sides := by
  rw [h.1] at hlive
  exact bevsOf_isLive_iff.mp hlive

theorem agrees_embed (background : Loop ptr dataCb eventCb arg memory)
    (r : State) (x : Side) : L.Agrees r x (L.embed background r) :=
  ⟨embed_bevs x, embed_sockets x⟩

theorem eq_embed {r : State} {s : Loop ptr dataCb eventCb arg memory}
    (h : forall x, L.Agrees r x s) (hmemory : s.memory = L.memoryOf r.phase) :
    s = L.embed s r := by
  have hbevs := Heap.extend_self (L.bevsOf r.phase) (fun x => (h x).1)
  have hsockets := Heap.extend_self r.sockets (fun x => (h x).2)
  unfold embed overlay
  rw [hbevs, hsockets, ← hmemory]

theorem embed_view_of_ne {background : Loop ptr dataCb eventCb arg memory}
    {r : State} {p : ptr} (h : forall x, L.bufferAt x ≠ p) :
    (L.embed background r).view p = background.view p := by
  have hnot : ¬ exists x, L.bufferAt x = p := by
    intro howned
    rcases howned with ⟨x, hx⟩
    exact h x hx
  exact Prod.ext (Function.extend_apply' _ _ _ hnot)
    (Function.extend_apply' _ _ _ hnot)

/-!
## A survivor among other pairs

What happens to a survivor touches its own cell only, whatever the pointer of
the endpoint that is gone is used for by now.
-/

section Survivor

variable [DecidableEq ptr] (L : Layout ptr dataCb eventCb arg memory)

/-- The loop with the cell of a survivor replaced, and with the memory of the
program that is left when it is closed. -/
def settle (s : Loop ptr dataCb eventCb arg memory) (left : memory) (y : Side)
    (r : State) : Loop ptr dataCb eventCb arg memory where
  bevs := Function.update s.bevs (L.bufferAt y) (L.bevsOf r.phase y)
  sockets := Function.update s.sockets (L.bufferAt y) (r.sockets y)
  memory :=
    match r.phase with
    | .closed => left
    | _ => s.memory

variable {L} {s : Loop ptr dataCb eventCb arg memory} {left : memory}
  {y : Side} {r : State}

theorem agrees_settle : L.Agrees r y (L.settle s left y r) :=
  ⟨Function.update_self _ _ _, Function.update_self _ _ _⟩

theorem settle_view_of_ne {p : ptr} (h : p ≠ L.bufferAt y) :
    (L.settle s left y r).view p = s.view p :=
  Prod.ext (Function.update_of_ne h _ _) (Function.update_of_ne h _ _)

theorem settle_of_agrees {c : Channel} {sockets : Side -> Socket}
    (h : L.Agrees { phase := .closing y c, sockets := sockets } y s) :
    L.settle s left y { phase := .closing y c, sockets := sockets } = s := by
  unfold settle
  rw [← h.1, ← h.2, Function.update_eq_self, Function.update_eq_self]

theorem setBev_survivor_settle {c : Channel} {sockets : Side -> Socket}
    (h : s.sockets (L.bufferAt y) = sockets y) :
    s.setBev (L.bufferAt y) (L.closingBev y c) =
      L.settle s left y { phase := .closing y c, sockets := sockets } := by
  unfold settle Loop.setBev
  simp only [bevsOf, if_true]
  rw [← h, Function.update_eq_self]

theorem setBev_setSocket_settle (c : Channel) (sockets : Side -> Socket)
    (socket : Socket) :
    (s.setBev (L.bufferAt y) (L.closingBev y c)).setSocket (L.bufferAt y)
        socket =
      L.settle s left y
        { phase := .closing y c
          sockets := Function.update sockets y socket } := by
  unfold settle Loop.setBev Loop.setSocket
  simp only [bevsOf, if_true, Function.update_self]

variable {prog : Loop.Program ptr dataCb eventCb arg memory}

theorem step_survivor {c : Channel} {sockets : Side -> Socket} {o : Occurrence}
    (h : L.Agrees { phase := .closing y c, sockets := sockets } y s)
    (hwrite : o = .deferredWrite -> c.writecbPending = true ->
      prog.data L.closeOnFinishedWritecb (L.bufferAt y) (L.closingArg y)
          (s.setBev (L.bufferAt y) (L.closingBev y c.takeWritecb)) =
        .ok (L.settle s left y (stepClosing y c sockets .deferredWrite)))
    (hevent : o = .deferredEvent -> c.eventcbPending ≠ 0 ->
      prog.event L.eventcb (L.bufferAt y) c.eventcbPending (L.closingArg y)
          (s.setBev (L.bufferAt y) (L.closingBev y c.takeEventcb)) =
        .ok (L.settle s left y (stepClosing y c sockets .deferredEvent))) :
    Loop.step prog s { target := L.bufferAt y, occurrence := o } =
      .ok (L.settle s left y (stepClosing y c sockets o)) := by
  have hlive : s.bevs (L.bufferAt y) = .live (L.closingBev y c) :=
    h.1.trans (if_pos rfl)
  have hsocket : s.sockets (L.bufferAt y) = sockets y := h.2
  have hidle : Except.ok s = (.ok (L.settle s left y
      { phase := .closing y c, sockets := sockets }) :
      Except (Fault Resource ptr) _) := by rw [settle_of_agrees h]
  rw [Loop.step_live o hlive]
  cases o with
  | socketRead bytes =>
      by_cases hguard : c.enabledRead = true ∧ bytes ≠ []
      · have hbev : (L.closingBev y c).enabledRead = true ∧ bytes ≠ [] :=
          hguard
        simp only [Loop.stepLive, stepClosing]
        rw [if_pos hbev, if_pos hguard, hsocket]
        exact congrArg Except.ok (setBev_setSocket_settle _ _ _)
      · have hbev : ¬ ((L.closingBev y c).enabledRead = true ∧ bytes ≠ []) :=
          hguard
        simp only [Loop.stepLive, stepClosing]
        rw [if_neg hbev, if_neg hguard]
        exact hidle
  | socketWrite n =>
      by_cases hguard : c.enabledWrite = true ∧ 0 < n ∧ n ≤ c.output.length
      · have hbev : (L.closingBev y c).enabledWrite = true ∧ 0 < n ∧
            n ≤ (L.closingBev y c).output.length := hguard
        simp only [Loop.stepLive, stepClosing]
        rw [if_pos hbev, if_pos hguard, hsocket]
        exact congrArg Except.ok (setBev_setSocket_settle _ _ _)
      · have hbev : ¬ ((L.closingBev y c).enabledWrite = true ∧ 0 < n ∧
            n ≤ (L.closingBev y c).output.length) := hguard
        simp only [Loop.stepLive, stepClosing]
        rw [if_neg hbev, if_neg hguard]
        exact hidle
  | report what =>
      exact congrArg Except.ok (setBev_survivor_settle hsocket)
  | deferredRead => exact hidle
  | deferredWrite =>
      by_cases hpending : c.writecbPending = true
      · rw [Loop.stepLive_deferredWrite rfl hpending]
        exact hwrite rfl hpending
      · have hnot : ¬ ((L.closingBev y c).writecb.isSome = true ∧
            (L.closingBev y c).writecbPending = true) :=
          fun hboth => hpending hboth.2
        rw [Loop.stepLive_deferredWrite_idle hnot]
        simp only [stepClosing]
        rw [if_neg hpending]
        exact hidle
  | deferredEvent =>
      by_cases hzero : c.eventcbPending = 0
      · have hsame : c.takeEventcb = c := by
          unfold Channel.takeEventcb
          rw [← hzero]
        have hnot : ¬ c.eventcbPending.Fatal := by
          rw [hzero]
          exact What.not_fatal_zero
        rw [Loop.stepLive_deferredEvent_idle hzero]
        simp only [stepClosing]
        rw [if_neg hnot, hsame]
        exact hidle
      · rw [Loop.stepLive_deferredEvent rfl hzero]
        exact hevent rfl hzero

end Survivor

end Layout
end Relay
end NetExperiment
