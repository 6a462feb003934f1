import NetExperiment.Tcp.TcpProxy.Lifetime

/-!
# Callback arguments that are used wrongly

Once too much is queued, a callback argument names the wrong side, or it is no
event context at all.  Such an argument does no harm by itself.  Here the callbacks
are followed for any arguments that the program installs, and a fault is traced to
the argument that a callback uses, and to the proxy object that is removed late.
-/

namespace NetExperiment
namespace TcpProxy

open Foundation
open Libevent
open Relay

variable {ptr : Type} [DecidableEq ptr]

/-- The callbacks and the argument of a bufferevent are among those that the
program installs. -/
structure Installed (place : Allocation ptr)
    (bev : Bufferevent DataCb EventCb (VoidPtr ptr)) : Prop where
  readcb : bev.readcb = none ∨ bev.readcb = some .evReadCb
  writecb : bev.writecb ≠ some .evReadCb
  eventcb : bev.eventcb = some .evEventCb
  cbarg : (exists w, bev.cbarg = some (.evContext (place.contextAt w))) ∨
    exists b, bev.cbarg = some (.bufferevent b)

/-- The callback that runs takes its argument for an event context. -/
def UsesContext (bev : Bufferevent DataCb EventCb (VoidPtr ptr)) :
    Occurrence -> Prop
  | .deferredRead =>
      bev.readcb = some .evReadCb ∧ bev.readcbPending = true
  | .deferredWrite =>
      bev.writecb = some .evWriteCb ∧ bev.writecbPending = true
  | .deferredEvent => bev.eventcbPending ≠ 0
  | _ => False

/-- The callback that runs uses the bufferevent that its context names as the
target.  An event that ends nothing does not get there. -/
def UsesTarget (bev : Bufferevent DataCb EventCb (VoidPtr ptr))
    (o : Occurrence) : Prop :=
  UsesContext bev o ∧ (o = .deferredEvent -> bev.eventcbPending.Fatal)

/-- An end of file or an error is handled for a bufferevent with empty buffers
whose context names the bufferevent itself as the target. -/
def EndsItself (place : Allocation ptr)
    (bev : Bufferevent DataCb EventCb (VoidPtr ptr)) (a : Action Side) : Prop :=
  a.occurrence = .deferredEvent ∧ bev.eventcbPending.Fatal ∧
    bev.cbarg = some (.evContext (place.contextAt a.target.other)) ∧
    bev.output = [] ∧ bev.input = []

/-- A callback takes a bufferevent for an event context, or uses the target of a
context when it is gone, or frees its own bufferevent twice. -/
def MisusesArgument (place : Allocation ptr) (s : World ptr) (a : Action Side) :
    Prop :=
  exists bev, s.bevs (place.bufferAt a.target) = .live bev ∧
    ((UsesContext bev a.occurrence ∧
        exists b, bev.cbarg = some (.bufferevent b)) ∨
      (UsesTarget bev a.occurrence ∧
        exists w, bev.cbarg = some (.evContext (place.contextAt w)) ∧
          ¬ (s.bevs (place.bufferAt w.other)).IsLive) ∨
      EndsItself place bev a)

/-- What must not happen in a run, whatever the callback arguments are. -/
def Act.Sound (place : Allocation ptr) (s : World ptr) : Act -> Prop
  | .io a => ¬ MisusesArgument place s a
  | .remove => ¬ RemovesLate place s

/-!
## States with any arguments
-/

/-- Every live side has callbacks and an argument of the program. -/
def AllInstalled (place : Allocation ptr) (s : World ptr) : Prop :=
  forall x bev, s.bevs (place.bufferAt x) = .live bev -> Installed place bev

/-- Library calls were made on live sides: the memory and what is live are as
before. -/
structure Keeps (place : Allocation ptr) (s s' : World ptr) : Prop where
  memory : s'.memory = s.memory
  live : forall p, (s'.bevs p).IsLive <-> (s.bevs p).IsLive
  installed : AllInstalled place s'

/-- The output buffers are as before. -/
def SameOutput (s s' : World ptr) : Prop :=
  forall p bev, s.bevs p = .live bev ->
    exists bev', s'.bevs p = .live bev' ∧ bev'.output = bev.output

section Installed

variable {place : Allocation ptr} {s : World ptr}
  {bev : Bufferevent DataCb EventCb (VoidPtr ptr)}

omit [DecidableEq ptr] in
theorem Installed.onChannel (h : Installed place bev) (f : Channel -> Channel) :
    Installed place (bev.onChannel f) :=
  ⟨h.readcb, h.writecb, h.eventcb, h.cbarg⟩

omit [DecidableEq ptr] in
theorem Keeps.trans {s1 s2 s3 : World ptr} (h12 : Keeps place s1 s2)
    (h23 : Keeps place s2 s3) : Keeps place s1 s3 where
  memory := h23.memory.trans h12.memory
  live := fun p => (h23.live p).trans (h12.live p)
  installed := h23.installed

omit [DecidableEq ptr] in
theorem Keeps.linked {s s' : World ptr} (h : Keeps place s s')
    (hlinked : Linked place s.memory) : Linked place s'.memory := by
  rw [h.memory]
  exact hlinked

omit [DecidableEq ptr] in
theorem SameOutput.trans {s1 s2 s3 : World ptr} (h12 : SameOutput s1 s2)
    (h23 : SameOutput s2 s3) : SameOutput s1 s3 := by
  intro p bev hp
  rcases h12 p bev hp with ⟨bev2, hp2, hsame2⟩
  rcases h23 p bev2 hp2 with ⟨bev3, hp3, hsame3⟩
  exact ⟨bev3, hp3, hsame3.trans hsame2⟩

theorem isLive_setBev {b : ptr} (h : (s.bevs b).IsLive) (p : ptr) :
    ((s.setBev b bev).bevs p).IsLive <-> (s.bevs p).IsLive := by
  by_cases hp : p = b
  · subst hp
    rw [Loop.setBev_bevs_self]
    exact iff_of_true (Cell.isLive_live _) h
  · rw [Loop.setBev_bevs_of_ne s bev hp]

theorem AllInstalled.setBev (h : AllInstalled place s) {x : Side}
    (hbev : Installed place bev) :
    AllInstalled place (s.setBev (place.bufferAt x) bev) := by
  intro z bev' hz
  by_cases hzx : place.bufferAt z = place.bufferAt x
  · rw [hzx, Loop.setBev_bevs_self] at hz
    cases hz
    exact hbev
  · rw [Loop.setBev_bevs_of_ne s bev hzx] at hz
    exact h z bev' hz

theorem keeps_setBev (h : AllInstalled place s) {x : Side}
    (hlive : (s.bevs (place.bufferAt x)).IsLive) (hbev : Installed place bev) :
    Keeps place s (s.setBev (place.bufferAt x) bev) where
  memory := rfl
  live := isLive_setBev hlive
  installed := h.setBev hbev

theorem AllInstalled.free (h : AllInstalled place s) (b : ptr) :
    AllInstalled place { s with bevs := Function.update s.bevs b .freed } := by
  intro z bev' hz
  have hcell : Function.update s.bevs b .freed (place.bufferAt z) =
      .live bev' := hz
  by_cases hzb : place.bufferAt z = b
  · rw [hzb, Function.update_self] at hcell
    cases hcell
  · rw [Function.update_of_ne hzb] at hcell
    exact h z bev' hcell

/-- A library call on a live side that leaves its output alone. -/
theorem keeps_modifyBev (h : AllInstalled place s) {x : Side}
    (hlive : (s.bevs (place.bufferAt x)).IsLive)
    {f : Bufferevent DataCb EventCb (VoidPtr ptr) ->
      Bufferevent DataCb EventCb (VoidPtr ptr)}
    (hf : forall bev, Installed place bev -> Installed place (f bev))
    (houtput : forall bev, (f bev).output = bev.output) :
    exists s', s.modifyBev (place.bufferAt x) f = .ok s' ∧
      Keeps place s s' ∧ SameOutput s s' := by
  rcases hlive with ⟨bev, hbev⟩
  refine ⟨_, Loop.modifyBev_live f hbev,
    keeps_setBev h ⟨bev, hbev⟩ (hf bev (h x bev hbev)), ?_⟩
  intro p bev' hp
  by_cases hpx : p = place.bufferAt x
  · subst hpx
    rw [hbev] at hp
    cases hp
    exact ⟨f bev, Loop.setBev_bevs_self _ _ _, houtput bev⟩
  · exact ⟨bev', (Loop.setBev_bevs_of_ne s _ hpx).trans hp, rfl⟩

theorem modifyBev_not_live {b : ptr} (h : ¬ (s.bevs b).IsLive)
    (f : Bufferevent DataCb EventCb (VoidPtr ptr) ->
      Bufferevent DataCb EventCb (VoidPtr ptr)) :
    exists fault, s.modifyBev b f = .error fault := by
  unfold Loop.modifyBev Heap.modify
  cases hb : s.bevs b with
  | absent => exact ⟨_, rfl⟩
  | live bev => exact absurd ⟨bev, hb⟩ h
  | freed => exact ⟨_, rfl⟩

theorem buffereventFree_not_live {b : ptr} (h : ¬ (s.bevs b).IsLive) :
    exists fault, s.buffereventFree b = .error fault := by
  unfold Loop.buffereventFree Heap.free
  cases hb : s.bevs b with
  | absent => exact ⟨_, rfl⟩
  | live bev => exact absurd ⟨bev, hb⟩ h
  | freed => exact ⟨_, rfl⟩

end Installed

/-!
## The read callback
-/

section Callbacks

variable {place : Allocation ptr} {s : World ptr} {z w : Side}
  {bev target : Bufferevent DataCb EventCb (VoidPtr ptr)}

theorem keeps_evbufferAddBuffer (h : AllInstalled place s) {t : Side}
    (hz : s.bevs (place.bufferAt z) = .live bev)
    (ht : s.bevs (place.bufferAt t) = .live target) :
    exists s' target', s.evbufferAddBuffer (place.bufferAt t)
        (place.bufferAt z) = .ok s' ∧ Keeps place s s' ∧
      s'.bevs (place.bufferAt t) = .live target' ∧
      target'.output = target.output ++ bev.input := by
  unfold Loop.evbufferAddBuffer
  rw [Heap.read_live _ hz, ok_bind, Loop.modifyBev_live _ ht, ok_bind]
  have hkeeps := keeps_setBev h ⟨target, ht⟩ ((h t target ht).onChannel
    fun c => { c with output := c.output ++ bev.input })
  rcases keeps_modifyBev hkeeps.installed ((hkeeps.live _).mpr ⟨bev, hz⟩)
    (f := Bufferevent.onChannel fun c => { c with input := [] })
    (fun _ hw => hw.onChannel _) (fun _ => rfl) with
    ⟨s', hs', hkeeps', hsame⟩
  rcases hsame (place.bufferAt t) _ (Loop.setBev_bevs_self _ _ _) with
    ⟨target', htarget', houtput⟩
  exact ⟨s', target', hs', hkeeps.trans hkeeps', htarget', houtput⟩

theorem keeps_evReadCb (maxOutput : Nat) (hlinked : Linked place s.memory)
    (h : AllInstalled place s) (hz : s.bevs (place.bufferAt z) = .live bev)
    (ht : s.bevs (place.bufferAt w.other) = .live target) :
    exists s' target', evReadCb maxOutput (place.bufferAt z)
        (some (.evContext (place.contextAt w))) s = .ok s' ∧
      Keeps place s s' ∧
      s'.bevs (place.bufferAt w.other) = .live target' ∧
      target'.output = target.output ++ bev.input := by
  unfold evReadCb defaultReadCb
  rw [derefContext_linked hlinked, ok_bind, derefProxy_linked hlinked, ok_bind,
    getTargetBuffer_linked hlinked, ok_bind, Loop.inputLength_live hz, ok_bind]
  rcases keeps_evbufferAddBuffer h hz ht with
    ⟨s1, target1, hs1, hkeeps1, htarget1, houtput1⟩
  simp only [hs1, ok_bind, Loop.outputLength_live htarget1]
  split
  · rw [getPartner_linked (hkeeps1.linked hlinked), ok_bind]
    rcases keeps_modifyBev hkeeps1.installed ⟨target1, htarget1⟩
      (f := Bufferevent.setcb (some .evReadCb) (some .evWriteCb)
        (some .evEventCb) (some (.evContext (place.contextAt w))))
      (fun _ _ => ⟨.inr rfl, by simp [Bufferevent.setcb], rfl, .inl ⟨w, rfl⟩⟩)
      (fun _ => rfl) with ⟨s2, hs2, hkeeps2, hsame2⟩
    rcases keeps_modifyBev hkeeps2.installed ((hkeeps2.live _).mpr
      ⟨target1, htarget1⟩)
      (f := Bufferevent.onChannel
        (Channel.setwatermarkWrite (maxOutput / 2) maxOutput))
      (fun _ hw => hw.onChannel _) (fun _ => rfl) with
      ⟨s3, hs3, hkeeps3, hsame3⟩
    have hkeeps13 := hkeeps1.trans (hkeeps2.trans hkeeps3)
    rcases keeps_modifyBev hkeeps3.installed ((hkeeps13.live _).mpr ⟨bev, hz⟩)
      (f := Bufferevent.onChannel (Channel.disable true false))
      (fun _ hw => hw.onChannel _) (fun _ => rfl) with
      ⟨s4, hs4, hkeeps4, hsame4⟩
    rcases (hsame2.trans (hsame3.trans hsame4)) _ _ htarget1 with
      ⟨target4, htarget4, houtput4⟩
    refine ⟨s4, target4, ?_, hkeeps13.trans hkeeps4, htarget4,
      houtput4.trans houtput1⟩
    unfold Loop.buffereventSetcb Loop.buffereventSetwatermarkWrite
      Loop.buffereventDisable
    simp only [Option.map_some, hs2, ok_bind, hs3]
    exact hs4
  · exact ⟨s1, target1, rfl, hkeeps1, htarget1, houtput1⟩

theorem evReadCb_target_gone (maxOutput : Nat)
    (hlinked : Linked place s.memory)
    (hz : s.bevs (place.bufferAt z) = .live bev)
    (ht : ¬ (s.bevs (place.bufferAt w.other)).IsLive) :
    exists fault, evReadCb maxOutput (place.bufferAt z)
      (some (.evContext (place.contextAt w))) s = .error fault := by
  rcases modifyBev_not_live ht (Bufferevent.onChannel fun c =>
    { c with output := c.output ++ bev.input }) with ⟨fault, hfault⟩
  refine ⟨fault, ?_⟩
  unfold evReadCb defaultReadCb
  rw [derefContext_linked hlinked, ok_bind, derefProxy_linked hlinked, ok_bind,
    getTargetBuffer_linked hlinked, ok_bind, Loop.inputLength_live hz, ok_bind]
  simp only [Loop.evbufferAddBuffer, Heap.read_live _ hz, ok_bind, hfault]
  rfl

/-!
## The write callbacks
-/

/-- The last call is the one that enables the target. -/
theorem exists_evWriteCb (hlinked : Linked place s.memory)
    (h : AllInstalled place s)
    (hz : (s.bevs (place.bufferAt z)).IsLive) :
    exists s', evWriteCb (place.bufferAt z)
        (some (.evContext (place.contextAt w))) s =
        s'.buffereventEnable (place.bufferAt w.other) true false ∧
      Keeps place s s' := by
  unfold evWriteCb defaultWriteCb
  rw [derefContext_linked hlinked, ok_bind, derefProxy_linked hlinked, ok_bind,
    getTargetBuffer_linked hlinked, ok_bind]
  rcases keeps_modifyBev h hz
    (f := Bufferevent.setcb (some .evReadCb) none (some .evEventCb)
      (some (.bufferevent (place.bufferAt w.other))))
    (fun _ _ => ⟨.inr rfl, by simp [Bufferevent.setcb], rfl, .inr ⟨_, rfl⟩⟩)
    (fun _ => rfl) with ⟨s1, hs1, hkeeps1, _⟩
  rcases keeps_modifyBev hkeeps1.installed ((hkeeps1.live _).mpr hz)
    (f := Bufferevent.onChannel (Channel.setwatermarkWrite 0 0))
    (fun _ hw => hw.onChannel _) (fun _ => rfl) with ⟨s2, hs2, hkeeps2, _⟩
  refine ⟨s2, ?_, hkeeps1.trans hkeeps2⟩
  unfold Loop.buffereventSetcb Loop.buffereventSetwatermarkWrite
  simp only [Option.map_some, hs1, ok_bind, hs2]

theorem keeps_evWriteCb (hlinked : Linked place s.memory) (h : AllInstalled place s)
    (hz : (s.bevs (place.bufferAt z)).IsLive)
    (ht : (s.bevs (place.bufferAt w.other)).IsLive) :
    exists s', evWriteCb (place.bufferAt z)
        (some (.evContext (place.contextAt w))) s = .ok s' ∧
      Keeps place s s' := by
  rcases exists_evWriteCb hlinked h hz with ⟨s1, hs1, hkeeps1⟩
  rcases keeps_modifyBev hkeeps1.installed ((hkeeps1.live _).mpr ht)
    (f := Bufferevent.onChannel (Channel.enable true false))
    (fun _ hw => hw.onChannel _) (fun _ => rfl) with ⟨s2, hs2, hkeeps2, _⟩
  exact ⟨s2, hs1.trans hs2, hkeeps1.trans hkeeps2⟩

theorem evWriteCb_target_gone (hlinked : Linked place s.memory)
    (h : AllInstalled place s) (hz : (s.bevs (place.bufferAt z)).IsLive)
    (ht : ¬ (s.bevs (place.bufferAt w.other)).IsLive) :
    exists fault, evWriteCb (place.bufferAt z)
      (some (.evContext (place.contextAt w))) s = .error fault := by
  rcases exists_evWriteCb hlinked h hz with ⟨s1, hs1, hkeeps1⟩
  have hgone : ¬ (s1.bevs (place.bufferAt w.other)).IsLive := fun hlive =>
    ht ((hkeeps1.live _).mp hlive)
  rcases modifyBev_not_live hgone
    (Bufferevent.onChannel (Channel.enable true false)) with ⟨fault, hfault⟩
  exact ⟨fault, hs1.trans hfault⟩

theorem installed_closeOnFinishedWritecb (h : AllInstalled place s)
    (hz : s.bevs (place.bufferAt z) = .live bev) (ctx : Option (VoidPtr ptr)) :
    exists s', closeOnFinishedWritecb (place.bufferAt z) ctx s = .ok s' ∧
      s'.memory = s.memory ∧ AllInstalled place s' := by
  unfold closeOnFinishedWritecb
  rw [Loop.outputLength_live hz, ok_bind]
  split
  · exact ⟨_, Loop.buffereventFree_live hz, rfl, h.free _⟩
  · exact ⟨s, rfl, rfl, h⟩

/-!
## The event callback
-/

theorem evEventCb_not_ending (maxOutput : Nat) (hlinked : Linked place s.memory)
    {what : What} (hwhat : ¬ what.Fatal) :
    evEventCb maxOutput (place.bufferAt z) what
      (some (.evContext (place.contextAt w))) s = .ok s := by
  unfold evEventCb defaultEventCb
  rw [derefContext_linked hlinked, ok_bind, derefProxy_linked hlinked, ok_bind,
    ok_bind, getTargetBuffer_linked hlinked, ok_bind, if_neg hwhat]
  rfl

theorem evEventCb_ending (maxOutput : Nat) (hlinked : Linked place s.memory)
    {what : What} (hwhat : what.Fatal) :
    evEventCb maxOutput (place.bufferAt z) what
        (some (.evContext (place.contextAt w))) s = (do
      let s <- closePartner maxOutput (place.bufferAt z)
        (place.bufferAt w.other) (some (.evContext (place.contextAt w))) s
      s.buffereventFree (place.bufferAt z)) := by
  unfold evEventCb defaultEventCb
  rw [derefContext_linked hlinked, ok_bind, derefProxy_linked hlinked, ok_bind,
    ok_bind, getTargetBuffer_linked hlinked, ok_bind, if_pos hwhat]

/-- An end is handled with a target that is live.  Only a bufferevent that is its
own target and has nothing left to write is freed before the last call. -/
theorem installed_evEventCb (maxOutput : Nat) (hlinked : Linked place s.memory)
    (h : AllInstalled place s) (hz : s.bevs (place.bufferAt z) = .live bev)
    (ht : (s.bevs (place.bufferAt w.other)).IsLive) {what : What}
    (hwhat : what.Fatal)
    (hleft : w.other = z -> ¬ (bev.output = [] ∧ bev.input = [])) :
    exists s', evEventCb maxOutput (place.bufferAt z) what
        (some (.evContext (place.contextAt w))) s = .ok s' ∧
      s'.memory = s.memory ∧ AllInstalled place s' := by
  rcases ht with ⟨target, ht⟩
  rcases keeps_evReadCb maxOutput hlinked h hz ht with
    ⟨s1, target1, hs1, hkeeps1, htarget1, houtput1⟩
  rw [evEventCb_ending maxOutput hlinked hwhat]
  unfold closePartner
  rw [hs1, ok_bind, Loop.outputLength_live htarget1, ok_bind]
  split
  · rcases keeps_modifyBev hkeeps1.installed ⟨target1, htarget1⟩
      (f := Bufferevent.setcb none (some .closeOnFinishedWritecb)
        (some .evEventCb) (some (.evContext (place.contextAt w))))
      (fun _ _ => ⟨.inl rfl, by simp [Bufferevent.setcb], rfl, .inl ⟨w, rfl⟩⟩)
      (fun _ => rfl) with ⟨s2, hs2, hkeeps2, _⟩
    rcases keeps_modifyBev hkeeps2.installed ((hkeeps2.live _).mpr
      ⟨target1, htarget1⟩)
      (f := Bufferevent.onChannel (Channel.disable true false))
      (fun _ hw => hw.onChannel _) (fun _ => rfl) with ⟨s3, hs3, hkeeps3, _⟩
    have hkeeps := hkeeps1.trans (hkeeps2.trans hkeeps3)
    rcases (hkeeps.live _).mpr ⟨bev, hz⟩ with ⟨bev3, hz3⟩
    refine ⟨{ s3 with
        bevs := Function.update s3.bevs (place.bufferAt z) .freed }, ?_,
      hkeeps.memory, hkeeps.installed.free _⟩
    unfold Loop.buffereventSetcb Loop.buffereventDisable
    simp only [hs2, ok_bind, hs3]
    exact Loop.buffereventFree_live hz3
  · rename_i hempty
    have hnone : target1.output = [] :=
      List.length_eq_zero_iff.mp (not_not.mp hempty)
    rw [Loop.buffereventFree_live htarget1, ok_bind]
    rcases (hkeeps1.live _).mpr ⟨bev, hz⟩ with ⟨bev1, hz1⟩
    have hne : place.bufferAt z ≠ place.bufferAt w.other := by
      intro heq
      have hsame := place.injective heq
      subst hsame
      rw [ht] at hz
      cases hz
      exact hleft rfl (List.append_eq_nil_iff.mp (houtput1.symm.trans hnone))
    have hlast : Function.update s1.bevs (place.bufferAt w.other) .freed
        (place.bufferAt z) = .live bev1 :=
      (Function.update_of_ne hne _ _).trans hz1
    exact ⟨_, Loop.buffereventFree_live hlast, hkeeps1.memory,
      (hkeeps1.installed.free _).free _⟩

theorem evEventCb_target_gone (maxOutput : Nat)
    (hlinked : Linked place s.memory)
    (hz : s.bevs (place.bufferAt z) = .live bev)
    (ht : ¬ (s.bevs (place.bufferAt w.other)).IsLive) {what : What}
    (hwhat : what.Fatal) :
    exists fault, evEventCb maxOutput (place.bufferAt z) what
      (some (.evContext (place.contextAt w))) s = .error fault := by
  rcases evReadCb_target_gone maxOutput hlinked hz ht with ⟨fault, hfault⟩
  refine ⟨fault, ?_⟩
  rw [evEventCb_ending maxOutput hlinked hwhat]
  unfold closePartner
  rw [hfault]
  rfl

/-- With nothing to write, a bufferevent that is its own target is freed as the
target and then as the bufferevent of the event. -/
theorem evEventCb_itself (maxOutput : Nat) (hlinked : Linked place s.memory)
    (h : AllInstalled place s) (hz : s.bevs (place.bufferAt z) = .live bev)
    (hempty : bev.output = [] ∧ bev.input = []) {what : What}
    (hwhat : what.Fatal) :
    exists fault, evEventCb maxOutput (place.bufferAt z) what
      (some (.evContext (place.contextAt z.other))) s = .error fault := by
  have hself : s.bevs (place.bufferAt z.other.other) = .live bev := by
    rw [Side.other_other]
    exact hz
  rcases keeps_evReadCb maxOutput hlinked h hz hself with
    ⟨s1, target1, hs1, hkeeps1, htarget1, houtput1⟩
  rw [hempty.1, hempty.2, List.append_nil] at houtput1
  have hnone : ¬ target1.output.length ≠ 0 :=
    not_not.mpr (List.length_eq_zero_iff.mpr houtput1)
  rw [evEventCb_ending maxOutput hlinked hwhat]
  unfold closePartner
  rw [hs1, ok_bind, Loop.outputLength_live htarget1, ok_bind, if_neg hnone,
    Loop.buffereventFree_live htarget1, ok_bind]
  apply buffereventFree_not_live
  have hfreed : Function.update s1.bevs (place.bufferAt z.other.other) .freed
      (place.bufferAt z) = .freed := by
    rw [Side.other_other]
    exact Function.update_self _ _ _
  show ¬ (Function.update s1.bevs _ .freed (place.bufferAt z)).IsLive
  rw [hfreed]
  exact Cell.not_isLive_freed

end Callbacks

/-!
## One step
-/

section Steps

variable {place : Allocation ptr} {s : World ptr} (maxOutput : Nat)
  {z : Side} {bev : Bufferevent DataCb EventCb (VoidPtr ptr)}
  (hlinked : Linked place s.memory) (h : AllInstalled place s)
  (hz : s.bevs (place.bufferAt z) = .live bev)

include hlinked h hz

theorem installed_deferredRead
    (hsound : ¬ MisusesArgument place s ⟨z, .deferredRead⟩) :
    exists next, s.stepLive (program maxOutput) (place.bufferAt z) bev
        .deferredRead = .ok next ∧
      next.memory = s.memory ∧ AllInstalled place next := by
  have hbev := h z bev hz
  rcases hbev.readcb with hnone | hcb
  · simp only [Loop.stepLive, hnone]
    exact ⟨s, rfl, rfl, h⟩
  · by_cases hpending : bev.readcbPending = true
    · rw [Loop.stepLive_deferredRead hcb hpending]
      have hkeeps := keeps_setBev h ⟨bev, hz⟩
        (hbev.onChannel Channel.takeReadcb)
      rcases hbev.cbarg with ⟨w, harg⟩ | hwrong
      · have hlive : (s.bevs (place.bufferAt w.other)).IsLive := by
          by_contra hgone
          exact hsound ⟨bev, hz, .inr (.inl ⟨⟨⟨hcb, hpending⟩,
            fun ho => Occurrence.noConfusion ho⟩, w, harg, hgone⟩)⟩
        rcases (hkeeps.live _).mpr hlive with ⟨target, ht⟩
        rw [harg]
        rcases keeps_evReadCb maxOutput (z := z) (hkeeps.linked hlinked)
          hkeeps.installed
          (Loop.setBev_bevs_self _ _ _) ht with ⟨next, _, hnext, hafter, _⟩
        exact ⟨next, hnext, hafter.memory, hafter.installed⟩
      · exact absurd ⟨bev, hz, .inl ⟨⟨hcb, hpending⟩, hwrong⟩⟩ hsound
    · simp only [Loop.stepLive, hcb]
      exact ⟨s, if_neg hpending, rfl, h⟩

theorem installed_deferredWrite
    (hsound : ¬ MisusesArgument place s ⟨z, .deferredWrite⟩) :
    exists next, s.stepLive (program maxOutput) (place.bufferAt z) bev
        .deferredWrite = .ok next ∧
      next.memory = s.memory ∧ AllInstalled place next := by
  have hbev := h z bev hz
  by_cases hpending : bev.writecb.isSome = true ∧ bev.writecbPending = true
  · rcases Option.isSome_iff_exists.mp hpending.1 with ⟨cb, hcb⟩
    rw [Loop.stepLive_deferredWrite hcb hpending.2]
    have hkeeps := keeps_setBev h ⟨bev, hz⟩
      (hbev.onChannel Channel.takeWritecb)
    cases cb with
    | evReadCb => exact absurd hcb hbev.writecb
    | evWriteCb =>
        rcases hbev.cbarg with ⟨w, harg⟩ | hwrong
        · have hlive : (s.bevs (place.bufferAt w.other)).IsLive := by
            by_contra hgone
            exact hsound ⟨bev, hz, .inr (.inl ⟨⟨⟨hcb, hpending.2⟩,
              fun ho => Occurrence.noConfusion ho⟩, w, harg, hgone⟩)⟩
          rw [harg]
          rcases keeps_evWriteCb (z := z) (hkeeps.linked hlinked) hkeeps.installed
            ((hkeeps.live _).mpr ⟨bev, hz⟩) ((hkeeps.live _).mpr hlive) with
            ⟨next, hnext, hafter⟩
          exact ⟨next, hnext, hafter.memory, hafter.installed⟩
        · exact absurd ⟨bev, hz, .inl ⟨⟨hcb, hpending.2⟩, hwrong⟩⟩ hsound
    | closeOnFinishedWritecb =>
        exact installed_closeOnFinishedWritecb (z := z) hkeeps.installed
          (Loop.setBev_bevs_self _ _ _) bev.cbarg
  · exact ⟨s, Loop.stepLive_deferredWrite_idle hpending, rfl, h⟩

theorem installed_deferredEvent
    (hsound : ¬ MisusesArgument place s ⟨z, .deferredEvent⟩) :
    exists next, s.stepLive (program maxOutput) (place.bufferAt z) bev
        .deferredEvent = .ok next ∧
      next.memory = s.memory ∧ AllInstalled place next := by
  have hbev := h z bev hz
  by_cases hpending : bev.eventcbPending = 0
  · exact ⟨s, Loop.stepLive_deferredEvent_idle hpending, rfl, h⟩
  · rw [Loop.stepLive_deferredEvent hbev.eventcb hpending]
    have hkeeps := keeps_setBev h ⟨bev, hz⟩
      (hbev.onChannel Channel.takeEventcb)
    rcases hbev.cbarg with ⟨w, harg⟩ | hwrong
    · rw [harg]
      by_cases hfatal : bev.eventcbPending.Fatal
      · have hlive : (s.bevs (place.bufferAt w.other)).IsLive := by
          by_contra hgone
          exact hsound ⟨bev, hz,
            .inr (.inl ⟨⟨hpending, fun _ => hfatal⟩, w, harg, hgone⟩)⟩
        refine installed_evEventCb maxOutput (z := z) (hkeeps.linked hlinked)
          hkeeps.installed
          (Loop.setBev_bevs_self _ _ _) ((hkeeps.live _).mpr hlive) hfatal ?_
        intro hself hempty
        have hown : w = z.other := by
          rw [← hself, Side.other_other]
        subst hown
        exact hsound ⟨bev, hz, .inr (.inr ⟨rfl, hfatal, harg, hempty⟩)⟩
      · exact ⟨_, evEventCb_not_ending maxOutput (z := z)
          (hkeeps.linked hlinked) hfatal, rfl,
          hkeeps.installed⟩
    · exact absurd ⟨bev, hz, .inl ⟨hpending, hwrong⟩⟩ hsound

omit hz in
theorem step_installed {a : Action Side} (hsound : ¬ MisusesArgument place s a) :
    exists next, (place.machine maxOutput).step s a = .ok next ∧
      next.memory = s.memory ∧ AllInstalled place next := by
  rcases a with ⟨z, o⟩
  by_cases hlive : (s.bevs (place.bufferAt z)).IsLive
  · rcases hlive with ⟨bev, hz⟩
    have hbev := h z bev hz
    show exists next, Loop.step (program maxOutput) s
      { target := place.bufferAt z, occurrence := o } = .ok next ∧ _
    rw [Loop.step_live o hz]
    cases o with
    | socketRead bytes =>
        simp only [Loop.stepLive]
        split
        · exact ⟨_, rfl, rfl, h.setBev (hbev.onChannel _)⟩
        · exact ⟨s, rfl, rfl, h⟩
    | socketWrite n =>
        simp only [Loop.stepLive]
        split
        · exact ⟨_, rfl, rfl, h.setBev (hbev.onChannel _)⟩
        · exact ⟨s, rfl, rfl, h⟩
    | report what => exact ⟨_, rfl, rfl, h.setBev (hbev.onChannel _)⟩
    | deferredRead => exact installed_deferredRead maxOutput hlinked h hz hsound
    | deferredWrite => exact installed_deferredWrite maxOutput hlinked h hz hsound
    | deferredEvent => exact installed_deferredEvent maxOutput hlinked h hz hsound
  · exact ⟨s, Loop.step_notLive hlive, rfl, h⟩

omit hz in
theorem step_misuse {a : Action Side} (hmisuse : MisusesArgument place s a) :
    exists fault, (place.machine maxOutput).step s a = .error fault := by
  rcases a with ⟨z, o⟩
  rcases hmisuse with ⟨bev, hz, hmisuse⟩
  have hbev := h z bev hz
  have hset : forall f : Channel -> Channel,
      Keeps place s (s.setBev (place.bufferAt z) (bev.onChannel f)) :=
    fun f => keeps_setBev h ⟨bev, hz⟩ (hbev.onChannel f)
  show exists fault, Loop.step (program maxOutput) s
    { target := place.bufferAt z, occurrence := o } = .error fault
  rw [Loop.step_live o hz]
  rcases hmisuse with
    ⟨huses, b, harg⟩ | ⟨⟨huses, hends⟩, w, harg, hgone⟩ | hitself
  · -- the argument is a bufferevent, and following it is a fault
    cases o with
    | deferredRead =>
        rw [Loop.stepLive_deferredRead huses.1 huses.2, harg]
        exact ⟨_, rfl⟩
    | deferredWrite =>
        rw [Loop.stepLive_deferredWrite huses.1 huses.2, harg]
        exact ⟨_, rfl⟩
    | deferredEvent =>
        rw [Loop.stepLive_deferredEvent hbev.eventcb huses, harg]
        exact ⟨_, rfl⟩
    | socketRead bytes => exact huses.elim
    | socketWrite n => exact huses.elim
    | report what => exact huses.elim
  · cases o with
    | deferredRead =>
        rw [Loop.stepLive_deferredRead huses.1 huses.2, harg]
        have hkeeps := hset Channel.takeReadcb
        exact evReadCb_target_gone maxOutput (hkeeps.linked hlinked)
          (Loop.setBev_bevs_self _ _ _)
          (fun hlive => hgone ((hkeeps.live _).mp hlive))
    | deferredWrite =>
        rw [Loop.stepLive_deferredWrite huses.1 huses.2, harg]
        have hkeeps := hset Channel.takeWritecb
        exact evWriteCb_target_gone (hkeeps.linked hlinked) hkeeps.installed
          ((hkeeps.live _).mpr ⟨bev, hz⟩)
          (fun hlive => hgone ((hkeeps.live _).mp hlive))
    | deferredEvent =>
        rw [Loop.stepLive_deferredEvent hbev.eventcb huses, harg]
        have hkeeps := hset Channel.takeEventcb
        exact evEventCb_target_gone maxOutput (hkeeps.linked hlinked)
          (Loop.setBev_bevs_self _ _ _)
          (fun hlive => hgone ((hkeeps.live _).mp hlive)) (hends rfl)
    | socketRead bytes => exact huses.elim
    | socketWrite n => exact huses.elim
    | report what => exact huses.elim
  · rcases hitself with ⟨ho, hfatal, harg, hempty⟩
    have hdeferred : o = .deferredEvent := ho
    subst hdeferred
    have hpending : bev.eventcbPending ≠ 0 := by
      intro hzero
      rw [hzero] at hfatal
      exact What.not_fatal_zero hfatal
    rw [Loop.stepLive_deferredEvent hbev.eventcb hpending, harg]
    have hkeeps := hset Channel.takeEventcb
    exact evEventCb_itself maxOutput (hkeeps.linked hlinked) hkeeps.installed
      (Loop.setBev_bevs_self _ _ _) hempty hfatal

end Steps

/-!
## Runs
-/

/-- The holder owns the proxy object, or everything is gone. -/
def Tracked (place : Allocation ptr) (m : Memory ptr) (s : World ptr) : Prop :=
  (s.memory = place.memoryOwned m ∧ AllInstalled place s) ∨
    (place.proxy ∉ s.memory.hmap ∧
      forall x, ¬ (s.bevs (place.bufferAt x)).IsLive)

section Runs

variable {place : Allocation ptr} {m : Memory ptr} {s : World ptr}

theorem tracked_remove (hfresh : place.proxy ∉ m.hmap)
    (hmemory : s.memory = place.memoryOwned m)
    (hsafe : ¬ RemovesLate place s) :
    exists next, remove place.proxy s = .ok next ∧ Tracked place m next := by
  have hheld : place.proxy ∈ s.memory.hmap := by
    rw [hmemory]
    exact List.mem_cons_self
  have hlive : forall x, (s.bevs (place.bufferAt x)).IsLive := by
    intro x
    by_contra hgone
    exact hsafe ⟨hheld, x, hgone⟩
  have hproxy : s.memory.proxies place.proxy = .live place.proxyObject := by
    rw [hmemory]
    exact (linked_memoryOwned place m).proxy
  rcases hlive .upstream with ⟨bOut, hout⟩
  rcases hlive .accepted with ⟨bIn, hin⟩
  have hin' : Function.update s.bevs place.bOut .freed place.bIn =
      .live bIn := (Function.update_of_ne place.distinct _ _).trans hin
  have hfirst : s.buffereventFree place.bOut = _ :=
    Loop.buffereventFree_live hout
  have hsecond : ({ s with bevs := Function.update s.bevs place.bOut .freed }
      : World ptr).buffereventFree place.bIn = .ok { s with
        bevs := Function.update (Function.update s.bevs place.bOut .freed)
          place.bIn .freed } := Loop.buffereventFree_live hin'
  have hmembers : deleteMembers place.proxy place.proxyObject { s with
      bevs := Function.update (Function.update s.bevs place.bOut .freed)
        place.bIn .freed } = _ := deleteMembers_owned (m := m) hmemory
  unfold remove
  rw [if_pos hheld, deleteProxy_linked hproxy, hfirst, ok_bind, hsecond,
    ok_bind, hmembers, ok_bind]
  refine ⟨_, rfl, .inr ⟨?_, ?_⟩⟩
  · show place.proxy ∉ (place.proxy :: m.hmap).erase place.proxy
    rw [List.erase_cons_head]
    exact hfresh
  · intro x
    have hfreed : Function.update (Function.update s.bevs place.bOut .freed)
        place.bIn .freed (place.bufferAt x) = .freed := by
      cases x with
      | accepted => exact Function.update_self _ _ _
      | upstream =>
          exact (Function.update_of_ne place.distinct.symm _ _).trans
            (Function.update_self _ _ _)
    show ¬ (Function.update (Function.update s.bevs place.bOut .freed)
      place.bIn .freed (place.bufferAt x)).IsLive
    rw [hfreed]
    exact Cell.not_isLive_freed

theorem remove_late (hmemory : s.memory = place.memoryOwned m)
    (hlate : RemovesLate place s) :
    exists fault, remove place.proxy s = .error fault := by
  rcases hlate with ⟨hheld, x, hgone⟩
  have hproxy : s.memory.proxies place.proxy = .live place.proxyObject := by
    rw [hmemory]
    exact (linked_memoryOwned place m).proxy
  unfold remove
  rw [if_pos hheld, deleteProxy_linked hproxy]
  by_cases hout : (s.bevs place.bOut).IsLive
  · have hin : ¬ (s.bevs place.bIn).IsLive := by
      cases x with
      | accepted => exact hgone
      | upstream => exact absurd hout hgone
    rcases hout with ⟨bOut, hbOut⟩
    rw [Loop.buffereventFree_live hbOut, ok_bind]
    have hin' : ¬ (Function.update s.bevs place.bOut .freed
        place.bIn).IsLive := by
      rw [Function.update_of_ne place.distinct]
      exact hin
    rcases buffereventFree_not_live (s := { s with
      bevs := Function.update s.bevs place.bOut .freed }) hin' with
      ⟨fault, hfault⟩
    rw [hfault]
    exact ⟨fault, rfl⟩
  · rcases buffereventFree_not_live hout with ⟨fault, hfault⟩
    rw [hfault]
    exact ⟨fault, rfl⟩

theorem step_tracked (hfresh : place.proxy ∉ m.hmap) {maxOutput : Nat}
    (h : Tracked place m s) {act : Act} (hsound : act.Sound place s) :
    exists next, (place.ownedMachine maxOutput).step s act = .ok next ∧
      Tracked place m next := by
  rcases h with ⟨hmemory, hinstalled⟩ | ⟨hheld, hgone⟩
  · cases act with
    | io a =>
        have hlinked : Linked place s.memory := by
          rw [hmemory]
          exact linked_memoryOwned place m
        rcases step_installed maxOutput hlinked hinstalled hsound with
          ⟨next, hstep, hsame, hnext⟩
        exact ⟨next, hstep, .inl ⟨hsame.trans hmemory, hnext⟩⟩
    | remove => exact tracked_remove hfresh hmemory hsound
  · cases act with
    | io a =>
        exact ⟨s, Loop.step_notLive (hgone a.target), .inr ⟨hheld, hgone⟩⟩
    | remove => exact ⟨s, if_neg hheld, .inr ⟨hheld, hgone⟩⟩

theorem sound_of_step {maxOutput : Nat} (h : Tracked place m s) {act : Act}
    {next : World ptr}
    (hstep : (place.ownedMachine maxOutput).step s act = .ok next) :
    act.Sound place s := by
  rcases h with ⟨hmemory, hinstalled⟩ | ⟨hheld, hgone⟩
  · cases act with
    | io a =>
        intro hmisuse
        have hlinked : Linked place s.memory := by
          rw [hmemory]
          exact linked_memoryOwned place m
        rcases step_misuse maxOutput hlinked hinstalled hmisuse with
          ⟨fault, hfault⟩
        have hsame := hfault.symm.trans hstep
        cases hsame
    | remove =>
        intro hlate
        rcases remove_late hmemory hlate with ⟨fault, hfault⟩
        have hsame := hfault.symm.trans hstep
        cases hsame
  · cases act with
    | io a =>
        intro hmisuse
        rcases hmisuse with ⟨bev, hbev, _⟩
        exact hgone a.target ⟨bev, hbev⟩
    | remove => exact fun hlate => hheld hlate.1

end Runs

theorem tracked_new {place : Allocation ptr} {setOriginDestAddr : Bool}
    {socketConnect : Int} {background s0 s1 : World ptr}
    (hfresh : place.proxy ∉ background.memory.hmap)
    (hstart : defaultAcceptCb place setOriginDestAddr socketConnect
      (newProxy place.proxy background) = .ok (true, s0))
    (happend : append place.proxy s0 = .ok s1) :
    Tracked place background.memory s1 := by
  rw [append_embed hstart hfresh happend]
  refine .inl ⟨embed_memory_owned place background Relay.State.new, ?_⟩
  intro x bev hbev
  have hcell : ((place.ownedLayout background).embed background
      Relay.State.new).bevs (place.bufferAt x) =
      (place.ownedLayout background).bevsOf Relay.State.new.phase x :=
    Layout.embed_bevs x
  rw [hcell] at hbev
  cases hbev
  exact ⟨.inr rfl, by simp [Layout.relayingBev, Endpoint.new],
    rfl, .inl ⟨x, rfl⟩⟩

/-- In every run, each bufferevent is freed at most once and not used afterwards,
and no argument is taken for what it is not, exactly if no callback misuses its
argument and the proxy object is removed only while both bufferevents are live.
As long as no read callback brings the output of the other side to the limit, an
argument is misused only when an end of file or an error is handled for a survivor
with empty buffers. -/
theorem run_ok_iff_sound {place : Allocation ptr} {setOriginDestAddr : Bool}
    {socketConnect : Int} {background s0 s1 : World ptr}
    (hfresh : place.proxy ∉ background.memory.hmap)
    (hstart : defaultAcceptCb place setOriginDestAddr socketConnect
      (newProxy place.proxy background) = .ok (true, s0))
    (happend : append place.proxy s0 = .ok s1) (acts : List Act) :
    ((exists s, (place.ownedMachine MAX_OUTPUT).run s1 acts = .ok s) <->
      (place.ownedMachine MAX_OUTPUT).Along (Act.Sound place) s1 acts) ∧
    ((place.ownedMachine MAX_OUTPUT).Along (Act.Unchoking place) s1 acts ->
      ((exists s, (place.ownedMachine MAX_OUTPUT).run s1 acts = .ok s) <->
        (place.ownedMachine MAX_OUTPUT).Along (Act.Safe place) s1 acts)) := by
  refine ⟨?_, fun hflow => run_ok_iff_safe hfresh hstart happend hflow⟩
  refine Machine.run_ok_iff_along
    (I := Tracked place background.memory) ?_ ?_
    (tracked_new hfresh hstart happend)
  · intro s act hs hsound
    exact step_tracked hfresh hs hsound
  · intro s act next hs hstep
    exact sound_of_step hs hstep

instance (place : Allocation ptr) (s : World ptr) (act : Act) :
    Decidable (act.Unchoking place s) :=
  match act with
  | .io a => inferInstanceAs (Decidable (¬ Backpressure place s a))
  | .remove => .isTrue trivial

/-- The proxy object is removed while the byte is queued. -/
theorem sound_of_removal :
    exists s0 s1, defaultAcceptCb localPlace true 0
        (newProxy localPlace.proxy World.empty) = .ok (true, s0) ∧
      append localPlace.proxy s0 = .ok s1 ∧
      (localPlace.ownedMachine MAX_OUTPUT).Along (Act.Sound localPlace) s1
        [.io ⟨.accepted, .socketRead [65]⟩, .io ⟨.accepted, .deferredRead⟩,
          .remove] ∧
      (localPlace.ownedMachine MAX_OUTPUT).Along (Act.Safe localPlace) s1
        [.io ⟨.accepted, .socketRead [65]⟩, .io ⟨.accepted, .deferredRead⟩,
          .remove] := by
  have hcheck : ownedCheck [] (okWith fun s1 => decide
      ((localPlace.ownedMachine MAX_OUTPUT).Along (Act.Unchoking localPlace) s1
        [.io ⟨.accepted, .socketRead [65]⟩, .io ⟨.accepted, .deferredRead⟩,
          .remove])) = true := by
    decide +kernel
  have hrun : ownedCheck [.io ⟨.accepted, .socketRead [65]⟩,
      .io ⟨.accepted, .deferredRead⟩, .remove] (okWith fun _ => true) =
      true := by
    decide +kernel
  rcases exists_of_ownedCheck hcheck with ⟨s0, s1, hstart, happend, hok⟩
  rcases exists_of_ownedCheck hrun with ⟨s0', s1', hstart', happend', hok'⟩
  rw [hstart] at hstart'
  cases hstart'
  rw [happend] at happend'
  cases happend'
  rcases exists_of_okWith hok with ⟨_, hnil, hflow⟩
  cases hnil
  rcases exists_of_okWith hok' with ⟨s, hs, _⟩
  rcases run_ok_iff_sound (by decide) hstart happend
    [.io ⟨.accepted, .socketRead [65]⟩, .io ⟨.accepted, .deferredRead⟩,
      .remove] with ⟨hsound, hsafe⟩
  exact ⟨s0, s1, hstart, happend, hsound.mp ⟨s, hs⟩,
    (hsafe (of_decide_eq_true hflow)).mp ⟨s, hs⟩⟩

end TcpProxy
end NetExperiment
