import NetExperiment.Libevent.Loop

/-!
# Rules for callbacks

What a few named bufferevents look like is said by one predicate for each name.
A callback is checked one library call at a time: each call on one bufferevent
changes the predicate of that name, and leaves those of the others alone.  Only
results of computations that raise no fault are looked at.

A step of the loop is then checked by checking the callbacks that it can run.
-/

namespace NetExperiment
namespace Libevent

open Foundation

def Ensures {fault alpha : Type _} (x : Except fault alpha)
    (Q : alpha -> Prop) : Prop :=
  forall a, x = .ok a -> Q a

namespace Ensures

variable {fault alpha beta : Type _}

theorem ok {Q : alpha -> Prop} {a : alpha} (h : Q a) :
    Ensures (.ok a : Except fault alpha) Q := by
  intro b hb
  cases hb
  exact h

theorem error (e : fault) (Q : alpha -> Prop) :
    Ensures (.error e : Except fault alpha) Q := by
  intro b hb
  cases hb

theorem bind {x : Except fault alpha} {f : alpha -> Except fault beta}
    {Q : alpha -> Prop} {R : beta -> Prop} (hx : Ensures x Q)
    (hf : forall a, Q a -> Ensures (f a) R) : Ensures (x >>= f) R := by
  intro b hb
  cases x with
  | error e => cases hb
  | ok a => exact hf a (hx a rfl) b hb

theorem mono {x : Except fault alpha} {Q R : alpha -> Prop}
    (hx : Ensures x Q) (h : forall a, Q a -> R a) : Ensures x R :=
  fun a ha => h a (hx a ha)

end Ensures

def Quieter (f : Channel -> Channel) : Prop :=
  forall c, c.enabledRead = false -> (f c).enabledRead = false

theorem quieter_and {f : Channel -> Channel} (g : Channel -> Bool)
    (h : forall c, (f c).enabledRead = (c.enabledRead && g c)) :
    Quieter f := by
  intro c hc
  rw [h c, hc, Bool.false_and]

namespace Loop

variable {name ptr dataCb eventCb arg memory : Type} [DecidableEq ptr]

/-- The named bufferevents are live and as described, and the rest of the memory
is given. -/
structure Holds (place : name -> ptr) (m : memory)
    (H : name -> Bufferevent dataCb eventCb arg -> Prop)
    (s : Loop ptr dataCb eventCb arg memory) : Prop where
  memory : s.memory = m
  live : forall x, exists bev, s.bevs (place x) = .live bev ∧ H x bev

/-- A description that does not look at the buffers, and that may say that
reading is off. -/
def Steady (H : name -> Bufferevent dataCb eventCb arg -> Prop) : Prop :=
  forall x bev (f : Channel -> Channel), Quieter f -> H x bev ->
    H x (bev.onChannel f)

section Rules

variable {place : name -> ptr} (hplace : Function.Injective place)
  {m : memory} {H H' : name -> Bufferevent dataCb eventCb arg -> Prop}
  {s : Loop ptr dataCb eventCb arg memory}

include hplace in
theorem Holds.setBev (h : Holds place m H s) {x : name}
    {bev : Bufferevent dataCb eventCb arg} (hself : H' x bev)
    (hothers : forall z, z ≠ x -> forall bev, H z bev -> H' z bev) :
    Holds place m H' (s.setBev (place x) bev) := by
  refine ⟨h.memory, ?_⟩
  intro z
  by_cases hz : z = x
  · subst hz
    exact ⟨bev, setBev_bevs_self s (place z) bev, hself⟩
  · rcases h.live z with ⟨other, hlive, hother⟩
    refine ⟨other, ?_, hothers z hz other hother⟩
    refine Eq.trans ?_ hlive
    exact Function.update_of_ne (fun heq => hz (hplace heq)) _ _

theorem Holds.setSocket (h : Holds place m H s) (b : ptr) (socket : Socket) :
    Holds place m H (s.setSocket b socket) :=
  ⟨h.memory, h.live⟩

include hplace in
theorem Holds.modifyBev (h : Holds place m H s) {x : name}
    {f : Bufferevent dataCb eventCb arg -> Bufferevent dataCb eventCb arg}
    (hself : forall bev, H x bev -> H' x (f bev))
    (hothers : forall z, z ≠ x -> forall bev, H z bev -> H' z bev) :
    Ensures (s.modifyBev (place x) f) (Holds place m H') := by
  rcases h.live x with ⟨bev, hlive, hbev⟩
  rw [modifyBev_live f hlive]
  exact .ok (h.setBev hplace (hself bev hbev) hothers)

include hplace in
theorem Holds.onChannel (h : Holds place m H s) (hsteady : Steady H)
    (x : name) {f : Channel -> Channel} (hf : Quieter f) :
    Ensures (s.modifyBev (place x) (Bufferevent.onChannel f))
      (Holds place m H) :=
  h.modifyBev hplace (fun bev hbev => hsteady x bev f hf hbev)
    (fun _ _ _ hbev => hbev)

include hplace in
theorem Holds.evbufferAddBuffer (h : Holds place m H s)
    (hsteady : Steady H) (dst src : name) :
    Ensures (s.evbufferAddBuffer (place dst) (place src))
      (Holds place m H) := by
  unfold Loop.evbufferAddBuffer
  refine Ensures.bind (Q := fun _ => True) (fun _ _ => trivial) ?_
  intro bev _
  refine Ensures.bind (Q := Holds place m H) ?_ ?_
  · apply h.onChannel hplace hsteady dst
    exact fun _ hc => hc
  · intro t ht
    apply ht.onChannel hplace hsteady src
    exact fun _ hc => hc

include hplace in
/-- A step is checked by checking the callbacks that it can run.  Each is run
with the callback slots as they are before the step. -/
theorem Holds.step {prog : Program ptr dataCb eventCb arg memory}
    (h : Holds place m H s) (hsteady : Steady H) {x : name}
    {o : Occurrence} {Q : Loop ptr dataCb eventCb arg memory -> Prop}
    (hkeep : forall t, Holds place m H t -> Q t)
    (hread : forall bev cb t, H x bev -> bev.readcb = some cb ->
      Holds place m H t -> Ensures (prog.data cb (place x) bev.cbarg t) Q)
    (hwrite : forall bev cb t, H x bev -> bev.writecb = some cb ->
      Holds place m H t -> Ensures (prog.data cb (place x) bev.cbarg t) Q)
    (hevent : forall bev cb t, H x bev -> bev.eventcb = some cb ->
      o = .deferredEvent -> s.bevs (place x) = .live bev ->
      Holds place m H t ->
      Ensures (prog.event cb (place x) bev.eventcbPending bev.cbarg t) Q) :
    Ensures (step prog s { target := place x, occurrence := o }) Q := by
  rcases h.live x with ⟨bev, hlive, hbev⟩
  have htake : forall f, Quieter f ->
      Holds place m H (s.setBev (place x) (bev.onChannel f)) :=
    fun f hf => h.setBev hplace (hsteady x bev f hf hbev)
      (fun _ _ _ hother => hother)
  have hidle : Ensures (.ok s : Except (Fault Resource ptr) _) Q :=
    .ok (hkeep s h)
  rw [step_live o hlive]
  cases o with
  | socketRead bytes =>
      simp only [stepLive]
      split
      · apply Ensures.ok
        apply hkeep
        apply Holds.setSocket
        exact htake (Channel.socketRead bev.readcb.isSome bytes)
          (fun _ hc => hc)
      · exact hidle
  | socketWrite n =>
      simp only [stepLive]
      split
      · apply Ensures.ok
        apply hkeep
        apply Holds.setSocket
        exact htake (Channel.socketWrite bev.writecb.isSome n)
          (fun _ hc => hc)
      · exact hidle
  | report what =>
      exact .ok (hkeep _ (htake _ (quieter_and _ fun _ => rfl)))
  | deferredRead =>
      simp only [stepLive]
      split
      · rename_i cb hcb
        split
        · exact hread bev cb _ hbev hcb
            (htake Channel.takeReadcb (fun _ hc => hc))
        · exact hidle
      · exact hidle
  | deferredWrite =>
      simp only [stepLive]
      split
      · rename_i cb hcb
        split
        · exact hwrite bev cb _ hbev hcb
            (htake Channel.takeWritecb (fun _ hc => hc))
        · exact hidle
      · exact hidle
  | deferredEvent =>
      simp only [stepLive]
      split
      · rename_i cb hcb
        split
        · exact hevent bev cb _ hbev hcb rfl hlive
            (htake Channel.takeEventcb (fun _ hc => hc))
        · exact hidle
      · exact hidle

end Rules
end Loop
end Libevent
end NetExperiment
