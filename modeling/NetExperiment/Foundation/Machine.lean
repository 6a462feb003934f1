import Mathlib.Logic.Basic
import Mathlib.Order.Notation

/-!
# Machines with faults

## Runs

A machine takes one action at a time.  A step either reaches the next state or
stops with a fault, which stands for behaviour after which nothing is promised
any more.  An action that is not possible in a state is modelled by a step that
leaves the state alone, so every list of actions is a run.

## Conditions along a run

A condition on single steps, read at the state before the step, is lifted to
whole runs.  The rules below turn a statement about one step into a statement
about every run: invariants, absence of faults, and the exact condition under
which a property holds in every state a run reaches.
-/

namespace NetExperiment
namespace Foundation

structure Machine (state action fault : Type _) where
  step : state -> action -> Except fault state

namespace Machine

variable {state action fault : Type _}

def run (M : Machine state action fault) :
    state -> List action -> Except fault state
  | s, [] => .ok s
  | s, a :: rest =>
      match M.step s a with
      | .error e => .error e
      | .ok next => M.run next rest

/-- Every step of the run meets the condition at the state before it. -/
def Along (M : Machine state action fault) (C : state -> action -> Prop) :
    state -> List action -> Prop
  | _, [] => True
  | s, a :: rest =>
      C s a ∧ forall next, M.step s a = .ok next -> M.Along C next rest

/-- The run raises no fault, and the property holds in every state it reaches,
the first one included. -/
def Always (M : Machine state action fault) (P : state -> Prop) :
    state -> List action -> Prop
  | s, [] => P s
  | s, a :: rest =>
      P s ∧ exists next, M.step s a = .ok next ∧ M.Always P next rest

def comap {action' : Type _} (M : Machine state action fault)
    (f : action' -> action) : Machine state action' fault where
  step := fun s a => M.step s (f a)

theorem run_cons_of_ok {M : Machine state action fault} {s next : state}
    {a : action} (rest : List action) (h : M.step s a = .ok next) :
    M.run s (a :: rest) = M.run next rest := by
  simp [run, h]

theorem run_cons_ok {M : Machine state action fault} {s last : state}
    {a : action} {rest : List action}
    (h : M.run s (a :: rest) = .ok last) :
    exists next, M.step s a = .ok next ∧ M.run next rest = .ok last := by
  unfold run at h
  cases hstep : M.step s a with
  | error e =>
      rw [hstep] at h
      cases h
  | ok next =>
      rw [hstep] at h
      exact ⟨next, rfl, h⟩

theorem run_append {M : Machine state action fault} {s mid : state}
    {front : List action} (h : M.run s front = .ok mid) (rest : List action) :
    M.run s (front ++ rest) = M.run mid rest := by
  induction front generalizing s with
  | nil =>
      cases h
      rfl
  | cons a front ih =>
      rcases run_cons_ok h with ⟨next, hstep, hfront⟩
      rw [List.cons_append, run_cons_of_ok _ hstep]
      exact ih hfront

theorem run_append_ok {M : Machine state action fault} {s last : state}
    {front rest : List action} (h : M.run s (front ++ rest) = .ok last) :
    exists mid, M.run s front = .ok mid ∧ M.run mid rest = .ok last := by
  induction front generalizing s with
  | nil => exact ⟨s, rfl, h⟩
  | cons a front ih =>
      rcases run_cons_ok h with ⟨next, hstep, hrest⟩
      rcases ih hrest with ⟨mid, hfront, hlast⟩
      exact ⟨mid, by rw [run_cons_of_ok front hstep, hfront], hlast⟩

/-!
## Invariant rules
-/

theorem along_of_forall_mem {M : Machine state action fault}
    {C : state -> action -> Prop} {acts : List action}
    (h : forall s a, a ∈ acts -> C s a) (s : state) : M.Along C s acts := by
  induction acts generalizing s with
  | nil => trivial
  | cons a rest ih =>
      refine ⟨h s a List.mem_cons_self, ?_⟩
      intro next _
      exact ih (fun t b hb => h t b (List.mem_cons_of_mem a hb)) next

theorem along_append {M : Machine state action fault}
    {C : state -> action -> Prop} {s mid : state} {front rest : List action}
    (h : M.Along C s (front ++ rest)) (hmid : M.run s front = .ok mid) :
    M.Along C mid rest := by
  induction front generalizing s with
  | nil =>
      cases hmid
      exact h
  | cons a front ih =>
      rcases run_cons_ok hmid with ⟨next, hnext, hfront⟩
      exact ih (h.2 next hnext) hfront

theorem along_front {M : Machine state action fault}
    {C : state -> action -> Prop} {s : state} {front rest : List action}
    (h : M.Along C s (front ++ rest)) : M.Along C s front := by
  induction front generalizing s with
  | nil => trivial
  | cons a front ih =>
      exact ⟨h.1, fun next hnext => ih (h.2 next hnext)⟩

theorem along_and {M : Machine state action fault}
    {C D : state -> action -> Prop} {s : state} {acts : List action}
    (hC : M.Along C s acts) (hD : M.Along D s acts) :
    M.Along (fun s a => C s a ∧ D s a) s acts := by
  induction acts generalizing s with
  | nil => trivial
  | cons a rest ih =>
      refine ⟨⟨hC.1, hD.1⟩, ?_⟩
      intro next hnext
      exact ih (hC.2 next hnext) (hD.2 next hnext)

/-- Conditions that agree on the steps that meet a third one agree along every
run whose steps all meet it. -/
theorem along_congr {M : Machine state action fault}
    {A C D : state -> action -> Prop}
    (h : forall s a, A s a -> (C s a <-> D s a))
    {s : state} {acts : List action} (halong : M.Along A s acts) :
    M.Along C s acts <-> M.Along D s acts := by
  induction acts generalizing s with
  | nil => exact Iff.rfl
  | cons a rest ih =>
      constructor
      · intro hC
        refine ⟨(h s a halong.1).mp hC.1, ?_⟩
        intro next hstep
        exact (ih (halong.2 next hstep)).mp (hC.2 next hstep)
      · intro hD
        refine ⟨(h s a halong.1).mpr hD.1, ?_⟩
        intro next hstep
        exact (ih (halong.2 next hstep)).mpr (hD.2 next hstep)

/-- An invariant of the steps that meet a condition holds at the end of every
run whose steps all meet it. -/
theorem run_invariant {M : Machine state action fault}
    {I : state -> Prop} {C : state -> action -> Prop}
    (hstep : forall s a next, I s -> C s a -> M.step s a = .ok next ->
      I next)
    {s last : state} {acts : List action}
    (hinit : I s) (halong : M.Along C s acts)
    (hrun : M.run s acts = .ok last) : I last := by
  induction acts generalizing s with
  | nil =>
      cases hrun
      exact hinit
  | cons a rest ih =>
      rcases run_cons_ok hrun with ⟨next, hnext, hrest⟩
      exact ih (hstep s a next hinit halong.1 hnext)
        (halong.2 next hnext) hrest

theorem along_invariant {M : Machine state action fault}
    {I : state -> Prop} {C : state -> action -> Prop}
    (hstep : forall s a next, I s -> C s a -> M.step s a = .ok next ->
      I next)
    {s : state} {acts : List action} (hinit : I s) (halong : M.Along C s acts) :
    M.Along (fun s a => I s ∧ C s a) s acts := by
  induction acts generalizing s with
  | nil => trivial
  | cons a rest ih =>
      refine ⟨⟨hinit, halong.1⟩, ?_⟩
      intro next hnext
      exact ih (hstep s a next hinit halong.1 hnext) (halong.2 next hnext)

theorem run_preserves {M : Machine state action fault} {I : state -> Prop}
    (hstep : forall s a next, I s -> M.step s a = .ok next -> I next)
    {s last : state} {acts : List action} (hinit : I s)
    (hrun : M.run s acts = .ok last) : I last := by
  refine run_invariant (C := fun _ _ => True) ?_ hinit
    (along_of_forall_mem (fun _ _ _ => trivial) s) hrun
  intro s a next hs _ hnext
  exact hstep s a next hs hnext

theorem run_ok_of_along {M : Machine state action fault}
    {I : state -> Prop} {C : state -> action -> Prop}
    (hstep : forall s a, I s -> C s a ->
      exists next, M.step s a = .ok next ∧ I next)
    {s : state} {acts : List action} (hinit : I s) (halong : M.Along C s acts) :
    exists last, M.run s acts = .ok last ∧ I last := by
  induction acts generalizing s with
  | nil => exact ⟨s, rfl, hinit⟩
  | cons a rest ih =>
      rcases hstep s a hinit halong.1 with ⟨next, hnext, hI⟩
      rcases ih hI (halong.2 next hnext) with ⟨last, hrest, hlast⟩
      exact ⟨last, by rw [run_cons_of_ok rest hnext, hrest], hlast⟩

theorem always_of_along {M : Machine state action fault}
    {I P : state -> Prop} {C : state -> action -> Prop}
    (hinv : forall s, I s -> P s)
    (hstep : forall s a, I s -> C s a ->
      exists next, M.step s a = .ok next ∧ I next)
    {s : state} {acts : List action} (hinit : I s) (halong : M.Along C s acts) :
    M.Always P s acts := by
  induction acts generalizing s with
  | nil => exact hinv s hinit
  | cons a rest ih =>
      rcases hstep s a hinit halong.1 with ⟨next, hnext, hI⟩
      exact ⟨hinv s hinit, next, hnext, ih hI (halong.2 next hnext)⟩

theorem always_of_step {M : Machine state action fault}
    {I P : state -> Prop} (hinv : forall s, I s -> P s)
    (hstep : forall s a, I s -> exists next, M.step s a = .ok next ∧ I next)
    {s : state} (hinit : I s) (acts : List action) : M.Always P s acts :=
  always_of_along (C := fun _ _ => True) hinv
    (fun s a hs _ => hstep s a hs) hinit
    (along_of_forall_mem (fun _ _ _ => trivial) s)

theorem Always.last {M : Machine state action fault} {P : state -> Prop}
    {s last : state} {acts : List action} (h : M.Always P s acts)
    (hrun : M.run s acts = .ok last) : P last := by
  induction acts generalizing s with
  | nil =>
      cases hrun
      exact h
  | cons a rest ih =>
      rcases h with ⟨_, next, hnext, hrest⟩
      rw [run_cons_of_ok rest hnext] at hrun
      exact ih hrest hrun

/-- Steps that each leave less to do come to an end. -/
theorem length_le_of_along {M : Machine state action fault}
    {I : state -> Prop} {C : state -> action -> Prop} (work : state -> Nat)
    (hstep : forall s a next, I s -> C s a -> M.step s a = .ok next ->
      I next ∧ work next < work s)
    {s last : state} {acts : List action} (hinit : I s)
    (halong : M.Along C s acts) (hrun : M.run s acts = .ok last) :
    acts.length ≤ work s := by
  induction acts generalizing s with
  | nil => exact Nat.zero_le _
  | cons a rest ih =>
      rcases run_cons_ok hrun with ⟨next, hnext, hrest⟩
      rcases hstep s a next hinit halong.1 hnext with ⟨hI, hless⟩
      have hlength := ih hI (halong.2 next hnext) hrest
      rw [List.length_cons]
      omega

/-!
## Exact conditions

When one step from a good state keeps the property exactly if it meets the
condition, a whole run keeps the property exactly if all its steps meet it.
-/

theorem Always.head {M : Machine state action fault} {P : state -> Prop}
    {s : state} {acts : List action} (h : M.Always P s acts) : P s := by
  cases acts with
  | nil => exact h
  | cons a rest => exact h.1

/-- The rule for runs whose steps are known to meet a further assumption. -/
theorem always_iff_along_of {M : Machine state action fault}
    {I P : state -> Prop} {A C : state -> action -> Prop}
    (hgood : forall s a, I s -> P s -> A s a -> C s a ->
      exists next, M.step s a = .ok next ∧ I next ∧ P next)
    (hbad : forall s a next, I s -> P s -> A s a -> M.step s a = .ok next ->
      P next -> C s a)
    {s : state} {acts : List action} (hinv : I s) (hP : P s)
    (hassume : M.Along A s acts) :
    M.Always P s acts <-> M.Along C s acts := by
  induction acts generalizing s with
  | nil =>
      exact ⟨fun _ => trivial, fun _ => hP⟩
  | cons a rest ih =>
      rcases hassume with ⟨hA, hrestA⟩
      constructor
      · intro h
        rcases h with ⟨_, next, hstep, hrest⟩
        have hC : C s a := hbad s a next hinv hP hA hstep hrest.head
        refine ⟨hC, ?_⟩
        intro other hother
        rcases hgood s a hinv hP hA hC with ⟨reached, hreached, hinv', hP'⟩
        rw [hreached] at hother hstep
        cases hother
        cases hstep
        exact (ih hinv' hP' (hrestA next hreached)).mp hrest
      · intro h
        rcases hgood s a hinv hP hA h.1 with ⟨next, hstep, hinv', hP'⟩
        exact ⟨hP, next, hstep,
          (ih hinv' hP' (hrestA next hstep)).mpr (h.2 next hstep)⟩

theorem always_iff_along {M : Machine state action fault}
    {I P : state -> Prop} {C : state -> action -> Prop}
    (hgood : forall s a, I s -> P s -> C s a ->
      exists next, M.step s a = .ok next ∧ I next ∧ P next)
    (hbad : forall s a next, I s -> P s -> M.step s a = .ok next ->
      P next -> C s a)
    {s : state} {acts : List action} (hinv : I s) (hP : P s) :
    M.Always P s acts <-> M.Along C s acts := by
  refine always_iff_along_of (I := I) (A := fun _ _ => True) ?_ ?_ hinv hP
    (along_of_forall_mem (fun _ _ _ => trivial) s)
  · intro t a hI hPt _ hC
    exact hgood t a hI hPt hC
  · intro t a next hI hPt _ hstep hnext
    exact hbad t a next hI hPt hstep hnext

theorem always_true_iff {M : Machine state action fault} {s : state}
    {acts : List action} :
    M.Always (fun _ => True) s acts <-> exists last, M.run s acts = .ok last := by
  induction acts generalizing s with
  | nil => exact ⟨fun _ => ⟨s, rfl⟩, fun _ => trivial⟩
  | cons a rest ih =>
      constructor
      · intro h
        rcases h with ⟨_, next, hstep, hrest⟩
        rcases ih.mp hrest with ⟨last, hlast⟩
        exact ⟨last, by rw [run_cons_of_ok rest hstep, hlast]⟩
      · intro h
        rcases h with ⟨last, hrun⟩
        rcases run_cons_ok hrun with ⟨next, hstep, hrest⟩
        exact ⟨trivial, next, hstep, ih.mpr ⟨last, hrest⟩⟩

theorem run_ok_iff_along_of {M : Machine state action fault}
    {I : state -> Prop} {A C : state -> action -> Prop}
    (hgood : forall s a, I s -> A s a -> C s a ->
      exists next, M.step s a = .ok next ∧ I next)
    (hbad : forall s a next, I s -> A s a -> M.step s a = .ok next -> C s a)
    {s : state} {acts : List action} (hinv : I s)
    (hassume : M.Along A s acts) :
    (exists last, M.run s acts = .ok last) <-> M.Along C s acts := by
  rw [← always_true_iff]
  refine always_iff_along_of (I := I) ?_ ?_ hinv trivial hassume
  · intro t a hI _ hA hC
    rcases hgood t a hI hA hC with ⟨next, hstep, hnext⟩
    exact ⟨next, hstep, hnext, trivial⟩
  · intro t a next hI _ hA hstep _
    exact hbad t a next hI hA hstep

theorem run_ok_iff_along {M : Machine state action fault}
    {I : state -> Prop} {C : state -> action -> Prop}
    (hgood : forall s a, I s -> C s a ->
      exists next, M.step s a = .ok next ∧ I next)
    (hbad : forall s a next, I s -> M.step s a = .ok next -> C s a)
    {s : state} {acts : List action} (hinv : I s) :
    (exists last, M.run s acts = .ok last) <-> M.Along C s acts := by
  refine run_ok_iff_along_of (I := I) (A := fun _ _ => True) ?_ ?_ hinv
    (along_of_forall_mem (fun _ _ _ => trivial) s)
  · intro t a hI _ hC
    exact hgood t a hI hC
  · intro t a next hI _ hstep
    exact hbad t a next hI hstep

/-!
## Simulation by an embedding

The concrete machine runs on images of abstract states.  Every concrete step
that raises no fault is the image of the abstract step with the same action.
-/

/-- One concrete step from an embedded state is the embedded abstract step. -/
def Simulates {concrete abstract cfault afault : Type _}
    (M : Machine concrete action cfault)
    (N : Machine abstract action afault)
    (embed : abstract -> concrete) : Prop :=
  forall r a s, M.step (embed r) a = .ok s ->
    exists next, N.step r a = .ok next ∧ s = embed next

theorem Simulates.run_preserves {concrete abstract cfault afault : Type _}
    {M : Machine concrete action cfault}
    {N : Machine abstract action afault}
    {embed : abstract -> concrete} (h : Simulates M N embed)
    {I : abstract -> Prop}
    (hstep : forall r a next, I r -> N.step r a = .ok next -> I next)
    {r : abstract} {s : concrete} {acts : List action} (hinit : I r)
    (hrun : M.run (embed r) acts = .ok s) :
    exists last, s = embed last ∧ I last := by
  refine Machine.run_preserves (I := fun s => exists r, s = embed r ∧ I r)
    ?_ ⟨r, rfl, hinit⟩ hrun
  intro s a s' hs hs'
  rcases hs with ⟨r, rfl, hr⟩
  rcases h r a s' hs' with ⟨next, hnext, rfl⟩
  exact ⟨next, rfl, hstep r a next hr hnext⟩

/-!
## Projections

A machine that runs many parts at once is looked at through one of them.  Some
of its actions belong to the part and are steps of the part's own machine; the
others leave the part alone.
-/

theorem filterMap_filter_own {action' : Type _} (own : action -> Option action')
    (acts : List action) :
    (acts.filter fun a => (own a).isSome).filterMap own =
      acts.filterMap own := by
  rw [List.filterMap_filter]
  congr 1
  funext a
  cases own a <;> rfl

/-- The actions of a run that belong to a part, each as an action of the part.
What an action is for the part may depend on the state. -/
def share {action' : Type _} (M : Machine state action fault)
    (own : state -> action -> Option action') :
    state -> List action -> List action'
  | _, [] => []
  | s, a :: rest =>
      match M.step s a with
      | .error _ => []
      | .ok next => (own s a).toList ++ M.share own next rest

theorem share_cons_of_ok {action' : Type _} {M : Machine state action fault}
    {s next : state} {a : action} (own : state -> action -> Option action')
    (rest : List action) (h : M.step s a = .ok next) :
    M.share own s (a :: rest) = (own s a).toList ++ M.share own next rest := by
  simp [share, h]

theorem share_const {action' : Type _} {M : Machine state action fault}
    {s last : state} {acts : List action} (own : action -> Option action')
    (hrun : M.run s acts = .ok last) :
    M.share (fun _ => own) s acts = acts.filterMap own := by
  induction acts generalizing s with
  | nil => rfl
  | cons a rest ih =>
      rcases run_cons_ok hrun with ⟨next, hnext, hrest⟩
      rw [share_cons_of_ok _ rest hnext, ih hrest]
      cases ha : own a with
      | none => rw [List.filterMap_cons_none ha, Option.toList_none,
          List.nil_append]
      | some b => rw [List.filterMap_cons_some ha, Option.toList_some,
          List.singleton_append]

/-- A run of the whole is, for the part, the run of its share. -/
theorem run_share {state' action' fault' : Type _}
    {M : Machine state action fault} {N : Machine state' action' fault'}
    {R : state' -> state -> Prop} {C : state -> action -> Prop}
    (own : state -> action -> Option action')
    (hstep : forall r s a, R r s -> C s a ->
      exists s' r', M.step s a = .ok s' ∧
        N.run r (own s a).toList = .ok r' ∧ R r' s')
    {r : state'} {s : state} {acts : List action} (hinit : R r s)
    (halong : M.Along C s acts) :
    exists s' r', M.run s acts = .ok s' ∧
      N.run r (M.share own s acts) = .ok r' ∧ R r' s' := by
  induction acts generalizing r s with
  | nil => exact ⟨s, r, rfl, rfl, hinit⟩
  | cons a rest ih =>
      rcases hstep r s a hinit halong.1 with
        ⟨next, next', hnext, hnext', hR⟩
      rcases ih hR (halong.2 next hnext) with ⟨s', r', hs', hr', hlast⟩
      refine ⟨s', r', ?_, ?_, hlast⟩
      · rw [run_cons_of_ok rest hnext, hs']
      · rw [share_cons_of_ok own rest hnext, run_append hnext', hr']

/-- The case in which the actions of a part are known beforehand. -/
theorem run_project {state' action' fault' : Type _}
    {M : Machine state action fault} {N : Machine state' action' fault'}
    {R : state' -> state -> Prop} {C : state -> action -> Prop}
    (own : action -> Option action')
    (hown : forall r s a b, R r s -> C s a -> own a = some b ->
      exists s' r', M.step s a = .ok s' ∧ N.step r b = .ok r' ∧ R r' s')
    (hother : forall r s a, R r s -> C s a -> own a = none ->
      exists s', M.step s a = .ok s' ∧ R r s')
    {r : state'} {s : state} {acts : List action} (hinit : R r s)
    (halong : M.Along C s acts) :
    exists s' r', M.run s acts = .ok s' ∧
      N.run r (acts.filterMap own) = .ok r' ∧ R r' s' := by
  have hstep : forall r s a, R r s -> C s a ->
      exists s' r', M.step s a = .ok s' ∧
        N.run r (own a).toList = .ok r' ∧ R r' s' := by
    intro r s a hR hC
    cases ha : own a with
    | none =>
        rcases hother r s a hR hC ha with ⟨s', hs', hR'⟩
        exact ⟨s', r, hs', rfl, hR'⟩
    | some b =>
        rcases hown r s a b hR hC ha with ⟨s', r', hs', hr', hR'⟩
        exact ⟨s', r', hs', run_cons_of_ok [] hr', hR'⟩
  rcases run_share (N := N) (fun _ => own) hstep hinit halong with
    ⟨s', r', hs', hr', hR⟩
  rw [share_const own hs'] at hr'
  exact ⟨s', r', hs', hr', hR⟩

end Machine

/-!
## Evaluated runs

The result of a run on a fixed input is found by evaluation, as a Boolean that
looks at the parts of the last state that matter.
-/

section Evaluation

variable {fault alpha : Type _}

def okWith (check : alpha -> Bool) : Except fault alpha -> Bool
  | .ok a => check a
  | .error _ => false

def errorIs [DecidableEq fault] (e : fault) : Except fault alpha -> Bool
  | .ok _ => false
  | .error e' => decide (e' = e)

/-- Conditions along a run are found by evaluation too. -/
instance decidableAlong {state action : Type _} (M : Machine state action fault)
    (C : state -> action -> Prop) [forall s a, Decidable (C s a)] :
    (s : state) -> (acts : List action) -> Decidable (M.Along C s acts)
  | _, [] => .isTrue trivial
  | s, a :: rest =>
      match h : M.step s a with
      | .error _ => decidable_of_iff (C s a)
          ⟨fun hC => ⟨hC, fun next hnext => by rw [h] at hnext; cases hnext⟩,
            fun halong => halong.1⟩
      | .ok next =>
          have := decidableAlong M C next rest
          decidable_of_iff (C s a ∧ M.Along C next rest)
            ⟨fun hboth => ⟨hboth.1, fun other hother => by
                rw [h] at hother
                cases hother
                exact hboth.2⟩,
              fun halong => ⟨halong.1, halong.2 next h⟩⟩

theorem exists_of_okWith {check : alpha -> Bool} {x : Except fault alpha}
    (h : okWith check x = true) : exists a, x = .ok a ∧ check a = true := by
  cases x with
  | ok a => exact ⟨a, rfl, h⟩
  | error e => cases h

theorem eq_of_errorIs [DecidableEq fault] {e : fault} {x : Except fault alpha}
    (h : errorIs e x = true) : x = .error e := by
  cases x with
  | ok a => cases h
  | error e' => rw [of_decide_eq_true h]

end Evaluation
end Foundation
end NetExperiment
