import NetExperiment.Rnet.Chat.Membership

/-!
# One order for all peers

When no two connections have the same address, nobody but a task itself removes
or replaces its entry.  A member is then in the map from its registration on,
and its channel has had every broadcast since.  All channels are parts of one
list, so they agree on the order of what they share.
-/

namespace NetExperiment
namespace Chat

open Foundation

variable {addr : Type} [DecidableEq addr]

/-!
## Members are in the map
-/

structure Present (s : State addr) : Prop where
  distinct : s.addrs.Nodup
  entry : forall t a, s.standing t = some (a, .member) ->
    s.peers.lookup a = some t

theorem present_new : Present (State.new : State addr) where
  distinct := List.nodup_nil
  entry := by
    intro t a h
    cases h

omit [DecidableEq addr] in
theorem Present.eq_of_addrOf [DecidableEq addr] {s : State addr}
    (h : Present s) {t u : Nat} {a : addr} (ht : s.addrOf t = some a)
    (hu : s.addrOf u = some a) : t = u := by
  rw [addrOf_eq] at ht hu
  have hlt := (List.getElem?_eq_some_iff.mp ht).1
  exact (List.getElem?_inj hlt h.distinct).mp (ht.trans hu.symm)

/-- The address of the connection that a step accepts is not in use. -/
def Fresh (s : State addr) (act : Act addr) : Prop :=
  forall a, act.accepted = some a -> a ∉ s.addrs

theorem Present.process {s s' : State addr} (h : Present s)
    (hsound : Sound s) {t : Nat} {p : Task addr} {o : Outcome}
    (hp : s.tasks[t]? = some p) (hstep : ProcessStep t p s o s') :
    Present s' := by
  have hself : s.addrOf t = some p.addr := addrOf_of_get hp
  refine ⟨hstep.addrs ▸ h.distinct, ?_⟩
  intro j a hj
  cases hstep.members hsound hp with
  | kept _ hpeers hstanding =>
      rw [hstanding] at hj
      rw [hpeers]
      exact h.entry j a hj
  | entered hpeers hstanding =>
      rw [hstanding] at hj
      rw [hpeers]
      by_cases hjt : j = t
      · rw [hjt, Function.update_self] at hj
        cases hj
        rw [hjt]
        exact AList.lookup_insert _
      · rw [Function.update_of_ne hjt] at hj
        have hne : a ≠ p.addr := by
          intro hsame
          rw [hsame] at hj
          exact hjt (h.eq_of_addrOf (addrOf_of_standing hj) hself)
        rw [AList.lookup_insert_ne hne]
        exact h.entry j a hj
  | failed _ _ _ hpeers _ hstanding =>
      rw [hstanding] at hj
      rw [hpeers]
      by_cases hjt : j = t
      · rw [hjt, Function.update_self] at hj
        cases hj
      · rw [Function.update_of_ne hjt] at hj
        exact h.entry j a hj
  | left _ _ hpeers _ hstanding =>
      rw [hstanding] at hj
      rw [hpeers]
      by_cases hjt : j = t
      · rw [hjt, Function.update_self] at hj
        cases hj
      · rw [Function.update_of_ne hjt] at hj
        have hne : a ≠ p.addr := by
          intro hsame
          rw [hsame] at hj
          exact hjt (h.eq_of_addrOf (addrOf_of_standing hj) hself)
        rw [AList.lookup_erase_ne hne]
        exact h.entry j a hj

theorem Present.step {s : State addr} (h : Present s) (hsound : Sound s)
    {act : Act addr} (hfresh : Fresh s act) : Present (step s act) := by
  cases act with
  | accept a =>
      constructor
      · rw [step_addrs]
        refine List.nodup_append.mpr ⟨h.distinct, List.nodup_singleton a, ?_⟩
        intro b hb c hc hsame
        rw [List.mem_singleton.mp hc] at hsame
        subst hsame
        exact hfresh b rfl hb
      · intro t b ht
        have hold := (standing_accept s a t).symm.trans ht
        split at hold
        · cases hold
        · exact h.entry t b hold
  | task t o =>
      rcases step_task_cases s t o with ⟨_, hstep⟩ | ⟨p, hp, hstep⟩
      · rw [hstep]
        exact h
      · exact h.process hsound hp hstep

theorem fresh_along {acts : List (Act addr)} {s : State addr}
    (h : (s.addrs ++ acts.filterMap Act.accepted).Nodup) :
    machine.Along Fresh s acts := by
  induction acts generalizing s with
  | nil => trivial
  | cons act rest ih =>
      constructor
      · intro a ha hmem
        rw [List.filterMap_cons_some ha] at h
        exact (List.nodup_append.mp h).2.2 a hmem a List.mem_cons_self rfl
      · intro next hnext
        cases hnext
        apply ih
        rw [step_addrs, List.append_assoc]
        rw [List.filterMap_cons] at h
        cases hact : act.accepted with
        | none =>
            rw [hact] at h
            exact h
        | some a =>
            rw [hact] at h
            exact h

theorem present_of_run {acts : List (Act addr)} {s : State addr}
    (hdistinct : (acts.filterMap Act.accepted).Nodup)
    (hrun : machine.run State.new acts = .ok s) : Sound s ∧ Present s := by
  refine Machine.run_invariant (M := machine)
    (I := fun s => Sound s ∧ Present s) (C := Fresh) ?_
    ⟨sound_new, present_new⟩ (fresh_along hdistinct) hrun
  intro s act next h hfresh hnext
  cases hnext
  exact ⟨h.1.step act, h.2.step h.1 hfresh⟩

/-!
## What the peers agree on
-/

/-- Nothing, or a join notice, lines, and perhaps a leave notice. -/
def Session (said : List (Broadcast addr)) : Prop :=
  said = [] ∨ Talked said ∨
    exists before last, said = before ++ [last] ∧ Talked before ∧
      last.notice = .left

omit [DecidableEq addr] in
theorem session_of_said {said : List (Broadcast addr)} {stage : Stage}
    (h : Said said stage) : Session said := by
  cases stage with
  | prompting => exact .inl h
  | naming => exact .inl h
  | registering => exact .inl h
  | joining => exact .inl h
  | returned => exact h
  | polling => exact .inr (.inl h)
  | broadcasting => exact .inr (.inl h)
  | sending => exact .inr (.inl h)
  | leaving => exact .inr (.inl h)

theorem heard_filter_comm (log : List (Broadcast addr)) (n m : Nat)
    (a b : addr) :
    (heard log n a).filter (fun x => decide (x ∈ heard log m b)) =
      (heard log m b).filter (fun x => decide (x ∈ heard log n a)) := by
  unfold heard
  rw [List.filter_filter, List.filter_filter]
  apply List.filter_congr
  intro x hx
  simp only [List.mem_filter, hx, true_and, Bool.decide_eq_true]
  exact Bool.and_comm _ _

/-- A peer that was there all the time hears everything that another one
says. -/
theorem heard_by {s : State addr} (hsound : Sound s) (h : Present s)
    {t u n : Nat} {p : Task addr} (hp : s.tasks[t]? = some p) (hut : u ≠ t)
    (hthere : forall x, x ∈ s.log.zipIdx -> x.1.author = u -> n ≤ x.2) :
    ((heard s.log n p.addr).filter
      (fun x => decide (x.1.author = u))).map Prod.fst = saidBy u s.log := by
  have hall : (heard s.log n p.addr).filter
      (fun x => decide (x.1.author = u)) =
      s.log.zipIdx.filter (fun x => decide (x.1.author = u)) := by
    unfold heard
    rw [List.filter_filter]
    apply List.filter_congr
    intro x hx
    by_cases hauthor : x.1.author = u
    · have hmem : x.1 ∈ s.log := (List.mem_zipIdx' hx).2 ▸ List.getElem_mem _
      have hsender : x.1.sender ≠ p.addr := by
        intro hsame
        have haddr := hsound.signed x.1 hmem
        rw [hauthor, hsame] at haddr
        exact hut (h.eq_of_addrOf haddr (addrOf_of_get hp))
      have hheard : n ≤ x.2 ∧ x.1.sender ≠ p.addr :=
        ⟨hthere x hx hauthor, hsender⟩
      rw [decide_eq_true hauthor, decide_eq_true hheard]
      rfl
    · rw [decide_eq_false hauthor]
      rfl
  have hmap := List.filter_map (f := Prod.fst)
    (p := fun b : Broadcast addr => decide (b.author = u)) (l := s.log.zipIdx)
  rw [List.zipIdx_map_fst] at hmap
  rw [hall]
  exact hmap.symm

/-- A registered peer whose task is still running, with the number of broadcasts
before it was registered. -/
structure RunningPeer (s : State addr) (t : Nat) (p : Task addr) (n : Nat) :
    Prop where
  task : s.tasks[t]? = some p
  start : p.start = some n
  running : p.stage.running = true

theorem RunningPeer.got {s : State addr} (hsound : Sound s) (h : Present s)
    {t n : Nat} {p : Task addr} (hp : RunningPeer s t p n) :
    p.taken ++ p.rx = (heard s.log n p.addr).map (fun x => x.1.text) := by
  have hregistered : p.start.isSome = true := by
    rw [hp.start]
    rfl
  have hmember : s.standing t = some (p.addr, .member) := by
    rw [standing_of_get hp.task,
      Task.standing_eq_member.mpr ⟨hregistered, hp.running⟩]
  exact (hsound.listening t p hp.task).got n hp.start hp.running
    (h.entry t p.addr hmember)

/-- With different addresses, the messages that a running peer has taken and
those in its channel are the broadcasts since its registration, in the order of
the lock and without its own; two peers agree on the order of what they share;
and each user's turn is heard as a whole by all that were there before it. -/
theorem total_order_of_run {acts : List (Act addr)} {s : State addr}
    (hdistinct : (acts.filterMap Act.accepted).Nodup)
    (hrun : machine.run State.new acts = .ok s) :
    (forall t p n, RunningPeer s t p n ->
      p.taken ++ p.rx = (heard s.log n p.addr).map (fun x => x.1.text)) ∧
    (forall t p n u q m, RunningPeer s t p n -> RunningPeer s u q m ->
      (heard s.log n p.addr).filter
        (fun x => decide (x ∈ heard s.log m q.addr)) =
      (heard s.log m q.addr).filter
        (fun x => decide (x ∈ heard s.log n p.addr))) ∧
    (forall t p n u q, RunningPeer s t p n -> s.tasks[u]? = some q ->
      u ≠ t ->
      (forall x, x ∈ s.log.zipIdx -> x.1.author = u -> n ≤ x.2) ->
      Session (((heard s.log n p.addr).filter
        (fun x => decide (x.1.author = u))).map Prod.fst)) := by
  rcases present_of_run hdistinct hrun with ⟨hsound, hpresent⟩
  refine ⟨?_, ?_, ?_⟩
  · intro t p n hp
    exact hp.got hsound hpresent
  · intro t p n u q m _ _
    exact heard_filter_comm s.log n m p.addr q.addr
  · intro t p n u q hp hq hut hthere
    rw [heard_by hsound hpresent hp.task hut hthere]
    exact session_of_said (hsound.spoken u q hq)

def secondTurn : List (Act Nat) :=
  [.accept 1, .task 0 (.sent true), .task 0 (.polled (some (.line "ann"))),
    .task 0 .locked, .task 0 .locked,
    .accept 2, .task 1 (.sent true), .task 1 (.polled (some (.line "bob"))),
    .task 1 .locked, .task 1 .locked,
    .task 0 (.polled none), .task 0 (.sent true),
    .task 1 (.polled (some (.line "hi"))), .task 1 .locked,
    .task 1 (.polled (some .ended)), .task 1 .locked]

theorem total_order_of_secondTurn :
    exists (s : State Nat) (p : Task Nat),
      machine.run State.new secondTurn = .ok s ∧ RunningPeer s 0 p 0 ∧
      p.taken = ["bob has joined the chat"] ∧
      p.rx = ["bob: hi", "bob has left the chat"] ∧
      p.taken ++ p.rx = (heard s.log 0 p.addr).map (fun x => x.1.text) ∧
      Session (((heard s.log 0 p.addr).filter
        (fun x => decide (x.1.author = 1))).map Prod.fst) := by
  have hend : okWith (fun s : State Nat =>
      (s.tasks[0]?).any (fun p => decide (p.start = some 0 ∧
        p.stage.running = true ∧ p.taken = ["bob has joined the chat"] ∧
        p.rx = ["bob: hi", "bob has left the chat"])) &&
      (s.tasks[1]?).any (fun _ => true))
      (machine.run State.new secondTurn) = true := by
    decide +kernel
  rcases exists_of_okWith hend with ⟨s, hrun, hs⟩
  rw [Bool.and_eq_true, Option.any_eq_true, Option.any_eq_true] at hs
  rcases hs with ⟨⟨p, hp, hchecked⟩, q, hq, _⟩
  rcases of_decide_eq_true hchecked with ⟨hstart, hrunning, htaken, hrx⟩
  have hpeer : RunningPeer s 0 p 0 := ⟨hp, hstart, hrunning⟩
  rcases total_order_of_run (by decide) hrun with ⟨hgot, _, hsession⟩
  exact ⟨s, p, hrun, hpeer, htaken, hrx, hgot 0 p 0 hpeer,
    hsession 0 p 0 1 q hpeer hq (by decide) (fun x _ _ => Nat.zero_le x.2)⟩

end Chat
end NetExperiment
