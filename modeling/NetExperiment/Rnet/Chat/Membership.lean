import Mathlib.Logic.Function.Basic
import NetExperiment.Rnet.Chat.Invariants

/-!
# Who is in the map

## Standing

A task is outside before it is registered, a member from then on, and gone once
it has returned.  A step changes the standing of one task at most, and the map
with it.

## Exactness

The map is exact when its keys are the addresses of the members and each task
that is gone has told all others.
-/

namespace NetExperiment
namespace Chat

open Foundation

variable {addr : Type} [DecidableEq addr]

inductive Standing where
  | outside
  | member
  | gone
deriving DecidableEq, Repr

def Task.standing (p : Task addr) : Standing :=
  if p.start.isSome then
    if p.stage.running then .member else .gone
  else .outside

def State.standing (s : State addr) (j : Nat) : Option (addr × Standing) :=
  (s.tasks[j]?).map fun q => (q.addr, q.standing)

omit [DecidableEq addr] in
theorem standing_of_get {s : State addr} {j : Nat} {q : Task addr}
    (h : s.tasks[j]? = some q) : s.standing j = some (q.addr, q.standing) := by
  unfold State.standing
  rw [h]
  rfl

omit [DecidableEq addr] in
theorem addrOf_of_standing {s : State addr} {j : Nat} {a : addr}
    {x : Standing} (h : s.standing j = some (a, x)) : s.addrOf j = some a := by
  rcases Option.map_eq_some_iff.mp h with ⟨q, hq, hqa⟩
  have haddr : q.addr = a := congrArg Prod.fst hqa
  exact (addrOf_of_get hq).trans (congrArg some haddr)

omit [DecidableEq addr] in
theorem addr_of_standing {s : State addr} {j : Nat} {q : Task addr}
    (hq : s.tasks[j]? = some q) {a : addr} {x : Standing}
    (h : s.standing j = some (a, x)) : q.addr = a := by
  have haddr := addrOf_of_standing h
  rw [addrOf_of_get hq] at haddr
  exact Option.some.inj haddr

omit [DecidableEq addr] in
theorem Task.standing_eq_member {p : Task addr} :
    p.standing = .member <->
      p.start.isSome = true ∧ p.stage.running = true := by
  unfold Task.standing
  cases p.start.isSome <;> cases p.stage.running <;> decide

omit [DecidableEq addr] in
theorem standing_modifyTask {s : State addr} {t : Nat} {p : Task addr}
    (hp : s.tasks[t]? = some p) (f : Task addr -> Task addr) :
    (s.modifyTask t f).standing =
      Function.update s.standing t (some ((f p).addr, (f p).standing)) := by
  funext j
  unfold State.standing
  rw [modifyTask_get, Option.map_map]
  by_cases hj : j = t
  · subst hj
    rw [Function.update_self, hp]
    simp
  · rw [Function.update_of_ne hj]
    congr 1
    funext q
    simp only [Function.comp_apply, if_neg (Ne.symm hj)]

omit [DecidableEq addr] in
theorem standing_modifyTask_same {s : State addr} {t : Nat} {p : Task addr}
    (hp : s.tasks[t]? = some p) {f : Task addr -> Task addr}
    (haddr : (f p).addr = p.addr) (hsame : (f p).standing = p.standing) :
    (s.modifyTask t f).standing = s.standing := by
  rw [standing_modifyTask hp, haddr, hsame, ← standing_of_get hp]
  exact Function.update_eq_self t s.standing

theorem standing_broadcast {s : State addr} (h : Owned s)
    (b : Broadcast addr) : (broadcast b s).standing = s.standing := by
  funext j
  unfold State.standing
  rw [broadcast_get h, Option.map_map]
  congr 1
  funext q
  show ((delivered b s j q).addr, (delivered b s j q).standing) = _
  unfold Task.standing
  rw [delivered_addr, delivered_stage, delivered_start]

/-!
## What a step does to the map
-/

inductive MemberStep (t : Nat) (p : Task addr) (s s' : State addr) :
    Outcome -> Prop where
  | kept (o : Outcome) :
      s'.peers = s.peers -> s'.standing = s.standing ->
      MemberStep t p s s' o
  | entered :
      s'.peers = s.peers.insert p.addr t ->
      s'.standing = Function.update s.standing t (some (p.addr, .member)) ->
      MemberStep t p s s' .locked
  | failed (username msg : String) :
      p.stage = .sending username msg ->
      s'.peers = s.peers -> s'.log = s.log ->
      s'.standing = Function.update s.standing t (some (p.addr, .gone)) ->
      MemberStep t p s s' (.sent false)
  | left (username : String) :
      p.stage = .leaving username ->
      s'.peers = s.peers.erase p.addr ->
      s'.log = s.log ++ [⟨p.addr, t, .left, leftText username⟩] ->
      s'.standing = Function.update s.standing t (some (p.addr, .gone)) ->
      MemberStep t p s s' .locked

omit [DecidableEq addr] in
theorem Task.enter_standing {p : Task addr} {stage : Stage}
    (h : stage.running = p.stage.running) :
    (p.enter stage).standing = p.standing := by
  unfold Task.standing Task.enter
  rw [h]

omit [DecidableEq addr] in
theorem Task.standing_of_start_none {p : Task addr} (h : p.start = none) :
    p.standing = .outside := by
  unfold Task.standing
  rw [h]
  rfl

theorem standing_speak {s : State addr} (h : Sound s) {t : Nat}
    {p : Task addr} (hp : s.tasks[t]? = some p) {stage : Stage}
    (b : Broadcast addr) (hrunning : stage.running = p.stage.running) :
    ((broadcast b s).modifyTask t (Task.enter stage)).standing =
      s.standing := by
  have hget : (broadcast b s).tasks[t]? = some (delivered b s t p) := by
    rw [broadcast_get h.owned, hp]
    rfl
  refine (standing_modifyTask_same hget rfl ?_).trans
    (standing_broadcast h.owned b)
  apply Task.enter_standing
  rw [delivered_stage]
  exact hrunning

theorem ProcessStep.members {t : Nat} {p : Task addr} {s s' : State addr}
    {o : Outcome} (hstep : ProcessStep t p s o s') (h : Sound s)
    (hp : s.tasks[t]? = some p) : MemberStep t p s s' o := by
  have hold := h.listening t p hp
  cases hstep with
  | idle => exact .kept o rfl rfl
  | prepared _ stage hearly _ =>
      refine .kept o rfl (standing_modifyTask_same hp rfl ?_)
      have hnone : p.start = none := hold.early hearly
      rw [Task.standing_of_start_none (p := p.enter stage) hnone,
        Task.standing_of_start_none hnone]
  | registered username _ =>
      refine .entered rfl ?_
      have hget : (peerNew t p.addr s).tasks[t]? =
          some { p with rx := [], taken := [], start := some s.log.length } := by
        refine (List.getElem?_modify_eq _ _ _).trans ?_
        rw [hp]
        rfl
      rw [standing_modifyTask hget]
      have hrest : (peerNew t p.addr s).standing =
          Function.update s.standing t (some (p.addr,
            Task.standing { p with
              rx := [], taken := [], start := some s.log.length })) :=
        standing_modifyTask hp _
      rw [hrest, Function.update_idem]
      rfl
  | joined username hstage =>
      exact .kept _ rfl (standing_speak h hp _ (by rw [hstage]; rfl))
  | moved _ stage htalking hnext =>
      refine .kept o rfl (standing_modifyTask_same hp rfl ?_)
      apply Task.enter_standing
      rw [Stage.running_of_talking htalking, Stage.running_of_talking hnext]
  | took _ username msg rest hstage _ =>
      refine .kept o rfl (standing_modifyTask_same hp rfl ?_)
      unfold Task.standing
      rw [hstage]
      rfl
  | said username msg hstage =>
      exact .kept _ rfl (standing_speak h hp _ (by rw [hstage]; rfl))
  | failed username msg hstage =>
      have hstart : p.start.isSome = true :=
        hold.late (by rw [hstage]; rfl) (by rw [hstage]; rfl)
      refine .failed username msg hstage rfl rfl ?_
      rw [standing_modifyTask hp]
      unfold Task.standing Task.enter
      rw [if_pos hstart]
      rfl
  | left username hstage =>
      have hstart : p.start.isSome = true :=
        hold.late (by rw [hstage]; rfl) (by rw [hstage]; rfl)
      refine .left username hstage rfl rfl ?_
      have howned : Owned { s with peers := s.peers.erase p.addr } :=
        fun a i hi => h.owned a i (lookup_of_erase hi)
      have hget := broadcast_get howned
        ⟨p.addr, t, .left, leftText username⟩ t
      rw [show State.tasks { s with peers := s.peers.erase p.addr } = s.tasks
        from rfl, hp] at hget
      rw [standing_modifyTask hget, standing_broadcast howned]
      show Function.update s.standing t _ = _
      congr 2
      unfold Task.standing Task.enter
      rw [delivered_start, delivered_addr, if_pos hstart]
      rfl

theorem ProcessStep.log_prefix {t : Nat} {p : Task addr} {s s' : State addr}
    {o : Outcome} (hstep : ProcessStep t p s o s') : s.log <+: s'.log := by
  cases hstep with
  | joined => exact List.prefix_append _ _
  | said => exact List.prefix_append _ _
  | left => exact List.prefix_append _ _
  | _ => exact List.prefix_rfl

omit [DecidableEq addr] in
theorem standing_accept (s : State addr) (a : addr) (j : Nat) :
    State.standing { s with tasks := s.tasks ++ [Task.new a] } j =
      if j = s.tasks.length then some (a, .outside) else s.standing j := by
  unfold State.standing
  show Option.map _ (s.tasks ++ [Task.new a])[j]? = _
  split
  · rename_i hj
    rw [hj, List.getElem?_concat_length]
    rfl
  · rename_i hj
    rw [List.getElem?_append]
    split
    · rfl
    · rw [List.getElem?_eq_none (by rw [List.length_singleton]; omega),
        List.getElem?_eq_none (by omega)]

/-!
## An exact map
-/

def Reached (s : State addr) (b : Broadcast addr) (i : Nat) : Prop :=
  forall j q n, s.tasks[j]? = some q -> q.start = some n ->
    q.stage.running = true -> s.peers.lookup q.addr = some j -> n ≤ i ->
    q.addr ≠ b.sender ->
    (b, i) ∈ heard s.log n q.addr ∧
      q.taken ++ q.rx = (heard s.log n q.addr).map (fun x => x.1.text)

structure Exact (s : State addr) : Prop where
  keys : forall a, a ∈ s.peers <-> exists t, s.standing t = some (a, .member)
  removed : forall t a, s.standing t = some (a, .gone) ->
    forall b, s.peers.lookup b ≠ some t
  announced : forall t a, s.standing t = some (a, .gone) ->
    exists i username,
      s.log[i]? = some ⟨a, t, .left, leftText username⟩ ∧
      Reached s ⟨a, t, .left, leftText username⟩ i

theorem Sound.reached {s : State addr} (h : Sound s) {b : Broadcast addr}
    {i : Nat} (hi : s.log[i]? = some b) : Reached s b i := by
  intro j q n hq hn hrunning hlookup hle hsender
  refine ⟨?_, (h.listening j q hq).got n hn hrunning hlookup⟩
  unfold heard
  rw [List.mem_filter]
  exact ⟨List.mem_zipIdx_iff_getElem?.mpr hi,
    decide_eq_true ⟨hle, Ne.symm hsender⟩⟩

theorem exact_new : Exact (State.new : State addr) := by
  refine ⟨?_, ?_, ?_⟩
  · intro a
    refine ⟨fun ha => absurd ha (AList.notMem_empty a), ?_⟩
    intro h
    rcases h with ⟨t, ht⟩
    cases ht
  · intro t a ht
    cases ht
  · intro t a ht
    cases ht

/-- A message that was taken from the channel cannot be written to the
socket. -/
def WriteFails (s : State addr) : Act addr -> Prop
  | .task t (.sent false) => exists p, s.tasks[t]? = some p ∧
      exists username msg, p.stage = .sending username msg
  | _ => False

/-- A task leaves while another member has the same address. -/
def LeavesShared (s : State addr) : Act addr -> Prop
  | .task t .locked => exists p, s.tasks[t]? = some p ∧
      (exists username, p.stage = .leaving username) ∧
      exists u, u ≠ t ∧ s.standing u = some (p.addr, .member)
  | _ => False

theorem Exact.accept {s : State addr} (h : Exact s) (hsound : Sound s)
    (a : addr) : Exact { s with tasks := s.tasks ++ [Task.new a] } := by
  have hnone : forall x, s.standing s.tasks.length ≠ some x := by
    intro x hx
    rcases Option.map_eq_some_iff.mp hx with ⟨q, hq, _⟩
    have hlt := (List.getElem?_eq_some_iff.mp hq).1
    omega
  have hsame : forall j b x, x ≠ Standing.outside ->
      (State.standing { s with tasks := s.tasks ++ [Task.new a] } j =
        some (b, x) <-> s.standing j = some (b, x)) := by
    intro j b x hx
    rw [standing_accept]
    by_cases hj : j = s.tasks.length
    · rw [if_pos hj, hj]
      constructor
      · intro hnew
        cases hnew
        exact absurd rfl hx
      · intro hold
        exact absurd hold (hnone _)
    · rw [if_neg hj]
  refine ⟨?_, ?_, ?_⟩
  · intro b
    refine (h.keys b).trans ?_
    constructor
    · intro hmem
      rcases hmem with ⟨t, ht⟩
      exact ⟨t, (hsame t b .member (by decide)).mpr ht⟩
    · intro hmem
      rcases hmem with ⟨t, ht⟩
      exact ⟨t, (hsame t b .member (by decide)).mp ht⟩
  · intro t b ht
    exact h.removed t b ((hsame t b .gone (by decide)).mp ht)
  · intro t b ht
    rcases h.announced t b ((hsame t b .gone (by decide)).mp ht) with
      ⟨i, username, hi, _⟩
    exact ⟨i, username, hi, (hsound.accept a).reached hi⟩

theorem announced_of_prefix {s s' : State addr} (hsound : Sound s')
    (hlog : s.log <+: s'.log) {t : Nat} {a : addr}
    (h : exists i username,
      s.log[i]? = some ⟨a, t, .left, leftText username⟩ ∧
      Reached s ⟨a, t, .left, leftText username⟩ i) :
    exists i username,
      s'.log[i]? = some ⟨a, t, .left, leftText username⟩ ∧
      Reached s' ⟨a, t, .left, leftText username⟩ i := by
  rcases h with ⟨i, username, hi, _⟩
  have hi' : s'.log[i]? = some ⟨a, t, .left, leftText username⟩ := by
    rcases hlog with ⟨rest, hrest⟩
    rw [← hrest, List.getElem?_append_left (List.getElem?_eq_some_iff.mp hi).1,
      hi]
  exact ⟨i, username, hi', hsound.reached hi'⟩

/-!
### A task registers or leaves
-/

theorem Exact.entered {s s' : State addr} (h : Exact s) (hsound : Sound s')
    {t : Nat} {p : Task addr} (hp : s.tasks[t]? = some p)
    (hlog : s.log <+: s'.log) (hpeers : s'.peers = s.peers.insert p.addr t)
    (hstanding : s'.standing =
      Function.update s.standing t (some (p.addr, .member))) : Exact s' := by
  have hgone : forall j a, s'.standing j = some (a, .gone) ->
      j ≠ t ∧ s.standing j = some (a, .gone) := by
    intro j a hj
    rw [hstanding] at hj
    by_cases hjt : j = t
    · subst hjt
      rw [Function.update_self] at hj
      cases hj
    · rw [Function.update_of_ne hjt] at hj
      exact ⟨hjt, hj⟩
  refine ⟨?_, ?_, ?_⟩
  · intro a
    rw [hpeers, hstanding, AList.mem_insert, h.keys a]
    constructor
    · intro hmem
      rcases hmem with rfl | ⟨u, hu⟩
      · exact ⟨t, Function.update_self _ _ _⟩
      · by_cases hut : u = t
        · subst hut
          rw [← addr_of_standing hp hu]
          exact ⟨u, Function.update_self _ _ _⟩
        · exact ⟨u, by rw [Function.update_of_ne hut, hu]⟩
    · intro hmem
      rcases hmem with ⟨u, hu⟩
      by_cases hut : u = t
      · subst hut
        rw [Function.update_self] at hu
        cases hu
        exact .inl rfl
      · rw [Function.update_of_ne hut] at hu
        exact .inr ⟨u, hu⟩
  · intro j a hj b hb
    rcases hgone j a hj with ⟨hjt, hold⟩
    rw [hpeers] at hb
    by_cases hbp : b = p.addr
    · subst hbp
      rw [AList.lookup_insert] at hb
      exact hjt (Option.some.inj hb).symm
    · rw [AList.lookup_insert_ne hbp] at hb
      exact h.removed j a hold b hb
  · intro j a hj
    exact announced_of_prefix hsound hlog (h.announced j a (hgone j a hj).2)

theorem Exact.left {s s' : State addr} (h : Exact s) (hsound : Sound s)
    (hsound' : Sound s') {t : Nat} {p : Task addr} {username : String}
    (hp : s.tasks[t]? = some p) (hpeers : s'.peers = s.peers.erase p.addr)
    (hlog : s'.log = s.log ++ [⟨p.addr, t, .left, leftText username⟩])
    (hstanding : s'.standing =
      Function.update s.standing t (some (p.addr, .gone)))
    (halone : forall u, u ≠ t -> s.standing u ≠ some (p.addr, .member)) :
    Exact s' := by
  have hgone : forall j a, s'.standing j = some (a, .gone) ->
      (j = t ∧ a = p.addr) ∨ s.standing j = some (a, .gone) := by
    intro j a hj
    rw [hstanding] at hj
    by_cases hjt : j = t
    · subst hjt
      rw [Function.update_self] at hj
      cases hj
      exact .inl ⟨rfl, rfl⟩
    · rw [Function.update_of_ne hjt] at hj
      exact .inr hj
  refine ⟨?_, ?_, ?_⟩
  · intro a
    rw [hpeers, hstanding, AList.mem_erase, h.keys a]
    constructor
    · intro hmem
      rcases hmem with ⟨hne, u, hu⟩
      have hut : u ≠ t := by
        intro hsame
        rw [hsame] at hu
        exact hne (addr_of_standing hp hu).symm
      exact ⟨u, by rw [Function.update_of_ne hut, hu]⟩
    · intro hmem
      rcases hmem with ⟨u, hu⟩
      by_cases hut : u = t
      · rw [hut, Function.update_self] at hu
        cases hu
      · rw [Function.update_of_ne hut] at hu
        refine ⟨?_, u, hu⟩
        intro hsame
        rw [hsame] at hu
        exact halone u hut hu
  · intro j a hj b hb
    rw [hpeers] at hb
    have hlookup := lookup_of_erase hb
    rcases hgone j a hj with ⟨rfl, rfl⟩ | hold
    · -- the entry of the task was under its own address, which was erased
      have haddr := hsound.owned b j hlookup
      rw [addrOf_of_get hp] at haddr
      cases haddr
      rw [AList.lookup_erase] at hb
      cases hb
    · exact h.removed j a hold b hlookup
  · intro j a hj
    rcases hgone j a hj with ⟨rfl, rfl⟩ | hold
    · have hlast : s'.log[s.log.length]? =
          some ⟨p.addr, j, .left, leftText username⟩ := by
        rw [hlog, List.getElem?_concat_length]
      exact ⟨_, username, hlast, hsound'.reached hlast⟩
    · exact announced_of_prefix hsound' (hlog ▸ List.prefix_append _ _)
        (h.announced j a hold)

theorem Exact.process {s s' : State addr} (h : Exact s) (hsound : Sound s)
    {t : Nat} {p : Task addr} {o : Outcome} (hp : s.tasks[t]? = some p)
    (hstep : ProcessStep t p s o s') (hfails : ¬ WriteFails s (.task t o))
    (hshared : ¬ LeavesShared s (.task t o)) : Exact s' := by
  have hsound' := hsound.process hp hstep
  cases hstep.members hsound hp with
  | kept _ hpeers hstanding =>
      refine ⟨?_, ?_, ?_⟩
      · rw [hpeers, hstanding]
        exact h.keys
      · rw [hpeers, hstanding]
        exact h.removed
      · intro j a hj
        rw [hstanding] at hj
        exact announced_of_prefix hsound' hstep.log_prefix (h.announced j a hj)
  | entered hpeers hstanding =>
      exact h.entered hsound' hp hstep.log_prefix hpeers hstanding
  | failed username msg hstage =>
      exact absurd ⟨p, hp, username, msg, hstage⟩ hfails
  | left username hstage hpeers hlog hstanding =>
      refine h.left hsound hsound' hp hpeers hlog hstanding ?_
      intro u hu hmember
      exact hshared ⟨p, hp, ⟨username, hstage⟩, u, hu, hmember⟩

/-!
### The two ways in which exactness is lost
-/

omit [DecidableEq addr] in
theorem not_left_of_talked {log : List (Broadcast addr)} {t : Nat}
    (h : Talked (saidBy t log)) {b : Broadcast addr} (hb : b ∈ log)
    (hauthor : b.author = t) : b.notice ≠ .left := by
  rcases h with ⟨first, lines, hsaid, hfirst, hlines⟩
  have hmem : b ∈ saidBy t log :=
    List.mem_filter.mpr ⟨hb, decide_eq_true hauthor⟩
  rw [hsaid] at hmem
  rcases List.mem_cons.mp hmem with rfl | hline
  · rw [hfirst]
    decide
  · rw [hlines b hline]
    decide

theorem not_writeFails_of_exact {s : State addr} (hsound : Sound s)
    {act : Act addr} (h : Exact (step s act)) : ¬ WriteFails s act := by
  intro hfails
  cases act with
  | accept a => exact hfails
  | task t o =>
      cases o with
      | sent ok =>
          cases ok with
          | true => exact hfails
          | false =>
              rcases hfails with ⟨p, hp, username, msg, hstage⟩
              have hnext : step s (.task t (.sent false)) =
                  s.modifyTask t (Task.enter (.returned false)) := by
                simp only [step, hp, hstage, process]
              rw [hnext] at h
              have hstart : p.start.isSome = true :=
                (hsound.listening t p hp).late (by rw [hstage]; rfl)
                  (by rw [hstage]; rfl)
              have hgone : (s.modifyTask t
                  (Task.enter (.returned false))).standing t =
                  some (p.addr, .gone) := by
                rw [standing_modifyTask hp, Function.update_self]
                unfold Task.standing Task.enter
                rw [if_pos hstart]
                rfl
              rcases h.announced t p.addr hgone with ⟨i, _, hi, _⟩
              have htalked := hsound.talked hp (by rw [hstage]; rfl)
              have hmem : _ ∈ s.log := List.mem_of_getElem? hi
              exact not_left_of_talked htalked hmem rfl rfl
      | _ => exact hfails

theorem not_leavesShared_of_exact {s : State addr} (hsound : Sound s)
    {act : Act addr} (h : Exact (step s act)) : ¬ LeavesShared s act := by
  intro hleaves
  cases act with
  | accept a => exact hleaves
  | task t o =>
      cases o with
      | locked =>
          rcases hleaves with ⟨p, hp, ⟨username, hstage⟩, u, hut, hu⟩
          rcases step_task_cases s t .locked with ⟨hnone, _⟩ | ⟨q, hq, hstep⟩
          · rw [hp] at hnone
            cases hnone
          · rw [hp] at hq
            cases hq
            -- the other member stays, and the key of both is removed
            have hnext : step s (.task t .locked) =
                (broadcast ⟨p.addr, t, .left, leftText username⟩
                  { s with peers := s.peers.erase p.addr }).modifyTask t
                  (Task.enter (.returned true)) := by
              simp only [step, hp, hstage, process]
            have hmember : (step s (.task t .locked)).standing u =
                some (p.addr, .member) := by
              cases hstep.members hsound hp with
              | kept _ _ hstanding => rw [hstanding, hu]
              | entered _ hstanding =>
                  rw [hstanding, Function.update_of_ne hut, hu]
              | left _ _ _ _ hstanding =>
                  rw [hstanding, Function.update_of_ne hut, hu]
            have hkey := (h.keys p.addr).mpr ⟨u, hmember⟩
            rw [hnext] at hkey
            have herased : p.addr ∈ s.peers.erase p.addr := hkey
            exact (AList.mem_erase.mp herased).1 rfl
      | _ => exact hleaves

/-- The map is exact in every state of a run exactly if no message that was
taken from a channel fails to be written, and no task leaves while another
member has its address. -/
theorem exact_iff_clean_exits (acts : List (Act addr)) :
    machine.Always Exact (State.new : State addr) acts <->
      machine.Along
        (fun s act => ¬ WriteFails s act ∧ ¬ LeavesShared s act)
        State.new acts := by
  refine Machine.always_iff_along (I := Sound) ?_ ?_ sound_new exact_new
  · intro s act hsound hexact hC
    refine ⟨step s act, rfl, hsound.step act, ?_⟩
    cases act with
    | accept a => exact hexact.accept hsound a
    | task t o =>
        rcases step_task_cases s t o with ⟨_, hstep⟩ | ⟨p, hp, hstep⟩
        · rw [hstep]
          exact hexact
        · exact hexact.process hsound hp hstep hC.1 hC.2
  · intro s act next hsound _ hnext hexact
    cases hnext
    exact ⟨not_writeFails_of_exact hsound hexact,
      not_leavesShared_of_exact hsound hexact⟩

/-- Two clients register, and the notice about the second one cannot be written
to the first one. -/
def brokenWrite : List (Act Nat) :=
  [.accept 1, .task 0 (.sent true), .task 0 (.polled (some (.line "ann"))),
    .task 0 .locked, .task 0 .locked,
    .accept 2, .task 1 (.sent true), .task 1 (.polled (some (.line "bob"))),
    .task 1 .locked, .task 1 .locked,
    .task 0 (.polled none), .task 0 (.sent false)]

theorem brokenWrite_keeps_entry :
    ¬ machine.Always Exact (State.new : State Nat) brokenWrite := by
  intro halways
  have hend : okWith (fun s : State Nat =>
      (s.peers.lookup 1).isSome &&
        s.tasks.all (fun q => decide (q.addr ≠ 1 ∨ q.standing ≠ .member)))
      (machine.run State.new brokenWrite) = true := by
    decide +kernel
  rcases exists_of_okWith hend with ⟨s, hrun, hs⟩
  rw [Bool.and_eq_true, List.all_eq_true] at hs
  have hexact : Exact s := halways.last hrun
  rcases (hexact.keys 1).mp (AList.lookup_isSome.mp hs.1) with ⟨t, ht⟩
  rcases Option.map_eq_some_iff.mp ht with ⟨q, hq, hqt⟩
  cases of_decide_eq_true (hs.2 q (List.mem_of_getElem? hq)) with
  | inl haddr => exact haddr (congrArg Prod.fst hqt)
  | inr hstanding => exact hstanding (congrArg Prod.snd hqt)

end Chat
end NetExperiment
