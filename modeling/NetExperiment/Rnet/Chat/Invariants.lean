import NetExperiment.Rnet.Chat.Core

/-!
# Invariants of the chat server

Each channel is compared with the list of all broadcasts.  A task whose transmit
half is in the map has been in the map since it was registered, so its channel
has had every broadcast since then, except for those of its own address.
-/

namespace NetExperiment
namespace Chat

open Foundation

variable {addr : Type} [DecidableEq addr]

/-!
## What each operation does to one task
-/

omit [DecidableEq addr] in
theorem modifyTask_get (t : Nat) (f : Task addr -> Task addr) (s : State addr)
    (j : Nat) :
    (s.modifyTask t f).tasks[j]? =
      (s.tasks[j]?).map (fun q => if t = j then f q else q) :=
  List.getElem?_modify f t s.tasks j

theorem foldl_modify_of_forall {sender : addr} {text : String} {j : Nat}
    (peers : List (Sigma fun _ : addr => Nat))
    (h : forall peer, peer ∈ peers -> peer.2 = j -> peer.1 = sender)
    (tasks : List (Task addr)) :
    (peers.foldl (fun tasks peer =>
      if peer.1 ≠ sender then tasks.modify peer.2 (Task.receive text)
      else tasks) tasks)[j]? = tasks[j]? := by
  induction peers generalizing tasks with
  | nil => rfl
  | cons peer rest ih =>
      have hrest := ih (fun q hq => h q (List.mem_cons_of_mem _ hq))
      rw [List.foldl_cons, hrest]
      by_cases hsender : peer.1 = sender
      · rw [if_neg (not_not.mpr hsender)]
      · have hne : peer.2 ≠ j := fun hj =>
          hsender (h peer List.mem_cons_self hj)
        rw [if_pos hsender]
        exact List.getElem?_modify_ne _ _ hne

theorem foldl_modify_of_mem {sender : addr} {text : String}
    {peers : List (Sigma fun _ : addr => Nat)}
    (hnodup : (peers.map (fun peer => peer.2)).Nodup)
    {peer : Sigma fun _ : addr => Nat} (hmem : peer ∈ peers)
    (hsender : peer.1 ≠ sender) (tasks : List (Task addr)) :
    (peers.foldl (fun tasks peer =>
      if peer.1 ≠ sender then tasks.modify peer.2 (Task.receive text)
      else tasks) tasks)[peer.2]? =
      (tasks[peer.2]?).map (Task.receive text) := by
  induction peers generalizing tasks with
  | nil => cases hmem
  | cons first rest ih =>
      rw [List.map_cons, List.nodup_cons] at hnodup
      rw [List.foldl_cons]
      rcases List.mem_cons.mp hmem with hfirst | hrest
      · subst hfirst
        have hothers : forall q, q ∈ rest -> q.2 = peer.2 -> q.1 = sender := by
          intro q hq hsame
          exact absurd (List.mem_map.mpr ⟨q, hq, hsame⟩) hnodup.1
        rw [foldl_modify_of_forall rest hothers, if_pos hsender]
        exact List.getElem?_modify_eq _ _ _
      · have hne : first.2 ≠ peer.2 := fun hsame =>
          hnodup.1 (List.mem_map.mpr ⟨peer, hrest, hsame.symm⟩)
        rw [ih hnodup.2 hrest]
        split
        · rw [List.getElem?_modify_ne _ _ hne]
        · rfl

def State.addrOf (s : State addr) (j : Nat) : Option addr :=
  (s.tasks[j]?).map (fun q => q.addr)

/-- A transmit half is in the map only under the address of its task. -/
def Owned (s : State addr) : Prop :=
  forall a t, s.peers.lookup a = some t -> s.addrOf t = some a

theorem Owned.nodup {s : State addr} (h : Owned s) :
    (s.peers.entries.map (fun peer => peer.2)).Nodup := by
  refine List.Nodup.map_on ?_ s.peers.nodupKeys.nodup
  intro peer hpeer other hother hsame
  rcases peer with ⟨a, t⟩
  rcases other with ⟨a', t'⟩
  have htasks : t = t' := hsame
  subst htasks
  have hfirst := h a t (AList.mem_lookup_iff.mpr hpeer)
  have hsecond := h a' t (AList.mem_lookup_iff.mpr hother)
  rw [hfirst] at hsecond
  cases hsecond
  rfl

def delivered (b : Broadcast addr) (s : State addr) (j : Nat)
    (q : Task addr) : Task addr :=
  if q.addr ≠ b.sender ∧ s.peers.lookup q.addr = some j then q.receive b.text
  else q

theorem broadcast_get {s : State addr} (h : Owned s) (b : Broadcast addr)
    (j : Nat) :
    (broadcast b s).tasks[j]? = (s.tasks[j]?).map (delivered b s j) := by
  cases hq : s.tasks[j]? with
  | none =>
      have hunreached : forall peer, peer ∈ s.peers.entries -> peer.2 = j ->
          peer.1 = b.sender := by
        intro peer hpeer hj
        rcases peer with ⟨a, t⟩
        have htask : t = j := hj
        subst htask
        have howner := h a t (AList.mem_lookup_iff.mpr hpeer)
        unfold State.addrOf at howner
        rw [hq] at howner
        cases howner
      exact (foldl_modify_of_forall s.peers.entries hunreached s.tasks).trans hq
  | some q =>
      have howner : forall a, s.peers.lookup a = some j -> q.addr = a := by
        intro a ha
        have haddr := h a j ha
        unfold State.addrOf at haddr
        rw [hq] at haddr
        exact Option.some.inj haddr
      show _ = some (delivered b s j q)
      unfold delivered
      by_cases hreached : q.addr ≠ b.sender ∧ s.peers.lookup q.addr = some j
      · rw [if_pos hreached]
        have hmem := AList.mem_lookup_iff.mp hreached.2
        refine (foldl_modify_of_mem h.nodup hmem hreached.1 s.tasks).trans ?_
        show (s.tasks[j]?).map _ = _
        rw [hq]
        rfl
      · rw [if_neg hreached]
        have hunreached : forall peer, peer ∈ s.peers.entries -> peer.2 = j ->
            peer.1 = b.sender := by
          intro peer hpeer hj
          rcases peer with ⟨a, t⟩
          have htask : t = j := hj
          subst htask
          have hlookup := AList.mem_lookup_iff.mpr hpeer
          have haddr := howner a hlookup
          subst haddr
          by_contra hsender
          exact hreached ⟨hsender, hlookup⟩
        exact (foldl_modify_of_forall s.peers.entries hunreached s.tasks).trans
          hq

/-!
## What a task hears and says
-/

/-- The broadcasts that a peer is to get, with their places in the order of the
lock: those since it was registered, except for those of its own address. -/
def heard (log : List (Broadcast addr)) (start : Nat) (a : addr) :
    List (Broadcast addr × Nat) :=
  log.zipIdx.filter fun x => decide (start ≤ x.2 ∧ x.1.sender ≠ a)

theorem heard_append (log : List (Broadcast addr)) (b : Broadcast addr)
    (start : Nat) (a : addr) :
    heard (log ++ [b]) start a =
      heard log start a ++
        if start ≤ log.length ∧ b.sender ≠ a then [(b, log.length)]
        else [] := by
  unfold heard
  rw [List.zipIdx_append, List.filter_append]
  congr 1
  rw [List.zipIdx_singleton, List.filter_singleton, Nat.zero_add]
  by_cases h : start ≤ log.length ∧ b.sender ≠ a
  · rw [if_pos h, decide_eq_true h]
    rfl
  · rw [if_neg h, decide_eq_false h]
    rfl

theorem heard_length (log : List (Broadcast addr)) (a : addr) :
    heard log log.length a = [] := by
  unfold heard
  rw [List.filter_eq_nil_iff]
  intro x hx h
  have hlt := List.snd_lt_of_mem_zipIdx hx
  have hle := (of_decide_eq_true h).1
  omega

def Talked (said : List (Broadcast addr)) : Prop :=
  exists first lines, said = first :: lines ∧ first.notice = .joined ∧
    forall b, b ∈ lines -> b.notice = .line

def Said (said : List (Broadcast addr)) : Stage -> Prop
  | .prompting => said = []
  | .naming => said = []
  | .registering _ => said = []
  | .joining _ => said = []
  | .returned _ => said = [] ∨ Talked said ∨
      exists before last, said = before ++ [last] ∧ Talked before ∧
        last.notice = .left
  | _ => Talked said

omit [DecidableEq addr] in
theorem said_of_early {said : List (Broadcast addr)} {stage : Stage}
    (h : stage.early = true) : Said said stage <-> said = [] := by
  cases stage <;> first | rfl | cases h

omit [DecidableEq addr] in
theorem said_of_talking {said : List (Broadcast addr)} {stage : Stage}
    (h : stage.talking = true) : Said said stage <-> Talked said := by
  cases stage <;> first | rfl | cases h

omit [DecidableEq addr] in
theorem Talked.append {said : List (Broadcast addr)} (h : Talked said)
    {b : Broadcast addr} (hb : b.notice = .line) : Talked (said ++ [b]) := by
  rcases h with ⟨first, lines, rfl, hfirst, hlines⟩
  refine ⟨first, lines ++ [b], rfl, hfirst, ?_⟩
  intro b' hb'
  rcases List.mem_append.mp hb' with h | h
  · exact hlines b' h
  · rw [List.mem_singleton.mp h]
    exact hb

/-!
## The addresses of the tasks
-/

def State.addrs (s : State addr) : List addr :=
  s.tasks.map Task.addr

omit [DecidableEq addr] in
theorem addrOf_eq (s : State addr) (j : Nat) : s.addrOf j = s.addrs[j]? :=
  (List.getElem?_map).symm

omit [DecidableEq addr] in
theorem addrOf_of_get {s : State addr} {j : Nat} {q : Task addr}
    (h : s.tasks[j]? = some q) : s.addrOf j = some q.addr := by
  unfold State.addrOf
  rw [h]
  rfl

omit [DecidableEq addr] in
theorem map_addr_modify {f : Task addr -> Task addr}
    (hf : forall q, (f q).addr = q.addr) (t : Nat) (tasks : List (Task addr)) :
    (tasks.modify t f).map Task.addr = tasks.map Task.addr := by
  apply List.ext_getElem?
  intro j
  rw [List.getElem?_map, List.getElem?_map, List.getElem?_modify]
  cases tasks[j]? with
  | none => rfl
  | some q =>
      show some (if t = j then f q else q).addr = some q.addr
      split
      · rw [hf q]
      · rfl

omit [DecidableEq addr] in
theorem Task.receive_addr (msg : String) (q : Task addr) :
    (q.receive msg).addr = q.addr := by
  unfold Task.receive
  split <;> rfl

omit [DecidableEq addr] in
theorem Task.receive_stage (msg : String) (q : Task addr) :
    (q.receive msg).stage = q.stage := by
  unfold Task.receive
  split <;> rfl

omit [DecidableEq addr] in
theorem Task.receive_start (msg : String) (q : Task addr) :
    (q.receive msg).start = q.start := by
  unfold Task.receive
  split <;> rfl

theorem broadcast_addrs (b : Broadcast addr) (s : State addr) :
    (broadcast b s).addrs = s.addrs := by
  show List.map Task.addr (s.peers.entries.foldl _ s.tasks) = _
  unfold State.addrs
  induction s.peers.entries generalizing s with
  | nil => rfl
  | cons peer rest ih =>
      rw [List.foldl_cons]
      refine (ih { s with tasks := _ }).trans ?_
      show List.map Task.addr (if _ then _ else _) = _
      split
      · exact map_addr_modify (Task.receive_addr b.text) peer.2 s.tasks
      · rfl

def Act.accepted : Act addr -> Option addr
  | .accept a => some a
  | .task _ _ => none

omit [DecidableEq addr] in
theorem enter_addrs (t : Nat) (stage : Stage) (s : State addr) :
    (s.modifyTask t (Task.enter stage)).addrs = s.addrs :=
  map_addr_modify (f := Task.enter stage) (fun _ => rfl) t s.tasks

theorem ProcessStep.addrs {t : Nat} {p : Task addr} {s s' : State addr}
    {o : Outcome} (h : ProcessStep t p s o s') : s'.addrs = s.addrs := by
  cases h with
  | idle => rfl
  | prepared _ stage _ _ => exact enter_addrs t stage s
  | registered username _ =>
      refine (enter_addrs t _ _).trans ?_
      refine map_addr_modify ?_ t s.tasks
      intro q
      rfl
  | joined username _ => exact (enter_addrs t _ _).trans (broadcast_addrs _ s)
  | moved _ stage _ _ => exact enter_addrs t stage s
  | took _ username msg rest _ _ =>
      refine map_addr_modify ?_ t s.tasks
      intro q
      rfl
  | said username msg _ => exact (enter_addrs t _ _).trans (broadcast_addrs _ s)
  | failed username msg _ => exact enter_addrs t _ s
  | left username _ => exact (enter_addrs t _ _).trans (broadcast_addrs _ _)

theorem step_addrs (s : State addr) (act : Act addr) :
    (step s act).addrs = s.addrs ++ act.accepted.toList := by
  cases act with
  | accept a => exact List.map_append
  | task t o =>
      have hsame : (step s (.task t o)).addrs = s.addrs := by
        rcases step_task_cases s t o with ⟨_, hstep⟩ | ⟨p, _, hstep⟩
        · rw [hstep]
        · exact hstep.addrs
      exact hsame.trans (List.append_nil _).symm

/-!
## The invariant
-/

structure Listening (log : List (Broadcast addr))
    (peers : AList (fun _ : addr => Nat)) (t : Nat) (p : Task addr) :
    Prop where
  early : p.stage.early = true -> p.start = none
  late : p.stage.early = false -> p.stage.running = true ->
    p.start.isSome = true
  started : forall n, p.start = some n -> n ≤ log.length
  got : forall n, p.start = some n -> p.stage.running = true ->
    peers.lookup p.addr = some t ->
    p.taken ++ p.rx = (heard log n p.addr).map (fun x => x.1.text)

def saidBy (t : Nat) (log : List (Broadcast addr)) : List (Broadcast addr) :=
  log.filter fun b => decide (b.author = t)

structure Sound (s : State addr) : Prop where
  owned : Owned s
  signed : forall b, b ∈ s.log -> s.addrOf b.author = some b.sender
  listening : forall t p, s.tasks[t]? = some p ->
    Listening s.log s.peers t p
  spoken : forall t p, s.tasks[t]? = some p -> Said (saidBy t s.log) p.stage

theorem sound_new : Sound (State.new : State addr) where
  owned := by
    intro a t h
    cases h
  signed := by
    intro b hb
    cases hb
  listening := by
    intro t p h
    cases h
  spoken := by
    intro t p h
    cases h

theorem Listening.enter {log : List (Broadcast addr)}
    {peers : AList (fun _ : addr => Nat)} {t : Nat} {p : Task addr}
    {stage : Stage} (h : Listening log peers t p)
    (hearly : stage.early = true -> p.stage.early = true)
    (hlate : stage.early = false -> stage.running = true ->
      p.stage.early = false)
    (hrunning : stage.running = true -> p.stage.running = true) :
    Listening log peers t (p.enter stage) where
  early := fun hnew => h.early (hearly hnew)
  late := fun hnew hrun => h.late (hlate hnew hrun) (hrunning hrun)
  started := h.started
  got := fun n hn hrun hlookup => h.got n hn (hrunning hrun) hlookup

theorem Sound.accept {s : State addr} (h : Sound s) (a : addr) :
    Sound { s with tasks := s.tasks ++ [Task.new a] } := by
  have hkeep : forall j b, s.addrOf j = some b ->
      State.addrOf { s with tasks := s.tasks ++ [Task.new a] } j = some b := by
    intro j b hb
    rcases Option.map_eq_some_iff.mp hb with ⟨q, hq, hqb⟩
    have hget : (s.tasks ++ [Task.new a])[j]? = some q := by
      rw [List.getElem?_append_left (List.getElem?_eq_some_iff.mp hq).1, hq]
    exact (addrOf_of_get hget).trans (congrArg some hqb)
  have hcases : forall j q, (s.tasks ++ [Task.new a])[j]? = some q ->
      s.tasks[j]? = some q ∨ (j = s.tasks.length ∧ q = Task.new a) := by
    intro j q hq
    rw [List.getElem?_append] at hq
    split at hq
    · exact .inl hq
    · rcases List.getElem?_eq_some_iff.mp hq with ⟨hlt, hget⟩
      rw [List.length_singleton] at hlt
      rw [List.getElem_singleton] at hget
      exact .inr ⟨by omega, hget.symm⟩
  constructor
  case owned =>
    intro b t hb
    exact hkeep t b (h.owned b t hb)
  case signed =>
    intro b hb
    exact hkeep _ _ (h.signed b hb)
  case listening =>
    intro j q hq
    rcases hcases j q hq with hold | ⟨_, rfl⟩
    · exact h.listening j q hold
    · refine ⟨fun _ => rfl, ?_, ?_, ?_⟩
      · intro hlate
        cases hlate
      · intro n hn
        cases hn
      · intro n hn
        cases hn
  case spoken =>
    intro j q hq
    rcases hcases j q hq with hold | ⟨rfl, rfl⟩
    · exact h.spoken j q hold
    · -- every broadcast so far is by a task that was there before
      show saidBy s.tasks.length s.log = []
      unfold saidBy
      rw [List.filter_eq_nil_iff]
      intro b hb hauthor
      have haddr := h.signed b hb
      rw [of_decide_eq_true hauthor] at haddr
      rcases Option.map_eq_some_iff.mp haddr with ⟨q, hq, _⟩
      have hlt := (List.getElem?_eq_some_iff.mp hq).1
      omega

/-- A step that broadcasts nothing and changes one task, and perhaps puts that
task into the map. -/
theorem Sound.modify {s : State addr} (h : Sound s) {t : Nat} {p : Task addr}
    {f : Task addr -> Task addr} {peers : AList (fun _ : addr => Nat)}
    (hp : s.tasks[t]? = some p) (hf : forall q, (f q).addr = q.addr)
    (hpeers : forall a j, peers.lookup a = some j ->
      s.peers.lookup a = some j ∨ (a = p.addr ∧ j = t))
    (hlistening : Listening s.log peers t (f p))
    (hsaid : Said (saidBy t s.log) (f p).stage) :
    Sound { s with tasks := s.tasks.modify t f, peers := peers } := by
  have hkeep : forall j, State.addrOf
      { s with tasks := s.tasks.modify t f, peers := peers } j =
        s.addrOf j := by
    intro j
    rw [addrOf_eq, addrOf_eq]
    exact congrArg (fun addrs => addrs[j]?) (map_addr_modify hf t s.tasks)
  have hcases : forall j q, (s.tasks.modify t f)[j]? = some q ->
      (j = t ∧ q = f p) ∨ (j ≠ t ∧ s.tasks[j]? = some q) := by
    intro j q hq
    by_cases hj : t = j
    · subst hj
      rw [List.getElem?_modify_eq, hp] at hq
      exact .inl ⟨rfl, (Option.some.inj hq).symm⟩
    · rw [List.getElem?_modify_ne _ _ hj] at hq
      exact .inr ⟨Ne.symm hj, hq⟩
  constructor
  case owned =>
    intro a j hj
    rw [hkeep]
    rcases hpeers a j hj with hold | ⟨rfl, rfl⟩
    · exact h.owned a j hold
    · exact addrOf_of_get hp
  case signed =>
    intro b hb
    rw [hkeep]
    exact h.signed b hb
  case listening =>
    intro j q hq
    rcases hcases j q hq with ⟨rfl, rfl⟩ | ⟨hj, hold⟩
    · exact hlistening
    · have hq' := h.listening j q hold
      refine ⟨hq'.early, hq'.late, hq'.started, ?_⟩
      intro n hn hrunning hlookup
      rcases hpeers q.addr j hlookup with hsame | ⟨_, hself⟩
      · exact hq'.got n hn hrunning hsame
      · exact absurd hself hj
  case spoken =>
    intro j q hq
    rcases hcases j q hq with ⟨rfl, rfl⟩ | ⟨_, hold⟩
    · exact hsaid
    · exact h.spoken j q hold

theorem Sound.enter {s : State addr} (h : Sound s) {t : Nat} {p : Task addr}
    {stage : Stage} (hp : s.tasks[t]? = some p)
    (hearly : stage.early = true -> p.stage.early = true)
    (hlate : stage.early = false -> stage.running = true ->
      p.stage.early = false)
    (hrunning : stage.running = true -> p.stage.running = true)
    (hsaid : Said (saidBy t s.log) stage) :
    Sound (s.modifyTask t (Task.enter stage)) :=
  h.modify (f := Task.enter stage) hp (fun _ => rfl)
    (fun _ _ hlookup => .inl hlookup)
    ((h.listening t p hp).enter hearly hlate hrunning) hsaid

/-!
### A broadcast

The log grows by one, and so do the channels of all peers but the sender.
-/

theorem delivered_addr (b : Broadcast addr) (s : State addr) (j : Nat)
    (q : Task addr) : (delivered b s j q).addr = q.addr := by
  unfold delivered
  split
  · exact Task.receive_addr b.text q
  · rfl

theorem delivered_stage (b : Broadcast addr) (s : State addr) (j : Nat)
    (q : Task addr) : (delivered b s j q).stage = q.stage := by
  unfold delivered
  split
  · exact Task.receive_stage b.text q
  · rfl

theorem delivered_start (b : Broadcast addr) (s : State addr) (j : Nat)
    (q : Task addr) : (delivered b s j q).start = q.start := by
  unfold delivered
  split
  · exact Task.receive_start b.text q
  · rfl

theorem delivered_got {b : Broadcast addr} {s : State addr} {j : Nat}
    {q : Task addr} (hrunning : q.stage.running = true)
    (hlookup : s.peers.lookup q.addr = some j) {n : Nat}
    (hn : n ≤ s.log.length)
    (hgot : q.taken ++ q.rx =
      (heard s.log n q.addr).map (fun x => x.1.text)) :
    (delivered b s j q).taken ++ (delivered b s j q).rx =
      (heard (s.log ++ [b]) n q.addr).map (fun x => x.1.text) := by
  rw [heard_append]
  unfold delivered
  by_cases hsender : q.addr = b.sender
  · rw [if_neg (fun hboth => hboth.1 hsender),
      if_neg (fun hboth => hboth.2 hsender.symm), List.append_nil]
    exact hgot
  · rw [if_pos ⟨hsender, hlookup⟩, if_pos ⟨hn, Ne.symm hsender⟩,
      List.map_append, ← hgot]
    unfold Task.receive
    rw [if_pos hrunning]
    exact (List.append_assoc _ _ _).symm

theorem Listening.broadcast {s : State addr} {j : Nat} {q : Task addr}
    {peers : AList (fun _ : addr => Nat)} (b : Broadcast addr)
    (h : Listening s.log s.peers j q)
    (hpeers : forall a i, peers.lookup a = some i ->
      s.peers.lookup a = some i) :
    Listening (s.log ++ [b]) peers j
      (delivered b { s with peers := peers } j q) := by
  constructor
  case early =>
    rw [delivered_stage, delivered_start]
    exact h.early
  case late =>
    rw [delivered_stage, delivered_start]
    exact h.late
  case started =>
    rw [delivered_start]
    intro n hn
    have hle := h.started n hn
    show n ≤ (s.log ++ [b]).length
    rw [List.length_append]
    omega
  case got =>
    rw [delivered_start, delivered_stage, delivered_addr]
    intro n hn hrunning hlookup
    exact delivered_got (s := { s with peers := peers }) hrunning hlookup
      (h.started n hn) (h.got n hn hrunning (hpeers q.addr j hlookup))

omit [DecidableEq addr] in
theorem saidBy_append (t : Nat) (log : List (Broadcast addr))
    (b : Broadcast addr) :
    saidBy t (log ++ [b]) =
      saidBy t log ++ if b.author = t then [b] else [] := by
  unfold saidBy
  rw [List.filter_append, List.filter_singleton]
  by_cases h : b.author = t
  · rw [if_pos h, decide_eq_true h]
    rfl
  · rw [if_neg h, decide_eq_false h]
    rfl

/-- A task broadcasts and goes on, and perhaps takes itself out of the map. -/
theorem Sound.speak {s : State addr} (h : Sound s) {t : Nat} {p : Task addr}
    {peers : AList (fun _ : addr => Nat)} {stage : Stage} {notice : Notice}
    {text : String} (hp : s.tasks[t]? = some p)
    (hpeers : forall a i, peers.lookup a = some i ->
      s.peers.lookup a = some i)
    (hp_early : p.stage.early = false) (hp_running : p.stage.running = true)
    (hearly : stage.early = false)
    (hsaid : Said (saidBy t s.log ++ [⟨p.addr, t, notice, text⟩]) stage) :
    Sound ((broadcast ⟨p.addr, t, notice, text⟩
      { s with peers := peers }).modifyTask t (Task.enter stage)) := by
  let b : Broadcast addr := ⟨p.addr, t, notice, text⟩
  let base : State addr := { s with peers := peers }
  have howned : Owned base := fun a i hi => h.owned a i (hpeers a i hi)
  have hkeep : forall j, ((broadcast b base).modifyTask t
      (Task.enter stage)).addrOf j = s.addrOf j := by
    intro j
    rw [addrOf_eq, addrOf_eq, enter_addrs, broadcast_addrs]
    rfl
  have hcases : forall j q, ((broadcast b base).modifyTask t
      (Task.enter stage)).tasks[j]? = some q ->
      exists q0, s.tasks[j]? = some q0 ∧
        q = if t = j then (delivered b base j q0).enter stage
          else delivered b base j q0 := by
    intro j q hq
    rw [modifyTask_get, broadcast_get howned, Option.map_map] at hq
    rcases Option.map_eq_some_iff.mp hq with ⟨q0, hq0, hq0q⟩
    exact ⟨q0, hq0, hq0q.symm⟩
  constructor
  case owned =>
    intro a i hi
    rw [hkeep]
    exact howned a i hi
  case signed =>
    intro b' hb'
    rw [hkeep]
    rcases List.mem_append.mp hb' with hold | hnew
    · exact h.signed b' hold
    · rw [List.mem_singleton.mp hnew]
      exact addrOf_of_get hp
  case listening =>
    intro j q hq
    rcases hcases j q hq with ⟨q0, hq0, rfl⟩
    have hold := (h.listening j q0 hq0).broadcast b hpeers
    by_cases hj : t = j
    · subst hj
      rw [hp] at hq0
      cases hq0
      rw [if_pos rfl]
      have hstage := delivered_stage b base t p
      refine hold.enter ?_ ?_ ?_
      · intro hnew
        rw [hearly] at hnew
        cases hnew
      · intro _ _
        exact (congrArg Stage.early hstage).trans hp_early
      · intro _
        exact (congrArg Stage.running hstage).trans hp_running
    · rw [if_neg hj]
      exact hold
  case spoken =>
    intro j q hq
    rcases hcases j q hq with ⟨q0, hq0, rfl⟩
    show Said (saidBy j (s.log ++ [b])) _
    rw [saidBy_append]
    by_cases hj : t = j
    · subst hj
      rw [if_pos rfl, if_pos rfl]
      exact hsaid
    · rw [if_neg hj, if_neg hj, List.append_nil, delivered_stage]
      exact h.spoken j q0 hq0

/-!
### Every step keeps the invariant
-/

theorem Stage.running_of_early {stage : Stage} (h : stage.early = true) :
    stage.running = true := by
  cases stage <;> first | rfl | cases h

theorem Stage.running_of_talking {stage : Stage} (h : stage.talking = true) :
    stage.running = true := by
  cases stage <;> first | rfl | cases h

theorem Stage.not_early_of_talking {stage : Stage}
    (h : stage.talking = true) : stage.early = false := by
  cases stage <;> first | rfl | cases h

theorem Sound.talked {s : State addr} (h : Sound s) {t : Nat} {p : Task addr}
    (hp : s.tasks[t]? = some p) (htalking : p.stage.talking = true) :
    Talked (saidBy t s.log) :=
  (said_of_talking htalking).mp (h.spoken t p hp)

theorem lookup_of_erase {peers : AList (fun _ : addr => Nat)} {a b : addr}
    {i : Nat} (h : (peers.erase b).lookup a = some i) :
    peers.lookup a = some i := by
  by_cases ha : a = b
  · subst ha
    rw [AList.lookup_erase] at h
    cases h
  · rw [AList.lookup_erase_ne ha] at h
    exact h

theorem Sound.took {s : State addr} (h : Sound s) {t : Nat} {p : Task addr}
    {username msg : String} {rest : List String}
    (hp : s.tasks[t]? = some p) (hstage : p.stage = .polling username)
    (hrx : p.rx = msg :: rest) :
    Sound (s.modifyTask t fun p =>
      { p with
        rx := rest
        taken := p.taken ++ [msg]
        stage := .sending username msg }) := by
  have htalking : p.stage.talking = true := by rw [hstage]; rfl
  have hold := h.listening t p hp
  refine h.modify hp (fun _ => rfl) (fun _ _ hlookup => .inl hlookup) ?_ ?_
  · refine ⟨?_, ?_, hold.started, ?_⟩
    · intro hearly
      cases hearly
    · intro _ _
      exact hold.late (Stage.not_early_of_talking htalking)
        (Stage.running_of_talking htalking)
    · intro n hn _ hlookup
      have hgot := hold.got n hn (Stage.running_of_talking htalking) hlookup
      show (p.taken ++ [msg]) ++ rest = _
      rw [← hgot, hrx, List.append_assoc]
      rfl
  · exact (said_of_talking rfl).mpr (h.talked hp htalking)

theorem Sound.registered {s : State addr} (h : Sound s) {t : Nat}
    {p : Task addr} {username : String} (hp : s.tasks[t]? = some p)
    (hstage : p.stage = .registering username) :
    Sound ((peerNew t p.addr s).modifyTask t
      (Task.enter (.joining username))) := by
  have hcomp : (peerNew t p.addr s).modifyTask t
      (Task.enter (.joining username)) =
      { s with
        tasks := s.tasks.modify t fun p =>
          { p with
            rx := []
            taken := []
            start := some s.log.length
            stage := .joining username }
        peers := s.peers.insert p.addr t } := by
    unfold peerNew State.modifyTask
    rw [List.modify_modify_eq]
    rfl
  rw [hcomp]
  refine h.modify hp (fun _ => rfl) ?_ ?_ ?_
  · intro a j hj
    by_cases ha : a = p.addr
    · subst ha
      rw [AList.lookup_insert] at hj
      exact .inr ⟨rfl, (Option.some.inj hj).symm⟩
    · rw [AList.lookup_insert_ne ha] at hj
      exact .inl hj
  · refine ⟨?_, fun _ _ => rfl, ?_, ?_⟩
    · intro hearly
      cases hearly
    · intro n hn
      cases hn
      exact Nat.le_refl _
    · intro n hn _ _
      cases hn
      rw [heard_length]
      rfl
  · have hsaid := h.spoken t p hp
    rw [hstage] at hsaid
    exact hsaid

theorem Sound.process {s s' : State addr} (h : Sound s) {t : Nat}
    {p : Task addr} {o : Outcome} (hp : s.tasks[t]? = some p)
    (hstep : ProcessStep t p s o s') : Sound s' := by
  have hsaid := h.spoken t p hp
  cases hstep with
  | idle => exact h
  | prepared _ stage hearly hnext =>
      have hnothing := (said_of_early hearly).mp hsaid
      refine h.enter hp (fun _ => hearly) ?_ ?_ ?_
      · intro hlate hrunning
        rcases hnext with hnew | ⟨ok, rfl⟩
        · rw [hlate] at hnew
          cases hnew
        · cases hrunning
      · intro _
        exact Stage.running_of_early hearly
      · rcases hnext with hnew | ⟨ok, rfl⟩
        · exact (said_of_early hnew).mpr hnothing
        · exact .inl hnothing
  | registered username hstage => exact h.registered hp hstage
  | joined username hstage =>
      rw [hstage] at hsaid
      refine h.speak hp (fun _ _ hlookup => hlookup) ?_ ?_ rfl ?_
      · rw [hstage]
        rfl
      · rw [hstage]
        rfl
      · have hnothing : saidBy t s.log = [] := hsaid
        rw [hnothing]
        exact ⟨_, [], rfl, rfl, fun b hb => by cases hb⟩
  | moved _ stage htalking hnext =>
      refine h.enter hp ?_ (fun _ _ => Stage.not_early_of_talking htalking)
        (fun _ => Stage.running_of_talking htalking)
        ((said_of_talking hnext).mpr (h.talked hp htalking))
      intro hearly
      rw [Stage.not_early_of_talking hnext] at hearly
      cases hearly
  | took _ username msg rest hstage hrx => exact h.took hp hstage hrx
  | said username msg hstage =>
      have htalking : p.stage.talking = true := by rw [hstage]; rfl
      exact h.speak hp (fun _ _ hlookup => hlookup)
        (Stage.not_early_of_talking htalking)
        (Stage.running_of_talking htalking) rfl
        ((h.talked hp htalking).append rfl)
  | failed username msg hstage =>
      have htalking : p.stage.talking = true := by rw [hstage]; rfl
      refine h.enter hp ?_ ?_ ?_ (.inr (.inl (h.talked hp htalking)))
      · intro hearly
        cases hearly
      · intro _ hrunning
        cases hrunning
      · intro hrunning
        cases hrunning
  | left username hstage =>
      have htalking : p.stage.talking = true := by rw [hstage]; rfl
      exact h.speak hp (fun _ _ hi => lookup_of_erase hi)
        (Stage.not_early_of_talking htalking)
        (Stage.running_of_talking htalking) rfl
        (.inr (.inr ⟨_, _, rfl, h.talked hp htalking, rfl⟩))

theorem Sound.step {s : State addr} (h : Sound s) (act : Act addr) :
    Sound (step s act) := by
  cases act with
  | accept a => exact h.accept a
  | task t o =>
      rcases step_task_cases s t o with ⟨_, hstep⟩ | ⟨p, hp, hstep⟩
      · rw [hstep]
        exact h
      · exact h.process hp hstep

end Chat
end NetExperiment
