import NetExperiment.Rnet.Chat.TotalOrder

/-!
# A chat whose clients are silent

When no client connects or says anything any more, the tasks work off what they
have been given: prompts and messages are written, names are registered, and
notices and lines are broadcast.  Each broadcast gives work to the other tasks.
In whatever order the tasks run, this comes to an end, and then every peer has
got every broadcast that it was to get.
-/

namespace NetExperiment
namespace Chat

open Foundation

variable {addr : Type} [DecidableEq addr]

/-- The operation that the task awaits is done without its client having said
anything.  A socket takes what is written, or fails. -/
def Task.busy (p : Task addr) (o : Outcome) : Bool :=
  match p.stage, o with
  | .prompting, .sent _ => true
  | .registering _, .peerAddrFailed => true
  | .registering _, .locked => true
  | .joining _, .locked => true
  | .polling _, .polled _ => !p.rx.isEmpty
  | .broadcasting _ _, .locked => true
  | .sending _ _, .sent _ => true
  | .leaving _, .locked => true
  | _, _ => false

def State.busy (s : State addr) : Act addr -> Bool
  | .accept _ => false
  | .task t o => (s.tasks[t]?).any fun p => p.busy o

/-!
## What is left to do

A message costs its peer two steps.  A broadcast costs one step, and two for
each task that may get a message.
-/

def Stage.cost (tasks : Nat) : Stage -> Nat
  | .prompting => 1
  | .naming => 0
  | .registering _ => 2 * tasks + 2
  | .joining _ => 2 * tasks + 1
  | .polling _ => 0
  | .broadcasting _ _ => 2 * tasks + 1
  | .sending _ _ => 1
  | .leaving _ => 2 * tasks + 1
  | .returned _ => 0

def Task.cost (tasks : Nat) (p : Task addr) : Nat :=
  if p.stage.running then 2 * p.rx.length + p.stage.cost tasks else 0

def costs (n : Nat) : List (Task addr) -> Nat
  | [] => 0
  | p :: rest => p.cost n + costs n rest

def State.work (s : State addr) : Nat :=
  costs s.tasks.length s.tasks

omit [DecidableEq addr] in
theorem cost_of_running {n : Nat} {p : Task addr}
    (h : p.stage.running = true) :
    p.cost n = 2 * p.rx.length + p.stage.cost n := by
  unfold Task.cost
  rw [h]
  rfl

omit [DecidableEq addr] in
theorem cost_enter_le (n : Nat) (p : Task addr) (stage : Stage) :
    (p.enter stage).cost n ≤ 2 * p.rx.length + stage.cost n := by
  unfold Task.cost
  split
  · exact Nat.le_refl _
  · exact Nat.zero_le _

omit [DecidableEq addr] in
theorem costs_modify (n : Nat) {tasks : List (Task addr)} {t : Nat}
    {p : Task addr} (hp : tasks[t]? = some p) (f : Task addr -> Task addr) :
    costs n (tasks.modify t f) + p.cost n = costs n tasks + (f p).cost n := by
  induction tasks generalizing t with
  | nil => cases hp
  | cons q rest ih =>
      cases t with
      | zero =>
          cases hp
          rw [List.modify_zero_cons, costs, costs]
          omega
      | succ t =>
          have hrest := ih (t := t) hp
          rw [List.modify_succ_cons, costs, costs]
          omega

omit [DecidableEq addr] in
theorem costs_le_of_get (n extra : Nat) {tasks tasks' : List (Task addr)}
    {g : Nat -> Task addr -> Task addr}
    (hget : forall j, tasks'[j]? = (tasks[j]?).map (g j))
    (hcost : forall j q, (g j q).cost n ≤ q.cost n + extra) :
    costs n tasks' ≤ costs n tasks + extra * tasks.length := by
  induction tasks generalizing tasks' g with
  | nil =>
      have hempty : tasks'.length ≤ 0 := List.getElem?_eq_none_iff.mp (hget 0)
      rw [List.eq_nil_of_length_eq_zero (Nat.le_zero.mp hempty)]
      exact Nat.zero_le _
  | cons q rest ih =>
      cases tasks' with
      | nil =>
          have hfirst := hget 0
          cases hfirst
      | cons q' rest' =>
          have hfirst : q' = g 0 q := Option.some.inj (hget 0)
          have hrest : costs n rest' ≤ costs n rest + extra * rest.length :=
            ih (g := fun j => g (j + 1)) (fun j => hget (j + 1))
              (fun j => hcost (j + 1))
          have hcost0 := hcost 0 q
          rw [costs, costs, List.length_cons, Nat.mul_succ, hfirst]
          omega

omit [DecidableEq addr] in
theorem cost_receive (n : Nat) (msg : String) (q : Task addr) :
    (q.receive msg).cost n ≤ q.cost n + 2 := by
  unfold Task.receive
  split
  · rename_i hrunning
    unfold Task.cost
    simp only [hrunning, if_true, List.length_append, List.length_singleton]
    omega
  · exact Nat.le_add_right _ _

theorem costs_broadcast (n : Nat) {s : State addr} (h : Owned s)
    (b : Broadcast addr) :
    costs n (broadcast b s).tasks ≤ costs n s.tasks + 2 * s.tasks.length := by
  refine costs_le_of_get n 2 (broadcast_get h b) ?_
  intro j q
  unfold delivered
  split
  · exact cost_receive n b.text q
  · exact Nat.le_add_right _ _

theorem costs_speak {s : State addr} (h : Owned s) {t : Nat} {p : Task addr}
    (hp : s.tasks[t]? = some p) (b : Broadcast addr) {stage : Stage}
    (hcost : p.stage.cost s.tasks.length = 2 * s.tasks.length + 1)
    (hrunning : p.stage.running = true)
    (hstage : stage.cost s.tasks.length = 0) :
    costs s.tasks.length
        ((broadcast b s).modifyTask t (Task.enter stage)).tasks <
      costs s.tasks.length s.tasks := by
  have hspoken := costs_broadcast s.tasks.length h b
  have hget : (broadcast b s).tasks[t]? = some (delivered b s t p) := by
    rw [broadcast_get h b t, hp]
    rfl
  have hmodify := costs_modify s.tasks.length hget (Task.enter stage)
  have hkept : (delivered b s t p).stage = p.stage := by
    unfold delivered
    split
    · exact Task.receive_stage b.text p
    · rfl
  have hbefore : (delivered b s t p).cost s.tasks.length =
      2 * (delivered b s t p).rx.length + (2 * s.tasks.length + 1) := by
    rw [cost_of_running (by rw [hkept]; exact hrunning), hkept, hcost]
  have hafter := cost_enter_le s.tasks.length (delivered b s t p) stage
  show costs s.tasks.length ((broadcast b s).tasks.modify t _) < _
  omega

omit [DecidableEq addr] in
theorem costs_enter {s : State addr} {t : Nat} {p : Task addr} {stage : Stage}
    (hp : s.tasks[t]? = some p) (hrunning : p.stage.running = true)
    (hstage : stage.cost s.tasks.length < p.stage.cost s.tasks.length) :
    costs s.tasks.length (s.modifyTask t (Task.enter stage)).tasks <
      costs s.tasks.length s.tasks := by
  have hmodify := costs_modify s.tasks.length hp (Task.enter stage)
  have hbefore := cost_of_running (n := s.tasks.length) hrunning
  have hafter := cost_enter_le s.tasks.length p stage
  show costs s.tasks.length (s.tasks.modify t _) < _
  omega

theorem costs_register {s : State addr} {t : Nat} {p : Task addr}
    {username : String} (hp : s.tasks[t]? = some p)
    (hstage : p.stage = .registering username) :
    costs s.tasks.length
        ((peerNew t p.addr s).modifyTask t
          (Task.enter (.joining username))).tasks <
      costs s.tasks.length s.tasks := by
  let fresh : Task addr :=
    { p with rx := [], taken := [], start := some s.log.length }
  have hget : (peerNew t p.addr s).tasks[t]? = some fresh := by
    refine (List.getElem?_modify_eq _ _ _).trans ?_
    rw [hp]
    rfl
  have hnew := costs_modify s.tasks.length hp fun p =>
    { p with rx := [], taken := [], start := some s.log.length }
  have hentered := costs_modify s.tasks.length hget
    (Task.enter (.joining username))
  have hbefore : p.cost s.tasks.length =
      2 * p.rx.length + (2 * s.tasks.length + 2) := by
    rw [cost_of_running (by rw [hstage]; rfl), hstage]
    rfl
  have hafter : (fresh.enter (.joining username)).cost s.tasks.length =
      2 * 0 + (2 * s.tasks.length + 1) := rfl
  have hopened : costs s.tasks.length (peerNew t p.addr s).tasks +
      p.cost s.tasks.length =
        costs s.tasks.length s.tasks + fresh.cost s.tasks.length := hnew
  show costs s.tasks.length ((peerNew t p.addr s).tasks.modify t _) < _
  omega

omit [DecidableEq addr] in
theorem costs_take {s : State addr} {t : Nat} {p : Task addr}
    {username : String} (hp : s.tasks[t]? = some p)
    (hstage : p.stage = .polling username) (lines : Option LineResult)
    (hrx : (!p.rx.isEmpty) = true) :
    costs s.tasks.length (processNext t username p lines s).tasks <
      costs s.tasks.length s.tasks := by
  unfold processNext
  cases hqueue : p.rx with
  | nil =>
      rw [hqueue] at hrx
      cases hrx
  | cons msg rest =>
      have hmodify := costs_modify s.tasks.length hp fun p =>
        { p with
          rx := rest
          taken := p.taken ++ [msg]
          stage := .sending username msg }
      have hbefore : p.cost s.tasks.length = 2 * (rest.length + 1) := by
        rw [cost_of_running (by rw [hstage]; rfl), hstage, hqueue]
        rfl
      have hafter : Task.cost s.tasks.length
          { p with
            rx := rest
            taken := p.taken ++ [msg]
            stage := .sending username msg } = 2 * rest.length + 1 := rfl
      show costs s.tasks.length (s.tasks.modify t _) < _
      omega

theorem costs_process {s : State addr} (h : Sound s) {t : Nat} {p : Task addr}
    (hp : s.tasks[t]? = some p) {o : Outcome} (hbusy : p.busy o = true) :
    costs s.tasks.length (process t p s p.stage o).tasks <
      costs s.tasks.length s.tasks := by
  unfold Task.busy at hbusy
  cases hstage : p.stage with
  | prompting =>
      have hrunning : p.stage.running = true := by rw [hstage]; rfl
      cases o with
      | sent ok =>
          cases ok with
          | true => exact costs_enter hp hrunning (hstage ▸ Nat.one_pos)
          | false => exact costs_enter hp hrunning (hstage ▸ Nat.one_pos)
      | _ =>
          rw [hstage] at hbusy
          cases hbusy
  | registering username =>
      have hrunning : p.stage.running = true := by rw [hstage]; rfl
      cases o with
      | peerAddrFailed =>
          exact costs_enter hp hrunning (hstage ▸ Nat.succ_pos _)
      | locked => exact costs_register hp hstage
      | _ =>
          rw [hstage] at hbusy
          cases hbusy
  | joining username =>
      have hrunning : p.stage.running = true := by rw [hstage]; rfl
      cases o with
      | locked => exact costs_speak h.owned hp _ (hstage ▸ rfl) hrunning rfl
      | _ =>
          rw [hstage] at hbusy
          cases hbusy
  | polling username =>
      cases o with
      | polled lines =>
          rw [hstage] at hbusy
          exact costs_take hp hstage lines hbusy
      | _ =>
          rw [hstage] at hbusy
          cases hbusy
  | broadcasting username msg =>
      have hrunning : p.stage.running = true := by rw [hstage]; rfl
      cases o with
      | locked => exact costs_speak h.owned hp _ (hstage ▸ rfl) hrunning rfl
      | _ =>
          rw [hstage] at hbusy
          cases hbusy
  | sending username msg =>
      have hrunning : p.stage.running = true := by rw [hstage]; rfl
      cases o with
      | sent ok =>
          cases ok with
          | true => exact costs_enter hp hrunning (hstage ▸ Nat.one_pos)
          | false => exact costs_enter hp hrunning (hstage ▸ Nat.one_pos)
      | _ =>
          rw [hstage] at hbusy
          cases hbusy
  | leaving username =>
      have hrunning : p.stage.running = true := by rw [hstage]; rfl
      have howned : Owned { s with peers := s.peers.erase p.addr } :=
        fun a u ha => h.owned a u (lookup_of_erase ha)
      cases o with
      | locked =>
          exact costs_speak howned hp _ (hstage ▸ rfl) hrunning rfl
      | _ =>
          rw [hstage] at hbusy
          cases hbusy
  | naming =>
      rw [hstage] at hbusy
      cases o <;> cases hbusy
  | returned ok =>
      rw [hstage] at hbusy
      cases o <;> cases hbusy

/-!
## Silence
-/

omit [DecidableEq addr] in
theorem busy_cases {s : State addr} {act : Act addr}
    (h : s.busy act = true) :
    exists t o p, act = .task t o ∧ s.tasks[t]? = some p ∧
      p.busy o = true := by
  cases act with
  | accept a => cases h
  | task t o =>
      have hany : (s.tasks[t]?).any (fun p => p.busy o) = true := h
      rw [Option.any_eq_true] at hany
      rcases hany with ⟨p, hp, hbusy⟩
      exact ⟨t, o, p, rfl, hp, hbusy⟩

theorem work_step {s : State addr} (h : Sound s) {act : Act addr}
    (hbusy : s.busy act = true) : (step s act).work < s.work := by
  rcases busy_cases hbusy with ⟨t, o, p, rfl, hp, ho⟩
  have haddrs := step_addrs s (.task t o)
  have hlength := congrArg List.length haddrs
  rw [List.length_append] at hlength
  unfold State.addrs at hlength
  rw [List.length_map, List.length_map] at hlength
  have hsame : (step s (.task t o)).tasks.length = s.tasks.length := hlength
  unfold State.work
  rw [hsame]
  simp only [step, hp]
  exact costs_process h hp ho

theorem present_step {s next : State addr} {act : Act addr}
    (h : Sound s ∧ Present s) (hbusy : s.busy act = true)
    (hnext : machine.step s act = .ok next) :
    (Sound next ∧ Present next) ∧ next.work < s.work := by
  cases hnext
  have hfresh : Fresh s act := by
    rcases busy_cases hbusy with ⟨t, o, p, rfl, _, _⟩
    intro a ha
    cases ha
  exact ⟨⟨h.1.step act, h.2.step h.1 hfresh⟩, work_step h.1 hbusy⟩

theorem polling_of_idle {s : State addr} (h : Sound s)
    (hidle : forall act, s.busy act = false) {t n : Nat} {p : Task addr}
    (hp : RunningPeer s t p n) :
    (exists username, p.stage = .polling username) ∧ p.rx = [] := by
  have hnone : forall o, p.busy o = false := by
    intro o
    have ho : (s.tasks[t]?).any (fun p => p.busy o) = false :=
      hidle (.task t o)
    rw [hp.task] at ho
    exact ho
  have hlate : p.stage.early = false := by
    by_contra hearly
    rw [Bool.not_eq_false] at hearly
    have hstart := (h.listening t p hp.task).early hearly
    rw [hp.start] at hstart
    cases hstart
  have hrunning := hp.running
  unfold Task.busy at hnone
  cases hstage : p.stage with
  | polling username =>
      have hempty := hnone (.polled none)
      rw [hstage] at hempty
      rw [Bool.not_eq_false'] at hempty
      exact ⟨⟨username, rfl⟩, List.isEmpty_iff.mp hempty⟩
  | joining username =>
      have hlocked := hnone .locked
      rw [hstage] at hlocked
      cases hlocked
  | broadcasting username msg =>
      have hlocked := hnone .locked
      rw [hstage] at hlocked
      cases hlocked
  | leaving username =>
      have hlocked := hnone .locked
      rw [hstage] at hlocked
      cases hlocked
  | sending username msg =>
      have hsent := hnone (.sent true)
      rw [hstage] at hsent
      cases hsent
  | prompting =>
      rw [hstage] at hlate
      cases hlate
  | naming =>
      rw [hstage] at hlate
      cases hlate
  | registering username =>
      rw [hstage] at hlate
      cases hlate
  | returned ok =>
      rw [hstage] at hrunning
      cases hrunning

/-- When the clients fall silent, the chat comes to rest in whatever order its
tasks run, and then every peer has written every broadcast since its
registration to its client, in the order of the lock. -/
theorem delivered_when_silent {acts more : List (Act addr)}
    {s last : State addr}
    (hdistinct : (acts.filterMap Act.accepted).Nodup)
    (hrun : machine.run State.new acts = .ok s)
    (hbusy : machine.Along (fun s act => s.busy act = true) s more)
    (hmore : machine.run s more = .ok last) :
    more.length ≤ s.work ∧
      ((forall act, last.busy act = false) ->
        forall t p n, RunningPeer last t p n ->
          (exists username, p.stage = .polling username) ∧ p.rx = [] ∧
          p.taken = (heard last.log n p.addr).map (fun x => x.1.text)) := by
  have hstart := present_of_run hdistinct hrun
  refine ⟨Machine.length_le_of_along State.work
    (fun s act next => present_step) hstart hbusy hmore, ?_⟩
  intro hidle t p n hp
  have hlast : Sound last ∧ Present last := by
    refine Machine.run_invariant (I := fun s => Sound s ∧ Present s) ?_
      hstart hbusy hmore
    intro s act next h hact hnext
    exact (present_step h hact hnext).1
  rcases polling_of_idle hlast.1 hidle hp with ⟨hstage, hrx⟩
  have hgot := hp.got hlast.1 hlast.2
  rw [hrx, List.append_nil] at hgot
  exact ⟨hstage, hrx, hgot⟩

def firstCatchesUp : List (Act Nat) :=
  [.task 0 (.polled none), .task 0 (.sent true), .task 0 (.polled none),
    .task 0 (.sent true)]

theorem delivered_after_secondTurn :
    exists (s last : State Nat) (p : Task Nat),
      machine.run State.new secondTurn = .ok s ∧
      machine.run s firstCatchesUp = .ok last ∧
      firstCatchesUp.length ≤ s.work ∧ RunningPeer last 0 p 0 ∧ p.rx = [] ∧
      p.taken = ["bob has joined the chat", "bob: hi",
        "bob has left the chat"] ∧
      p.taken = (heard last.log 0 p.addr).map (fun x => x.1.text) := by
  have hend : okWith (fun s : State Nat =>
      decide (machine.Along (fun s act => s.busy act = true) s
        firstCatchesUp) &&
      okWith (fun last : State Nat => decide (last.work = 0) &&
        (last.tasks[0]?).any (fun p => decide (p.start = some 0 ∧
          p.stage.running = true ∧ p.taken = ["bob has joined the chat",
            "bob: hi", "bob has left the chat"])))
        (machine.run s firstCatchesUp))
      (machine.run State.new secondTurn) = true := by
    decide +kernel
  rcases exists_of_okWith hend with ⟨s, hrun, hs⟩
  rcases Bool.and_eq_true_iff.mp hs with ⟨hbusy, hmoved⟩
  rcases exists_of_okWith hmoved with ⟨last, hmore, hlast⟩
  rw [Bool.and_eq_true, Option.any_eq_true] at hlast
  rcases hlast with ⟨hwork, p, hp, hchecked⟩
  rcases of_decide_eq_true hchecked with ⟨hstart, hrunning, htaken⟩
  have hpeer : RunningPeer last 0 p 0 := ⟨hp, hstart, hrunning⟩
  have hsound : Sound last := by
    have hboth := (Machine.run_append hrun firstCatchesUp).trans hmore
    exact (present_of_run (by decide) hboth).1
  have hidle : forall act, last.busy act = false := by
    intro act
    by_contra hact
    rw [Bool.not_eq_false] at hact
    have hless := work_step hsound hact
    rw [of_decide_eq_true hwork] at hless
    exact Nat.not_lt_zero _ hless
  rcases delivered_when_silent (by decide) hrun (of_decide_eq_true hbusy)
    hmore with ⟨hlength, hdelivered⟩
  rcases hdelivered hidle 0 p 0 hpeer with ⟨_, hrx, hheard⟩
  exact ⟨s, last, p, hrun, hmore, hlength, hpeer, hrx, htaken, hheard⟩

end Chat
end NetExperiment
