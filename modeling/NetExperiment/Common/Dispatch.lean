import NetExperiment.Common.IoContext
import NetExperiment.Foundation.Heap
import Mathlib.Data.List.Nodup

/-!
# Which connections are served

A connection makes progress only while the loop of its event base runs.
`dispatch` runs the loop of the main base and no other one: the threads that
would run the others are still to be written.  The bases of connections are asked
for before the loop is entered and while it runs.  The loop may run for ever; if
it returns, all bases are freed.
-/

namespace NetExperiment
namespace Common

open Foundation

inductive Kind where
  | eventBase
deriving DecidableEq, Repr

inductive DispatchFault (base : Type) where
  | misuse (m : Misuse)
  | fault (f : Fault Kind base)
deriving DecidableEq, Repr

inductive Stage where
  | created
  | dispatching
  | freed
deriving DecidableEq, Repr

/-- A context with its event bases, the bases that connections got, and those
whose loop was entered. -/
structure Program (base : Type) where
  context : IoContext base
  heap : Heap base Unit
  stage : Stage
  handedOut : List base
  dispatched : List base

/-- A call of `io_base`, of `dispatch`, and the return of the loop that `dispatch`
has entered. -/
inductive ProgramAction where
  | ioBase
  | dispatch
  | returned
deriving DecidableEq, Repr

variable {base : Type} [DecidableEq base]

def eventBaseFree (heap : Heap base Unit) (b : base) :
    Except (DispatchFault base) (Heap base Unit) :=
  (heap.free Kind.eventBase b).mapError .fault

namespace IoContext

def mainBase (c : IoContext base) : Except Misuse base :=
  c.baseAt 0

def free (c : IoContext base) (heap : Heap base Unit) :
    Except (DispatchFault base) (Heap base Unit) :=
  c.baseArray.foldlM eventBaseFree heap

end IoContext

namespace Program

def new (c : IoContext base) : Program base where
  context := c
  heap := fun b => if b ∈ c.baseArray then .live () else .absent
  stage := .created
  handedOut := []
  dispatched := []

def enter (s : Program base) : Except (DispatchFault base) (Program base) := do
  let main <- s.context.mainBase.mapError .misuse
  let _ <- (s.heap.read Kind.eventBase main).mapError .fault
  return { s with
    stage := .dispatching
    dispatched := s.dispatched ++ [main] }

/-- What `dispatch` does after the loop. -/
def leave (s : Program base) : Except (DispatchFault base) (Program base) := do
  let heap <- s.context.free s.heap
  return { s with heap := heap, stage := .freed }

def ioBase (s : Program base) : Except (DispatchFault base) (Program base) := do
  let (b, c) <- s.context.ioBase.mapError .misuse
  return { s with context := c, handedOut := s.handedOut ++ [b] }

/-- The program calls `dispatch` once. -/
def step (s : Program base) :
    ProgramAction -> Except (DispatchFault base) (Program base)
  | .ioBase => s.ioBase
  | .dispatch => if s.stage = .created then s.enter else .ok s
  | .returned => if s.stage = .dispatching then s.leave else .ok s

def machine : Machine (Program base) ProgramAction (DispatchFault base) where
  step := step

end Program

namespace IoContext

/-!
## The bases that are handed out
-/

omit [DecidableEq base] in
theorem choose_keeps (c : IoContext base) :
    c.choose.2.threads = c.threads ∧ c.choose.2.baseArray = c.baseArray := by
  unfold choose
  split
  · exact ⟨rfl, rfl⟩
  · dsimp only
    split
    · exact ⟨rfl, rfl⟩
    · exact ⟨rfl, rfl⟩

omit [DecidableEq base] in
theorem Turning.ioBase {c : IoContext base} (h : c.Turning) :
    exists b next, c.ioBase = .ok (b, next) ∧ next.Turning ∧
      next.threads = c.threads ∧ next.baseArray = c.baseArray ∧
      exists i, c.baseArray[i]? = some b ∧ (i = 0 <-> c.threads = 1) := by
  have hfair := h.fair
  rcases baseAt_of_lt hfair.inRange.1 hfair.inRange.2 with ⟨b, hget, hbase⟩
  have hcall : c.ioBase = .ok (b, c.choose.2) := ioBase_of_choose rfl hbase
  rcases h.step with ⟨next, hnext, hturning⟩
  have hsame : machine.step c () = .ok c.choose.2 := by
    simp only [machine, hcall]
    rfl
  rw [hsame] at hnext
  cases hnext
  refine ⟨b, _, hcall, hturning, (choose_keeps c).1, (choose_keeps c).2,
    _, hget, ?_, ?_⟩
  · intro hzero
    by_contra hmany
    have hpos := h.threads_pos
    have hmain := hfair.notMain (by omega)
    have hrange := hfair.inRange.1
    omega
  · intro hone
    rw [hfair.single hone]
    rfl

/-!
## Freeing the bases
-/

theorem foldlM_free {bases : List base} (hnodup : bases.Nodup)
    {heap : Heap base Unit}
    (hlive : forall b, b ∈ bases -> heap b = .live ()) :
    exists heap', bases.foldlM eventBaseFree heap = .ok heap' ∧
      forall b, heap' b = if b ∈ bases then .freed else heap b := by
  induction bases generalizing heap with
  | nil => exact ⟨heap, rfl, fun b => (if_neg List.not_mem_nil).symm⟩
  | cons b rest ih =>
      rcases List.nodup_cons.mp hnodup with ⟨hnot, hrest⟩
      have hfree : eventBaseFree heap b =
          .ok (Function.update heap b .freed) := by
        unfold eventBaseFree
        rw [Heap.free_live _ (hlive b List.mem_cons_self)]
        rfl
      have hothers : forall b', b' ∈ rest ->
          Function.update heap b .freed b' = .live () := by
        intro b' hb'
        have hne : b' ≠ b := fun heq => hnot (heq ▸ hb')
        rw [Function.update_of_ne hne]
        exact hlive b' (List.mem_cons_of_mem b hb')
      rcases ih hrest hothers with ⟨heap', hheap', hcells⟩
      refine ⟨heap', ?_, ?_⟩
      · rw [List.foldlM_cons, hfree]
        exact hheap'
      · intro b'
        rw [hcells]
        by_cases hb' : b' ∈ rest
        · rw [if_pos hb', if_pos (List.mem_cons_of_mem b hb')]
        · rw [if_neg hb']
          by_cases heq : b' = b
          · rw [heq, if_pos List.mem_cons_self]
            exact Function.update_self _ _ _
          · have hnotmem : b' ∉ b :: rest := fun hmem =>
              (List.mem_cons.mp hmem).elim heq hb'
            rw [if_neg hnotmem]
            exact Function.update_of_ne heq _ _

omit [DecidableEq base] in
theorem construct_getElem? (storage : Storage) {threads : Int}
    (eventBaseNew : Nat -> base) {i : Nat} (h : i < threads.toNat) :
    (construct storage threads eventBaseNew).baseArray[i]? =
      some (eventBaseNew i) := by
  show ((List.range threads.toNat).map eventBaseNew)[i]? = _
  rw [List.getElem?_map, List.getElem?_range h]
  rfl

end IoContext

/-!
## Served connections
-/

namespace Program

/-- What holds in every state.  The context is the new one but for its index, the
bases that were handed out are the main base only if there is no other one, and
the bases are live until the loop has returned. -/
structure Held (c : IoContext base) (main : base) (s : Program base) :
    Prop where
  turning : s.context.Turning
  threads : s.context.threads = c.threads
  baseArray : s.context.baseArray = c.baseArray
  handedOut : forall b, b ∈ s.handedOut ->
    exists i, c.baseArray[i]? = some b ∧ (i = 0 <-> c.threads = 1)
  dispatched : s.dispatched = if s.stage = .created then [] else [main]
  cells : forall b, b ∈ c.baseArray ->
    s.heap b = if s.stage = .freed then .freed else .live ()

section Held

variable {c : IoContext base} {main : base} {s : Program base}

omit [DecidableEq base] in
theorem Held.ioBase (h : Held c main s) :
    exists next, s.ioBase = .ok next ∧ Held c main next := by
  rcases h.turning.ioBase with
    ⟨b, next, hcall, hturning, hthreads, harray, i, hget, hi⟩
  refine ⟨{ s with context := next, handedOut := s.handedOut ++ [b] }, ?_,
    hturning, hthreads.trans h.threads, harray.trans h.baseArray, ?_,
    h.dispatched, h.cells⟩
  · unfold Program.ioBase
    rw [hcall]
    rfl
  · intro b' hb'
    rcases List.mem_append.mp hb' with hold | hnew
    · exact h.handedOut b' hold
    · rw [List.mem_singleton.mp hnew]
      rw [h.baseArray] at hget
      rw [h.threads] at hi
      exact ⟨i, hget, hi⟩

omit [DecidableEq base] in
theorem Held.enter (h : Held c main s) (hmain : c.baseArray[0]? = some main)
    (hstage : s.stage = .created) :
    exists next, s.enter = .ok next ∧ Held c main next := by
  have hpos := h.turning.threads_pos
  rcases IoContext.baseAt_of_lt (c := s.context) (Int.le_refl 0)
    hpos with ⟨b, hget, hbase⟩
  have hsame : c.baseArray[0]? = some b := by
    rw [← h.baseArray]
    exact hget
  rw [hmain] at hsame
  cases hsame
  have hlive : s.heap main = .live () := by
    rw [h.cells main (List.mem_of_getElem? hmain), hstage]
    rfl
  refine ⟨{ s with
      stage := .dispatching
      dispatched := s.dispatched ++ [main] }, ?_, h.turning, h.threads,
    h.baseArray, h.handedOut, ?_, ?_⟩
  · have hfirst : s.context.mainBase.mapError .misuse =
        (.ok main : Except (DispatchFault base) base) := by
      unfold IoContext.mainBase
      rw [hbase]
      rfl
    unfold Program.enter
    rw [hfirst, ok_bind, Heap.read_live _ hlive]
    rfl
  · rw [h.dispatched, hstage]
    rfl
  · intro b hb
    rw [h.cells b hb, hstage]
    rfl

theorem Held.leave (h : Held c main s) (hnodup : c.baseArray.Nodup)
    (hstage : s.stage = .dispatching) :
    exists next, s.leave = .ok next ∧ Held c main next := by
  have hlive : forall b, b ∈ c.baseArray -> s.heap b = .live () := by
    intro b hb
    rw [h.cells b hb, hstage]
    rfl
  rcases IoContext.foldlM_free hnodup hlive with ⟨heap, hfree, hcells⟩
  refine ⟨{ s with heap := heap, stage := .freed }, ?_, h.turning, h.threads,
    h.baseArray, h.handedOut, ?_, ?_⟩
  · unfold Program.leave IoContext.free
    rw [h.baseArray, hfree]
    rfl
  · rw [h.dispatched, hstage]
    rfl
  · intro b hb
    exact (hcells b).trans (if_pos hb)

theorem Held.step (h : Held c main s) (hmain : c.baseArray[0]? = some main)
    (hnodup : c.baseArray.Nodup) (a : ProgramAction) :
    exists next, machine.step s a = .ok next ∧ Held c main next := by
  cases a with
  | ioBase => exact h.ioBase
  | dispatch =>
      simp only [machine, Program.step]
      by_cases hstage : s.stage = .created
      · rw [if_pos hstage]
        exact h.enter hmain hstage
      · rw [if_neg hstage]
        exact ⟨s, rfl, h⟩
  | returned =>
      simp only [machine, Program.step]
      by_cases hstage : s.stage = .dispatching
      · rw [if_pos hstage]
        exact h.leave hnodup hstage
      · rw [if_neg hstage]
        exact ⟨s, rfl, h⟩

end Held

/-- The loop of a base that was handed out is entered exactly if there is one
thread and `dispatch` was called.  All bases are live until the loop returns, and
freed afterwards. -/
structure Orderly (threads : Int) (eventBaseNew : Nat -> base)
    (s : Program base) : Prop where
  served : forall b, b ∈ s.handedOut ->
    (b ∈ s.dispatched <-> threads = 1 ∧ s.stage ≠ .created)
  cells : forall i, i < threads.toNat ->
    s.heap (eventBaseNew i) = if s.stage = .freed then .freed else .live ()

omit [DecidableEq base] in
theorem Held.orderly {storage : Storage} {threads : Int}
    {eventBaseNew : Nat -> base} (hnew : Function.Injective eventBaseNew)
    {s : Program base}
    (h : Held (.construct storage threads eventBaseNew) (eventBaseNew 0) s) :
    Orderly threads eventBaseNew s := by
  constructor
  case served =>
    intro b hb
    rcases h.handedOut b hb with ⟨i, hget, hi⟩
    have hsingle : i = 0 <-> threads = 1 := hi
    have hlt : i < threads.toNat := by
      have hbound := (List.getElem?_eq_some_iff.mp hget).1
      rw [(IoContext.construct storage threads eventBaseNew).sized] at hbound
      exact hbound
    rw [IoContext.construct_getElem? storage eventBaseNew hlt] at hget
    cases hget
    rw [h.dispatched, ← hsingle]
    by_cases hstage : s.stage = .created
    · rw [if_pos hstage]
      exact iff_of_false List.not_mem_nil (fun hboth => hboth.2 hstage)
    · rw [if_neg hstage, List.mem_singleton, hnew.eq_iff]
      exact ⟨fun hzero => ⟨hzero, hstage⟩, And.left⟩
  case cells =>
    intro i hi
    exact h.cells _ (List.mem_of_getElem?
      (IoContext.construct_getElem? storage eventBaseNew hi))

end Program
end Common
end NetExperiment
