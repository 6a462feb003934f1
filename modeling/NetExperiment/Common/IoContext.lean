import NetExperiment.Foundation.CString
import NetExperiment.Foundation.Machine
import Mathlib.Data.List.Perm.Basic

/-!
# The event bases of a program

An `IoContext` owns one event base for each thread.  The first one is the main
base, which accepts connections; connections are spread over the others in
turn.  `listen` turns an address string into a listening socket.

The constructor assigns neither the index of the next base nor the address, so
a new object has there what its storage held before.
-/

namespace NetExperiment
namespace Common

open Foundation

/-- What the program does wrong with memory. -/
inductive Misuse where
  | outOfBounds (index : Int)
  | bufferOverflow
  | nullPointer
deriving DecidableEq, Repr

/-- A socket address.  All zero bytes is an address of no family. -/
inductive SockAddr where
  | unspec
  | in4 (addr : BitVec 32) (port : BitVec 16)
  | in6 (addr : BitVec 128) (scope : BitVec 32) (port : BitVec 16)
deriving DecidableEq, Repr

structure IoContext (base : Type) where
  threads : Int
  choseIoIndex : Int
  baseArray : List base
  listenOnAddr : SockAddr
  address : List Byte
  sized : baseArray.length = threads.toNat

/-- The members that the constructor does not assign. -/
structure Storage where
  choseIoIndex : Int
  listenOnAddr : SockAddr

namespace IoContext

variable {base : Type}

def construct (storage : Storage) (threads : Int)
    (eventBaseNew : Nat -> base) : IoContext base where
  threads := threads
  choseIoIndex := storage.choseIoIndex
  baseArray := (List.range threads.toNat).map eventBaseNew
  listenOnAddr := storage.listenOnAddr
  address := []
  sized := by rw [List.length_map, List.length_range]

/-!
## Choosing a base
-/

def baseAt (c : IoContext base) (i : Int) : Except Misuse base :=
  if 0 ≤ i then
    match c.baseArray[i.toNat]? with
    | some b => .ok b
    | none => .error (.outOfBounds i)
  else .error (.outOfBounds i)

/-- The index of the base to use, and the context with the next index. -/
def choose (c : IoContext base) : Int × IoContext base :=
  if c.threads = 1 then (0, c)
  else
    let c := if c.threads ≤ c.choseIoIndex then { c with choseIoIndex := 1 }
      else c
    (c.choseIoIndex, { c with choseIoIndex := c.choseIoIndex + 1 })

def ioBase (c : IoContext base) : Except Misuse (base × IoContext base) := do
  let (index, next) := c.choose
  let b <- c.baseAt index
  return (b, next)

def ioBases : Nat -> IoContext base ->
    Except Misuse (List base × IoContext base)
  | 0, c => .ok ([], c)
  | n + 1, c => do
      let (b, c) <- c.ioBase
      let (bases, c) <- ioBases n c
      return (b :: bases, c)

def machine : Machine (IoContext base) Unit Misuse where
  step := fun c _ => do
    let (_, c) <- c.ioBase
    return c

/-- The next call uses an index in range, which is that of the main base only if
there is no other one, and the next calls return each of the other bases
once. -/
structure Fair (c : IoContext base) : Prop where
  inRange : 0 ≤ c.choose.1 ∧ c.choose.1 < c.threads
  single : c.threads = 1 -> c.choose.1 = 0
  notMain : 2 ≤ c.threads -> c.choose.1 ≠ 0
  rotation : 2 ≤ c.threads ->
    exists bases next, c.ioBases (c.threads - 1).toNat = .ok (bases, next) ∧
      bases.Perm (c.baseArray.drop 1)

theorem choose_single {c : IoContext base} (h : c.threads = 1) :
    c.choose = (0, c) := by
  unfold choose
  rw [if_pos h]

theorem choose_ahead {c : IoContext base} (h : 2 ≤ c.threads)
    (hindex : c.choseIoIndex < c.threads) :
    c.choose =
      (c.choseIoIndex, { c with choseIoIndex := c.choseIoIndex + 1 }) := by
  unfold choose
  rw [if_neg (by omega)]
  simp only [if_neg (Int.not_le.mpr hindex)]

theorem choose_wrapped {c : IoContext base} (h : 2 ≤ c.threads)
    (hindex : c.threads ≤ c.choseIoIndex) :
    c.choose = ({ c with choseIoIndex := 1 } : IoContext base).choose := by
  have hone : ({ c with choseIoIndex := 1 } : IoContext base).choseIoIndex <
      c.threads := h
  rw [choose_ahead (c := { c with choseIoIndex := 1 }) h hone]
  unfold choose
  rw [if_neg (by omega)]
  simp only [if_pos hindex]

theorem baseAt_of_lt {c : IoContext base} {i : Int} (hpos : 0 ≤ i)
    (hlt : i < c.threads) :
    exists b, c.baseArray[i.toNat]? = some b ∧ c.baseAt i = .ok b := by
  have hlength : i.toNat < c.baseArray.length := by
    rw [c.sized]
    omega
  refine ⟨c.baseArray[i.toNat], List.getElem?_eq_getElem hlength, ?_⟩
  unfold baseAt
  rw [if_pos hpos, List.getElem?_eq_getElem hlength]

theorem ioBase_of_choose {c next : IoContext base} {i : Int} {b : base}
    (hchoose : c.choose = (i, next)) (hbase : c.baseAt i = .ok b) :
    c.ioBase = .ok (b, next) := by
  unfold ioBase
  rw [hchoose]
  simp only [hbase, ok_bind]
  rfl

theorem ioBase_ahead {c : IoContext base} (h : 2 ≤ c.threads) {i : Nat}
    (hindex : c.choseIoIndex = i) (hlt : i < c.baseArray.length) :
    c.ioBase = .ok (c.baseArray[i], { c with choseIoIndex := (i : Int) + 1 })
      := by
  have hthreads : (i : Int) < c.threads := by
    have hsized := c.sized
    omega
  have hbase : c.baseAt i = .ok c.baseArray[i] := by
    unfold baseAt
    rw [if_pos (by omega), Int.toNat_natCast, List.getElem?_eq_getElem hlt]
  refine ioBase_of_choose ?_ hbase
  rw [choose_ahead h (by rw [hindex]; exact hthreads), hindex]

theorem ioBases_ahead {c : IoContext base} (h : 2 ≤ c.threads) {i n : Nat}
    (hindex : c.choseIoIndex = i) (hlength : i + n ≤ c.baseArray.length) :
    c.ioBases n = .ok ((c.baseArray.drop i).take n,
      { c with choseIoIndex := (i : Int) + n }) := by
  induction n generalizing c i with
  | zero =>
      unfold ioBases
      rw [List.take_zero, Int.natCast_zero, Int.add_zero, ← hindex]
  | succ n ih =>
      have hlt : i < c.baseArray.length := by omega
      unfold ioBases
      rw [ioBase_ahead h hindex hlt, ok_bind]
      dsimp only
      rw [ih (c := { c with choseIoIndex := (i : Int) + 1 }) (i := i + 1) h
        (by push_cast; rfl) (by show i + 1 + n ≤ c.baseArray.length; omega),
        ok_bind, List.drop_eq_getElem_cons hlt, List.take_succ_cons]
      dsimp only
      congr 3
      omega

theorem ioBases_succ_ok {c last : IoContext base} {n : Nat}
    {bases : List base} (h : c.ioBases (n + 1) = .ok (bases, last)) :
    exists b next rest, c.ioBase = .ok (b, next) ∧
      next.ioBases n = .ok (rest, last) ∧ bases = b :: rest := by
  unfold ioBases at h
  cases hbase : c.ioBase with
  | error e =>
      rw [hbase] at h
      cases h
  | ok first =>
      rcases first with ⟨b, next⟩
      rw [hbase, ok_bind] at h
      dsimp only at h
      cases hrest : next.ioBases n with
      | error e =>
          rw [hrest] at h
          cases h
      | ok others =>
          rw [hrest] at h
          cases h
          exact ⟨b, next, others.1, rfl, hrest, rfl⟩

theorem ioBases_append {c mid last : IoContext base} {m n : Nat}
    {front rest : List base} (hfront : c.ioBases m = .ok (front, mid))
    (hrest : mid.ioBases n = .ok (rest, last)) :
    c.ioBases (m + n) = .ok (front ++ rest, last) := by
  induction m generalizing c front with
  | zero =>
      cases hfront
      rw [Nat.zero_add]
      exact hrest
  | succ m ih =>
      rcases ioBases_succ_ok hfront with ⟨b, next, others, hbase, hothers, rfl⟩
      rw [Nat.add_right_comm]
      unfold ioBases
      rw [hbase, ok_bind]
      dsimp only
      rw [ih hothers, ok_bind]
      rfl

theorem ioBases_wrapped {c : IoContext base} (h : 2 ≤ c.threads)
    (hindex : c.threads ≤ c.choseIoIndex) (n : Nat) :
    c.ioBases (n + 1) =
      ({ c with choseIoIndex := 1 } : IoContext base).ioBases (n + 1) := by
  unfold ioBases ioBase
  rw [choose_wrapped h hindex]
  rfl

/-- Once around from an index after the main base: the bases from there to the
end, and then those before it. -/
theorem exists_ioBases_around {c : IoContext base} (h : 2 ≤ c.threads)
    {i : Nat} (hindex : c.choseIoIndex = i + 1)
    (hlt : i < c.baseArray.length) :
    exists bases next, c.ioBases (c.threads - 1).toNat = .ok (bases, next) ∧
      bases.Perm (c.baseArray.drop 1) := by
  have hsized := c.sized
  have hfront := ioBases_ahead h (i := i + 1)
    (n := c.baseArray.length - (i + 1)) (by rw [hindex]; push_cast; rfl)
    (by omega)
  rw [List.take_of_length_le (by rw [List.length_drop])] at hfront
  have hall : (c.threads - 1).toNat = c.baseArray.length - (i + 1) + i := by
    omega
  rw [hall]
  cases i with
  | zero => exact ⟨_, _, hfront, List.Perm.refl _⟩
  | succ j =>
      have hwrapped := ioBases_wrapped
        (c := { c with
          choseIoIndex := ((j + 1 + 1 : Nat) : Int) +
            (c.baseArray.length - (j + 1 + 1) : Nat) }) h
        (by dsimp only; omega) j
      have hrest := ioBases_ahead (c := { c with choseIoIndex := 1 }) h
        (i := 1) (n := j + 1) rfl
        (by show 1 + (j + 1) ≤ c.baseArray.length; omega)
      refine ⟨_, _, ioBases_append hfront (hwrapped.trans hrest), ?_⟩
      have hdrop : c.baseArray.drop (j + 1 + 1) =
          (c.baseArray.drop 1).drop (j + 1) := by
        rw [List.drop_drop, Nat.add_comm 1]
      rw [hdrop]
      refine List.perm_append_comm.trans ?_
      rw [List.take_append_drop]

/-!
## The rotation
-/

structure Turning (c : IoContext base) : Prop where
  threads_pos : 1 ≤ c.threads
  index : c.threads = 1 ∨ 1 ≤ c.choseIoIndex

theorem fair_single {c : IoContext base} (h : c.threads = 1) : c.Fair := by
  have hchoose : c.choose.1 = 0 := by rw [choose_single h]
  refine ⟨?_, fun _ => hchoose, ?_, ?_⟩
  · rw [hchoose, h]
    exact ⟨Int.le_refl 0, Int.zero_lt_one⟩
  · intro htwo
    omega
  · intro htwo
    omega

theorem fair_ahead {c : IoContext base} (h : 2 ≤ c.threads)
    (hpos : 1 ≤ c.choseIoIndex) (hlt : c.choseIoIndex < c.threads) :
    c.Fair := by
  have hchoose : c.choose.1 = c.choseIoIndex := by rw [choose_ahead h hlt]
  have hsized := c.sized
  refine ⟨?_, ?_, ?_, ?_⟩
  · rw [hchoose]
    exact ⟨by omega, hlt⟩
  · intro hone
    omega
  · intro _
    rw [hchoose]
    omega
  · intro _
    exact exists_ioBases_around h (i := (c.choseIoIndex - 1).toNat) (by omega)
      (by omega)

theorem fair_wrapped {c : IoContext base} (h : 2 ≤ c.threads)
    (hindex : c.threads ≤ c.choseIoIndex) : c.Fair := by
  have hone : ({ c with choseIoIndex := 1 } : IoContext base).Fair :=
    fair_ahead h (Int.le_refl 1) h
  have hcalls : (c.threads - 1).toNat = (c.threads - 2).toNat + 1 := by omega
  refine ⟨?_, ?_, ?_, ?_⟩
  · rw [choose_wrapped h hindex]
    exact hone.inRange
  · intro hsingle
    omega
  · intro htwo
    rw [choose_wrapped h hindex]
    exact hone.notMain htwo
  · intro htwo
    rcases hone.rotation htwo with ⟨bases, next, hbases, hperm⟩
    refine ⟨bases, next, ?_, hperm⟩
    rw [hcalls] at hbases ⊢
    rw [ioBases_wrapped h hindex]
    exact hbases

theorem Turning.fair {c : IoContext base} (h : c.Turning) : c.Fair := by
  by_cases hsingle : c.threads = 1
  · exact fair_single hsingle
  · have htwo : 2 ≤ c.threads := by
      have hpos := h.threads_pos
      omega
    have hindex := h.index.resolve_left hsingle
    by_cases hlt : c.choseIoIndex < c.threads
    · exact fair_ahead htwo hindex hlt
    · exact fair_wrapped htwo (Int.not_lt.mp hlt)

theorem Turning.step {c : IoContext base} (h : c.Turning) :
    exists next, machine.step c () = .ok next ∧ next.Turning := by
  rcases baseAt_of_lt h.fair.inRange.1 h.fair.inRange.2 with ⟨b, _, hbase⟩
  have hcall : c.ioBase = .ok (b, c.choose.2) :=
    ioBase_of_choose rfl hbase
  refine ⟨c.choose.2, ?_, ?_⟩
  · show (do let (_, c) <- c.ioBase; return c) = _
    rw [hcall]
    rfl
  · unfold choose
    split
    · exact h
    · rename_i hsingle
      have hindex := h.index.resolve_left hsingle
      dsimp only
      split
      · exact ⟨h.threads_pos, .inr (by dsimp only; omega)⟩
      · exact ⟨h.threads_pos, .inr (by dsimp only; omega)⟩

theorem turning_of_fair {c : IoContext base} (hpos : 1 ≤ c.threads)
    (h : c.Fair) : c.Turning := by
  refine ⟨hpos, ?_⟩
  by_cases hsingle : c.threads = 1
  · exact .inl hsingle
  · right
    have htwo : 2 ≤ c.threads := by omega
    by_cases hlt : c.choseIoIndex < c.threads
    · have hrange := h.inRange.1
      have hmain := h.notMain htwo
      rw [choose_ahead htwo hlt] at hrange hmain
      dsimp only at hrange hmain
      omega
    · omega

/-- The calls of a new context go round the bases after the main base, exactly
if there is one thread or the storage of the object held a positive index. -/
theorem fair_iff_positive_storage (storage : Storage) {threads : Int}
    (hthreads : 1 ≤ threads) (eventBaseNew : Nat -> base) (calls : List Unit) :
    machine.Always Fair (construct storage threads eventBaseNew) calls <->
      threads = 1 ∨ 1 ≤ storage.choseIoIndex := by
  constructor
  · intro h
    exact (turning_of_fair hthreads h.head).index
  · intro h
    exact Machine.always_of_step (I := Turning) (fun _ => Turning.fair)
      (fun _ _ hc => hc.step) ⟨hthreads, h⟩ calls

theorem fair_of_one_in_storage :
    (1 : Int) ≤ 3 ∧ machine.Always Fair
      (construct { choseIoIndex := 1, listenOnAddr := .unspec } 3
        (fun i => i)) [(), (), (), ()] :=
  ⟨by decide, (fair_iff_positive_storage _ (by decide) _ _).mpr
    (.inr (by decide))⟩

/-- Storage that held zero makes the first call return the main base, and
storage that held a negative number makes it read before the array. -/
theorem stale_index_not_fair :
    (construct { choseIoIndex := 0, listenOnAddr := .unspec } 2
        (fun i => i)).choose.1 = 0 ∧
      (construct { choseIoIndex := -1, listenOnAddr := .unspec } 2
        (fun i => i)).ioBase = .error (.outOfBounds (-1)) ∧
      ¬ machine.Always Fair
        (construct { choseIoIndex := 0, listenOnAddr := .unspec } 2
          (fun i => i)) [] := by
  refine ⟨by decide, rfl, ?_⟩
  intro h
  exact h.head.notMain (by decide) (by decide)

end IoContext
end Common
end NetExperiment
