import Mathlib.Logic.Function.Basic

/-!
# Heaps of objects with a lifetime

A heap maps pointers to cells.  A cell that was released stays marked as
released, so that a later use or a second release of it is seen as a fault and
not as an access to some other object.  A released pointer may be handed out
again by a later allocation.
-/

namespace NetExperiment
namespace Foundation

abbrev Byte := UInt8

/-- What a program does wrong with memory.  The kind says which of the
program's resources the pointer belongs to. -/
inductive Fault (kind ptr : Type _) where
  | nullPointer (k : kind)
  | unassigned (k : kind)
  | wildPointer (k : kind) (p : ptr)
  | useAfterFree (k : kind) (p : ptr)
  | doubleFree (k : kind) (p : ptr)
deriving DecidableEq, Repr

/-!
Computations that can fault are run by rewriting.
-/

@[simp] theorem ok_bind {alpha beta fault : Type _} (a : alpha)
    (f : alpha -> Except fault beta) : (Except.ok a >>= f) = f a := rfl

@[simp] theorem pure_eq_ok {alpha fault : Type _} (a : alpha) :
    (pure a : Except fault alpha) = .ok a := rfl

inductive Cell (alpha : Type _) where
  | absent
  | live (value : alpha)
  | freed
deriving DecidableEq, Repr

namespace Cell

variable {alpha : Type _}

def IsLive (c : Cell alpha) : Prop :=
  exists value, c = .live value

theorem isLive_live (value : alpha) : (Cell.live value).IsLive :=
  ⟨value, rfl⟩

theorem not_isLive_freed : ¬ (Cell.freed : Cell alpha).IsLive := by
  intro h
  rcases h with ⟨_, h⟩
  cases h

theorem not_isLive_absent : ¬ (Cell.absent : Cell alpha).IsLive := by
  intro h
  rcases h with ⟨_, h⟩
  cases h

def liveWith (check : alpha -> Bool) : Cell alpha -> Bool
  | .live value => check value
  | .absent => false
  | .freed => false

theorem exists_of_liveWith {check : alpha -> Bool} {c : Cell alpha}
    (h : c.liveWith check = true) :
    exists value, c = .live value ∧ check value = true := by
  cases c with
  | absent => cases h
  | live value => exact ⟨value, rfl, h⟩
  | freed => cases h

instance (c : Cell alpha) : Decidable c.IsLive :=
  match c with
  | .absent => .isFalse not_isLive_absent
  | .live value => .isTrue (isLive_live value)
  | .freed => .isFalse not_isLive_freed

/-- Whether a live object has a property is found by looking at it. -/
instance (c : Cell alpha) (P : alpha -> Prop) [DecidablePred P] :
    Decidable (exists value, c = .live value ∧ P value) :=
  match c with
  | .absent => .isFalse fun h => by rcases h with ⟨_, h, _⟩; cases h
  | .live value => decidable_of_iff (P value)
      ⟨fun h => ⟨value, rfl, h⟩,
        fun h => by rcases h with ⟨_, heq, h⟩; cases heq; exact h⟩
  | .freed => .isFalse fun h => by rcases h with ⟨_, h, _⟩; cases h

end Cell

/-- A member that the constructor of its object may leave unassigned. -/
inductive Member (alpha : Type _) where
  | unassigned
  | assigned (value : alpha)
deriving DecidableEq, Repr

def Member.get {kind ptr alpha : Type _} (k : kind) :
    Member alpha -> Except (Fault kind ptr) alpha
  | .unassigned => .error (.unassigned k)
  | .assigned value => .ok value

@[simp] theorem Member.get_assigned {kind ptr alpha : Type _} (k : kind)
    (value : alpha) :
    ((Member.assigned value).get k : Except (Fault kind ptr) alpha) =
      .ok value := rfl

abbrev Heap (ptr alpha : Type _) := ptr -> Cell alpha

namespace Heap

variable {kind ptr alpha : Type _} [DecidableEq ptr]

def empty : Heap ptr alpha :=
  fun _ => .absent

def alloc (H : Heap ptr alpha) (p : ptr) (value : alpha) : Heap ptr alpha :=
  Function.update H p (.live value)

def read (H : Heap ptr alpha) (k : kind) (p : ptr) :
    Except (Fault kind ptr) alpha :=
  match H p with
  | .absent => .error (.wildPointer k p)
  | .live value => .ok value
  | .freed => .error (.useAfterFree k p)

def modify (H : Heap ptr alpha) (k : kind) (p : ptr) (f : alpha -> alpha) :
    Except (Fault kind ptr) (Heap ptr alpha) :=
  match H p with
  | .absent => .error (.wildPointer k p)
  | .live value => .ok (Function.update H p (.live (f value)))
  | .freed => .error (.useAfterFree k p)

def free (H : Heap ptr alpha) (k : kind) (p : ptr) :
    Except (Fault kind ptr) (Heap ptr alpha) :=
  match H p with
  | .absent => .error (.wildPointer k p)
  | .live _ => .ok (Function.update H p .freed)
  | .freed => .error (.doubleFree k p)

omit [DecidableEq ptr] in
theorem read_live {H : Heap ptr alpha} {p : ptr} {value : alpha} (k : kind)
    (h : H p = .live value) : H.read k p = .ok value := by
  simp [read, h]

theorem modify_live {H : Heap ptr alpha} {p : ptr} {value : alpha} (k : kind)
    (f : alpha -> alpha) (h : H p = .live value) :
    H.modify k p f = .ok (Function.update H p (.live (f value))) := by
  simp [modify, h]

theorem free_live {H : Heap ptr alpha} {p : ptr} {value : alpha} (k : kind)
    (h : H p = .live value) :
    H.free k p = .ok (Function.update H p .freed) := by
  simp [free, h]

theorem free_freed {H : Heap ptr alpha} {p : ptr} (k : kind)
    (h : H p = .freed) : H.free k p = .error (.doubleFree k p) := by
  simp [free, h]

/-!
## Parts of a heap

A program part that owns a few pointers sees a small heap of its own, indexed by
names for these pointers.  The rest of the heap is a background that it does not
touch.
-/

theorem update_extend {name beta : Type _} [DecidableEq name]
    {place : name -> ptr} (hplace : Function.Injective place)
    (part : name -> beta) (rest : ptr -> beta) (x : name) (c : beta) :
    Function.update (Function.extend place part rest) (place x) c =
      Function.extend place (Function.update part x c) rest := by
  funext p
  by_cases howned : exists z, place z = p
  · rcases howned with ⟨z, rfl⟩
    rw [hplace.extend_apply]
    by_cases hz : z = x
    · rw [hz, Function.update_self, Function.update_self]
    · have hp : place z ≠ place x := fun h => hz (hplace h)
      rw [Function.update_of_ne hp, Function.update_of_ne hz,
        hplace.extend_apply]
  · have hp : p ≠ place x := fun h => howned ⟨x, h.symm⟩
    rw [Function.update_of_ne hp, Function.extend_apply' _ _ _ howned,
      Function.extend_apply' _ _ _ howned]

omit [DecidableEq ptr] in
theorem extend_self {name beta : Type _} {place : name -> ptr}
    (part : name -> beta) {heap : ptr -> beta}
    (h : forall x, heap (place x) = part x) :
    Function.extend place part heap = heap := by
  classical
  funext p
  by_cases howned : exists x, place x = p
  · rw [Function.extend_def, dif_pos howned, ← h, howned.choose_spec]
  · exact Function.extend_apply' _ _ _ howned

end Heap
end Foundation
end NetExperiment
