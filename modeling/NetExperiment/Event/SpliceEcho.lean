import NetExperiment.Foundation.Heap
import NetExperiment.Foundation.Machine

/-!
# The blocking splice echo

One client is served by a loop of two calls: the first one moves bytes from the
socket to a pipe, and the second one moves as many from the pipe back to the
socket.  What the second call yields is not looked at, so what it leaves in the
pipe stays behind: a later pass asks for no more than it has just put in.

A pipe has a fixed number of slots, and a slot holds one buffer, however few
bytes are in it.  A call that finds all slots used waits, before it looks at the
socket.
-/

namespace NetExperiment
namespace SpliceEcho

open Foundation

def LEN : Nat := 655

inductive Stage where
  | looping
  | closed
  | exited
deriving DecidableEq, Repr

/-- What the client has sent and the loop has not taken yet, the buffers in the
pipe, and what the client got back. -/
structure State where
  stage : Stage
  unread : List Byte
  pipe : List (List Byte)
  echoed : List Byte
deriving DecidableEq, Repr

def State.new (bytes : List Byte) : State where
  stage := .looping
  unread := bytes
  pipe := []
  echoed := []

/-- What the calls of one pass yield: the buffers that the first one is to move
to the pipe, and how many bytes the second one is able to move.  A second call
that fails moves nothing. -/
inductive Calls where
  | granted (first : List (List Byte)) (second : Nat)
  | failed
deriving DecidableEq, Repr

/-- The first call moves the next bytes of the stream, no more than it asks for,
in buffers that the pipe has slots for. -/
def State.Fits (slots : Nat) (s : State) (first : List (List Byte)) : Prop :=
  first.flatten <+: s.unread ∧ first.flatten.length ≤ LEN ∧
    (forall buf, buf ∈ first -> buf ≠ []) ∧
    s.pipe.length + first.length ≤ slots

instance (slots : Nat) (s : State) (first : List (List Byte)) :
    Decidable (s.Fits slots first) :=
  inferInstanceAs (Decidable (_ ∧ _ ∧ _ ∧ _))

/-- The buffers that the first call moves.  It waits while there are none. -/
def State.taken (slots : Nat) (s : State) (first : List (List Byte)) :
    List (List Byte) :=
  if s.Fits slots first then first else []

/-- Take bytes from the front of the pipe.  A buffer that is used in part keeps
its slot. -/
def advance : Nat -> List (List Byte) -> List (List Byte)
  | _, [] => []
  | n, buf :: rest =>
      if buf.length ≤ n then advance (n - buf.length) rest
      else buf.drop n :: rest

def pass (slots : Nat) (s : State) (calls : Calls) : State :=
  match s.stage, calls with
  | .looping, .failed => { s with stage := .exited }
  | .looping, .granted first second =>
      if slots ≤ s.pipe.length then s
      else if s.unread = [] then { s with stage := .closed }
      else if s.taken slots first = [] then s
      else
        let n := (s.taken slots first).flatten.length
        let back := min second n
        { s with
          unread := s.unread.drop n
          pipe := advance back (s.pipe ++ s.taken slots first)
          echoed := s.echoed ++
            (s.pipe ++ s.taken slots first).flatten.take back }
  | _, _ => s

def machine (slots : Nat) : Machine State Calls Empty where
  step := fun s calls => .ok (pass slots s calls)

/-!
## What a pass can do
-/

inductive PassStep (slots : Nat) (s : State) : Calls -> State -> Prop where
  | idle (calls : Calls) :
      (s.stage = .looping -> exists first second,
        calls = .granted first second ∧ s.taken slots first = []) ->
      PassStep slots s calls s
  | exited : s.stage = .looping ->
      PassStep slots s .failed { s with stage := .exited }
  | closed (first : List (List Byte)) (second : Nat) : s.stage = .looping ->
      s.pipe.length < slots -> s.unread = [] -> s.taken slots first = [] ->
      PassStep slots s (.granted first second) { s with stage := .closed }
  | moved (first : List (List Byte)) (second back : Nat) :
      s.stage = .looping -> s.pipe.length < slots -> first ≠ [] ->
      s.Fits slots first -> back = min second first.flatten.length ->
      PassStep slots s (.granted first second)
        { stage := .looping
          unread := s.unread.drop first.flatten.length
          pipe := advance back (s.pipe ++ first)
          echoed := s.echoed ++ (s.pipe ++ first).flatten.take back }

theorem flatten_eq_nil {first : List (List Byte)}
    (hsome : forall buf, buf ∈ first -> buf ≠ [])
    (h : first.flatten = []) : first = [] := by
  cases first with
  | nil => rfl
  | cons buf rest =>
      have hbuf : buf = [] := (List.append_eq_nil_iff.mp h).1
      exact absurd hbuf (hsome buf List.mem_cons_self)

theorem taken_of_full {slots : Nat} {s : State} (h : slots ≤ s.pipe.length)
    (first : List (List Byte)) : s.taken slots first = [] := by
  unfold State.taken
  split
  · rename_i hfits
    have hslots := hfits.2.2.2
    exact List.eq_nil_of_length_eq_zero (by omega)
  · rfl

theorem taken_of_nil {slots : Nat} {s : State} (h : s.unread = [])
    (first : List (List Byte)) : s.taken slots first = [] := by
  unfold State.taken
  split
  · rename_i hfits
    have hprefix := hfits.1
    rw [h] at hprefix
    exact flatten_eq_nil hfits.2.2.1 (List.prefix_nil.mp hprefix)
  · rfl

theorem pass_looping {slots : Nat} {s : State} (h : s.stage = .looping)
    (first : List (List Byte)) (second : Nat) :
    PassStep slots s (.granted first second)
      (pass slots s (.granted first second)) := by
  unfold pass
  rw [h]
  simp only
  split
  · rename_i hfull
    exact .idle _ (fun _ => ⟨first, second, rfl, taken_of_full hfull first⟩)
  · rename_i hroom
    split
    · rename_i hnone
      exact .closed first second h (Nat.lt_of_not_le hroom) hnone
        (taken_of_nil hnone first)
    · by_cases hfits : s.Fits slots first
      · have htaken : s.taken slots first = first := if_pos hfits
        rw [htaken]
        split
        · rename_i hblocked
          exact .idle _ (fun _ => ⟨first, second, rfl, htaken.trans hblocked⟩)
        · rename_i hsome
          exact .moved first second _ h (Nat.lt_of_not_le hroom) hsome hfits rfl
      · have htaken : s.taken slots first = [] := if_neg hfits
        rw [if_pos htaken]
        exact .idle _ (fun _ => ⟨first, second, rfl, htaken⟩)

theorem pass_cases (slots : Nat) (s : State) (calls : Calls) :
    PassStep slots s calls (pass slots s calls) := by
  by_cases hstage : s.stage = .looping
  · cases calls with
    | failed =>
        have hpass : pass slots s .failed = { s with stage := .exited } := by
          unfold pass
          rw [hstage]
        rw [hpass]
        exact .exited hstage
    | granted first second => exact pass_looping hstage first second
  · have hpass : pass slots s calls = s := by
      unfold pass
      cases hover : s.stage with
      | looping => exact absurd hover hstage
      | closed => rfl
      | exited => rfl
    rw [hpass]
    exact .idle _ (fun hlooping => absurd hlooping hstage)

theorem flatten_advance (n : Nat) (pipe : List (List Byte)) :
    (advance n pipe).flatten = pipe.flatten.drop n := by
  induction pipe generalizing n with
  | nil => exact List.drop_nil.symm
  | cons buf rest ih =>
      unfold advance
      rw [List.flatten_cons, List.drop_append]
      split
      · rename_i hused
        rw [ih, List.drop_eq_nil_of_le hused, List.nil_append]
      · rename_i hpart
        have hnone : n - buf.length = 0 := by omega
        rw [hnone, List.drop_zero, List.flatten_cons]

theorem length_advance_le (n : Nat) (pipe : List (List Byte)) :
    (advance n pipe).length ≤ pipe.length := by
  induction pipe generalizing n with
  | nil => exact Nat.le_refl _
  | cons buf rest ih =>
      unfold advance
      split
      · exact Nat.le_succ_of_le (ih _)
      · exact Nat.le_refl _

/-!
## Nothing is lost on the way
-/

structure Kept (slots : Nat) (bytes : List Byte) (s : State) : Prop where
  bytes_eq : s.echoed ++ s.pipe.flatten ++ s.unread = bytes
  slots_le : s.pipe.length ≤ slots
  ended : s.stage = .closed -> s.unread = []

theorem kept_new (slots : Nat) (bytes : List Byte) :
    Kept slots bytes (State.new bytes) := by
  refine ⟨rfl, Nat.zero_le _, ?_⟩
  intro hstage
  cases hstage

theorem PassStep.kept {slots : Nat} {bytes : List Byte} {s next : State}
    {calls : Calls} (hstep : PassStep slots s calls next)
    (h : Kept slots bytes s) : Kept slots bytes next := by
  cases hstep with
  | idle _ _ => exact h
  | exited _ =>
      refine ⟨h.bytes_eq, h.slots_le, ?_⟩
      intro hclosed
      cases hclosed
  | closed first second _ _ hnone _ =>
      exact ⟨h.bytes_eq, h.slots_le, fun _ => hnone⟩
  | moved first second back _ _ _ hfits _ =>
      refine ⟨?_, ?_, ?_⟩
      · have hunread := List.prefix_iff_eq_append.mp hfits.1
        show s.echoed ++ (s.pipe ++ first).flatten.take back ++
          (advance back (s.pipe ++ first)).flatten ++
          s.unread.drop first.flatten.length = bytes
        rw [flatten_advance, List.append_assoc s.echoed,
          List.take_append_drop, List.flatten_append, ← List.append_assoc,
          List.append_assoc _ first.flatten, hunread]
        exact h.bytes_eq
      · have hlength := length_advance_le back (s.pipe ++ first)
        rw [List.length_append] at hlength
        exact Nat.le_trans hlength hfits.2.2.2
      · intro hclosed
        cases hclosed

theorem kept_of_run {slots : Nat} {bytes : List Byte} {s : State}
    {passes : List Calls}
    (hrun : (machine slots).run (State.new bytes) passes = .ok s) :
    Kept slots bytes s := by
  refine Machine.run_preserves ?_ (kept_new slots bytes) hrun
  intro t calls next ht hnext
  cases hnext
  exact (pass_cases slots t calls).kept ht

/-!
## What stays behind
-/

/-- The second call moves as much as the first one. -/
def Whole (slots : Nat) (s : State) : Calls -> Prop
  | .granted first second =>
      s.stage = .looping -> (s.taken slots first).flatten.length ≤ second
  | .failed => True

/-- The pipe never gets emptier, and it stays as full as it is only in passes
that are whole. -/
theorem PassStep.lag {slots : Nat} {s next : State} {calls : Calls}
    (hstep : PassStep slots s calls next) :
    s.pipe.flatten.length ≤ next.pipe.flatten.length ∧
      (next.pipe.flatten.length = s.pipe.flatten.length <->
        Whole slots s calls) := by
  cases hstep with
  | idle _ hblocked =>
      refine ⟨Nat.le_refl _, fun _ => ?_, fun _ => rfl⟩
      cases calls with
      | failed => trivial
      | granted first second =>
          intro hstage
          rcases hblocked hstage with ⟨_, _, heq, hnone⟩
          cases heq
          rw [hnone]
          exact Nat.zero_le _
  | exited _ => exact ⟨Nat.le_refl _, fun _ => trivial, fun _ => rfl⟩
  | closed first second _ _ _ hnone =>
      refine ⟨Nat.le_refl _, fun _ _ => ?_, fun _ => rfl⟩
      rw [hnone]
      exact Nat.zero_le _
  | moved first second back hstage _ _ hfits hback =>
      have htaken : s.taken slots first = first := if_pos hfits
      have hlength : (advance back (s.pipe ++ first)).flatten.length =
          s.pipe.flatten.length + first.flatten.length - back := by
        rw [flatten_advance, List.length_drop, List.flatten_append,
          List.length_append]
      show _ ≤ (advance back (s.pipe ++ first)).flatten.length ∧
        ((advance back (s.pipe ++ first)).flatten.length = _ <-> _)
      rw [hlength]
      refine ⟨by omega, ?_, ?_⟩
      · intro hsame _
        rw [htaken]
        omega
      · intro hwhole
        have hless := hwhole hstage
        rw [htaken] at hless
        omega

theorem lag_of_run {slots : Nat} {s last : State} {passes : List Calls}
    (hrun : (machine slots).run s passes = .ok last) :
    s.pipe.flatten.length ≤ last.pipe.flatten.length ∧
      (last.pipe.flatten.length = s.pipe.flatten.length <->
        (machine slots).Along (Whole slots) s passes) := by
  induction passes generalizing s with
  | nil =>
      cases hrun
      exact ⟨Nat.le_refl _, fun _ => trivial, fun _ => rfl⟩
  | cons calls rest ih =>
      rcases (pass_cases slots s calls).lag with ⟨hmore, hwhole⟩
      rcases ih hrun with ⟨hlater, hrest⟩
      refine ⟨Nat.le_trans hmore hlater, ?_, ?_⟩
      · intro hsame
        refine ⟨hwhole.mp (by omega), ?_⟩
        intro next hnext
        cases hnext
        exact hrest.mp (by omega)
      · intro halong
        have hfirst := hwhole.mpr halong.1
        have hthen := hrest.mpr (halong.2 _ rfl)
        omega

/-- A client that has been served to its end got all of its bytes back but those
in the pipe, and all of them exactly if every second call moved as much as the
first one. -/
theorem echoed_all_iff_whole {slots : Nat} (bytes : List Byte)
    {passes : List Calls} {last : State}
    (hrun : (machine slots).run (State.new bytes) passes = .ok last)
    (hclosed : last.stage = .closed) :
    bytes = last.echoed ++ last.pipe.flatten ∧
      (last.echoed = bytes <->
        (machine slots).Along (Whole slots) (State.new bytes) passes) := by
  have hkept := kept_of_run hrun
  have hbytes := hkept.bytes_eq
  rw [hkept.ended hclosed, List.append_nil] at hbytes
  refine ⟨hbytes.symm, ?_⟩
  rw [← (lag_of_run hrun).2, ← hbytes]
  show last.echoed = last.echoed ++ last.pipe.flatten <->
    last.pipe.flatten.length = 0
  rw [List.self_eq_append_right, List.length_eq_zero_iff]

/-- The second byte stays in the pipe: the pass that puts the third one in asks
for one byte, and gets the second. -/
theorem echoed_all_iff_whole_of_short_call :
    exists last,
      (machine 16).run (State.new [65, 66, 67])
        [.granted [[65, 66]] 1, .granted [[67]] 1, .granted [] 0] = .ok last ∧
      last.stage = .closed ∧ last.echoed = [65, 66] ∧ last.pipe = [[67]] ∧
      ([65, 66, 67] = last.echoed ++ last.pipe.flatten ∧
        (last.echoed = [65, 66, 67] <->
          (machine 16).Along (Whole 16) (State.new [65, 66, 67])
            [.granted [[65, 66]] 1, .granted [[67]] 1, .granted [] 0])) :=
  ⟨_, rfl, rfl, rfl, rfl, echoed_all_iff_whole [65, 66, 67] rfl rfl⟩

/-!
## When the pipe is full

The loop is the only reader of the pipe.  A first call that finds no slot waits
for a second call that never comes, at the end of the stream as well.
-/

theorem pass_of_full {slots : Nat} {s : State} (h : slots ≤ s.pipe.length)
    (first : List (List Byte)) (second : Nat) :
    pass slots s (.granted first second) = s := by
  unfold pass
  cases s.stage with
  | looping => exact if_pos h
  | closed => rfl
  | exited => rfl

theorem run_of_full {slots : Nat} {s : State} (hfull : slots ≤ s.pipe.length)
    {later : List Calls}
    (hgranted : forall calls, calls ∈ later -> calls ≠ .failed) :
    (machine slots).run s later = .ok s := by
  induction later with
  | nil => rfl
  | cons calls rest ih =>
      have hstep : (machine slots).step s calls = .ok s := by
        cases calls with
        | failed => exact absurd rfl (hgranted _ List.mem_cons_self)
        | granted first second =>
            exact congrArg Except.ok (pass_of_full hfull first second)
      rw [Machine.run_cons_of_ok rest hstep]
      exact ih (fun c hc => hgranted c (List.mem_cons_of_mem _ hc))

theorem exists_pass_ne {slots : Nat} {s : State} (hstage : s.stage = .looping)
    (hroom : s.pipe.length < slots) :
    exists first, pass slots s (.granted first 0) ≠ s := by
  have hopen : ¬ slots ≤ s.pipe.length := Nat.not_le_of_lt hroom
  cases hunread : s.unread with
  | nil =>
      refine ⟨[], fun hsame => ?_⟩
      have hclosed := congrArg State.stage hsame
      simp only [pass, hstage, if_neg hopen, hunread, if_true] at hclosed
      cases hclosed
  | cons byte rest =>
      have hfits : s.Fits slots [[byte]] := by
        have hlength : 1 ≤ LEN := by
          decide
        refine ⟨⟨rest, hunread.symm⟩, hlength, ?_, hroom⟩
        intro buf hbuf
        rw [List.mem_singleton.mp hbuf]
        exact List.cons_ne_nil _ _
      have htaken : s.taken slots [[byte]] = [[byte]] := if_pos hfits
      refine ⟨[[byte]], fun hsame => ?_⟩
      have hshorter := congrArg (fun t => t.unread.length) hsame
      simp only [pass, hstage, if_neg hopen, htaken, reduceCtorEq, if_false,
        List.length_drop, hunread] at hshorter
      simp at hshorter

/-- In every state that the loop reaches, it is blocked for good exactly if what
the second calls have left behind uses all slots of the pipe. -/
theorem blocked_iff_full {slots : Nat} {bytes : List Byte}
    {passes : List Calls} {s : State}
    (hrun : (machine slots).run (State.new bytes) passes = .ok s)
    (hstage : s.stage = .looping) :
    (forall later, (forall calls, calls ∈ later -> calls ≠ .failed) ->
      (machine slots).run s later = .ok s) <->
    s.pipe.length = slots := by
  constructor
  · intro hblocked
    by_contra hne
    have hslots := (kept_of_run hrun).slots_le
    have hroom : s.pipe.length < slots := by
      omega
    rcases exists_pass_ne hstage hroom with ⟨first, hpass⟩
    refine hpass ?_
    have hsame := hblocked [.granted first 0] (by
      intro calls hcalls
      rw [List.mem_singleton.mp hcalls]
      exact Calls.noConfusion)
    exact Except.ok.inj hsame
  · intro hfull later hgranted
    exact run_of_full (Nat.le_of_eq hfull.symm) hgranted

/-- Two second calls have failed, and a pipe with two slots is full with two
bytes. -/
theorem blocked_of_failed_calls :
    exists s,
      (machine 2).run (State.new [65, 66, 67])
        [.granted [[65]] 0, .granted [[66]] 0] = .ok s ∧
      s.pipe = [[65], [66]] ∧ s.unread = [67] ∧
      forall later, (forall calls, calls ∈ later -> calls ≠ .failed) ->
        (machine 2).run s later = .ok s := by
  have hrun : (machine 2).run (State.new [65, 66, 67])
      [.granted [[65]] 0, .granted [[66]] 0] =
      .ok ⟨.looping, [67], [[65], [66]], []⟩ := rfl
  exact ⟨_, hrun, rfl, rfl, (blocked_iff_full hrun rfl).mpr rfl⟩

end SpliceEcho
end NetExperiment
