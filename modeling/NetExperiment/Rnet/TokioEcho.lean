import NetExperiment.Rnet.TokioProxy

/-!
# The asynchronous echo server

Each accepted socket gets a task of its own, which reads into a buffer of fixed
length and writes what it has read back before it reads again.  The task returns
at the end of the client's stream and panics when an operation fails.
-/

namespace NetExperiment
namespace TokioEcho

open Foundation
open TokioProxy

def BUF_LEN : Nat := 1024

structure Buffer where
  bytes : List Byte
  length_eq : bytes.length = BUF_LEN

def Buffer.new : Buffer where
  bytes := List.replicate BUF_LEN 0
  length_eq := List.length_replicate

def Buffer.fill (buf : Buffer) (got : List Byte) (h : got.length ≤ BUF_LEN) :
    Buffer where
  bytes := got ++ buf.bytes.drop got.length
  length_eq := by
    rw [List.length_append, List.length_drop, buf.length_eq]
    omega

/-- Where a task waits.  While it writes, the first bytes of the buffer are
being written, and some of them already are. -/
inductive Task where
  | reading
  | writing (n pos : Nat)
  | returned
  | panicked
deriving DecidableEq, Repr

/-- A task, its buffer, what the client has sent and the task has not read, and
what the client got back. -/
structure State where
  task : Task
  buf : Buffer
  unread : List Byte
  echoed : List Byte

def State.new (bytes : List Byte) : State where
  task := .reading
  buf := Buffer.new
  unread := bytes
  echoed := []

/-- A read fills at most the buffer.  It yields nothing only at the end of the
stream. -/
def State.read (s : State) (k : Nat) : State :=
  if s.unread = [] then { s with task := .returned }
  else if k = 0 then s
  else
    { s with
      task := .writing (s.unread.take (min k BUF_LEN)).length 0
      buf := s.buf.fill (s.unread.take (min k BUF_LEN))
        (Nat.le_trans (List.length_take_le _ _) (Nat.min_le_right _ _))
      unread := s.unread.drop (min k BUF_LEN) }

def State.pending (s : State) : List Byte :=
  match s.task with
  | .writing n pos => (s.buf.bytes.take n).drop pos
  | _ => []

/-- `write_all` goes on until all is written.  A write of nothing is an
error. -/
def State.write (s : State) (n pos k : Nat) : State :=
  if k = 0 then { s with task := .panicked }
  else
    let written := ((s.buf.bytes.take n).drop pos).take k
    { s with
      task :=
        if pos + written.length = n then .reading
        else .writing n (pos + written.length)
      echoed := s.echoed ++ written }

def poll (s : State) (r : IoResult) : State :=
  match s.task, r with
  | .reading, .read k => s.read k
  | .writing n pos, .wrote k => s.write n pos k
  | .returned, _ => s
  | .panicked, _ => s
  | _, .failed => { s with task := .panicked }
  | _, _ => s

def machine : Machine State IoResult Empty where
  step := fun s r => .ok (poll s r)

/-!
## What a poll does
-/

def State.Sliced (s : State) : Prop :=
  forall n pos, s.task = .writing n pos -> pos < n ∧ n ≤ BUF_LEN

/-- The bytes of the client are those that came back, those that are being
written, and those that are not read yet; a task that has returned has no more
of either kind. -/
structure Echoing (bytes : List Byte) (s : State) : Prop where
  bytes_eq : s.echoed ++ s.pending ++ s.unread = bytes
  sliced : s.Sliced
  ended : s.task = .returned -> s.unread = []

theorem echoing_new (bytes : List Byte) : Echoing bytes (State.new bytes) where
  bytes_eq := rfl
  sliced := by
    intro n pos h
    cases h
  ended := by
    intro h
    cases h

theorem Buffer.take_fill (buf : Buffer) {got : List Byte}
    (h : got.length ≤ BUF_LEN) :
    (buf.fill got h).bytes.take got.length = got := by
  unfold fill
  exact List.take_left

theorem pending_read {s : State} {k : Nat} (hsome : s.unread ≠ [])
    (hk : k ≠ 0) :
    (s.read k).pending = s.unread.take (min k BUF_LEN) ∧
      (s.read k).unread = s.unread.drop (min k BUF_LEN) ∧
      (s.read k).echoed = s.echoed := by
  unfold State.read
  rw [if_neg hsome, if_neg hk]
  refine ⟨?_, rfl, rfl⟩
  simp only [State.pending, List.drop_zero]
  exact s.buf.take_fill _

theorem take_ne_nil {s : State} {k : Nat} (hsome : s.unread ≠ [])
    (hk : k ≠ 0) : 0 < (s.unread.take (min k BUF_LEN)).length := by
  rw [List.length_take]
  have hlength : 0 < s.unread.length := List.length_pos_iff.mpr hsome
  have hbuf : 0 < BUF_LEN := by decide
  omega

theorem Echoing.read {bytes : List Byte} {s : State} (h : Echoing bytes s)
    (htask : s.task = .reading) (k : Nat) : Echoing bytes (s.read k) := by
  have hbytes := h.bytes_eq
  have hnone : s.pending = [] := by
    unfold State.pending
    rw [htask]
  rw [hnone, List.append_nil] at hbytes
  by_cases hsome : s.unread = []
  · unfold State.read
    rw [if_pos hsome]
    refine ⟨?_, ?_, fun _ => hsome⟩
    · show s.echoed ++ [] ++ s.unread = bytes
      rw [List.append_nil]
      exact hbytes
    · intro n pos htask'
      cases htask'
  · by_cases hk : k = 0
    · unfold State.read
      rw [if_neg hsome, if_pos hk]
      exact h
    · rcases pending_read hsome hk with ⟨hpending, hunread, hechoed⟩
      refine ⟨?_, ?_, ?_⟩
      · rw [hpending, hunread, hechoed, List.append_assoc,
          List.take_append_drop]
        exact hbytes
      · have hpos := take_ne_nil hsome hk
        intro n pos htask'
        unfold State.read at htask'
        rw [if_neg hsome, if_neg hk] at htask'
        cases htask'
        exact ⟨hpos,
          Nat.le_trans (List.length_take_le _ _) (Nat.min_le_right _ _)⟩
      · intro htask'
        unfold State.read at htask'
        rw [if_neg hsome, if_neg hk] at htask'
        cases htask'

theorem pending_write {s : State} {n pos k : Nat}
    (htask : s.task = .writing n pos) (hsliced : s.Sliced) (hk : k ≠ 0) :
    (s.write n pos k).echoed = s.echoed ++ s.pending.take k ∧
      (s.write n pos k).pending = s.pending.drop k ∧
      (s.write n pos k).unread = s.unread ∧ (s.write n pos k).Sliced := by
  rcases hsliced n pos htask with ⟨hpos, hn⟩
  have hpending : s.pending = (s.buf.bytes.take n).drop pos := by
    unfold State.pending
    rw [htask]
  have hlength : ((s.buf.bytes.take n).drop pos).length = n - pos := by
    rw [List.length_drop, List.length_take, s.buf.length_eq]
    omega
  have hwritten : (((s.buf.bytes.take n).drop pos).take k).length =
      min k (n - pos) := by
    rw [List.length_take, hlength]
  unfold State.write
  rw [if_neg hk]
  refine ⟨by rw [hpending], ?_, rfl, ?_⟩
  · rw [hpending]
    simp only [State.pending, hwritten]
    by_cases hall : pos + min k (n - pos) = n
    · rw [if_pos hall]
      refine (List.drop_eq_nil_of_le ?_).symm
      rw [hlength]
      omega
    · rw [if_neg hall]
      have hmin : min k (n - pos) = k := by omega
      simp only
      rw [hmin, List.drop_drop]
  · intro m q htask'
    simp only [hwritten] at htask'
    split at htask'
    · cases htask'
    · cases htask'
      omega

theorem pending_pos {s : State} {n pos : Nat}
    (htask : s.task = .writing n pos) (hsliced : s.Sliced) :
    0 < s.pending.length := by
  rcases hsliced n pos htask with ⟨hpos, hn⟩
  unfold State.pending
  rw [htask]
  simp only
  rw [List.length_drop, List.length_take, s.buf.length_eq]
  omega

theorem task_write_ne_returned (s : State) (n pos k : Nat) :
    (s.write n pos k).task ≠ .returned := by
  unfold State.write
  split
  · exact Task.noConfusion
  · simp only
    split
    · exact Task.noConfusion
    · exact Task.noConfusion

theorem Echoing.write {bytes : List Byte} {s : State} (h : Echoing bytes s)
    {n pos k : Nat} (htask : s.task = .writing n pos) (hk : k ≠ 0) :
    Echoing bytes (s.write n pos k) := by
  rcases pending_write htask h.sliced hk with
    ⟨hechoed, hpending, hunread, hsliced⟩
  refine ⟨?_, hsliced, ?_⟩
  · rw [hechoed, hpending, hunread, List.append_assoc s.echoed,
      List.take_append_drop]
    exact h.bytes_eq
  · intro hended
    exact absurd hended (task_write_ne_returned s n pos k)

/-!
## Whole runs
-/

/-- A task that has panicked may have dropped what it was about to write. -/
structure Sound (bytes : List Byte) (s : State) : Prop where
  returned : s.echoed <+: bytes
  echoing : s.task ≠ .panicked -> Echoing bytes s

theorem Echoing.sound {bytes : List Byte} {s : State} (h : Echoing bytes s) :
    Sound bytes s := by
  refine ⟨⟨s.pending ++ s.unread, ?_⟩, fun _ => h⟩
  rw [← List.append_assoc]
  exact h.bytes_eq

theorem Sound.panic {bytes : List Byte} {s : State} (h : Sound bytes s) :
    Sound bytes { s with task := .panicked } :=
  ⟨h.returned, fun hnot => absurd rfl hnot⟩

theorem Sound.poll {bytes : List Byte} {s : State} (h : Sound bytes s)
    (r : IoResult) : Sound bytes (poll s r) := by
  unfold TokioEcho.poll
  cases htask : s.task with
  | reading =>
      have hechoing := h.echoing (by rw [htask]; exact Task.noConfusion)
      cases r with
      | read k => exact (hechoing.read htask k).sound
      | wrote k => exact h
      | shut => exact h
      | failed => exact h.panic
  | writing n pos =>
      have hechoing := h.echoing (by rw [htask]; exact Task.noConfusion)
      cases r with
      | read k => exact h
      | wrote k =>
          by_cases hk : k = 0
          · simp only [State.write]
            rw [if_pos hk]
            exact h.panic
          · exact (hechoing.write htask hk).sound
      | shut => exact h
      | failed => exact h.panic
  | returned => exact h
  | panicked => exact h

theorem Echoing.echoed_of_returned {bytes : List Byte} {s : State}
    (h : Echoing bytes s) (htask : s.task = .returned) : s.echoed = bytes := by
  have hbytes := h.bytes_eq
  have hnone : s.pending = [] := by
    unfold State.pending
    rw [htask]
  rw [hnone, h.ended htask, List.append_nil, List.append_nil] at hbytes
  exact hbytes

/-- Whatever the sizes of the reads and writes and whichever of them fails, what
came back is a prefix of what the client sent, and all of it once the task has
returned. -/
theorem echo_task_sound (bytes : List Byte) (events : List IoResult) :
    machine.Always
      (fun s => s.echoed <+: bytes ∧ (s.task = .returned -> s.echoed = bytes))
      (State.new bytes) events := by
  refine Machine.always_of_step (I := Sound bytes) ?_ ?_
    (echoing_new bytes).sound events
  · intro s h
    refine ⟨h.returned, ?_⟩
    intro htask
    have hechoing := h.echoing (by rw [htask]; exact Task.noConfusion)
    exact hechoing.echoed_of_returned htask
  · intro s r h
    exact ⟨poll s r, rfl, h.poll r⟩

/-!
## A task whose operations are granted
-/

def granted (s : State) (r : IoResult) : Bool :=
  match s.task, r with
  | .reading, .read k => k != 0
  | .writing _ _, .wrote k => k != 0
  | .reading, _ => false
  | .writing _ _, _ => false
  | _, _ => true

theorem granted_reading {s : State} {r : IoResult} (htask : s.task = .reading)
    (h : granted s r = true) : exists k, k ≠ 0 ∧ r = .read k := by
  unfold granted at h
  rw [htask] at h
  cases r with
  | read k => exact ⟨k, bne_iff_ne.mp h, rfl⟩
  | wrote k => cases h
  | shut => cases h
  | failed => cases h

theorem granted_writing {s : State} {r : IoResult} {n pos : Nat}
    (htask : s.task = .writing n pos) (h : granted s r = true) :
    exists k, k ≠ 0 ∧ r = .wrote k := by
  unfold granted at h
  rw [htask] at h
  cases r with
  | read k => cases h
  | wrote k => exact ⟨k, bne_iff_ne.mp h, rfl⟩
  | shut => cases h
  | failed => cases h

/-- What is left to do.  Each byte is read once and written once, and the end of
the stream is read. -/
def State.work (s : State) : Nat :=
  match s.task with
  | .returned => 0
  | _ => 2 * s.unread.length + s.pending.length + 1

theorem work_read {s : State} {k : Nat} (htask : s.task = .reading)
    (hk : k ≠ 0) : (s.read k).work < s.work := by
  have hnone : s.pending = [] := by
    unfold State.pending
    rw [htask]
  have hwork : s.work = 2 * s.unread.length + 1 := by
    unfold State.work
    rw [htask, hnone]
    rfl
  by_cases hsome : s.unread = []
  · unfold State.read
    rw [if_pos hsome, hwork]
    exact Nat.succ_pos _
  · rcases pending_read hsome hk with ⟨hpending, hunread, _⟩
    have hpos := take_ne_nil hsome hk
    have hnext : (s.read k).work =
        2 * (s.read k).unread.length + (s.read k).pending.length + 1 := by
      unfold State.work State.read
      rw [if_neg hsome, if_neg hk]
    rw [hnext, hunread, hpending, hwork, List.length_drop]
    rw [List.length_take] at hpos ⊢
    omega

theorem work_write {s : State} {n pos k : Nat}
    (htask : s.task = .writing n pos) (hsliced : s.Sliced) (hk : k ≠ 0) :
    (s.write n pos k).work < s.work := by
  rcases pending_write htask hsliced hk with ⟨_, hpending, hunread, _⟩
  have hsome := pending_pos htask hsliced
  have hwork : s.work = 2 * s.unread.length + s.pending.length + 1 := by
    unfold State.work
    rw [htask]
  have hnext : (s.write n pos k).work =
      2 * (s.write n pos k).unread.length +
        (s.write n pos k).pending.length + 1 := by
    unfold State.work
    split
    · rename_i hended
      exact absurd hended (task_write_ne_returned s n pos k)
    · rfl
  rw [hnext, hunread, hpending, hwork, List.length_drop]
  omega

theorem poll_reading {s : State} (htask : s.task = .reading) (k : Nat) :
    poll s (.read k) = s.read k := by
  unfold poll
  rw [htask]

theorem poll_writing {s : State} {n pos : Nat}
    (htask : s.task = .writing n pos) (k : Nat) :
    poll s (.wrote k) = s.write n pos k := by
  unfold poll
  rw [htask]

theorem task_read_ne {s : State} (htask : s.task = .reading) (k : Nat) :
    (s.read k).task ≠ .panicked := by
  unfold State.read
  split
  · exact Task.noConfusion
  · split
    · rw [htask]
      exact Task.noConfusion
    · exact Task.noConfusion

theorem task_write_ne (s : State) (n pos : Nat) {k : Nat} (hk : k ≠ 0) :
    (s.write n pos k).task ≠ .panicked := by
  unfold State.write
  rw [if_neg hk]
  simp only
  split
  · exact Task.noConfusion
  · exact Task.noConfusion

theorem Echoing.granted {bytes : List Byte} {s : State} (h : Echoing bytes s)
    (halive : s.task ≠ .panicked) {r : IoResult}
    (hgranted : granted s r = true) :
    Echoing bytes (poll s r) ∧ (poll s r).task ≠ .panicked ∧
      (poll s r).work ≤ s.work - 1 := by
  cases htask : s.task with
  | reading =>
      rcases granted_reading htask hgranted with ⟨k, hk, rfl⟩
      have hless := work_read htask hk
      rw [poll_reading htask]
      exact ⟨h.read htask k, task_read_ne htask k, by omega⟩
  | writing n pos =>
      rcases granted_writing htask hgranted with ⟨k, hk, rfl⟩
      have hless := work_write htask h.sliced hk
      rw [poll_writing htask]
      exact ⟨h.write htask hk, task_write_ne s n pos hk, by omega⟩
  | returned =>
      have hpoll : poll s r = s := by
        unfold TokioEcho.poll
        rw [htask]
      have hwork : s.work = 0 := by
        unfold State.work
        rw [htask]
      rw [hpoll]
      exact ⟨h, halive, by omega⟩
  | panicked => exact absurd htask halive

theorem work_of_granted {bytes : List Byte} {s last : State}
    {events : List IoResult} (h : Echoing bytes s)
    (halive : s.task ≠ .panicked)
    (hgranted : machine.Along (fun s r => granted s r = true) s events)
    (hrun : machine.run s events = .ok last) :
    Echoing bytes last ∧ last.task ≠ .panicked ∧
      last.work ≤ s.work - events.length := by
  induction events generalizing s with
  | nil =>
      cases hrun
      exact ⟨h, halive, Nat.le_refl _⟩
  | cons r rest ih =>
      rcases h.granted halive hgranted.1 with ⟨hnext, halive', hless⟩
      rcases ih hnext halive' (hgranted.2 _ rfl) hrun with
        ⟨hlast, halive'', hrest⟩
      refine ⟨hlast, halive'', ?_⟩
      rw [List.length_cons]
      omega

/-- A task whose operations are all granted returns after at most one read and
one write for each byte and one more read, and then the client has got all of
its bytes back. -/
theorem echo_task_returns (bytes : List Byte) {events : List IoResult}
    {last : State}
    (hgranted : machine.Along (fun s r => granted s r = true)
      (State.new bytes) events)
    (hrun : machine.run (State.new bytes) events = .ok last)
    (hlong : 2 * bytes.length + 1 ≤ events.length) :
    last.task = .returned ∧ last.echoed = bytes := by
  rcases work_of_granted (echoing_new bytes) Task.noConfusion hgranted hrun with
    ⟨hlast, halive, hwork⟩
  have hstart : (State.new bytes).work = 2 * bytes.length + 1 := rfl
  have hzero : last.work = 0 := by omega
  have htask : last.task = .returned := by
    unfold State.work at hzero
    split at hzero
    · rename_i htask
      exact htask
    · omega
  exact ⟨htask, hlast.echoed_of_returned htask⟩

theorem echo_task_returns_of_two_bytes :
    exists last, machine.run (State.new [65, 66])
        [.read 1, .wrote 1, .read 5, .wrote 2, .read 1] = .ok last ∧
      last.task = .returned ∧ last.echoed = [65, 66] := by
  have hgranted : machine.Along (fun s r => granted s r = true)
      (State.new [65, 66])
      [.read 1, .wrote 1, .read 5, .wrote 2, .read 1] := by
    decide +kernel
  exact ⟨_, rfl, echo_task_returns [65, 66] hgranted rfl (by decide)⟩

end TokioEcho
end NetExperiment
