import NetExperiment.Exe.VirtualListerner
import NetExperiment.Foundation.CString

/-!
# The shared buffer of the upper-case server

All clients are read into one global buffer.  What was read is ended by a zero
byte, turned to upper case in place, and written back up to the first zero
byte.  The loop that does so asks for the length of the string again before each
byte.

A read takes at most five bytes.  Here every chunk of that size, of any client
and in any order, is a possible step.
-/

namespace NetExperiment
namespace VirtualListerner

open Foundation

def BUFFER_MAX_LEN : Nat := 4096

structure Buffer where
  bytes : List Byte
  size : bytes.length = BUFFER_MAX_LEN

structure Chunk where
  bytes : List Byte
  short : bytes.length ≤ READ_LEN

/-- The loop of `str_toupper` from an index on.  Each round handles one byte of
the block, so there are no more rounds than bytes. -/
def toupperFrom : Nat -> Nat -> List Byte -> List Byte
  | 0, _, str => str
  | rounds + 1, i, str =>
      if i < (cString str).length then
        toupperFrom rounds (i + 1) (str.modify i toupper)
      else str

theorem toupperFrom_length (rounds i : Nat) (str : List Byte) :
    (toupperFrom rounds i str).length = str.length := by
  induction rounds generalizing i str with
  | zero => rfl
  | succ rounds ih =>
      unfold toupperFrom
      split
      · rw [ih, List.length_modify]
      · rfl

namespace Buffer

/-- The buffer after `memset`, and when the program starts. -/
def zero : Buffer where
  bytes := List.replicate BUFFER_MAX_LEN 0
  size := List.length_replicate

def store (i : Nat) (b : Byte) (buffer : Buffer) : Buffer where
  bytes := buffer.bytes.set i b
  size := by rw [List.length_set, buffer.size]

def fill (chunk : Chunk) (buffer : Buffer) : Buffer where
  bytes := chunk.bytes ++ buffer.bytes.drop chunk.bytes.length
  size := by
    have hshort := chunk.short
    have hsize := buffer.size
    unfold READ_LEN at hshort
    unfold BUFFER_MAX_LEN at hsize ⊢
    rw [List.length_append, List.length_drop]
    omega

def strToupper (buffer : Buffer) : Buffer where
  bytes := toupperFrom buffer.bytes.length 0 buffer.bytes
  size := by rw [toupperFrom_length, buffer.size]

end Buffer

/-!
## Handling a readable client
-/

inductive ReadResult where
  | failed
  | read (chunk : Chunk)

inductive Outcome where
  | ignored
  | closed
  | replied (bytes : List Byte)
deriving DecidableEq, Repr

def answer (buffer : Buffer) (r : ReadResult) : Buffer × Outcome :=
  let buffer := buffer.store 0 0
  match r with
  | .failed => (buffer, .ignored)
  | .read chunk =>
      let buffer := buffer.fill chunk
      if chunk.bytes.length = 0 then (buffer, .closed)
      else
        let buffer := buffer.store chunk.bytes.length 0
        let buffer := buffer.strToupper
        (Buffer.zero, .replied (cString buffer.bytes))

structure Client where
  closed : Bool
  taken : List Byte
  replies : List Byte
deriving DecidableEq, Repr

def Client.new : Client where
  closed := false
  taken := []
  replies := []

def Client.take (r : ReadResult) (c : Client) : Client :=
  match r with
  | .failed => c
  | .read chunk => { c with taken := c.taken ++ chunk.bytes }

def Client.apply (outcome : Outcome) (c : Client) : Client :=
  match outcome with
  | .ignored => c
  | .closed => { c with closed := true }
  | .replied bytes => { c with replies := c.replies ++ bytes }

structure Server (client : Type) where
  buffer : Buffer
  clients : client -> Client

structure Reading (client : Type) where
  client : client
  result : ReadResult

namespace Server

variable {client : Type} [DecidableEq client]

def new : Server client where
  buffer := Buffer.zero
  clients := fun _ => Client.new

/-- A closed client is not read any more. -/
def step (s : Server client) (a : Reading client) : Server client :=
  if (s.clients a.client).closed = true then s
  else
    { buffer := (answer s.buffer a.result).1
      clients := Function.update s.clients a.client
        (((s.clients a.client).take a.result).apply
          (answer s.buffer a.result).2) }

def machine : Machine (Server client) (Reading client) Empty where
  step := fun s a => .ok (step s a)

end Server

/-!
## Upper case in place
-/

theorem toupper_ne_zero {b : Byte} (h : b ≠ 0) : toupper b ≠ 0 := by
  unfold toupper
  split
  · rename_i hlower
    intro hzero
    have hnat := congrArg UInt8.toNat hzero
    have hle := UInt8.le_iff_toNat_le.mp hlower.1
    rw [UInt8.toNat_sub_of_le _ _ (UInt8.le_iff_toNat_le.mpr
      (Nat.le_trans (by decide) hle))] at hnat
    simp only [UInt8.reduceToNat] at hnat hle
    omega
  · exact h

theorem zero_not_mem_map_toupper {bytes : List Byte} (h : 0 ∉ bytes) :
    0 ∉ bytes.map toupper := by
  intro hmem
  rcases List.mem_map.mp hmem with ⟨b, hb, hzero⟩
  refine toupper_ne_zero ?_ hzero
  rintro rfl
  exact h hb

/-- The bytes before the index are done, those up to the zero byte are to be
done. -/
theorem toupperFrom_eq {done todo : List Byte} (rest : List Byte)
    (hdone : 0 ∉ done) (htodo : 0 ∉ todo) {rounds : Nat}
    (hrounds : todo.length ≤ rounds) :
    toupperFrom rounds done.length
        (done.map toupper ++ (todo ++ 0 :: rest)) =
      (done ++ todo).map toupper ++ 0 :: rest := by
  induction todo generalizing done rounds with
  | nil =>
      cases rounds with
      | zero => simp [toupperFrom]
      | succ rounds =>
          have hstring : cString (done.map toupper ++ 0 :: rest) =
              done.map toupper := by
            rw [cString_append_zero]
            exact cString_eq_self_iff.mpr (zero_not_mem_map_toupper hdone)
          unfold toupperFrom
          rw [List.nil_append, hstring, List.length_map,
            if_neg (Nat.lt_irrefl _), List.append_nil]
  | cons b todo ih =>
      cases rounds with
      | zero => cases hrounds
      | succ rounds =>
          have hb : b ≠ 0 := by
            rintro rfl
            exact htodo List.mem_cons_self
          have hrest : 0 ∉ todo := fun h =>
            htodo (List.mem_cons_of_mem b h)
          have hstring :
              cString (done.map toupper ++ (b :: todo ++ 0 :: rest)) =
                done.map toupper ++ b :: todo := by
            rw [← List.append_assoc, cString_append_zero]
            refine cString_eq_self_iff.mpr ?_
            intro hmem
            rcases List.mem_append.mp hmem with hleft | hright
            · exact zero_not_mem_map_toupper hdone hleft
            · exact htodo hright
          have hmodified :
              (done.map toupper ++ (b :: todo ++ 0 :: rest)).modify
                  done.length toupper =
                (done ++ [b]).map toupper ++ (todo ++ 0 :: rest) := by
            have hlength : done.length = (done.map toupper).length :=
              (List.length_map toupper).symm
            rw [hlength, List.modify_eq_take_drop, List.take_left,
              List.drop_left, List.map_append, List.append_assoc]
            rfl
          have hlonger : 0 ∉ done ++ [b] := by
            intro hmem
            rcases List.mem_append.mp hmem with hleft | hright
            · exact hdone hleft
            · exact hb (List.mem_singleton.mp hright).symm
          have hnext := ih hlonger hrest (Nat.le_of_succ_le_succ hrounds)
          unfold toupperFrom
          rw [hstring, if_pos (by simp), hmodified]
          rw [List.length_append, List.length_singleton] at hnext
          rw [hnext, List.append_assoc]
          rfl

theorem Buffer.cString_strToupper {buffer : Buffer} {str rest : List Byte}
    (hbytes : buffer.bytes = str ++ 0 :: rest) (hstr : 0 ∉ str) :
    cString buffer.strToupper.bytes = str.map toupper := by
  have hrounds : str.length ≤ buffer.bytes.length := by
    rw [hbytes, List.length_append]
    exact Nat.le_add_right _ _
  have hnil : (0 : Byte) ∉ ([] : List Byte) := List.not_mem_nil
  have hloop := toupperFrom_eq rest hnil hstr hrounds
  rw [List.map_nil, List.nil_append, List.nil_append, ← hbytes] at hloop
  have hupper : buffer.strToupper.bytes = str.map toupper ++ 0 :: rest := hloop
  rw [hupper, cString_append_zero]
  exact cString_eq_self_iff.mpr (zero_not_mem_map_toupper hstr)

theorem Buffer.exists_store_fill (buffer : Buffer) (chunk : Chunk) :
    exists rest, ((buffer.fill chunk).store chunk.bytes.length 0).bytes =
      chunk.bytes ++ 0 :: rest := by
  have hroom : chunk.bytes.length < buffer.bytes.length := by
    have hshort := chunk.short
    have hsize := buffer.size
    unfold READ_LEN at hshort
    unfold BUFFER_MAX_LEN at hsize
    omega
  refine ⟨buffer.bytes.drop (chunk.bytes.length + 1), ?_⟩
  show (chunk.bytes ++ buffer.bytes.drop chunk.bytes.length).set
    chunk.bytes.length 0 = _
  rw [List.drop_eq_getElem_cons hroom, List.set_append_right _ _
    (Nat.le_refl _), Nat.sub_self, List.set_cons_zero]

/-- Whatever the buffer held, the reply is what was read, up to the first zero
byte and in upper case. -/
theorem answer_read (buffer : Buffer) {chunk : Chunk}
    (h : chunk.bytes ≠ []) :
    answer buffer (.read chunk) =
      (Buffer.zero, .replied (strToupper chunk.bytes)) := by
  rcases (buffer.store 0 0).exists_store_fill chunk with ⟨rest, hbytes⟩
  have hzero : (0 : Byte) ∈
      (((buffer.store 0 0).fill chunk).store chunk.bytes.length 0).bytes := by
    rw [hbytes]
    exact List.mem_append_right _ List.mem_cons_self
  rcases exists_eq_cString_append hzero with ⟨after, hstring⟩
  have hreply := Buffer.cString_strToupper hstring (zero_not_mem_cString _)
  rw [hbytes, cString_append_zero] at hreply
  simp only [answer]
  rw [if_neg (fun hnil => h (List.length_eq_zero_iff.mp hnil)), hreply]
  rfl

theorem answer_end (buffer : Buffer) {chunk : Chunk} (h : chunk.bytes = []) :
    (answer buffer (.read chunk)).2 = .closed := by
  simp only [answer]
  rw [if_pos (by rw [h]; rfl)]

/-!
What the server does with a client, as it was described without the buffer, is
what it does with the bytes that one read takes.
-/

def Conn.firstChunk (conn : Conn) : Chunk where
  bytes := conn.recv.take READ_LEN
  short := List.length_take_le _ _

def Conn.apply (outcome : Outcome) (conn : Conn) : Conn :=
  match outcome with
  | .ignored => conn
  | .closed => { conn with phase := .closed, edge := false }
  | .replied bytes =>
      { conn with
        recv := conn.recv.drop READ_LEN
        replies := conn.replies ++ bytes }

theorem Conn.serve_eq_answer (buffer : Buffer) (conn : Conn) :
    conn.serve =
      conn.apply (answer buffer (.read conn.firstChunk)).2 := by
  unfold Conn.serve
  split
  · rename_i hnil
    rw [answer_end buffer hnil]
    rfl
  · rename_i b rest hcons
    have hne : conn.firstChunk.bytes ≠ [] := by
      rw [show conn.firstChunk.bytes = b :: rest from hcons]
      exact List.cons_ne_nil b rest
    rw [answer_read buffer hne,
      show conn.firstChunk.bytes = b :: rest from hcons]
    rfl

/-!
## Replies
-/

theorem strToupper_eq_map_iff {bytes : List Byte} :
    strToupper bytes = bytes.map toupper <-> 0 ∉ bytes := by
  rw [← cString_eq_self_iff]
  constructor
  · intro h
    have hlength := congrArg List.length h
    unfold strToupper at hlength
    rw [List.length_map, List.length_map] at hlength
    exact (List.takeWhile_prefix _).eq_of_length hlength
  · intro h
    show (cString bytes).map toupper = bytes.map toupper
    rw [h]

/-- The replies are the bytes that were read, in upper case. -/
def Client.Echoed (c : Client) : Prop :=
  c.replies = c.taken.map toupper

theorem Client.echoed_apply_iff (buffer : Buffer) {c : Client}
    (h : c.Echoed) (r : ReadResult) :
    ((c.take r).apply (answer buffer r).2).Echoed <->
      forall chunk, r = .read chunk -> 0 ∉ chunk.bytes := by
  cases r with
  | failed =>
      constructor
      · intro _ chunk hchunk
        cases hchunk
      · intro _
        exact h
  | read chunk =>
      have hall : (forall other, ReadResult.read chunk = .read other ->
          0 ∉ other.bytes) <-> 0 ∉ chunk.bytes := by
        constructor
        · intro hother
          exact hother chunk rfl
        · intro hzero other hother
          cases hother
          exact hzero
      rw [hall]
      by_cases hempty : chunk.bytes = []
      · rw [answer_end buffer hempty, hempty]
        constructor
        · intro _
          exact List.not_mem_nil
        · intro _
          show c.replies = (c.taken ++ chunk.bytes).map toupper
          rw [hempty, List.append_nil]
          exact h
      · rw [answer_read buffer hempty, ← strToupper_eq_map_iff]
        show c.replies ++ strToupper chunk.bytes =
          (c.taken ++ chunk.bytes).map toupper <-> _
        rw [List.map_append, h, List.append_cancel_left_eq]

namespace Server

variable {client : Type} [DecidableEq client]

/-- Every client gets back the bytes that were read from it, in upper case. -/
def Echoed (s : Server client) : Prop :=
  forall c, (s.clients c).Echoed

/-- The read returns no zero byte. -/
def ReadsNoZero (s : Server client) (a : Reading client) : Prop :=
  (s.clients a.client).closed = false ->
    forall chunk, a.result = .read chunk -> 0 ∉ chunk.bytes

theorem step_echoed_iff {s : Server client} (h : s.Echoed)
    (a : Reading client) :
    (s.step a).Echoed <-> s.ReadsNoZero a := by
  unfold step
  split
  · rename_i hclosed
    constructor
    · intro _ hopen
      rw [hclosed] at hopen
      cases hopen
    · intro _
      exact h
  · rename_i hopen
    have hself := Client.echoed_apply_iff s.buffer (h a.client) a.result
    constructor
    · intro hnext _
      apply hself.mp
      have hclient := hnext a.client
      dsimp only at hclient
      rw [Function.update_self] at hclient
      exact hclient
    · intro hread c
      dsimp only
      by_cases hc : c = a.client
      · rw [hc, Function.update_self]
        exact hself.mpr (hread (Bool.eq_false_iff.mpr hopen))
      · rw [Function.update_of_ne hc]
        exact h c

omit [DecidableEq client] in
theorem echoed_new : (new : Server client).Echoed := by
  intro c
  rfl

/-- Each client gets back its bytes in upper case, one for one, exactly if no
read returns a zero byte. -/
theorem echoed_iff_reads_no_zero (acts : List (Reading client)) :
    machine.Always Echoed new acts <-> machine.Along ReadsNoZero new acts := by
  refine Machine.always_iff_along (I := fun _ => True) ?_ ?_ trivial
    echoed_new
  · intro s a _ hs hread
    exact ⟨s.step a, rfl, trivial, (step_echoed_iff hs a).mpr hread⟩
  · intro s a next _ hs hstep hnext
    cases hstep
    exact (step_echoed_iff hs a).mp hnext

def zeroByte : List (Reading Nat) :=
  [{ client := 0
     result := .read { bytes := [97, 0, 98], short := by decide } }]

theorem zero_byte_cuts_reply :
    (exists s : Server Nat, machine.run new zeroByte = .ok s ∧
        (s.clients 0).taken = [97, 0, 98] ∧ (s.clients 0).replies = [65]) ∧
      ¬ machine.Always Echoed new zeroByte := by
  have hend : okWith (fun s : Server Nat => decide
      ((s.clients 0).taken = [97, 0, 98] ∧ (s.clients 0).replies = [65]))
      (machine.run new zeroByte) = true := by
    decide +kernel
  rcases exists_of_okWith hend with ⟨s, hrun, hs⟩
  rcases of_decide_eq_true hs with ⟨htaken, hreplies⟩
  refine ⟨⟨s, hrun, htaken, hreplies⟩, ?_⟩
  intro halways
  have hechoed : (s.clients 0).replies = (s.clients 0).taken.map toupper :=
    halways.last hrun 0
  rw [htaken, hreplies] at hechoed
  cases hechoed

end Server
end VirtualListerner
end NetExperiment
