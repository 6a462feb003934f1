import NetExperiment.Common.IoContext

/-!
# Listening on an address string

`listen` copies the string to an array and takes it apart at the stars before it
asks libevent to parse it.  Only when libevent rejects the string is the second
token used, as the number of a port on the loopback address.  The test of that
number has an empty body.

The parser of libevent and the outcome of binding a socket are parameters.
-/

namespace NetExperiment
namespace Common

open Foundation

def isStar (b : Byte) : Bool :=
  b == 42

def INADDR_LOOPBACK : BitVec 32 := 0x7f000001

def strcpy (size : Nat) (s : List Byte) : Except Misuse (List Byte) :=
  if s.length + 1 ≤ size then .ok s else .error .bufferOverflow

def atoiToken : Option (List Byte) -> Except Misuse Int
  | none => .error .nullPointer
  | some token => .ok (atoi token)

structure Listened (base : Type) where
  code : Int
  listener : Option SockAddr
  context : IoContext base

namespace IoContext

variable {base : Type} (parse : List Byte -> Option SockAddr)
  (bind : SockAddr -> Bool)

def listen (addressStr : List Byte) (c : IoContext base) :
    Except Misuse (Listened base) := do
  let c := { c with address := addressStr, listenOnAddr := .unspec }
  let a <- strcpy 100 (cString addressStr)
  let (_sip, rest) := strtok isStar a
  let (sport, _) := strtok isStar rest
  let addr <-
    match parse (cString c.address) with
    | some addr => .ok addr
    | none => do
        -- a number outside of 1..65535 is used like any other
        let p <- atoiToken sport
        .ok (.in4 INADDR_LOOPBACK (BitVec.ofInt 16 p))
  let c := { c with listenOnAddr := addr }
  if bind addr = true then
    return { code := 0, listener := some addr, context := c }
  else
    return { code := 1, listener := none, context := c }

/-!
## What an address string asks for
-/

/-- The second token of the string is the number of a port. -/
def AsksPort (addressStr : List Byte) (n : Nat) : Prop :=
  exists token, (tokens isStar (cString addressStr))[1]? = some token ∧
    Denotes token n ∧ 1 ≤ n ∧ n ≤ 65535

/-- The address that the string asks for. -/
def Wanted (addressStr : List Byte) (addr : SockAddr) : Prop :=
  parse (cString addressStr) = some addr ∨
    (parse (cString addressStr) = none ∧
      exists n, AsksPort addressStr n ∧
        addr = .in4 INADDR_LOOPBACK (BitVec.ofNat 16 n))

/-- The call does nothing wrong with memory, listens only on the address that is
asked for, and fails when none is. -/
def Handles (addressStr : List Byte) (r : Except Misuse (Listened base)) :
    Prop :=
  exists l, r = .ok l ∧
    (forall addr, l.listener = some addr -> Wanted parse addressStr addr) ∧
    ((forall addr, ¬ Wanted parse addressStr addr) ->
      l.code ≠ 0 ∧ l.listener = none)

/-- The string fits in the array, and libevent accepts it or its second token is
the number of a port. -/
def Proper (addressStr : List Byte) : Prop :=
  (cString addressStr).length < 100 ∧
    ((parse (cString addressStr)).isSome = true ∨
      exists n, AsksPort addressStr n)

/-!
## What a call does
-/

def bound (addressStr : List Byte) (c : IoContext base) (addr : SockAddr) :
    Listened base where
  code := if bind addr = true then 0 else 1
  listener := if bind addr = true then some addr else none
  context := { c with address := addressStr, listenOnAddr := addr }

variable {parse} {addressStr : List Byte} (c : IoContext base)

theorem listen_overflow (h : ¬ (cString addressStr).length < 100) :
    c.listen parse bind addressStr = .error .bufferOverflow := by
  unfold listen strcpy
  rw [if_neg (by omega)]
  rfl

theorem listen_parsed (h : (cString addressStr).length < 100)
    {addr : SockAddr} (hparse : parse (cString addressStr) = some addr) :
    c.listen parse bind addressStr = .ok (bound bind addressStr c addr) := by
  unfold listen strcpy bound
  rw [if_pos (by omega)]
  simp only [ok_bind, hparse]
  split <;> rfl

theorem listen_rejected (h : (cString addressStr).length < 100)
    (hparse : parse (cString addressStr) = none) :
    c.listen parse bind addressStr = (do
      let p <- atoiToken (tokens isStar (cString addressStr))[1]?
      .ok (bound bind addressStr c
        (.in4 INADDR_LOOPBACK (BitVec.ofInt 16 p)))) := by
  unfold listen strcpy bound
  rw [if_pos (by omega)]
  simp only [ok_bind, hparse]
  rw [strtok_second]
  cases (tokens isStar (cString addressStr))[1]? with
  | none => rfl
  | some token =>
      simp only [atoiToken, ok_bind]
      split <;> rfl

theorem handles_bound {addr : SockAddr} (h : Wanted parse addressStr addr) :
    Handles parse addressStr (.ok (bound bind addressStr c addr)) := by
  refine ⟨_, rfl, ?_, ?_⟩
  · intro other hother
    unfold bound at hother
    split at hother
    · cases hother
      exact h
    · cases hother
  · intro hnone
    exact absurd h (hnone addr)

theorem wanted_of_asksPort {n : Nat}
    (hparse : parse (cString addressStr) = none)
    (h : AsksPort addressStr n) :
    Wanted parse addressStr (.in4 INADDR_LOOPBACK (BitVec.ofNat 16 n)) :=
  .inr ⟨hparse, n, h, rfl⟩

theorem listen_of_asksPort {n : Nat} (h : (cString addressStr).length < 100)
    (hparse : parse (cString addressStr) = none)
    (hport : AsksPort addressStr n) :
    c.listen parse bind addressStr = .ok (bound bind addressStr c
      (.in4 INADDR_LOOPBACK (BitVec.ofNat 16 n))) := by
  rcases hport with ⟨token, htoken, hdenotes, _, hn⟩
  rw [listen_rejected bind c h hparse, htoken]
  simp only [atoiToken, ok_bind]
  rw [atoi_of_denotes hdenotes (by omega), BitVec.ofInt_natCast]

/-- Whatever binding a socket does, `listen` handles an address string exactly
if the string fits in the array and asks for an address. -/
theorem handles_iff_proper (addressStr : List Byte) :
    (forall bind, Handles parse addressStr
        (c.listen parse bind addressStr)) <->
      Proper parse addressStr := by
  constructor
  · intro h
    rcases h (fun _ => true) with ⟨l, hl, hlistener, _⟩
    by_cases hfits : (cString addressStr).length < 100
    · refine ⟨hfits, ?_⟩
      cases hparse : parse (cString addressStr) with
      | some addr => exact .inl rfl
      | none =>
          right
          rw [listen_rejected _ c hfits hparse] at hl
          cases htoken : (tokens isStar (cString addressStr))[1]? with
          | none =>
              rw [htoken] at hl
              cases hl
          | some token =>
              rw [htoken] at hl
              cases hl
              rcases hlistener _ rfl with hsome | ⟨_, n, hport, _⟩
              · rw [hparse] at hsome
                cases hsome
              · exact ⟨n, hport⟩
    · rw [listen_overflow _ c hfits] at hl
      cases hl
  · intro h bind
    rcases h with ⟨hfits, haddr⟩
    cases hparse : parse (cString addressStr) with
    | some addr =>
        rw [listen_parsed bind c hfits hparse]
        exact handles_bound bind c (.inl hparse)
    | none =>
        rw [hparse] at haddr
        rcases haddr with hsome | ⟨n, hport⟩
        · cases hsome
        · rw [listen_of_asksPort bind c hfits hparse hport]
          exact handles_bound bind c (wanted_of_asksPort hparse hport)

def singleThreaded : IoContext Nat :=
  construct { choseIoIndex := 0, listenOnAddr := .unspec } 1 (fun i => i)

def largePort : List Byte :=
  [120, 42, 55, 48, 48, 48, 48]

/-- A number that is no port is cut to sixteen bits and bound.  A string of a
hundred bytes does not fit, and without a second token there is nothing to
convert. -/
theorem large_port_is_bound :
    (exists l, singleThreaded.listen (fun _ => none) (fun _ => true)
        largePort = .ok l ∧ l.code = 0 ∧
        l.listener = some (.in4 INADDR_LOOPBACK 4464)) ∧
      singleThreaded.listen (fun _ => none) (fun _ => true)
        (List.replicate 100 120) = .error .bufferOverflow ∧
      singleThreaded.listen (fun _ => none) (fun _ => true) [120] =
        .error .nullPointer ∧
      ¬ forall bind, Handles (fun _ => none) largePort
        (singleThreaded.listen (fun _ => none) bind largePort) := by
  have hport : okWith (fun l : Listened Nat => decide (l.code = 0 ∧
      l.listener = some (.in4 INADDR_LOOPBACK 4464)))
      (singleThreaded.listen (fun _ => none) (fun _ => true) largePort) =
        true := by
    decide +kernel
  rcases exists_of_okWith hport with ⟨l, hl, hbound⟩
  rcases of_decide_eq_true hbound with ⟨hcode, hlistener⟩
  refine ⟨⟨l, hl, hcode, hlistener⟩, ?_, ?_, ?_⟩
  · exact eq_of_errorIs (by decide +kernel)
  · exact eq_of_errorIs (by decide +kernel)
  · intro h
    rcases h (fun _ => true) with ⟨l', hl', hwanted, _⟩
    rw [hl] at hl'
    cases hl'
    rcases hwanted _ hlistener with hsome | ⟨_, n, hasks, _⟩
    · cases hsome
    · rcases hasks with ⟨token, htoken, hdenotes, _, hn⟩
      have hsecond : (tokens isStar (cString largePort))[1]? =
          some [55, 48, 48, 48, 48] := by
        decide +kernel
      rw [hsecond] at htoken
      cases htoken
      have hvalue : digitsValue [55, 48, 48, 48, 48] = 70000 := by
        decide +kernel
      rw [← hdenotes.2.2, hvalue] at hn
      omega

end IoContext
end Common
end NetExperiment
