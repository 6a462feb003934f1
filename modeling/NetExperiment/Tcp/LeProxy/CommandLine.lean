import NetExperiment.Common.Listen
import NetExperiment.Tcp.LeProxy.Core

/-!
# The command line of le_proxy

`main` reads flags until the first argument that is not one, and takes the last
two arguments as addresses.  A listen address that libevent rejects is read as
the number of a port on the loopback address.

The parser of libevent is a parameter.  Wherever `main` prints the syntax and
exits, there are no options.
-/

namespace NetExperiment
namespace LeProxy

open Foundation
open Common

structure Options where
  useSsl : Bool
  useWrapper : Bool
  listenOnAddr : SockAddr
  connectToAddr : SockAddr
deriving DecidableEq, Repr

def dashS : List Byte := [45, 115]

def dashW : List Byte := [45, 87]

/-- Read flags up to the first argument that does not start with a dash.
Returns the two settings and the arguments that are left. -/
def scanFlags (useSsl useWrapper : Bool) :
    List (List Byte) -> Option (Bool × Bool × List (List Byte))
  | [] => some (useSsl, useWrapper, [])
  | arg :: rest =>
      if arg = dashS then scanFlags true useWrapper rest
      else if arg = dashW then scanFlags useSsl false rest
      else if arg.head? = some 45 then none
      else some (useSsl, useWrapper, arg :: rest)

section Addresses

variable (parse : List Byte -> Option SockAddr)

def listenOn (arg : List Byte) : Option SockAddr :=
  match parse arg with
  | some addr => some addr
  | none =>
      let p := atoi arg
      if p < 1 ∨ 65535 < p then none
      else some (.in4 INADDR_LOOPBACK (BitVec.ofInt 16 p))

def options (args : List (List Byte)) : Option Options :=
  if args.length + 1 < 3 then none
  else
    match scanFlags false true args with
    | none => none
    | some (useSsl, useWrapper, rest) =>
        match rest with
        | [listen, connect] =>
            match listenOn parse listen, parse connect with
            | some listenOnAddr, some connectToAddr =>
                some { useSsl, useWrapper, listenOnAddr, connectToAddr }
            | _, _ => none
        | _ => none

end Addresses

/-!
## What the arguments may be
-/

def IsFlag (arg : List Byte) : Prop :=
  arg = dashS ∨ arg = dashW

theorem scanFlags_flags {flags : List (List Byte)}
    (hflags : forall f, f ∈ flags -> IsFlag f) (useSsl useWrapper : Bool)
    (rest : List (List Byte)) :
    scanFlags useSsl useWrapper (flags ++ rest) =
      scanFlags (useSsl || decide (dashS ∈ flags))
        (useWrapper && !decide (dashW ∈ flags)) rest := by
  induction flags generalizing useSsl useWrapper with
  | nil => simp
  | cons f flags ih =>
      have hrest : forall g, g ∈ flags -> IsFlag g :=
        fun g hg => hflags g (List.mem_cons_of_mem f hg)
      rcases hflags f List.mem_cons_self with rfl | rfl
      · have hne : dashW ≠ dashS := by decide
        rw [List.cons_append, scanFlags, if_pos rfl, ih hrest]
        simp [hne]
      · have hne : dashS ≠ dashW := by decide
        rw [List.cons_append, scanFlags, if_neg hne.symm, if_pos rfl, ih hrest]
        simp [hne]

theorem scanFlags_stop {arg : List Byte} (harg : arg.head? ≠ some 45)
    (useSsl useWrapper : Bool) (rest : List (List Byte)) :
    scanFlags useSsl useWrapper (arg :: rest) =
      some (useSsl, useWrapper, arg :: rest) := by
  have hs : arg ≠ dashS := by
    rintro rfl
    exact harg rfl
  have hw : arg ≠ dashW := by
    rintro rfl
    exact harg rfl
  rw [scanFlags, if_neg hs, if_neg hw, if_neg harg]

/-- Whatever the scan reads is a list of flags, and what it leaves starts
without a dash. -/
theorem scanFlags_cases {args rest : List (List Byte)}
    {useSsl useWrapper ssl wrapper : Bool}
    (h : scanFlags useSsl useWrapper args = some (ssl, wrapper, rest)) :
    exists flags, args = flags ++ rest ∧
      (forall f, f ∈ flags -> IsFlag f) ∧
      forall arg, rest.head? = some arg -> arg.head? ≠ some 45 := by
  induction args generalizing useSsl useWrapper with
  | nil =>
      cases h
      refine ⟨[], rfl, ?_, ?_⟩
      · intro f hf
        cases hf
      · intro arg harg
        cases harg
  | cons f args ih =>
      rw [scanFlags] at h
      split at h
      · rename_i hs
        rcases ih h with ⟨flags, rfl, hflags, hstop⟩
        refine ⟨f :: flags, rfl, ?_, hstop⟩
        intro g hg
        rcases List.mem_cons.mp hg with rfl | hg
        · exact .inl hs
        · exact hflags g hg
      · split at h
        · rename_i hw
          rcases ih h with ⟨flags, rfl, hflags, hstop⟩
          refine ⟨f :: flags, rfl, ?_, hstop⟩
          intro g hg
          rcases List.mem_cons.mp hg with rfl | hg
          · exact .inr hw
          · exact hflags g hg
        · split at h
          · cases h
          · rename_i hdash
            cases h
            refine ⟨[], rfl, ?_, ?_⟩
            · intro g hg
              cases hg
            · intro arg harg
              cases harg
              exact hdash

/-- A listen address is one that libevent accepts, or the number of a port at
the front of one that it rejects. -/
def Listens (parse : List Byte -> Option SockAddr) (arg : List Byte)
    (addr : SockAddr) : Prop :=
  parse arg = some addr ∨
    (parse arg = none ∧ exists p : Nat, 1 ≤ p ∧ p ≤ 65535 ∧
      atoi arg = p ∧ addr = .in4 INADDR_LOOPBACK (BitVec.ofNat 16 p))

theorem listenOn_eq_some_iff {parse : List Byte -> Option SockAddr}
    {arg : List Byte} {addr : SockAddr} :
    listenOn parse arg = some addr <-> Listens parse arg addr := by
  unfold listenOn Listens
  cases hparse : parse arg with
  | some found => simp
  | none =>
      simp only [reduceCtorEq, true_and, false_or]
      constructor
      · intro h
        split at h
        · cases h
        · rename_i hrange
          cases h
          rcases Int.eq_ofNat_of_zero_le (a := atoi arg) (by omega) with
            ⟨p, hp⟩
          refine ⟨p, by omega, by omega, hp, ?_⟩
          rw [hp, BitVec.ofInt_natCast]
      · intro h
        rcases h with ⟨p, hlow, hhigh, hatoi, rfl⟩
        rw [if_neg (by omega), hatoi, BitVec.ofInt_natCast]

/-- `main` goes on exactly if its arguments are flags, a listen address that does
not start with a dash, and a connect address, and then its settings are those of
the flags, in whatever order and however often they are given. -/
theorem options_eq_some_iff (parse : List Byte -> Option SockAddr)
    (args : List (List Byte)) (o : Options) :
    options parse args = some o <->
      exists flags listen connect,
        args = flags ++ [listen, connect] ∧
        (forall f, f ∈ flags -> IsFlag f) ∧
        listen.head? ≠ some 45 ∧
        Listens parse listen o.listenOnAddr ∧
        parse connect = some o.connectToAddr ∧
        o.useSsl = decide (dashS ∈ flags) ∧
        o.useWrapper = !decide (dashW ∈ flags) := by
  constructor
  · intro h
    unfold options at h
    split at h
    · cases h
    · cases hscan : scanFlags false true args with
      | none =>
          rw [hscan] at h
          cases h
      | some found =>
          rcases found with ⟨ssl, wrapper, rest⟩
          rw [hscan] at h
          simp only at h
          split at h
          · rename_i listen connect
            split at h
            · rename_i listenOnAddr connectToAddr hlisten hconnect
              cases h
              rcases scanFlags_cases hscan with ⟨flags, hargs, hflags, hstop⟩
              refine ⟨flags, listen, connect, hargs, hflags,
                hstop listen rfl, listenOn_eq_some_iff.mp hlisten, hconnect,
                ?_⟩
              rw [hargs, scanFlags_flags hflags,
                scanFlags_stop (hstop listen rfl)] at hscan
              cases hscan
              simp
            · cases h
          · cases h
  · intro h
    rcases h with ⟨flags, listen, connect, rfl, hflags, hstop, hlisten,
      hconnect, hssl, hwrapper⟩
    have hlong : ¬ (flags ++ [listen, connect]).length + 1 < 3 := by
      rw [List.length_append]
      simp
    unfold options
    rw [if_neg hlong, scanFlags_flags hflags, scanFlags_stop hstop]
    simp only [listenOn_eq_some_iff.mpr hlisten, hconnect, Bool.false_or,
      Bool.true_and]
    rw [← hssl, ← hwrapper]

/-- An address that libevent rejects is read as the number it starts with. -/
example : options (fun arg => if arg = [56] then some (.in4 1 80) else none)
    [[49, 46, 50, 58, 57, 57], [56]] =
      some ⟨false, true, .in4 INADDR_LOOPBACK 1, .in4 1 80⟩ := by
  decide

end LeProxy
end NetExperiment
