import NetExperiment.Foundation.Heap
import Mathlib.Data.List.TakeWhile

/-!
# C strings

A C function that is handed a block of bytes sees the bytes before the first
zero byte.  This module has the functions of the C library that work on such
strings: the tokenizer, which keeps its place between two calls, and the
conversion to an integer, which takes what it can from the front of a string.

What a tokenizer is for is said without its state: the tokens of a string are
the non-empty pieces between the delimiters.
-/

namespace NetExperiment
namespace Foundation

def cString (block : List Byte) : List Byte :=
  block.takeWhile (fun b => decide (b ≠ 0))

theorem cString_append_zero (bytes rest : List Byte) :
    cString (bytes ++ 0 :: rest) = cString bytes := by
  unfold cString
  induction bytes with
  | nil => rfl
  | cons b bytes ih =>
      rw [List.cons_append, List.takeWhile_cons, List.takeWhile_cons, ih]

theorem exists_eq_cString_append {block : List Byte} (h : 0 ∈ block) :
    exists rest, block = cString block ++ 0 :: rest := by
  unfold cString
  induction block with
  | nil => cases h
  | cons b block ih =>
      by_cases hb : b = 0
      · subst hb
        exact ⟨block, rfl⟩
      · have hmem : 0 ∈ block := by
          rcases List.mem_cons.mp h with hzero | hrest
          · exact absurd hzero.symm hb
          · exact hrest
        rcases ih hmem with ⟨rest, hrest⟩
        have hb' : decide (b ≠ 0) = true := decide_eq_true hb
        refine ⟨rest, ?_⟩
        rw [List.takeWhile_cons, if_pos hb', List.cons_append, ← hrest]

theorem zero_not_mem_cString (block : List Byte) : 0 ∉ cString block := by
  intro h
  have hne := List.mem_takeWhile_imp h
  exact of_decide_eq_true hne rfl

theorem cString_eq_self_iff {block : List Byte} :
    cString block = block <-> 0 ∉ block := by
  constructor
  · intro h
    rw [← h]
    exact zero_not_mem_cString block
  · intro h
    unfold cString
    rw [List.takeWhile_eq_self_iff]
    intro b hb
    refine decide_eq_true ?_
    rintro rfl
    exact h hb

/-!
## Tokens
-/

section Tokens

variable (delim : Byte -> Bool)

def tokens (s : List Byte) : List (List Byte) :=
  (s.splitOnP delim).filter (fun token => !token.isEmpty)

def strtok (s : List Byte) : Option (List Byte) × List Byte :=
  let s := s.dropWhile delim
  if s = [] then (none, [])
  else
    (some (s.takeWhile (fun b => !delim b)),
      (s.dropWhile (fun b => !delim b)).drop 1)

variable {delim}

theorem tokens_cons_of_delim {b : Byte} (h : delim b = true) (s : List Byte) :
    tokens delim (b :: s) = tokens delim s := by
  unfold tokens
  rw [List.splitOnP_cons_eq_if_modifyHead, if_pos h]
  rfl

theorem tokens_dropWhile (s : List Byte) :
    tokens delim (s.dropWhile delim) = tokens delim s := by
  induction s with
  | nil => rfl
  | cons b s ih =>
      by_cases h : delim b = true
      · rw [List.dropWhile_cons_of_pos h, tokens_cons_of_delim h, ih]
      · rw [List.dropWhile_cons_of_neg h]

theorem tokens_of_forall {token : List Byte}
    (h : forall b, b ∈ token -> delim b = false) (hne : token ≠ []) :
    tokens delim token = [token] := by
  unfold tokens
  rw [List.splitOnP_eq_singleton h]
  apply List.filter_cons_of_pos
  simpa using hne

theorem tokens_append_delim {token : List Byte} {d : Byte}
    (h : forall b, b ∈ token -> delim b = false) (hne : token ≠ [])
    (hd : delim d = true) (rest : List Byte) :
    tokens delim (token ++ d :: rest) = token :: tokens delim rest := by
  have htoken := tokens_of_forall h hne
  unfold tokens at htoken ⊢
  rw [List.splitOnP_append_cons _ _ hd, List.filter_append, htoken]
  rfl

theorem tokens_cons_of_not_delim {b : Byte} (h : delim b = false)
    (s : List Byte) :
    tokens delim (b :: s) =
      (b :: s).takeWhile (fun b => !delim b) ::
        tokens delim (((b :: s).dropWhile (fun b => !delim b)).drop 1) := by
  have hne : (b :: s).takeWhile (fun b => !delim b) ≠ [] := by
    rw [List.takeWhile_cons_of_pos (by rw [h]; rfl)]
    exact List.cons_ne_nil _ _
  have htoken : forall c, c ∈ (b :: s).takeWhile (fun b => !delim b) ->
      delim c = false := by
    intro c hc
    simpa using List.mem_takeWhile_imp hc
  have hall := List.takeWhile_append_dropWhile
    (p := fun b => !delim b) (l := b :: s)
  cases hrest : (b :: s).dropWhile (fun b => !delim b) with
  | nil =>
      have htokens := tokens_of_forall htoken hne
      rw [hrest, List.append_nil] at hall
      rw [hall] at htokens ⊢
      exact htokens
  | cons d rest =>
      have hd : delim d = true := by
        have hhead := List.head_dropWhile_not (fun b => !delim b)
          (l := b :: s) (by rw [hrest]; exact List.cons_ne_nil d rest)
        simpa [hrest] using hhead
      have htokens := tokens_append_delim htoken hne hd rest
      rw [hrest] at hall
      rw [hall] at htokens
      exact htokens

/-- A call finds the first token and leaves the others. -/
theorem strtok_spec (s : List Byte) :
    (strtok delim s).1 = (tokens delim s).head? ∧
      tokens delim (strtok delim s).2 = (tokens delim s).tail := by
  rw [← tokens_dropWhile s]
  unfold strtok
  cases hs : s.dropWhile delim with
  | nil => exact ⟨rfl, rfl⟩
  | cons b rest =>
      have hb : delim b = false := by
        have hhead := List.head_dropWhile_not delim (l := s)
          (by rw [hs]; exact List.cons_ne_nil b rest)
        simpa only [hs, List.head_cons] using hhead
      rw [tokens_cons_of_not_delim hb]
      exact ⟨rfl, rfl⟩

theorem strtok_second (s : List Byte) :
    (strtok delim (strtok delim s).2).1 = (tokens delim s)[1]? := by
  rw [(strtok_spec (strtok delim s).2).1, (strtok_spec s).2,
    List.head?_tail]

end Tokens

/-!
## Numbers
-/

def isspace (b : Byte) : Bool :=
  b == 32 || (decide (9 ≤ b) && decide (b ≤ 13))

def isdigit (b : Byte) : Bool :=
  decide (48 ≤ b) && decide (b ≤ 57)

def digitsValue (digits : List Byte) : Nat :=
  digits.foldl (fun n b => 10 * n + (b.toNat - 48)) 0

def LONG_MAX : Int := 0x7fffffffffffffff

def LONG_MIN : Int := -0x8000000000000000

/-- The number at the front of a string, in base ten: white space, a sign, and
as many digits as there are.  A number that is out of range is cut to the
nearest one in range. -/
def strtol (s : List Byte) : Int :=
  match s.dropWhile isspace with
  | 45 :: rest =>
      max LONG_MIN (-(digitsValue (rest.takeWhile isdigit) : Int))
  | 43 :: rest => min LONG_MAX (digitsValue (rest.takeWhile isdigit))
  | body => min LONG_MAX (digitsValue (body.takeWhile isdigit))

def atoi (s : List Byte) : Int :=
  (strtol s).bmod 0x100000000

/-- The string is a decimal numeral of the number. -/
def Denotes (s : List Byte) (n : Nat) : Prop :=
  s ≠ [] ∧ (forall b, b ∈ s -> isdigit b = true) ∧ digitsValue s = n

theorem not_isspace_of_isdigit {b : Byte} (h : isdigit b = true) :
    isspace b = false ∧ b ≠ 45 ∧ b ≠ 43 := by
  simp only [isdigit, Bool.and_eq_true, decide_eq_true_eq,
    UInt8.le_iff_toNat_le, UInt8.reduceToNat] at h
  refine ⟨?_, ?_, ?_⟩
  · simp only [isspace, Bool.or_eq_false_iff, beq_eq_false_iff_ne,
      Bool.and_eq_false_iff, decide_eq_false_iff_not, UInt8.le_iff_toNat_le,
      UInt8.reduceToNat]
    constructor
    · rintro rfl
      exact absurd h.1 (by decide)
    · right
      omega
  · rintro rfl
    exact absurd h.1 (by decide)
  · rintro rfl
    exact absurd h.1 (by decide)

theorem atoi_of_denotes {s : List Byte} {n : Nat} (h : Denotes s n)
    (hn : n < 0x80000000) : atoi s = n := by
  rcases h with ⟨hne, hdigits, hvalue⟩
  cases s with
  | nil => exact absurd rfl hne
  | cons b rest =>
      rcases not_isspace_of_isdigit (hdigits b List.mem_cons_self) with
        ⟨hspace, hminus, hplus⟩
      have hbody : (b :: rest).dropWhile isspace = b :: rest :=
        List.dropWhile_cons_of_neg (by rw [hspace]; exact Bool.false_ne_true)
      have hlong : strtol (b :: rest) = n := by
        unfold strtol
        rw [hbody]
        split
        · rename_i heq
          cases heq
          exact absurd rfl hminus
        · rename_i heq
          cases heq
          exact absurd rfl hplus
        · rw [List.takeWhile_eq_self_iff.mpr hdigits, hvalue]
          unfold LONG_MAX
          omega
      unfold atoi
      rw [hlong]
      exact Int.bmod_eq_of_le (by omega) (by omega)

end Foundation
end NetExperiment
