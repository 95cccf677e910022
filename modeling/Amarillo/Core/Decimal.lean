import Amarillo.Core.Text

/-!
# Decimal text

`decNat` reads a string of decimal digits, `parseUnsigned` what `str::parse` of an
unsigned type reads, `parseSigned` a number with an optional sign. Printing is
`Nat.repr` and `Int.repr`.

* `decNat_repr`, `parseSigned_repr`: a printed number is read back.
-/
namespace Amarillo.Core

def decVal (c : Char) : Option Nat := if c.isDigit then some (c.toNat - '0'.toNat) else none

/-- Value of a string of decimal digits, `none` at the first other character. -/
def decNat (s : List Char) : Option Nat :=
  s.foldlM (fun acc c => (decVal c).map (acc * 10 + ·)) 0

theorem isDigit_of_decNat {s : List Char} {n : Nat} (h : decNat s = some n) :
    ∀ c ∈ s, c.isDigit = true := by
  have key : ∀ {s : List Char} {acc n : Nat},
      s.foldlM (fun acc c => (decVal c).map (acc * 10 + ·)) acc = some n → ∀ c ∈ s, c.isDigit = true := by
    intro s
    induction s with
    | nil =>
      intro acc n _ c hc
      cases hc
    | cons d s ih =>
      intro acc n h c hc
      rw [List.foldlM_cons, Option.bind_eq_bind, Option.bind_eq_some_iff] at h
      obtain ⟨acc', hd, hs⟩ := h
      rcases List.mem_cons.mp hc with rfl | hc
      · rw [Option.map_eq_some_iff] at hd
        obtain ⟨v, hv, -⟩ := hd
        unfold decVal at hv
        split at hv
        · assumption
        · cases hv
      · exact ih hs c hc
  exact key h

/-- `parse` of an unsigned type with `bound` values. -/
def parseUnsigned (bound : Nat) (s : List Char) : Option Nat :=
  if stripPlus s = [] then none
  else (decNat (stripPlus s)).bind fun n => if n < bound then some n else none

/-- A sign, perhaps, and at least one digit. -/
def parseSigned : List Char → Option Int
  | '-' :: s => if s = [] then none else (decNat s).map fun n => -(n : Int)
  | s => if stripPlus s = [] then none else (decNat (stripPlus s)).map Nat.cast

theorem decNat_ofDigitChars {s : List Char} (h : ∀ c ∈ s, c.isDigit) :
    decNat s = some (Nat.ofDigitChars 10 s 0) := by
  unfold decNat
  generalize 0 = acc
  induction s generalizing acc with
  | nil => rfl
  | cons c s ih =>
    obtain ⟨hc, hs⟩ := List.forall_mem_cons.mp h
    have hval : decVal c = some (c.toNat - '0'.toNat) := if_pos hc
    rw [List.foldlM_cons, hval, Option.map_some, Option.bind_eq_bind, Option.bind_some,
      Nat.ofDigitChars_cons, Nat.mul_comm 10 acc, ih hs]

theorem isDigit_of_mem_repr {n : Nat} {c : Char} (h : c ∈ n.repr.toList) : c.isDigit := by
  rw [Nat.toList_repr] at h
  exact Nat.isDigit_of_mem_toDigits (by decide) (by decide) h

theorem decNat_repr (n : Nat) : decNat n.repr.toList = some n := by
  rw [decNat_ofDigitChars fun c hc => isDigit_of_mem_repr hc, Nat.toList_repr,
    Nat.ofDigitChars_ten_toDigits]

theorem repr_ne_nil (n : Nat) : n.repr.toList ≠ [] := by
  rw [Nat.toList_repr]
  exact Nat.toDigits_ne_nil

/-- A printed number has no sign in front. -/
theorem stripPlus_repr (n : Nat) : stripPlus n.repr.toList = n.repr.toList := by
  have hdigit : ∀ c ∈ n.repr.toList, c.isDigit := fun c hc => isDigit_of_mem_repr hc
  generalize n.repr.toList = s at hdigit
  unfold stripPlus
  split
  · exact absurd (hdigit '+' List.mem_cons_self) (by decide)
  · rfl

theorem parseSigned_nat (n : Nat) : parseSigned n.repr.toList = some (n : Int) := by
  have hdigit : ∀ c ∈ n.repr.toList, c.isDigit := fun c hc => isDigit_of_mem_repr hc
  have hplus := stripPlus_repr n
  have hne := repr_ne_nil n
  have hval := decNat_repr n
  generalize n.repr.toList = s at hdigit hplus hne hval
  unfold parseSigned
  split
  · exact absurd (hdigit '-' List.mem_cons_self) (by decide)
  · rw [hplus, if_neg hne, hval]
    rfl

theorem parseSigned_repr (z : Int) : parseSigned z.repr.toList = some z := by
  cases z with
  | ofNat n => exact parseSigned_nat n
  | negSucc n =>
    have htext : (Int.negSucc n).repr.toList = '-' :: (n + 1).repr.toList := by
      rw [Int.repr, String.toList_append]
      rfl
    rw [htext, parseSigned, if_neg (repr_ne_nil _), decNat_repr]
    rfl

end Amarillo.Core
