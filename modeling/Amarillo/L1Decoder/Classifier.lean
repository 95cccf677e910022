import Amarillo.Core.Text
import Mathlib

/-!
# Revert reasons to category strings (`decoder/src/classifier.rs`)

`classifyError` lowercases the reason and tries its rules in order; the first
rule with a keyword in the reason decides. The result is one of ten strings
(`classifyError_mem`).

`to_lowercase` depends on the Unicode tables of the standard library.
`Runtime` stands for any of them: the image of a character may depend on the
text around it (final sigma), but an ASCII character always maps to its ASCII
lowercase. `Runtime` also says whether the build checks integer overflow.

`Specific` is the condition under which one of the four S12.1 rules decides.
-/
namespace Amarillo.L1
open Amarillo.Core

/-- What the toolchain leaves open: overflow checks and the lowercase tables.
`lower pre c post` is the image of `c` after `pre` (reversed), before `post`. -/
structure Runtime where
  overflowChecks : Bool
  lower : List Char → Char → List Char → List Char
  ascii : ∀ pre c post, c.toNat < 128 → lower pre c post = [c.toLower]

/-- A runtime whose lowercase table moves ASCII letters only. -/
def Runtime.asciiOnly (overflowChecks : Bool) : Runtime where
  overflowChecks := overflowChecks
  lower _ c _ := [c.toLower]
  ascii _ _ _ _ := rfl

variable (R : Runtime)

def Runtime.lowerFrom (pre : List Char) : List Char → List Char
  | [] => []
  | c :: post => R.lower pre c post ++ Runtime.lowerFrom (c :: pre) post

/-- `str::to_lowercase`. -/
def Runtime.toLowercase (s : List Char) : List Char := R.lowerFrom [] s

/-- `str::contains`. -/
def contains (s : List Char) (keyword : String) : Bool := decide (keyword.toList <:+: s)

/-- mirrors crates/decoder/src/classifier.rs:15-79 -/
def classifyError (revertReason : String) : String :=
  let lower := R.toLowercase revertReason.toList
  -- balance family, the S12.1 rule first
  if contains lower "allowance" then "INSUFFICIENT_ALLOWANCE"
  else if contains lower "stf" || contains lower "insufficient" || contains lower "balance" ||
      contains lower "exceeds balance" || contains lower "not enough" then "INSUFFICIENT_BALANCE"
  -- slippage family, the S12.1 rules first
  else if contains lower "too little received" then "SLIPPAGE_AMOUNT_OUT"
  else if contains lower "too much requested" then "SLIPPAGE_AMOUNT_IN"
  else if contains lower "price slipped" || contains lower "amount out" then
    "SLIPPAGE_PRICE_IMPACT"
  else if contains lower "slippage" then "SLIPPAGE_EXCEEDED"
  else if contains lower "deadline" || contains lower "too old" || contains lower "expired" ||
      contains lower "transaction too old" then "DEADLINE_EXPIRED"
  else if contains lower "unauthorized" || contains lower "ownable" ||
      contains lower "not owner" || contains lower "forbidden" ||
      contains lower "access denied" then "UNAUTHORIZED"
  else if contains lower "transfer failed" || contains lower "transfer_failed" ||
      contains lower "safe transfer" || contains lower "safetransferfrom" then "TRANSFER_FAILED"
  else "UNKNOWN"

/-- The strings `classifyError` returns. -/
def categoryStrings : List String :=
  ["INSUFFICIENT_ALLOWANCE", "INSUFFICIENT_BALANCE", "SLIPPAGE_AMOUNT_OUT", "SLIPPAGE_AMOUNT_IN",
    "SLIPPAGE_PRICE_IMPACT", "SLIPPAGE_EXCEEDED", "DEADLINE_EXPIRED", "UNAUTHORIZED",
    "TRANSFER_FAILED", "UNKNOWN"]

theorem classifyError_mem (reason : String) : classifyError R reason ∈ categoryStrings := by
  unfold classifyError
  simp only
  repeat' split
  all_goals decide

/-- A keyword of the generic balance rule occurs. -/
def GenericBalance (lower : List Char) : Prop :=
  contains lower "stf" ∨ contains lower "insufficient" ∨ contains lower "balance" ∨
    contains lower "not enough"

/-- A keyword of one of the three S12.1 slippage rules occurs. -/
def SpecificSlippage (lower : List Char) : Prop :=
  contains lower "too little received" ∨ contains lower "too much requested" ∨
    contains lower "price slipped" ∨ contains lower "amount out"

/-- One of the four S12.1 rules decides the reason: it holds "allowance", or a
specific slippage keyword and none of the generic balance keywords. -/
def Specific (reason : String) : Prop :=
  contains (R.toLowercase reason.toList) "allowance" ∨
    (¬ GenericBalance (R.toLowercase reason.toList) ∧
      SpecificSlippage (R.toLowercase reason.toList))

/-- The four category strings S12.1 added. -/
def specificStrings : List String :=
  ["INSUFFICIENT_ALLOWANCE", "SLIPPAGE_AMOUNT_OUT", "SLIPPAGE_AMOUNT_IN", "SLIPPAGE_PRICE_IMPACT"]

theorem contains_of_contains {s : List Char} {a b : String} (h : contains s a = true)
    (hab : b.toList <:+: a.toList) : contains s b = true := by
  simp only [contains, decide_eq_true_eq] at h ⊢
  exact hab.trans h

/-- "exceeds balance" adds nothing to "balance". -/
theorem genericBalance_rule (s : List Char) :
    (contains s "stf" || contains s "insufficient" || contains s "balance" ||
      contains s "exceeds balance" || contains s "not enough") = true ↔ GenericBalance s := by
  have hx : contains s "exceeds balance" = true → contains s "balance" = true :=
    fun h => contains_of_contains h (by decide)
  unfold GenericBalance
  simp only [Bool.or_eq_true]
  constructor
  · rintro ((((h | h) | h) | h) | h)
    · exact .inl h
    · exact .inr (.inl h)
    · exact .inr (.inr (.inl h))
    · exact .inr (.inr (.inl (hx h)))
    · exact .inr (.inr (.inr h))
  · rintro (h | h | h | h)
    · exact .inl (.inl (.inl (.inl h)))
    · exact .inl (.inl (.inl (.inr h)))
    · exact .inl (.inl (.inr h))
    · exact .inr h

theorem classifyError_specific (reason : String) :
    classifyError R reason ∈ specificStrings ↔ Specific R reason := by
  unfold classifyError Specific SpecificSlippage
  simp only
  generalize R.toLowercase reason.toList = s
  by_cases ha : contains s "allowance" = true
  · rw [if_pos ha]
    exact iff_of_true (by decide) (.inl ha)
  rw [if_neg ha]
  by_cases hg : GenericBalance s
  · rw [if_pos ((genericBalance_rule s).mpr hg)]
    refine iff_of_false (by decide) ?_
    rintro (h | ⟨h, -⟩)
    · exact ha h
    · exact h hg
  rw [if_neg fun h => hg ((genericBalance_rule s).mp h)]
  by_cases ho : contains s "too little received" = true
  · rw [if_pos ho]
    exact iff_of_true (by decide) (.inr ⟨hg, .inl ho⟩)
  rw [if_neg ho]
  by_cases hi : contains s "too much requested" = true
  · rw [if_pos hi]
    exact iff_of_true (by decide) (.inr ⟨hg, .inr (.inl hi)⟩)
  rw [if_neg hi]
  by_cases hp : (contains s "price slipped" || contains s "amount out") = true
  · rw [if_pos hp]
    exact iff_of_true (by decide) (.inr ⟨hg, .inr (.inr (by simpa using hp))⟩)
  rw [if_neg hp]
  refine iff_of_false ?_ ?_
  · repeat' split
    all_goals decide
  · rintro (h | ⟨-, h | h | h⟩)
    · exact ha h
    · exact ho h
    · exact hi h
    · exact hp (by simpa using h)

end Amarillo.L1
