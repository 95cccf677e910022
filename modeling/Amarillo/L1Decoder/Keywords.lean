import Amarillo.L1Decoder.Classifier
import Amarillo.L1Decoder.RevertReason

/-!
# Keywords of the classifier

The rules of `classify_error` are substring tests on the lowercased reason. Two things are said
about them here. The S12.1 rules are documented to win over the generic ones; the generic balance
rule stands before three of them, though, so a reason that holds a keyword of both gets the
generic category. And a text that `decode_revert_reason` renders itself, hex digits behind `0x`
or a panic code, has none of the keywords: each of them has a letter that no rendering has.

* `mentions_contains`: a keyword in any letter case is found.
* `specific_first_iff`: the specific category is returned exactly if the reason holds
  "allowance" or none of the generic balance keywords.
* `undecodable_unknown`: what does not start with the `Error(string)` selector stays UNKNOWN.
-/
namespace Amarillo.L1
open Amarillo.Core

variable (R : Runtime)

/-! ## Letter case -/

/-- `keyword` occurs in the text, in any letter case. -/
def Mentions (text keyword : String) : Prop :=
  ∃ w, w <:+: text.toList ∧ w.map Char.toLower = keyword.toList

theorem ascii_of_toLower {c : Char} (h : c.toLower.toNat < 128) : c.toNat < 128 := by
  unfold Char.toLower at h
  split at h
  · rename_i hupper
    have : c.val ≤ 'Z'.val := hupper.2
    have : c.val.toNat ≤ 90 := this
    exact Nat.lt_of_le_of_lt this (by decide)
  · exact h

theorem lowerFrom_append (pre s t : List Char) :
    ∃ l, R.lowerFrom pre (s ++ t) = l ++ R.lowerFrom (s.reverse ++ pre) t := by
  induction s generalizing pre with
  | nil => exact ⟨[], rfl⟩
  | cons c s ih =>
    obtain ⟨l, hl⟩ := ih (c :: pre)
    refine ⟨R.lower pre c (s ++ t) ++ l, ?_⟩
    rw [List.cons_append, Runtime.lowerFrom, hl, List.append_assoc, List.reverse_cons,
      List.append_assoc]
    rfl

/-- ASCII text is lowercased character by character, wherever it stands. -/
theorem lowerFrom_ascii (pre t : List Char) {s : List Char} (hs : ∀ c ∈ s, c.toNat < 128) :
    R.lowerFrom pre (s ++ t) = s.map Char.toLower ++ R.lowerFrom (s.reverse ++ pre) t := by
  induction s generalizing pre with
  | nil => rfl
  | cons c s ih =>
    obtain ⟨hc, hs⟩ := List.forall_mem_cons.mp hs
    rw [List.cons_append, Runtime.lowerFrom, R.ascii pre c (s ++ t) hc, ih (c :: pre) hs,
      List.reverse_cons, List.append_assoc]
    rfl

theorem toLowercase_ascii {s : List Char} (hs : ∀ c ∈ s, c.toNat < 128) :
    R.toLowercase s = s.map Char.toLower := by
  have := lowerFrom_ascii R [] [] hs
  rwa [List.append_nil, Runtime.lowerFrom, List.append_nil] at this

theorem mentions_contains {text keyword : String} (hk : ∀ c ∈ keyword.toList, c.toNat < 128)
    (h : Mentions text keyword) : contains (R.toLowercase text.toList) keyword = true := by
  obtain ⟨w, ⟨s, t, hst⟩, hw⟩ := h
  have hascii : ∀ c ∈ w, c.toNat < 128 := by
    intro c hc
    refine ascii_of_toLower (hk _ ?_)
    rw [← hw]
    exact List.mem_map_of_mem hc
  obtain ⟨l, hl⟩ := lowerFrom_append R [] s (w ++ t)
  rw [contains, decide_eq_true_eq, Runtime.toLowercase, ← hst, List.append_assoc, hl,
    lowerFrom_ascii R _ t hascii, hw, ← List.append_assoc]
  exact List.infix_append _ _ _

/-! ## The S12.1 rules -/

/-- The keywords of the four S12.1 rules, each with its category. -/
def specificRules : List (String × String) :=
  [("allowance", "INSUFFICIENT_ALLOWANCE"), ("too little received", "SLIPPAGE_AMOUNT_OUT"),
    ("too much requested", "SLIPPAGE_AMOUNT_IN"), ("price slipped", "SLIPPAGE_PRICE_IMPACT"),
    ("amount out", "SLIPPAGE_PRICE_IMPACT")]

/-- The result is the category of an S12.1 keyword that the reason holds. -/
def SpecificResult (reason : String) : Prop :=
  ∃ rule ∈ specificRules, contains (R.toLowercase reason.toList) rule.1 = true ∧
    classifyError R reason = rule.2

theorem specificRules_ascii : ∀ rule ∈ specificRules, ∀ c ∈ rule.1.toList, c.toNat < 128 := by
  have hall : (specificRules.all fun rule => rule.1.toList.all fun c => decide (c.toNat < 128)) =
      true := by decide +kernel
  intro rule hrule c hc
  exact of_decide_eq_true (List.all_eq_true.mp (List.all_eq_true.mp hall rule hrule) c hc)

theorem specificResult_mem {reason : String} (h : SpecificResult R reason) :
    classifyError R reason ∈ specificStrings := by
  have hall : ∀ rule ∈ specificRules, rule.2 ∈ specificStrings := by decide
  obtain ⟨rule, hrule, -, heq⟩ := h
  rw [heq]
  exact hall rule hrule

/-- Without "allowance" and the generic balance keywords, the first slippage rule decides. -/
theorem classifyError_slippage {reason : String}
    (ha : ¬contains (R.toLowercase reason.toList) "allowance" = true)
    (hg : ¬GenericBalance (R.toLowercase reason.toList))
    (hs : SpecificSlippage (R.toLowercase reason.toList)) : SpecificResult R reason := by
  unfold SpecificResult SpecificSlippage at *
  unfold classifyError
  simp only
  generalize R.toLowercase reason.toList = s at *
  rw [if_neg ha, if_neg fun h => hg ((genericBalance_rule s).mp h)]
  by_cases ho : contains s "too little received" = true
  · rw [if_pos ho]
    exact ⟨("too little received", _), by decide, ho, rfl⟩
  rw [if_neg ho]
  by_cases hi : contains s "too much requested" = true
  · rw [if_pos hi]
    exact ⟨("too much requested", _), by decide, hi, rfl⟩
  rw [if_neg hi]
  rcases hs with h | h | h | h
  · exact absurd h ho
  · exact absurd h hi
  · rw [if_pos (by rw [h]; rfl)]
    exact ⟨("price slipped", _), by decide, h, rfl⟩
  · rw [if_pos (by rw [h, Bool.or_true])]
    exact ⟨("amount out", _), by decide, h, rfl⟩

/-- **When a specific rule wins.** A reason that mentions an S12.1 keyword, in any letter case
and anywhere, gets the category of an S12.1 keyword it holds if and only if it holds
"allowance" or none of the keywords of the generic balance rule. -/
theorem specific_first_iff (reason : String) (h : ∃ rule ∈ specificRules, Mentions reason rule.1) :
    SpecificResult R reason ↔
      contains (R.toLowercase reason.toList) "allowance" = true ∨
        ¬GenericBalance (R.toLowercase reason.toList) := by
  constructor
  · intro hresult
    rcases (classifyError_specific R reason).mp (specificResult_mem R hresult) with ha | ⟨hg, -⟩
    · exact .inl ha
    · exact .inr hg
  · intro hcond
    by_cases ha : contains (R.toLowercase reason.toList) "allowance" = true
    · exact ⟨("allowance", "INSUFFICIENT_ALLOWANCE"), List.mem_cons_self, ha, if_pos ha⟩
    · obtain ⟨rule, hrule, hmention⟩ := h
      have hcontains := mentions_contains R (specificRules_ascii rule hrule) hmention
      refine classifyError_slippage R ha (hcond.resolve_left ha) ?_
      simp only [specificRules, List.mem_cons, List.not_mem_nil, or_false] at hrule
      rcases hrule with rfl | rfl | rfl | rfl | rfl
      · exact absurd hcontains ha
      · exact .inl hcontains
      · exact .inr (.inl hcontains)
      · exact .inr (.inr (.inl hcontains))
      · exact .inr (.inr (.inr hcontains))

theorem specific_first_router :
    SpecificResult (.asciiOnly true) "Router: Too Little Received" ↔
      contains (Runtime.toLowercase (.asciiOnly true) "Router: Too Little Received".toList)
          "allowance" = true ∨
        ¬GenericBalance (Runtime.toLowercase (.asciiOnly true) "Router: Too Little Received".toList) :=
  specific_first_iff (.asciiOnly true) "Router: Too Little Received"
    ⟨("too little received", "SLIPPAGE_AMOUNT_OUT"), by decide, "Too Little Received".toList,
      ⟨"Router: ".toList, [], by decide⟩, by decide⟩

/-- "Too little received: insufficient output" is a balance error. -/
theorem specific_overruled :
    Mentions "Too little received: insufficient output" "too little received" ∧
    classifyError (.asciiOnly true) "Too little received: insufficient output" =
      "INSUFFICIENT_BALANCE" ∧
    ¬SpecificResult (.asciiOnly true) "Too little received: insufficient output" := by
  have hresult : classifyError (.asciiOnly true) "Too little received: insufficient output" =
      "INSUFFICIENT_BALANCE" := by decide +kernel
  refine ⟨⟨"Too little received".toList, ⟨[], ": insufficient output".toList, by decide⟩, by decide⟩,
    hresult, fun h => ?_⟩
  have := specificResult_mem (.asciiOnly true) h
  rw [hresult] at this
  revert this
  decide

/-! ## Rendered texts -/

/-- The keywords of all rules. -/
def keywords : List String :=
  ["allowance", "stf", "insufficient", "balance", "exceeds balance", "not enough",
    "too little received", "too much requested", "price slipped", "amount out", "slippage",
    "deadline", "too old", "expired", "transaction too old", "unauthorized", "ownable", "not owner",
    "forbidden", "access denied", "transfer failed", "transfer_failed", "safe transfer",
    "safetransferfrom"]

theorem classifyError_unknown {reason : String}
    (h : ∀ k ∈ keywords, contains (R.toLowercase reason.toList) k = false) :
    classifyError R reason = "UNKNOWN" := by
  unfold classifyError
  simp only
  generalize R.toLowercase reason.toList = s at h
  simp only [keywords, List.forall_mem_cons] at h
  simp [h]

/-- The characters of the texts the decoder renders, lowercased. -/
def rendered : List Char := "0123456789abcdefxpnic()".toList

/-- Every keyword has a letter that no rendering has. -/
theorem keywords_unrendered : ∀ k ∈ keywords, ∃ c ∈ k.toList, c ∉ rendered := by
  have hall : (keywords.all fun k => k.toList.any fun c => decide (c ∉ rendered)) = true := by
    decide +kernel
  intro k hk
  obtain ⟨c, hc, hout⟩ := List.any_eq_true.mp (List.all_eq_true.mp hall k hk)
  exact ⟨c, hc, of_decide_eq_true hout⟩

theorem contains_rendered {s : List Char} (hs : ∀ c ∈ s, c ∈ rendered) :
    ∀ k ∈ keywords, contains s k = false := by
  intro k hk
  obtain ⟨c, hc, hout⟩ := keywords_unrendered k hk
  rw [contains, decide_eq_false_iff_not]
  intro hinside
  exact hout (hs c (hinside.subset hc))

/-- The characters of the texts before they are lowercased. -/
def renderedChars : List Char := "0123456789abcdefxPnic()".toList

theorem toLower_rendered : ∀ c ∈ renderedChars, c.toNat < 128 ∧ c.toLower ∈ rendered := by
  have hall : (renderedChars.all fun c => decide (c.toNat < 128 ∧ c.toLower ∈ rendered)) = true := by
    decide +kernel
  intro c hc
  exact of_decide_eq_true (List.all_eq_true.mp hall c hc)

theorem toLowercase_rendered {s : List Char} (hs : ∀ c ∈ s, c ∈ renderedChars) :
    ∀ c ∈ R.toLowercase s, c ∈ rendered := by
  rw [toLowercase_ascii R fun c hc => (toLower_rendered c (hs c hc)).1]
  intro c hc
  obtain ⟨x, hx, rfl⟩ := List.mem_map.mp hc
  exact (toLower_rendered x (hs x hx)).2

theorem literals_rendered : "0123456789abcdef".toList ⊆ renderedChars ∧
    "0x".toList ⊆ renderedChars ∧ "Panic(0x".toList ⊆ renderedChars ∧ ")".toList ⊆ renderedChars := by
  decide +kernel

theorem hexText_rendered (bytes : Bytes) : ∀ c ∈ ("0x" ++ bytesToHex bytes).toList, c ∈ renderedChars := by
  obtain ⟨hdigits, hprefix, -, -⟩ := literals_rendered
  rw [String.toList_append]
  intro c hc
  rcases List.mem_append.mp hc with hc | hc
  · exact hprefix hc
  · exact hdigits (mem_bytesToHex hc)

theorem panicText_rendered (bytes : Bytes) :
    ∀ c ∈ ("Panic(0x" ++ bytesToHex bytes ++ ")").toList, c ∈ renderedChars := by
  obtain ⟨hdigits, -, hopen, hclose⟩ := literals_rendered
  rw [String.toList_append, String.toList_append]
  intro c hc
  rcases List.mem_append.mp hc with hc | hc
  · rcases List.mem_append.mp hc with hc | hc
    · exact hopen hc
    · exact hdigits (mem_bytesToHex hc)
  · exact hclose hc

/-- What is no `Error(string)` is rendered. -/
theorem decodeRevertReason_rendered {output : Bytes} (h : output.take 4 ≠ errorSelector) :
    ∃ text, decodeRevertReason R output = .ok text ∧ ∀ c ∈ text.toList, c ∈ renderedChars := by
  unfold decodeRevertReason
  split
  · exact ⟨_, rfl, hexText_rendered output⟩
  rw [if_neg (show ¬output.take 4 = [0x08, 0xc3, 0x79, 0xa0] from h)]
  split
  · exact ⟨_, rfl, panicText_rendered _⟩
  · exact ⟨_, rfl, hexText_rendered output⟩

/-- **Undecodable reverts stay UNKNOWN.** Return data that does not start with the
`Error(string)` selector, be it a custom error, a panic, too short or empty, is rendered to a
text that holds none of the classifier's keywords, so its category is UNKNOWN. -/
theorem undecodable_unknown (output : Bytes) (h : ¬errorSelector <+: output) :
    ∃ text, decodeRevertReason R output = .ok text ∧ classifyError R text = "UNKNOWN" ∧
      ∀ k ∈ keywords, contains (R.toLowercase text.toList) k = false := by
  have htake : output.take 4 ≠ errorSelector := by
    rintro heq
    exact h (heq ▸ List.take_prefix 4 output)
  obtain ⟨text, htext, hchars⟩ := decodeRevertReason_rendered R htake
  have hnone := contains_rendered (toLowercase_rendered R hchars)
  exact ⟨text, htext, classifyError_unknown R hnone, hnone⟩

/-- Solidity's `Panic(uint256)` for an arithmetic overflow. -/
def overflowPanic : Bytes := panicSelector ++ List.replicate 31 0 ++ [0x11]

theorem undecodable_panic :
    ∃ text, decodeRevertReason (.asciiOnly true) overflowPanic = .ok text ∧
      classifyError (.asciiOnly true) text = "UNKNOWN" ∧
      ∀ k ∈ keywords, contains (Runtime.toLowercase (.asciiOnly true) text.toList) k = false :=
  undecodable_unknown (.asciiOnly true) overflowPanic (by decide)

example : decodeRevertReason (.asciiOnly true) overflowPanic = .ok "Panic(0x11)" := by
  decide +kernel

end Amarillo.L1
