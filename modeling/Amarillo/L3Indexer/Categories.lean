import Amarillo.L3Indexer.ProcessBlock

/-!
# The stored category (`process_failed_txs` against `classify_error`)

The classifier emits ten strings, the enum has ten variants, and the worker's
match between them lists six: the four S12.1 strings fall into its catch-all
and are stored as `UNKNOWN`.

* `asWire_matchCategory`: a string the classifier emits survives the match
  exactly when it is not one of the four.
* `failedRecord_category_iff`: the stored category is the classifier's exactly
  when the decoded reason, if there is one, is not `Specific`.
-/
namespace Amarillo.L3
open Amarillo.Core Amarillo.L1 Amarillo.L2

variable (R : Runtime)

theorem asWire_matchCategory {s : String} (h : s ∈ categoryStrings) :
    (matchCategory s).asWire = s ↔ s ∉ specificStrings := by
  revert s
  decide

/-- What the classifier says about a reason, `UNKNOWN` when there is none. -/
def classifierCategory (reason : Option String) : String :=
  (reason.map (classifyError R)).getD "UNKNOWN"

theorem asWire_reasonCategory (reason : Option String) :
    (matchCategory (reasonCategory R reason)).asWire = classifierCategory R reason ↔
      ∀ r ∈ reason, ¬Specific R r := by
  cases reason with
  | none => exact iff_of_true rfl fun _ h => nomatch h
  | some r =>
    have h := asWire_matchCategory (classifyError_mem R r)
    rw [classifyError_specific R r] at h
    simpa [reasonCategory, classifierCategory] using h

/-- **The stored category is the classifier's except for the S12.1 rules.** For
every record the loop collects, with the reason decoded from the root frame's
output: the enum's wire form is the classifier's string if and only if no
S12.1 rule decides the reason. -/
theorem failedRecord_category_iff {trace : String → TraceAnswer} {timestamp : Int}
    {hs : List String} {traces : List TraceLog} {failed : List FailedTransaction}
    (h : processFailedTxs R trace timestamp hs = .ok (traces, failed)) :
    ∀ f ∈ failed, ∃ frames reason, traceFrames R trace f.txHash = some frames ∧
      rootReason R frames.head? = .ok reason ∧ f.revertReason = reason ∧
      (f.errorCategory.asWire = classifierCategory R reason ↔ ∀ r ∈ reason, ¬Specific R r) := by
  intro f hf
  rw [(processFailedTxs_ok R h).2.1, List.mem_filterMap] at hf
  obtain ⟨x, -, hx⟩ := hf
  have hxf := (recordOf_txHash R hx).1
  obtain ⟨frames, hframes, hrec⟩ := Option.bind_eq_some_iff.mp hx
  cases hr : failedRecord R x timestamp frames with
  | error e => simp [hr, Except.toOption] at hrec
  | ok g =>
    simp only [hr, Except.toOption, Option.some.injEq] at hrec
    subst hrec
    obtain ⟨hreason, -, -, -, hcat, -⟩ := failedRecord_ok R hr
    refine ⟨frames, g.revertReason, hxf ▸ hframes, hreason, rfl, ?_⟩
    rw [hcat]
    exact asWire_reasonCategory R g.revertReason

/-- `Error("deadline")`. -/
def deadlineTrace : Json := .obj
  [("type", .str "CALL"), ("from", .str "0x1111111111111111111111111111111111111111"),
   ("gasUsed", .str "0x5208"), ("input", .str "0x38ed1739"),
   ("output", .str <|
     "0x08c379a00000000000000000000000000000000000000000000000000000000000000020" ++
     "0000000000000000000000000000000000000000000000000000000000000008" ++
     "646561646c696e65000000000000000000000000000000000000000000000000"),
   ("error", .str "execution reverted")]

def deadlineRow : TraceLog where
  txHash := "0xaa"
  callDepth := 0
  callType := "CALL"
  fromAddr := "0x1111111111111111111111111111111111111111"
  toAddr := none
  value := 0
  gasUsed := 21000
  input := some "0x38ed1739"
  output := some <|
    "0x08c379a00000000000000000000000000000000000000000000000000000000000000020" ++
    "0000000000000000000000000000000000000000000000000000000000000008" ++
    "646561646c696e65000000000000000000000000000000000000000000000000"
  error := some "execution reverted"
  traceId := 0

def deadlineRecord : FailedTransaction where
  txHash := "0xaa"
  errorCategory := .deadlineExpired
  revertReason := some "deadline"
  failingFunction := some "0x38ed1739"
  gasUsed := 21000
  timestamp := 1700000000

theorem deadline_collected :
    processFailedTxs (.asciiOnly true) (fun _ => .callTracer (some deadlineTrace)) 1700000000
      ["0xaa"] = .ok ([deadlineRow], [deadlineRecord]) := by
  decide +kernel

theorem deadline_category_iff : ∃ frames reason,
    traceFrames (.asciiOnly true) (fun _ => .callTracer (some deadlineTrace)) "0xaa" = some frames ∧
    rootReason (.asciiOnly true) frames.head? = .ok reason ∧ some "deadline" = reason ∧
    ("DEADLINE_EXPIRED" = classifierCategory (.asciiOnly true) reason ↔
      ∀ r ∈ reason, ¬Specific (.asciiOnly true) r) :=
  failedRecord_category_iff (.asciiOnly true) deadline_collected deadlineRecord
    (List.mem_singleton_self _)

/-- A reverted ERC-20 call: `Error("ERC20: insufficient allowance")`. -/
def allowanceTrace : Json := .obj
  [("type", .str "CALL"), ("from", .str "0x1111111111111111111111111111111111111111"),
   ("gasUsed", .str "0x5208"), ("input", .str "0x23b872dd"),
   ("output", .str <|
     "0x08c379a00000000000000000000000000000000000000000000000000000000000000020" ++
     "000000000000000000000000000000000000000000000000000000000000001d" ++
     "45524332303a20696e73756666696369656e7420616c6c6f77616e6365000000"),
   ("error", .str "execution reverted")]

/-- The classifier says `INSUFFICIENT_ALLOWANCE`, the record says `UNKNOWN`. -/
theorem allowance_stored_unknown :
    ¬ ∀ (R : Runtime) (trace : String → TraceAnswer) (timestamp : Int) (hs : List String)
      (traces : List TraceLog) (failed : List FailedTransaction),
      processFailedTxs R trace timestamp hs = .ok (traces, failed) →
      ∀ f ∈ failed, f.errorCategory.asWire = classifierCategory R f.revertReason := by
  intro h
  have hrun : (processFailedTxs (.asciiOnly true) (fun _ => .callTracer (some allowanceTrace)) 0
      ["0xaa"]).map (fun r => r.2.map fun f =>
        decide (f.errorCategory.asWire = classifierCategory (.asciiOnly true) f.revertReason)) =
      .ok [false] := by decide +kernel
  cases hp : processFailedTxs (.asciiOnly true) (fun _ => .callTracer (some allowanceTrace)) 0
      ["0xaa"] with
  | error e =>
    rw [hp] at hrun
    cases hrun
  | ok r =>
    rw [hp] at hrun
    have hall := h _ _ _ _ r.1 r.2 hp
    obtain ⟨f, hf, hfalse⟩ : ∃ f ∈ r.2, decide (f.errorCategory.asWire =
        classifierCategory (.asciiOnly true) f.revertReason) = false := by
      have hmap : r.2.map (fun f => decide (f.errorCategory.asWire =
          classifierCategory (.asciiOnly true) f.revertReason)) = [false] := by
        simpa [Except.map] using hrun
      exact List.mem_map.mp (hmap ▸ List.mem_singleton_self false)
    exact absurd (hall f hf) (of_decide_eq_false hfalse)

end Amarillo.L3
