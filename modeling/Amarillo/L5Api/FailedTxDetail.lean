import Amarillo.L3Indexer.Hashes
import Amarillo.L5Api.AbiArgs

/-!
# One failed transaction (`api/src/routes/failed_tx.rs`, `get_failed_tx`)

`getFailedTx` takes a hash in any mix of cases (`isTxHash`) and looks it up as it stands, three
times: the record, the call tree and the first frame with an error. The two selectors are named
from the table of signatures and their arguments decoded; the category is looked up for its
diagnosis. The database answers every query; what it refuses is a text with a NUL byte.

* `getFailedTx_own`: a detail is about the hash that was asked for.
* `getFailedTx_unknown`: a hash that is not stored letter by letter is 404.
* `hashLookup_iff`: so of the spellings of a stored hash exactly the one without upper-case
  letters is answered as the lowercase form is; `uppercase_not_found` shows another.

`LOWER` on a selector and `to_lowercase` are parameters (`pgLower`, `Runtime`), as is the ABI
decoder (`Alloy`).
-/
namespace Amarillo.L5
open Amarillo.Core Amarillo.L1 Amarillo.L2 Amarillo.L3

def MAX_CALL_TREE_FRAMES : Nat := 2000

/-- A digit is one byte, so the length in bytes is the number of digits.
mirrors crates/api/src/routes/failed_tx.rs:14-19 -/
def isTxHash (s : String) : Bool :=
  match s.toList with
  | '0' :: 'x' :: h => h.length = 64 && h.all fun c => (hexVal c).isSome
  | _ => false

/-! ## Names and diagnoses -/

/-- mirrors crates/db/src/models.rs:655-666 -/
structure FunctionSignature where
  selector : String
  name : String
  signature : String
  source : Option String
  createdAt : Int
  deriving DecidableEq, Repr

/-- mirrors crates/db/src/models.rs:708-719 -/
structure CategoryDiagnosis where
  errorCategory : String
  message : String
  recommendedAction : Option String
  source : Option String
  createdAt : Int
  deriving DecidableEq, Repr

/-- The tables that migrations and operators fill. -/
structure Seeds where
  functionSignatures : Table FunctionSignature.selector
  categoryDiagnoses : Table CategoryDiagnosis.errorCategory

structure DecodedFunction where
  selector : String
  name : String
  signature : String
  source : Option String
  args : Option (List DecodedArg)

def FunctionSignature.decoded (fs : FunctionSignature) (args : Option (List DecodedArg)) :
    DecodedFunction := ⟨fs.selector, fs.name, fs.signature, fs.source, args⟩

structure Diagnosis where
  message : String
  recommendedAction : Option String
  source : Option String
  deriving DecidableEq, Repr

def CategoryDiagnosis.diagnosis (cd : CategoryDiagnosis) : Diagnosis :=
  ⟨cd.message, cd.recommendedAction, cd.source⟩

/-- mirrors crates/db/src/queries.rs:1412-1426 -/
def getFunctionSignature (pgLower : String → String) (seeds : Seeds) (selector : String) :
    Except FetchError (Option FunctionSignature) :=
  if text selector then .ok (seeds.functionSignatures.get (pgLower selector)) else .error .sqlx

/-- mirrors crates/db/src/queries.rs:1387-1401 -/
def getCategoryDiagnosis (seeds : Seeds) (errorCategoryWire : String) : Option CategoryDiagnosis :=
  seeds.categoryDiagnoses.get errorCategoryWire

/-! ## The route -/

/-- mirrors crates/db/src/models.rs:462-491 -/
structure FailedTxDetail where
  failed : FailedTransaction
  callTree : List TraceLog
  callTreeTruncated : Bool
  rootCause : Option TraceLog
  failingFunctionDecoded : Option DecodedFunction
  rootCauseDecoded : Option DecodedFunction
  diagnosis : Option Diagnosis

/-- How a request ends without a detail. -/
inductive DetailError where
  | api (e : ApiError)
  | notFound (msg : String)
  | panic
  deriving DecidableEq, Repr

/-- mirrors crates/api/src/error.rs:29-44 -/
def DetailError.ofDb : FetchError → DetailError
  | .sqlx => .api (.internal "database error")
  | .notFound msg => .notFound msg

section Route
variable (R : Runtime) (A : Alloy) (pgLower : String → String) (seeds : Seeds)

/-- mirrors crates/api/src/routes/failed_tx.rs:121-127 -/
def extractSelector (inputHex : String) : Except Panic (Option String) :=
  let stripped := strip0x inputHex.toList
  if utf8Size stripped < 8 then .ok none
  else
    match bytePrefix 8 stripped with
    | some p => .ok (some ("0x" ++ String.ofList (R.toLowercase p)))
    | none => .error .panic

/-- The name of a selector, with the arguments of an input. An input that does not decode
leaves the arguments out. -/
def decodedFunction (selector : String) (input : Option String) :
    Except DetailError (Option DecodedFunction) :=
  match getFunctionSignature pgLower seeds selector with
  | .error e => .error (.ofDb e)
  | .ok none => .ok none
  | .ok (some fs) => .ok (some (fs.decoded
      (input.bind fun i => (decodeArgs A fs.signature i).toOption)))

/-- mirrors crates/api/src/routes/failed_tx.rs:47-72 -/
def failingFunctionDecoded (failed : FailedTransaction) (callTree : List TraceLog) :
    Except DetailError (Option DecodedFunction) :=
  match failed.failingFunction with
  | none => .ok none
  | some selector => decodedFunction A pgLower seeds selector
      ((callTree.find? fun f => f.callDepth = 0).bind TraceLog.input)

/-- mirrors crates/api/src/routes/failed_tx.rs:77-97 -/
def rootCauseDecoded (rootCause : Option TraceLog) : Except DetailError (Option DecodedFunction) :=
  match rootCause.bind TraceLog.input with
  | none => .ok none
  | some inputHex =>
    match extractSelector R inputHex with
    | .error .panic => .error .panic
    | .ok none => .ok none
    | .ok (some selector) => decodedFunction A pgLower seeds selector (some inputHex)

/-- mirrors crates/api/src/routes/failed_tx.rs:25-117 -/
def getFailedTx (db : Db) (txHash : String) : Except DetailError FailedTxDetail :=
  if isTxHash txHash = false then
    .error (.api (.badRequest ("invalid tx_hash (expected 0x + 64 hex): " ++ txHash)))
  else do
    let failed ← (getFailedTransaction db txHash).mapError DetailError.ofDb
    let frames := listTraceLogsByTx db txHash (MAX_CALL_TREE_FRAMES + 1)
    let callTree := frames.take MAX_CALL_TREE_FRAMES
    let rootCause := getFirstErrorFrame db txHash
    let failingFunctionDecoded ← failingFunctionDecoded A pgLower seeds failed callTree
    let rootCauseDecoded ← rootCauseDecoded R A pgLower seeds rootCause
    return {
      failed := failed
      callTree := callTree
      callTreeTruncated := decide (MAX_CALL_TREE_FRAMES < frames.length)
      rootCause := rootCause
      failingFunctionDecoded := failingFunctionDecoded
      rootCauseDecoded := rootCauseDecoded
      diagnosis := (getCategoryDiagnosis seeds failed.errorCategory.asWire).map
        CategoryDiagnosis.diagnosis }

end Route

/-! ## One request -/

section Request
variable {R : Runtime} {A : Alloy} {pgLower : String → String} {seeds : Seeds} {db : Db}

/-- An accepted hash has no character but `x` and hex digits, so no NUL. -/
theorem isTxHash_text {h : String} (hh : isTxHash h = true) : text h := by
  unfold isTxHash at hh
  split at hh
  · rename_i digits heq
    rw [Bool.and_eq_true] at hh
    have hnul : hexVal (Char.ofNat 0) = none := by decide
    rw [text, heq, List.mem_cons, List.mem_cons, not_or, not_or]
    refine ⟨by decide, by decide, fun hmem => ?_⟩
    have := List.all_eq_true.mp hh.2 _ hmem
    rw [hnul] at this
    cases this
  · cases hh

/-- What the first lookup does with an accepted hash. -/
theorem getFailedTransaction_accepted {h : String} (hh : isTxHash h = true) :
    getFailedTransaction db h =
      match db.failedTransactions.get h with
      | some f => .ok f
      | none => .error (.notFound ("failed transaction " ++ h)) :=
  if_pos (isTxHash_text hh)

/-- A hash that is not stored letter by letter is 404. -/
theorem getFailedTx_unknown {h : String} (hh : isTxHash h = true)
    (hget : db.failedTransactions.get h = none) :
    getFailedTx R A pgLower seeds db h = .error (.notFound ("failed transaction " ++ h)) := by
  unfold getFailedTx
  rw [hh, if_neg (by decide), getFailedTransaction_accepted hh, hget]
  rfl

theorem decodedFunction_ne_notFound (selector : String) (input : Option String) (msg : String) :
    decodedFunction A pgLower seeds selector input ≠ .error (.notFound msg) := by
  unfold decodedFunction getFunctionSignature
  intro h
  split at h
  · rename_i e he
    split at he
    · cases he
    · cases he
      cases h
  · cases h
  · cases h

theorem failingFunctionDecoded_ne_notFound (failed : FailedTransaction) (callTree : List TraceLog)
    (msg : String) : failingFunctionDecoded A pgLower seeds failed callTree ≠ .error (.notFound msg) := by
  unfold failingFunctionDecoded
  split
  · exact fun h => by cases h
  · exact decodedFunction_ne_notFound _ _ _

theorem rootCauseDecoded_ne_notFound (rootCause : Option TraceLog) (msg : String) :
    rootCauseDecoded R A pgLower seeds rootCause ≠ .error (.notFound msg) := by
  unfold rootCauseDecoded
  split
  · exact fun h => by cases h
  · split
    · exact fun h => by cases h
    · exact fun h => by cases h
    · exact decodedFunction_ne_notFound _ _ _

/-- A hash with a record is not 404: the lookups after the record's own have no such answer. -/
theorem getFailedTx_ne_notFound {h : String} (hget : (db.failedTransactions.get h).isSome = true)
    (msg : String) : getFailedTx R A pgLower seeds db h ≠ .error (.notFound msg) := by
  obtain ⟨f, hf⟩ := Option.isSome_iff_exists.mp hget
  unfold getFailedTx
  split
  · exact fun h => by cases h
  · rename_i hh
    rw [Bool.not_eq_false] at hh
    rw [getFailedTransaction_accepted hh, hf]
    simp only [Except.mapError, bind, Except.bind, pure, Except.pure]
    intro h
    split at h
    · rename_i e he
      cases h
      exact failingFunctionDecoded_ne_notFound _ _ _ he
    · split at h
      · rename_i e he
        cases h
        exact rootCauseDecoded_ne_notFound _ _ he
      · cases h

/-- A detail is about the hash that was asked for, and holds at most 2000 frames. -/
theorem getFailedTx_own {h : String} {d : FailedTxDetail}
    (hd : getFailedTx R A pgLower seeds db h = .ok d) :
    db.failedTransactions.get h = some d.failed ∧ (∀ f ∈ d.callTree, f.txHash = h) ∧
    (∀ f ∈ d.rootCause, f.txHash = h) ∧ d.callTree.length ≤ MAX_CALL_TREE_FRAMES := by
  unfold getFailedTx at hd
  split at hd
  · cases hd
  · rename_i hh
    rw [Bool.not_eq_false] at hh
    rw [getFailedTransaction_accepted hh] at hd
    cases hget : db.failedTransactions.get h with
    | none =>
      rw [hget] at hd
      cases hd
    | some failed =>
      simp only [hget, Except.mapError, bind, Except.bind, pure, Except.pure] at hd
      split at hd
      · cases hd
      · split at hd
        · cases hd
        · cases hd
          refine ⟨rfl, fun f hf => ?_, fun f hf => ?_, List.length_take_le _ _⟩
          · have hf := List.mem_of_mem_take hf
            rw [listTraceLogsByTx_eq] at hf
            exact of_decide_eq_true (List.mem_filter.mp (List.mem_of_mem_take hf)).2
          · have hf : getFirstErrorFrame db h = some f := hf
            rw [getFirstErrorFrame_eq] at hf
            have := List.find?_some hf
            rw [Bool.and_eq_true] at this
            exact of_decide_eq_true this.1

end Request

/-! ## Spellings of a hash -/

/-- A spelling is answered as its lowercase form is, and not with 404. -/
def AnsweredAlike (R : Runtime) (A : Alloy) (pgLower : String → String) (seeds : Seeds) (db : Db)
    (h : String) : Prop :=
  getFailedTx R A pgLower seeds db h = getFailedTx R A pgLower seeds db (lower h) ∧
  ∀ msg, getFailedTx R A pgLower seeds db h ≠ .error (.notFound msg)

/-- Only the lowercase spelling of a stored hash is a key of the table. -/
theorem get_spelling {indexer : Runtime} {abi : Abi} {db : Db} (hdb : (writes indexer abi).Reachable db)
    {f : FailedTransaction} (hf : f ∈ db.failedTransactions.rows) {h : String}
    (hlow : lower h = f.txHash) :
    (db.failedTransactions.get h).isSome = true ↔ lower h = h := by
  constructor
  · intro hget
    obtain ⟨g, hg⟩ := Option.isSome_iff_exists.mp hget
    rw [← Table.get_key hg]
    exact stored_lower hdb (Table.get_mem hg)
  · intro heq
    rw [← heq, hlow, Option.isSome_iff_ne_none]
    exact fun hnone => Table.get_eq_none.mp hnone f hf rfl

/-- A spelling that is answered alike has its record under itself. -/
theorem AnsweredAlike.found {R : Runtime} {A : Alloy} {pgLower : String → String} {seeds : Seeds}
    {db : Db} {h : String} (hh : isTxHash h = true) (halike : AnsweredAlike R A pgLower seeds db h) :
    (db.failedTransactions.get h).isSome = true := by
  by_contra hnone
  rw [Bool.not_eq_true, Option.isSome_eq_false_iff, Option.isNone_iff_eq_none] at hnone
  exact halike.2 _ (getFailedTx_unknown hh hnone)

/-- **The lookup is exact in the case of the letters.** On every database the indexer writes, a
spelling of the hash of a stored failure is answered as the lowercase form is if and only if it
has no upper-case letter. -/
theorem hashLookup_iff (indexer R : Runtime) (abi : Abi) (A : Alloy) (pgLower : String → String)
    (seeds : Seeds) {db : Db} (hdb : (writes indexer abi).Reachable db) {f : FailedTransaction}
    (hf : f ∈ db.failedTransactions.rows) {h : String} (hh : isTxHash h = true)
    (hlow : lower h = f.txHash) :
    AnsweredAlike R A pgLower seeds db h ↔ ∀ c ∈ h.toList, c.isUpper = false := by
  rw [← lower_eq_self_iff, ← get_spelling hdb hf hlow]
  constructor
  · exact AnsweredAlike.found hh
  · intro hget
    refine ⟨?_, getFailedTx_ne_notFound hget⟩
    rw [(get_spelling hdb hf hlow).mp hget]

/-! ## An upper-case hash -/

def shoutedHash : String := String.ofList ('0' :: 'x' :: List.replicate 64 'A')

theorem shoutedHash_toList : shoutedHash.toList = '0' :: 'x' :: List.replicate 64 'A' :=
  String.toList_ofList

theorem isTxHash_shouted : isTxHash shoutedHash = true := by
  unfold isTxHash
  rw [shoutedHash_toList]
  decide

theorem mem_shouted : 'A' ∈ shoutedHash.toList := by
  rw [shoutedHash_toList]
  exact List.mem_cons_of_mem _ (List.mem_cons_of_mem _ (List.mem_replicate.mpr ⟨by decide, rfl⟩))

theorem lower_shouted : lower shoutedHash = revertReceipt.transactionHash.hex := by
  rw [← String.toList_inj, lower, shoutedHash_toList, String.toList_ofList, FixedBytes.hex, bytesToHex,
    String.toList_append, String.toList_ofList]
  rfl

def transferSignature : FunctionSignature where
  selector := "0xa9059cbb"
  name := "transfer"
  signature := "transfer(address,uint256)"
  source := some "erc20"
  createdAt := 1700000000

def unknownDiagnosis : CategoryDiagnosis where
  errorCategory := "UNKNOWN"
  message := "The exact failure mode could not be classified from the trace alone."
  recommendedAction := some "Inspect root_cause and the call_tree; raise an issue with the tx hash."
  source := some "builtin"
  createdAt := 1700000000

def demoSeeds : Seeds where
  functionSignatures := Table.empty.insertNew [transferSignature]
  categoryDiagnoses := Table.empty.insertNew [unknownDiagnosis]

/-- The database after the call with one reverted transaction. -/
def revertDb : Db := (revertRun customErrorTrace).1

theorem revertDb_reachable : (writes (.asciiOnly true) wordAbi).Reachable revertDb := by
  rw [revertDb, revertRun]
  exact writes_run writes_empty liveEnv 1 (revertAnswers customErrorTrace)

theorem revertDb_failed : ∃ f ∈ revertDb.failedTransactions.rows,
    f.txHash = revertReceipt.transactionHash.hex := by
  rw [revertDb]
  refine Table.get_isSome.mp ?_
  rw [← Option.isSome_map, revertRun_stub.2]
  rfl

theorem shouted_alike_iff :
    AnsweredAlike (.asciiOnly true) transferAlloy lower demoSeeds revertDb shoutedHash ↔
      ∀ c ∈ shoutedHash.toList, c.isUpper = false := by
  obtain ⟨f, hf, hkey⟩ := revertDb_failed
  exact hashLookup_iff (.asciiOnly true) (.asciiOnly true) wordAbi transferAlloy lower demoSeeds
    revertDb_reachable hf isTxHash_shouted (lower_shouted.trans hkey.symm)

/-- A stored hash in capitals is 404. -/
theorem uppercase_not_found :
    ¬ ∀ (indexer R : Runtime) (abi : Abi) (A : Alloy) (pgLower : String → String) (seeds : Seeds)
      (db : Db), (writes indexer abi).Reachable db → ∀ f ∈ db.failedTransactions.rows, ∀ h,
        isTxHash h = true → lower h = f.txHash → AnsweredAlike R A pgLower seeds db h := by
  intro hall
  obtain ⟨f, hf, hkey⟩ := revertDb_failed
  have hlow := lower_shouted.trans hkey.symm
  have halike := hall (.asciiOnly true) (.asciiOnly true) wordAbi transferAlloy lower demoSeeds revertDb
    revertDb_reachable f hf shoutedHash isTxHash_shouted hlow
  have hself : lower shoutedHash = shoutedHash :=
    (get_spelling revertDb_reachable hf hlow).mp (halike.found isTxHash_shouted)
  have hupper : 'A'.isUpper = false := lower_eq_self_iff.mp hself 'A' mem_shouted
  exact absurd hupper (by decide)

end Amarillo.L5
