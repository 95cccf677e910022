import Amarillo.L3Indexer.FailedStub

/-!
# What an `Ok` of `process_block` stands for

A missing block, a failed call, a refused statement or a panic makes the call
an error. Inside an `Ok` two things can still be missing: a transaction
without a receipt at its position is not stored, and a failing transaction
whose trace could not be fetched or read is logged and left out.

* `processBlock_complete`: with one receipt for each transaction, `Ok` means
  that every transaction is stored, and that every failing one has a record
  exactly when its trace was had (or a record was there before).
-/
namespace Amarillo.L3
open Amarillo.Core Amarillo.L1 Amarillo.L2

variable (R : Runtime)

/-- The receipts are those of the block's transactions, in order. -/
def Covers (block : RpcBlock) (receipts : List RpcReceipt) : Prop :=
  receipts.map RpcReceipt.transactionHash = block.transactions.map RpcTx.hash

theorem transactionRows_txHash {blockNumber : Nat} {block : RpcBlock} {receipts : List RpcReceipt}
    (h : Covers block receipts) :
    (transactionRows blockNumber receipts block.transactions).map Transaction.txHash =
      block.transactions.map fun t => t.hash.hex := by
  unfold Covers at h
  generalize block.transactions = txs at h ⊢
  induction receipts generalizing txs with
  | nil =>
    cases txs with
    | nil => rfl
    | cons t ts => cases h
  | cons r rs ih =>
    cases txs with
    | nil => cases h
    | cons t ts =>
      simp only [List.map_cons, List.cons.injEq] at h
      simp only [transactionRows, List.zipWith_cons_cons, List.map_cons, List.cons.injEq]
      exact ⟨by rw [← h.1]; rfl, ih ts h.2⟩

/-- **An `Ok` is complete up to the traces.** Without the triggers, and with
the receipts of the block's transactions: when the call returns `Ok`, every
transaction of the block is stored, and a failing one has a failure record if
and only if its trace was fetched and parsed, or it had one before. -/
theorem processBlock_complete {abi : Abi} {blockNumber : Nat} {a : Answers} {env : Env}
    {db db' : Db} (htrig : env.triggers = false)
    (hrun : (processBlock R abi blockNumber a).run env db = (db', true)) :
    ∃ block receipts, a.block = some block ∧ a.receipts = some receipts ∧
      (Covers block (receipts.getD []) →
        (∀ t ∈ block.transactions, db'.hasTransaction t.hash.hex = true) ∧
        ∀ r ∈ receipts.getD [], r.status = false →
          ((db'.failedTransactions.get r.transactionHash.hex).isSome = true ↔
            (db.failedTransactions.get r.transactionHash.hex).isSome = true ∨
            (traceFrames R a.trace r.transactionHash.hex).isSome = true)) := by
  obtain ⟨hrun, hend⟩ := Program.run_ok hrun
  obtain ⟨block, receipts, traces, failed, hb, hr, hp, hstmts⟩ := processBlock_ok R hend
  rw [hstmts] at hrun
  obtain ⟨htx, hfinal, -⟩ := execAll_full hrun
  obtain ⟨-, hfailed, hsome⟩ := processFailedTxs_ok R hp
  refine ⟨block, receipts, hb, hr, fun hcover => ⟨fun t ht => ?_, fun r hrm hfail => ?_⟩⟩
  · have hmem : t.hash.hex ∈ (transactionRows blockNumber (receipts.getD [])
        block.transactions).map Transaction.txHash := by
      rw [transactionRows_txHash hcover]
      exact List.mem_map_of_mem ht
    obtain ⟨row, hrow, hhash⟩ := List.mem_map.mp hmem
    obtain ⟨x, hx, hxk⟩ := key_mem_insertNew Transaction.txHash db.transactions.rows hrow
    rw [Db.hasTransaction, htx, Table.get_isSome]
    exact ⟨x, hx, hxk.trans hhash⟩
  · have hx : r.transactionHash.hex ∈ failedHashes (receipts.getD []) :=
      List.mem_map.mpr ⟨r, List.mem_filter.mpr ⟨hrm, by simp [hfail]⟩, rfl⟩
    have hstubs : Db.stubs env { db with
        blocks := db.blocks.insertNew [blockRow blockNumber block.header] }
        (transactionRows blockNumber (receipts.getD []) block.transactions) = [] := by
      simp [Db.stubs, htrig]
    have hlookup : (lookup FailedTransaction.txHash r.transactionHash.hex failed).isSome = true ↔
        (traceFrames R a.trace r.transactionHash.hex).isSome = true := by
      rw [← hsome _ hx, lookup_isSome, hfailed]
      constructor
      · rintro ⟨f, hf, hfx⟩
        obtain ⟨y, -, hy⟩ := List.mem_filterMap.mp hf
        rw [← hfx, (recordOf_txHash R hy).1, hy]
        rfl
      · intro h
        obtain ⟨f, hf⟩ := Option.isSome_iff_exists.mp h
        exact ⟨f, List.mem_filterMap.mpr ⟨_, hx, hf⟩, (recordOf_txHash R hf).1⟩
    rw [hfinal, hstubs, Table.insertNew_nil, Table.get_insertNew, Option.isSome_or, Bool.or_eq_true,
      hlookup]

/-- The same without triggers. -/
def plainEnv : Env := ⟨false, 1700000000⟩

def plainRun (a : Answers) : Db × Bool :=
  (processBlock (.asciiOnly true) wordAbi 1 a).run plainEnv Db.empty

theorem plainRun_ok :
    plainRun (revertAnswers customErrorTrace) = ((plainRun (revertAnswers customErrorTrace)).1, true) :=
  Prod.snd_eq_iff.mp (by decide +kernel)

theorem customError_complete : ∃ block receipts,
    (revertAnswers customErrorTrace).block = some block ∧
    (revertAnswers customErrorTrace).receipts = some receipts ∧
    (Covers block (receipts.getD []) →
      (∀ t ∈ block.transactions,
        (plainRun (revertAnswers customErrorTrace)).1.hasTransaction t.hash.hex = true) ∧
      ∀ r ∈ receipts.getD [], r.status = false →
        (((plainRun (revertAnswers customErrorTrace)).1.failedTransactions.get
            r.transactionHash.hex).isSome = true ↔
          (Db.empty.failedTransactions.get r.transactionHash.hex).isSome = true ∨
          (traceFrames (.asciiOnly true) (revertAnswers customErrorTrace).trace
            r.transactionHash.hex).isSome = true)) :=
  processBlock_complete (.asciiOnly true) rfl plainRun_ok

/-- The node has the block but no trace of its failing transaction. -/
def untracedAnswers : Answers := { revertAnswers customErrorTrace with trace := fun _ => .failed }

/-- The call returns `Ok` and the failing transaction has no record. -/
theorem untraced_left_out :
    ¬ ∀ (R : Runtime) (abi : Abi) (blockNumber : Nat) (a : Answers) (env : Env) (db db' : Db)
      (block : RpcBlock) (receipts : List RpcReceipt), env.triggers = false →
      a.block = some block → a.receipts = some (some receipts) →
      (processBlock R abi blockNumber a).run env db = (db', true) →
      (∀ t ∈ block.transactions, db'.hasTransaction t.hash.hex = true) ∧
      ∀ r ∈ receipts, r.status = false →
        (db'.failedTransactions.get r.transactionHash.hex).isSome = true := by
  intro h
  have key : (plainRun untracedAnswers).2 = true ∧
      ((plainRun untracedAnswers).1.failedTransactions.get
        revertReceipt.transactionHash.hex).isSome = false := by
    decide +kernel
  have hrun : plainRun untracedAnswers = ((plainRun untracedAnswers).1, true) :=
    Prod.snd_eq_iff.mp key.1
  have hrec := (h (.asciiOnly true) wordAbi 1 untracedAnswers plainEnv Db.empty
    (plainRun untracedAnswers).1 revertBlock [revertReceipt] rfl rfl rfl hrun).2 revertReceipt
    (List.mem_singleton_self _) rfl
  rw [key.2] at hrec
  cases hrec

end Amarillo.L3
