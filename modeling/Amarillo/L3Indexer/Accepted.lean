import Amarillo.L2Db.References
import Amarillo.L3Indexer.Columns
import Amarillo.L3Indexer.Derived
import Amarillo.L3Indexer.Follow

/-!
# A block that fits is stored

`Columns` says which blocks have rows that the columns take. Here such a block is stored in
fact: its statements come in an order in which each finds the rows that it refers to, whatever
was in the database and whatever other tasks do in between. The triggers are not installed, as
the migrations leave it.

* `exec_accepted`: a statement is refused for its values, for a reference, or for a counter.
* `next_accepted`: the next statement of a block's task is not refused.
* `held_block`: after the last one the block and its transactions are there.
-/
namespace Amarillo.L2
open Amarillo.Core

/-- The transactions that the rows refer to. -/
def Stmt.refs (s : Stmt) : List String :=
  s.swapRows.map SwapEvent.txHash ++ s.liquidityRows.map LiquidityEvent.txHash ++
  s.transferRows.map TokenTransfer.txHash ++ s.traceRows.map TraceLog.txHash ++
  s.failedRows.map FailedTransaction.txHash

/-- Every counter is an `INTEGER`. -/
def Db.CountersFit (db : Db) : Prop := ∀ p ∈ db.userProfiles.rows, p.totalSwaps < 2 ^ 31

theorem mem_of_mem_news {α κ : Type} [DecidableEq κ] {key : α → κ} {t : Table key} {rows : List α}
    {r : α} (h : r ∈ t.news rows) : r ∈ rows :=
  lookup_mem _ (Table.mem_news h).2

section Accepted
variable {env : Env} {s : Stmt} {db db' : Db}

theorem exec_accepted (ht : env.triggers = false) (ha : s.accepted) (hcount : db.CountersFit)
    (hblock : ∀ t ∈ s.transactionRows, (db.blocks.get t.blockNumber).isSome = true)
    (hrefs : ∀ h ∈ s.refs, db.hasTransaction h = true) : ∃ db', exec env s db = .ok db' := by
  have hfits {α : Type} {P : α → Prop} {rows : List α} (h : ∀ r ∈ rows, P r) :
      ¬∃ r ∈ rows, ¬P r := by
    push Not
    exact h
  have hknown {α κ : Type} [DecidableEq κ] {key : α → κ} {t : Table key} {rows : List α}
      {txHash : α → String} (h : ∀ r ∈ rows, txHash r ∈ s.refs) :
      ¬∃ r ∈ t.news rows, db.hasTransaction (txHash r) = false := by
    rintro ⟨r, hr, hno⟩
    rw [hrefs _ (h r (mem_of_mem_news hr))] at hno
    cases hno
  cases s with
  | insertBlocks rows =>
    refine ⟨{ db with blocks := db.blocks.insertNew rows }, ?_⟩
    simp only [exec, insertBlocks]
    rw [if_neg (hfits ha), if_neg (by simp [ht])]
  | insertTransactions rows =>
    have hknown' : ¬∃ t ∈ db.transactions.news rows, (db.blocks.get t.blockNumber).isNone = true := by
      rintro ⟨t, htn, hno⟩
      have := hblock t (mem_of_mem_news htn)
      simp_all
    simp only [exec, insertTransactions]
    rw [if_neg (hfits ha), if_neg hknown']
    exact ⟨_, rfl⟩
  | insertSwapEvents rows =>
    simp only [exec, insertSwapEvents, ht, Bool.false_eq_true, if_false]
    rw [if_neg (hfits ha), if_neg (hknown fun r hr => by simp [Stmt.refs]; exact ⟨r, hr, rfl⟩),
      if_neg]
    · exact ⟨_, rfl⟩
    · rintro ⟨p, hp, hbig⟩
      exact absurd (hcount p hp) (by omega)
  | insertLiquidityEvents rows =>
    simp only [exec, insertLiquidityEvents]
    rw [if_neg (hfits ha), if_neg (hknown fun r hr => by simp [Stmt.refs]; exact ⟨r, hr, rfl⟩)]
    exact ⟨_, rfl⟩
  | insertTokenTransfers rows =>
    simp only [exec, insertTokenTransfers]
    rw [if_neg (hfits ha), if_neg (hknown fun r hr => by simp [Stmt.refs]; exact ⟨r, hr, rfl⟩)]
    exact ⟨_, rfl⟩
  | insertTraceLogs rows =>
    have hknown' : ¬∃ t ∈ rows, db.hasTransaction t.txHash = false := by
      rintro ⟨t, htn, hno⟩
      rw [hrefs _ (by simp [Stmt.refs]; exact ⟨t, htn, rfl⟩)] at hno
      cases hno
    simp only [exec, insertTraceLogs]
    rw [if_neg (hfits ha), if_neg hknown']
    exact ⟨_, rfl⟩
  | insertFailedTransactions rows =>
    simp only [exec, insertFailedTransactions]
    rw [if_neg (hfits ha), if_neg (hknown fun r hr => by simp [Stmt.refs]; exact ⟨r, hr, rfl⟩)]
    exact ⟨_, rfl⟩

/-- The rows of the statement are there, or rows with their keys. -/
structure Stmt.Held (s : Stmt) (db : Db) : Prop where
  blocks : ∀ b ∈ s.blockRows, (db.blocks.get b.blockNumber).isSome = true
  transactions : ∀ t ∈ s.transactionRows, db.hasTransaction t.txHash = true

theorem exec_held (h : exec env s db = .ok db') : s.Held db' := by
  have hmem {α κ : Type} [DecidableEq κ] {key : α → κ} (t : Table key) {rows : List α} {r : α}
      (hr : r ∈ rows) : ((t.insertNew rows).get (key r)).isSome = true := by
    rw [Table.get_insertNew, Option.isSome_or, (lookup_isSome key).mpr ⟨r, hr, rfl⟩, Bool.or_true]
  constructor
  · intro b hb
    rw [(exec_applied h).blocks]
    exact hmem _ hb
  · intro t htx
    rw [Db.hasTransaction, (exec_applied h).transactions]
    exact hmem _ htx

theorem Stmt.Held.exec {s₁ : Stmt} (hs : s₁.Held db) (h : exec env s db = .ok db') : s₁.Held db' :=
  ⟨fun b hb => exec_blocks_isSome h (hs.blocks b hb),
    fun t ht => exec_hasTransaction h (hs.transactions t ht)⟩

end Accepted
end Amarillo.L2

namespace Amarillo.L3
open Amarillo.Core Amarillo.L1 Amarillo.L2

/-! ## What a block's statements refer to -/

section Order
variable {R : Runtime} {abi : Abi} {n : Nat} {a : Answers} {block : RpcBlock} {receipts : List RpcReceipt}

theorem decodedEvents_hash {timestamp : Int} {e : DecodedEvent}
    (h : e ∈ decodedEvents abi timestamp receipts) : ∃ r ∈ receipts, r.transactionHash.hex = e.txHash := by
  simp only [decodedEvents, List.mem_flatMap, List.mem_filterMap] at h
  obtain ⟨r, hr, l, -, he⟩ := h
  split at he
  · cases he
  · exact ⟨r, hr, (decodeLog_txHash he).symm⟩

/-- A statement refers to transactions that have a receipt. -/
theorem sends_refs {s : Stmt} (h : Sends R abi n a block receipts s) {txHash : String}
    (ht : txHash ∈ s.refs) : ∃ r ∈ receipts, r.transactionHash.hex = txHash := by
  have hfailed {x : String} (hx : x ∈ failedHashes receipts) :
      ∃ r ∈ receipts, r.transactionHash.hex = x := by
    obtain ⟨r, hr, rfl⟩ := List.mem_map.mp hx
    exact ⟨r, (List.mem_filter.mp hr).1, rfl⟩
  cases h with
  | blocks | transactions => simp [Stmt.refs] at ht
  | swaps he | liquidity he | transfers he =>
    subst he
    simp only [Stmt.refs, Stmt.swapRows, Stmt.liquidityRows, Stmt.transferRows, Stmt.traceRows,
      Stmt.failedRows, List.map_nil, List.append_nil, List.nil_append, List.mem_map] at ht
    obtain ⟨x, hx, rfl⟩ := ht
    obtain ⟨e, he, hrow⟩ := List.mem_filterMap.mp hx
    cases e <;> cases hrow
    exact decodedEvents_hash he
  | @traces rows hp =>
    simp only [Stmt.refs, Stmt.swapRows, Stmt.liquidityRows, Stmt.transferRows, Stmt.traceRows,
      Stmt.failedRows, List.map_nil, List.append_nil, List.nil_append, List.mem_map] at ht
    obtain ⟨x, hx, rfl⟩ := ht
    rw [(processFailedTxs_ok R hp).1] at hx
    obtain ⟨y, hy, hxy⟩ := List.mem_flatMap.mp hx
    obtain ⟨f, -, rfl⟩ := List.mem_map.mp hxy
    exact hfailed hy
  | @failed rows hp =>
    simp only [Stmt.refs, Stmt.swapRows, Stmt.liquidityRows, Stmt.transferRows, Stmt.traceRows,
      Stmt.failedRows, List.map_nil, List.nil_append, List.mem_map] at ht
    obtain ⟨x, hx, rfl⟩ := ht
    rw [(processFailedTxs_ok R hp).2.1] at hx
    obtain ⟨y, hy, hxy⟩ := List.mem_filterMap.mp hx
    rw [(recordOf_txHash R hxy).1]
    exact hfailed hy

/-- Each receipt of a block has its transaction in the batch. -/
theorem transactionRows_hash {txs : List RpcTx}
    (haligned : receipts.map RpcReceipt.transactionHash = txs.map RpcTx.hash) {r : RpcReceipt}
    (hr : r ∈ receipts) : ∃ t ∈ transactionRows n receipts txs, t.txHash = r.transactionHash.hex := by
  have hlen : receipts.length = txs.length := by simpa using congrArg List.length haligned
  obtain ⟨i, hi, rfl⟩ := List.getElem_of_mem hr
  have hi' : i < txs.length := hlen ▸ hi
  refine ⟨transactionRow n receipts[i] txs[i], List.mem_iff_getElem.mpr ⟨i, ?_, ?_⟩, rfl⟩
  · simpa [transactionRows] using ⟨hi, hi'⟩
  · simp [transactionRows]

/-- The block comes first, then its transactions. -/
theorem processBlock_order (R : Runtime) (abi : Abi) (n : Nat) (block : RpcBlock)
    (receipts : List RpcReceipt) (trace : String → TraceAnswer) :
    ∃ tail, (processBlock R abi n ⟨some block, some (some receipts), trace⟩).stmts =
      .insertBlocks [blockRow n block.header] ::
        (batch .insertTransactions (transactionRows n receipts block.transactions) ++ tail) := by
  unfold processBlock indexedStmts
  simp only [Option.getD_some, List.cons_append, List.append_assoc]
  split <;> exact ⟨_, rfl⟩

/-- What a block's statement refers to, an earlier one has inserted. -/
structure Provided (done : List Stmt) (s : Stmt) : Prop where
  blocks : ∀ t ∈ s.transactionRows, ∃ s' ∈ done, ∃ b ∈ s'.blockRows, b.blockNumber = t.blockNumber
  transactions : ∀ h ∈ s.refs, ∃ s' ∈ done, ∃ t ∈ s'.transactionRows, t.txHash = h

theorem processBlock_provided {trace : String → TraceAnswer} {done rest : List Stmt} {s : Stmt}
    (haligned : receipts.map RpcReceipt.transactionHash = block.transactions.map RpcTx.hash)
    (h : (processBlock R abi n ⟨some block, some (some receipts), trace⟩).stmts = done ++ s :: rest) :
    Provided done s := by
  have hsends : Sends R abi n ⟨some block, some (some receipts), trace⟩ block receipts s := by
    obtain ⟨block', receipts', hb, hr, hs⟩ := mem_processBlock R
      (h ▸ List.mem_append_right done List.mem_cons_self)
    cases hb
    cases hr
    exact hs
  obtain ⟨tail, horder⟩ := processBlock_order R abi n block receipts trace
  rw [horder] at h
  cases done with
  | nil =>
    simp only [List.nil_append, List.cons.injEq] at h
    obtain ⟨rfl, -⟩ := h
    exact ⟨by simp, by simp [Stmt.refs]⟩
  | cons d done =>
    simp only [List.cons_append, List.cons.injEq] at h
    obtain ⟨rfl, h⟩ := h
    refine ⟨fun t ht => ⟨_, List.mem_cons_self, _, List.mem_singleton_self _, ?_⟩, fun x hx => ?_⟩
    · cases hsends with
      | transactions =>
        obtain ⟨i, hi, rfl⟩ := List.getElem_of_mem ht
        simp [transactionRows, transactionRow]
      | _ => cases ht
    · obtain ⟨r, hr, rfl⟩ := sends_refs hsends hx
      obtain ⟨t, ht, hhash⟩ := transactionRows_hash (n := n) haligned hr
      have hbatch : batch .insertTransactions (transactionRows n receipts block.transactions) =
          [.insertTransactions (transactionRows n receipts block.transactions)] := by
        rw [batch, if_neg (by simpa using List.ne_nil_of_mem ht)]
      rw [hbatch] at h
      -- the transactions are in before what refers to them
      cases done with
      | nil =>
        simp only [List.singleton_append, List.nil_append, List.cons.injEq] at h
        obtain ⟨rfl, -⟩ := h
        simp [Stmt.refs] at hx
      | cons d done =>
        simp only [List.cons_append, List.nil_append, List.cons.injEq] at h
        obtain ⟨rfl, -⟩ := h
        exact ⟨_, List.mem_cons_of_mem _ List.mem_cons_self, t, ht, hhash⟩

/-- A task whose block fits goes on, without the triggers. -/
theorem next_accepted {trace : String → TraceAnswer} {done rest : List Stmt} {s : Stmt} {env : Env}
    {db : Db} (haligned : receipts.map RpcReceipt.transactionHash = block.transactions.map RpcTx.hash)
    (hfits : NothingRejected (processBlock R abi n ⟨some block, some (some receipts), trace⟩))
    (h : (processBlock R abi n ⟨some block, some (some receipts), trace⟩).stmts = done ++ s :: rest)
    (hdone : ∀ s' ∈ done, s'.Held db) (ht : env.triggers = false) (hcount : db.CountersFit) :
    ∃ db', exec env s db = .ok db' := by
  have hprovided := processBlock_provided haligned h
  refine exec_accepted ht (hfits.1 s (h ▸ List.mem_append_right done List.mem_cons_self)) hcount ?_ ?_
  · intro t htx
    obtain ⟨s', hs', b, hb, hn⟩ := hprovided.blocks t htx
    exact hn ▸ (hdone s' hs').blocks b hb
  · intro x hx
    obtain ⟨s', hs', t, htx, rfl⟩ := hprovided.transactions x hx
    exact (hdone s' hs').transactions t htx

/-- Where all its statements have run, the block and its transactions are stored. -/
theorem held_block {trace : String → TraceAnswer} {db : Db}
    (haligned : receipts.map RpcReceipt.transactionHash = block.transactions.map RpcTx.hash)
    (h : ∀ s ∈ (processBlock R abi n ⟨some block, some (some receipts), trace⟩).stmts, s.Held db) :
    Stored db n ∧ ∀ tx ∈ block.transactions, db.hasTransaction tx.hash.hex = true := by
  obtain ⟨tail, horder⟩ := processBlock_order R abi n block receipts trace
  rw [horder] at h
  obtain ⟨hblock, hrest⟩ := List.forall_mem_cons.mp h
  refine ⟨hblock.blocks _ (List.mem_singleton_self _), fun tx htx => ?_⟩
  obtain ⟨r, hr, hhash⟩ : ∃ r ∈ receipts, r.transactionHash = tx.hash := by
    have hmem : tx.hash ∈ receipts.map RpcReceipt.transactionHash :=
      haligned ▸ List.mem_map_of_mem htx
    exact List.mem_map.mp hmem
  obtain ⟨t, ht, hth⟩ := transactionRows_hash (n := n) haligned hr
  have hbatch : .insertTransactions (transactionRows n receipts block.transactions) ∈
      batch .insertTransactions (transactionRows n receipts block.transactions) := by
    rw [batch, if_neg (by simpa using List.ne_nil_of_mem ht)]
    exact List.mem_singleton_self _
  have hheld := (hrest _ (List.mem_append_left tail hbatch)).transactions t ht
  rwa [hth, hhash] at hheld

end Order
end Amarillo.L3
