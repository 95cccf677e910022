import Mathlib
import Amarillo.L2Db.Queries

/-!
# Foreign keys over statements and rollbacks

A transaction refers to its block; events, traces and failure records refer to their
transaction. Inserts only add rows and a rollback deletes what refers before what is
referred to, so both keep `Db.ForeignKeys`.

`rollbackFromBlock_eq` says what a rollback leaves in every table.
-/
namespace Amarillo.L2
open Amarillo.Core

section Insert
variable {env : Env} {s : Stmt} {ss : List Stmt} {db db' : Db}

theorem exec_hasTransaction (h : exec env s db = .ok db') {txHash : String}
    (ht : db.hasTransaction txHash = true) : db'.hasTransaction txHash = true := by
  unfold Db.hasTransaction at ht ⊢
  rw [(exec_applied h).transactions, Table.get_insertNew, Option.isSome_or, ht, Bool.true_or]

theorem exec_blocks_isSome (h : exec env s db = .ok db') {n : Int}
    (hb : (db.blocks.get n).isSome = true) : (db'.blocks.get n).isSome = true := by
  rw [(exec_applied h).blocks, Table.get_insertNew, Option.isSome_or, hb, Bool.true_or]

/-- The foreign keys of the event tables. -/
theorem exec_eventTx (h : exec env s db = .ok db') :
    (∀ e ∈ db.swapEvents.news s.swapRows, db.hasTransaction e.txHash = true) ∧
    (∀ e ∈ db.liquidityEvents.news s.liquidityRows, db.hasTransaction e.txHash = true) ∧
    ∀ t ∈ db.tokenTransfers.news s.transferRows, db.hasTransaction t.txHash = true := by
  cases s with
  | insertSwapEvents rows =>
    refine ⟨?_, by simp, by simp⟩
    simp only [exec, insertSwapEvents] at h
    generalize (if env.triggers = true then _ else _ : Table UserProfile.userAddress) = ps at h
    split at h
    · cases h
    · split at h
      · cases h
      · rename_i hfk
        simpa using hfk
  | insertLiquidityEvents rows =>
    refine ⟨by simp, ?_, by simp⟩
    simp only [exec, insertLiquidityEvents] at h
    split at h
    · cases h
    · split at h
      · cases h
      · rename_i hfk
        simpa using hfk
  | insertTokenTransfers rows =>
    refine ⟨by simp, by simp, ?_⟩
    simp only [exec, insertTokenTransfers] at h
    split at h
    · cases h
    · split at h
      · cases h
      · rename_i hfk
        simpa using hfk
  | _ => simp

/-- A table whose rows refer to transactions, after rows that do were added. -/
theorem hasTransaction_insertNew {α κ : Type} [DecidableEq κ] {key : α → κ} {txHash : α → String}
    (h : exec env s db = .ok db') {t : Table key} {rows : List α}
    (ht : ∀ r ∈ t.rows, db.hasTransaction (txHash r) = true)
    (hnew : ∀ r ∈ t.news rows, db.hasTransaction (txHash r) = true) :
    ∀ r ∈ (t.insertNew rows).rows, db'.hasTransaction (txHash r) = true := by
  intro r hr
  rw [Table.rows_insertNew] at hr
  rcases List.mem_append.mp hr with hr | hr
  · exact exec_hasTransaction h (ht r hr)
  · exact exec_hasTransaction h (hnew r hr)

/-- A stub comes with its transaction. -/
theorem stubs_hasTransaction (h : exec env s db = .ok db') :
    ∀ f ∈ db.stubs env s.transactionRows, db'.hasTransaction f.txHash = true := by
  intro f hf
  unfold Db.stubs at hf
  split at hf
  · obtain ⟨t, ht, hft⟩ := List.mem_filterMap.mp hf
    rw [failedStub_txHash hft, Db.hasTransaction, (exec_applied h).transactions, Table.get_isSome,
      Table.rows_insertNew]
    exact ⟨t, List.mem_append_right _ ht, rfl⟩
  · cases hf

theorem transactionRows_or_failedRows (s : Stmt) : s.transactionRows = [] ∨ s.failedRows = [] := by
  cases s <;> simp

theorem exec_foreignKeys (h : exec env s db = .ok db') (hfk : db.ForeignKeys) : db'.ForeignKeys := by
  have ha := exec_applied h
  obtain ⟨hswap, hliq, htransfer⟩ := exec_eventTx h
  constructor
  case transactionBlock =>
    intro t ht
    rw [ha.transactions, Table.rows_insertNew] at ht
    rcases List.mem_append.mp ht with ht | ht
    · exact exec_blocks_isSome h (hfk.transactionBlock t ht)
    · exact exec_blocks_isSome h (ha.inBlock t ht)
  case swapTx =>
    rw [ha.swapEvents]
    exact hasTransaction_insertNew h hfk.swapTx hswap
  case liquidityTx =>
    rw [ha.liquidityEvents]
    exact hasTransaction_insertNew h hfk.liquidityTx hliq
  case transferTx =>
    rw [ha.tokenTransfers]
    exact hasTransaction_insertNew h hfk.transferTx htransfer
  case traceTx =>
    intro t ht
    rw [ha.traceLogs] at ht
    rcases Serial.mem_append ht with ht | ⟨n, t', ht', rfl⟩
    · exact exec_hasTransaction h (hfk.traceTx t ht)
    · obtain ⟨r, hr, rfl⟩ := List.mem_map.mp ht'
      exact exec_hasTransaction h (ha.tracedTx r hr)
  case failedTx =>
    rw [ha.failedTransactions]
    intro f hf
    rw [Table.rows_insertNew, Table.rows_insertNew] at hf
    rcases List.mem_append.mp hf with hf | hf
    · rcases List.mem_append.mp hf with hf | hf
      · exact exec_hasTransaction h (hfk.failedTx f hf)
      · exact stubs_hasTransaction h f (lookup_mem _ (Table.mem_news hf).2)
    · -- a statement with failure records has no transactions, so no stubs
      rcases transactionRows_or_failedRows s with hs | hs
      · rw [hs, Db.stubs_nil, Table.insertNew_nil] at hf
        exact exec_hasTransaction h (ha.failedTx f hf)
      · rw [hs, Table.news_nil] at hf
        cases hf

theorem execAll_foreignKeys (h : execAll env ss db = (db', none)) (hfk : db.ForeignKeys) :
    db'.ForeignKeys := by
  induction ss generalizing db with
  | nil =>
    cases h
    exact hfk
  | cons s ss ih =>
    obtain ⟨m, hm, h⟩ := execAll_cons.mp h
    exact ih h (exec_foreignKeys hm hfk)

end Insert

/-! ## Rollback -/

section Rollback
variable {fromBlock : Int} {db db' : Db} {deleted : Nat}

theorem rollbackFromBlock_eq (h : rollbackFromBlock fromBlock db = .ok (db', deleted)) :
    db' = { deleteDependents fromBlock db with
      transactions := db.transactions.filter fun t => decide (t.blockNumber < fromBlock)
      blocks := db.blocks.filter fun b => decide (b.blockNumber < fromBlock)
      checkpoint := db.checkpoint.map fun _ => max (fromBlock - 1) 0 } := by
  simp only [rollbackFromBlock, deleteTransactions, deleteBlocks, bind, Except.bind, pure,
    Except.pure] at h
  split at h
  · cases h
  · rename_i db₁ h₁
    split at h
    · cases h
    · rename_i db₂ h₂
      cases h
      split at h₁ <;> cases h₁
      split at h₂ <;> cases h₂
      rfl

/-- A transaction stays iff it is not rolled back. -/
theorem rollback_hasTransaction (h : rollbackFromBlock fromBlock db = .ok (db', deleted))
    (txHash : String) : db'.hasTransaction txHash =
      (db.hasTransaction txHash && !db.rolledBack fromBlock txHash) := by
  rw [rollbackFromBlock_eq h]
  simp only [Db.hasTransaction, Db.rolledBack, Table.get_filter]
  cases db.transactions.get txHash with
  | none => rfl
  | some t =>
    simp only [Option.filter_some, Option.isSome_some, Option.any_some, Bool.true_and]
    split <;> simp_all

theorem rollback_foreignKeys (h : rollbackFromBlock fromBlock db = .ok (db', deleted))
    (hfk : db.ForeignKeys) : db'.ForeignKeys := by
  have hkeep : ∀ txHash, db.hasTransaction txHash = true → (!db.rolledBack fromBlock txHash) = true →
      db'.hasTransaction txHash = true := fun txHash ht hr => by
    rw [rollback_hasTransaction h, ht, hr]
    rfl
  have heq := rollbackFromBlock_eq h
  constructor
  case transactionBlock =>
    intro t ht
    rw [heq] at ht ⊢
    obtain ⟨ht, hlt⟩ := List.mem_filter.mp ht
    obtain ⟨b, hb⟩ := Option.isSome_iff_exists.mp (hfk.transactionBlock t ht)
    rw [Table.get_filter, hb, Option.filter_some, if_pos]
    · rfl
    · rwa [Table.get_key hb]
  case swapTx =>
    intro e he
    rw [heq] at he
    obtain ⟨he, hr⟩ := List.mem_filter.mp he
    exact hkeep _ (hfk.swapTx e he) hr
  case liquidityTx =>
    intro e he
    rw [heq] at he
    obtain ⟨he, hr⟩ := List.mem_filter.mp he
    exact hkeep _ (hfk.liquidityTx e he) hr
  case transferTx =>
    intro t ht
    rw [heq] at ht
    obtain ⟨ht, hr⟩ := List.mem_filter.mp ht
    exact hkeep _ (hfk.transferTx t ht) hr
  case traceTx =>
    intro t ht
    rw [heq] at ht
    obtain ⟨ht, hr⟩ := List.mem_filter.mp ht
    exact hkeep _ (hfk.traceTx t ht) hr
  case failedTx =>
    intro f hf
    rw [heq] at hf
    obtain ⟨hf, hr⟩ := List.mem_filter.mp hf
    exact hkeep _ (hfk.failedTx f hf) hr

end Rollback

end Amarillo.L2
