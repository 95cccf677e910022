import Amarillo.L2Db.References

/-!
# The statements of a rollback (`rollback_from_block`)

`rollbackTx` runs the eight statements one by one inside a transaction. Any
call to the database may fail (`fails`), and a delete that would leave a row
referring to a deleted one is refused; then the transaction is dropped and
what it did is undone. When all calls succeed it does what
`rollbackFromBlock` does (`rollbackTx_rollbackFromBlock`).

Results, for every state with its foreign keys in order (`rollback_effect`):
* the seven tables keep exactly their rows of blocks below `f`, the others are
  as before, and the result is the number of deleted blocks;
* after each statement the foreign keys hold;
* doing it again changes nothing, and two rollbacks are one to the lower
  height;
* a rollback that fails leaves everything in place.
-/
namespace Amarillo.L2
open Amarillo.Core

inductive RollbackStmt where
  | swapEvents
  | liquidityEvents
  | tokenTransfers
  | traceLogs
  | failedTransactions
  | transactions
  | blocks
  | checkpoint
  deriving DecidableEq, Repr

/-- The calls to the database, in order: `begin`, the statements, `commit`. -/
inductive RollbackCall where
  | start
  | stmt (s : RollbackStmt)
  | commit
  deriving DecidableEq, Repr

inductive TxError where
  | refused (e : DbError)
  | lost
  deriving DecidableEq, Repr

/-- Rows of a dependent table that stay. -/
abbrev Db.stays (db : Db) (fromBlock : Int) (txHash : String) : Bool :=
  !db.rolledBack fromBlock txHash

/-- One statement. The number is `rows_affected` of the block delete.
mirrors crates/db/src/queries.rs:847-902 -/
def RollbackStmt.exec (fromBlock : Int) : RollbackStmt → Db × Nat → Except DbError (Db × Nat)
  | .swapEvents, (db, n) =>
    .ok ({ db with swapEvents := db.swapEvents.filter fun e => db.stays fromBlock e.txHash }, n)
  | .liquidityEvents, (db, n) =>
    .ok ({ db with
      liquidityEvents := db.liquidityEvents.filter fun e => db.stays fromBlock e.txHash }, n)
  | .tokenTransfers, (db, n) =>
    .ok ({ db with
      tokenTransfers := db.tokenTransfers.filter fun t => db.stays fromBlock t.txHash }, n)
  | .traceLogs, (db, n) =>
    .ok ({ db with traceLogs := db.traceLogs.filter fun t => db.stays fromBlock t.txHash }, n)
  | .failedTransactions, (db, n) =>
    .ok ({ db with
      failedTransactions := db.failedTransactions.filter fun f => db.stays fromBlock f.txHash }, n)
  | .transactions, (db, n) => (deleteTransactions fromBlock db).map (·, n)
  | .blocks, (db, _) =>
    (deleteBlocks fromBlock db).map
      (·, (db.blocks.rows.filter fun b => fromBlock ≤ b.blockNumber).length)
  | .checkpoint, (db, n) =>
    .ok ({ db with checkpoint := db.checkpoint.map fun _ => max (fromBlock - 1) 0 }, n)

def rollbackStmts : List RollbackStmt :=
  [.swapEvents, .liquidityEvents, .tokenTransfers, .traceLogs, .failedTransactions, .transactions,
    .blocks, .checkpoint]

def runStmts (fails : RollbackCall → Bool) (fromBlock : Int) :
    List RollbackStmt → Db × Nat → Except TxError (Db × Nat)
  | [], p => .ok p
  | s :: ss, p =>
    if fails (.stmt s) then .error .lost
    else
      match s.exec fromBlock p with
      | .error e => .error (.refused e)
      | .ok p' => runStmts fails fromBlock ss p'

/-- The committed database afterwards and the result. A transaction that is
dropped or whose commit is refused leaves no trace.
mirrors crates/db/src/queries.rs:842-906 -/
def rollbackTx (fails : RollbackCall → Bool) (fromBlock : Int) (db : Db) :
    Db × Except TxError Nat :=
  if fails .start then (db, .error .lost)
  else
    match runStmts fails fromBlock rollbackStmts (db, 0) with
    | .error e => (db, .error e)
    | .ok (db', blocks) => if fails .commit then (db, .error .lost) else (db', .ok blocks)

section
variable {fails : RollbackCall → Bool} {fromBlock : Int} {db db' : Db} {n : Nat}

/-! ## Foreign keys -/

/-- A delete from a dependent table touches no row that is referred to. -/
theorem exec_dependent_foreignKeys (hfk : db.ForeignKeys) (p : String → Bool) :
    ({ db with swapEvents := db.swapEvents.filter fun e => p e.txHash } : Db).ForeignKeys ∧
    ({ db with liquidityEvents := db.liquidityEvents.filter fun e => p e.txHash } : Db).ForeignKeys ∧
    ({ db with tokenTransfers := db.tokenTransfers.filter fun e => p e.txHash } : Db).ForeignKeys ∧
    ({ db with traceLogs := db.traceLogs.filter fun e => p e.txHash } : Db).ForeignKeys ∧
    ({ db with failedTransactions :=
      db.failedTransactions.filter fun e => p e.txHash } : Db).ForeignKeys := by
  refine ⟨{ hfk with swapTx := ?_ }, { hfk with liquidityTx := ?_ }, { hfk with transferTx := ?_ },
    { hfk with traceTx := ?_ }, { hfk with failedTx := ?_ }⟩
  · exact fun e he => hfk.swapTx e (List.mem_filter.mp he).1
  · exact fun e he => hfk.liquidityTx e (List.mem_filter.mp he).1
  · exact fun e he => hfk.transferTx e (List.mem_filter.mp he).1
  · exact fun e he => hfk.traceTx e (List.mem_filter.mp he).1
  · exact fun e he => hfk.failedTx e (List.mem_filter.mp he).1

theorem mem_references {txHash : String} :
    txHash ∈ db.references ↔
      (∃ e ∈ db.swapEvents.rows, e.txHash = txHash) ∨
      (∃ e ∈ db.liquidityEvents.rows, e.txHash = txHash) ∨
      (∃ e ∈ db.tokenTransfers.rows, e.txHash = txHash) ∨
      (∃ e ∈ db.traceLogs.rows, e.txHash = txHash) ∨
      ∃ e ∈ db.failedTransactions.rows, e.txHash = txHash := by
  simp only [Db.references, List.mem_append, List.mem_map, or_assoc]

/-- A delete of transactions that is not refused leaves no dangling reference. -/
theorem deleteTransactions_foreignKeys (hfk : db.ForeignKeys)
    (h : deleteTransactions fromBlock db = .ok db') : db'.ForeignKeys := by
  unfold deleteTransactions at h
  split at h
  · cases h
  · rename_i href
    cases h
    have hkeep : ∀ txHash ∈ db.references, db.hasTransaction txHash = true →
        ((db.transactions.filter fun t => t.blockNumber < fromBlock).get txHash).isSome = true := by
      intro txHash hmem hhas
      obtain ⟨t, ht⟩ := Option.isSome_iff_exists.mp hhas
      have hlow : t.blockNumber < fromBlock := by
        by_contra hge
        refine href ⟨txHash, hmem, ?_⟩
        rw [Db.rolledBack, ht]
        exact decide_eq_true (Int.not_lt.mp hge)
      rw [Table.get_filter, ht, Option.filter_some, if_pos (decide_eq_true hlow)]
      rfl
    constructor
    case transactionBlock => exact fun t ht => hfk.transactionBlock t (List.mem_filter.mp ht).1
    case swapTx => exact fun e he => hkeep _ (mem_references.mpr (.inl ⟨e, he, rfl⟩)) (hfk.swapTx e he)
    case liquidityTx =>
      exact fun e he => hkeep _ (mem_references.mpr (.inr (.inl ⟨e, he, rfl⟩))) (hfk.liquidityTx e he)
    case transferTx =>
      exact fun e he =>
        hkeep _ (mem_references.mpr (.inr (.inr (.inl ⟨e, he, rfl⟩)))) (hfk.transferTx e he)
    case traceTx =>
      exact fun e he =>
        hkeep _ (mem_references.mpr (.inr (.inr (.inr (.inl ⟨e, he, rfl⟩))))) (hfk.traceTx e he)
    case failedTx =>
      exact fun e he =>
        hkeep _ (mem_references.mpr (.inr (.inr (.inr (.inr ⟨e, he, rfl⟩))))) (hfk.failedTx e he)

theorem deleteBlocks_foreignKeys (hfk : db.ForeignKeys)
    (h : deleteBlocks fromBlock db = .ok db') : db'.ForeignKeys := by
  unfold deleteBlocks at h
  split at h
  · cases h
  · rename_i href
    cases h
    refine { hfk with transactionBlock := fun t ht => ?_ }
    obtain ⟨b, hb⟩ := Option.isSome_iff_exists.mp (hfk.transactionBlock t ht)
    have hkey := Table.get_key hb
    have hlow : b.blockNumber < fromBlock := by
      by_contra hge
      exact href ⟨t, ht, b, Table.get_mem hb, Int.not_lt.mp hge, hkey.symm⟩
    rw [Table.get_filter, hb, Option.filter_some, if_pos (decide_eq_true hlow)]
    rfl

/-- No statement breaks a foreign key. -/
theorem RollbackStmt.exec_foreignKeys {s : RollbackStmt} {p q : Db × Nat} (hfk : p.1.ForeignKeys)
    (h : s.exec fromBlock p = .ok q) : q.1.ForeignKeys := by
  obtain ⟨db, n⟩ := p
  obtain ⟨hswap, hliq, htransfer, htrace, hfailed⟩ :=
    exec_dependent_foreignKeys hfk fun txHash => db.stays fromBlock txHash
  cases s with
  | swapEvents => cases h; exact hswap
  | liquidityEvents => cases h; exact hliq
  | tokenTransfers => cases h; exact htransfer
  | traceLogs => cases h; exact htrace
  | failedTransactions => cases h; exact hfailed
  | transactions =>
    rw [RollbackStmt.exec] at h
    cases hd : deleteTransactions fromBlock db with
    | error e => rw [hd] at h; cases h
    | ok db' =>
      rw [hd] at h
      cases h
      exact deleteTransactions_foreignKeys hfk hd
  | blocks =>
    rw [RollbackStmt.exec] at h
    cases hd : deleteBlocks fromBlock db with
    | error e => rw [hd] at h; cases h
    | ok db' =>
      rw [hd] at h
      cases h
      exact deleteBlocks_foreignKeys hfk hd
  | checkpoint =>
    cases h
    exact { hfk with }

theorem runStmts_foreignKeys {ss : List RollbackStmt} {p q : Db × Nat} (hfk : p.1.ForeignKeys)
    (h : runStmts fails fromBlock ss p = .ok q) : q.1.ForeignKeys := by
  induction ss generalizing p with
  | nil =>
    cases h
    exact hfk
  | cons s ss ih =>
    rw [runStmts] at h
    split at h
    · cases h
    · cases hs : s.exec fromBlock p with
      | error e => rw [hs] at h; cases h
      | ok p' =>
        rw [hs] at h
        exact ih (s.exec_foreignKeys hfk hs) h

/-! ## What is left -/

/-- The database after a rollback. -/
def Db.rolledTo (db : Db) (fromBlock : Int) : Db :=
  { deleteDependents fromBlock db with
    transactions := db.transactions.filter fun t => t.blockNumber < fromBlock
    blocks := db.blocks.filter fun b => b.blockNumber < fromBlock
    checkpoint := db.checkpoint.map fun _ => max (fromBlock - 1) 0 }

/-- The number of blocks from a height on. -/
def Db.blocksFrom (db : Db) (fromBlock : Int) : Nat :=
  (db.blocks.rows.filter fun b => fromBlock ≤ b.blockNumber).length

theorem length_filter_lt (blocks : List Block) (fromBlock : Int) :
    blocks.length - (blocks.filter fun b => b.blockNumber < fromBlock).length =
      (blocks.filter fun b => fromBlock ≤ b.blockNumber).length := by
  have hsplit := List.length_eq_length_filter_add (l := blocks) fun b => b.blockNumber < fromBlock
  have hnot : (blocks.filter fun b => !decide (b.blockNumber < fromBlock)) =
      blocks.filter fun b => decide (fromBlock ≤ b.blockNumber) := by
    refine List.filter_congr fun b _ => ?_
    rw [← decide_not]
    exact decide_eq_decide.mpr Int.not_lt
  rw [hnot] at hsplit
  omega

theorem deleteTransactions_ok (h : deleteTransactions fromBlock db = .ok db') :
    db' = { db with transactions := db.transactions.filter fun t => t.blockNumber < fromBlock } := by
  unfold deleteTransactions at h
  split at h
  · cases h
  · cases h
    rfl

theorem deleteBlocks_ok (h : deleteBlocks fromBlock db = .ok db') :
    db' = { db with blocks := db.blocks.filter fun b => b.blockNumber < fromBlock } := by
  unfold deleteBlocks at h
  split at h
  · cases h
  · cases h
    rfl

/-- Without failures the statements delete what is from `fromBlock` on. -/
theorem runStmts_rolledTo (fromBlock : Int) (db : Db) :
    runStmts (fun _ => false) fromBlock rollbackStmts (db, 0) =
      .ok (db.rolledTo fromBlock, db.blocksFrom fromBlock) := by
  obtain ⟨db', deleted, h⟩ := rollbackFromBlock_total fromBlock db
  simp only [rollbackFromBlock, bind, Except.bind] at h
  cases h₁ : deleteTransactions fromBlock (deleteDependents fromBlock db) with
  | error e => rw [h₁] at h; cases h
  | ok db₁ =>
    rw [h₁] at h
    cases h₂ : deleteBlocks fromBlock db₁ with
    | error e =>
      simp only [h₂] at h
      cases h
    | ok db₂ =>
      -- the five dependent deletes are `deleteDependents`
      calc runStmts (fun _ => false) fromBlock rollbackStmts (db, 0)
          = runStmts (fun _ => false) fromBlock [.transactions, .blocks, .checkpoint]
              (deleteDependents fromBlock db, 0) := rfl
        _ = runStmts (fun _ => false) fromBlock [.blocks, .checkpoint] (db₁, 0) := by
            rw [runStmts, RollbackStmt.exec, h₁]
            rfl
        _ = runStmts (fun _ => false) fromBlock [.checkpoint]
              (db₂, (db₁.blocks.rows.filter fun b => fromBlock ≤ b.blockNumber).length) := by
            rw [runStmts, RollbackStmt.exec, h₂]
            rfl
        _ = .ok (db.rolledTo fromBlock, db.blocksFrom fromBlock) := by
            rw [deleteBlocks_ok h₂, deleteTransactions_ok h₁]
            rfl

/-- Statements that all succeed do what the same statements do when none
can be lost. -/
theorem runStmts_of_ok {ss : List RollbackStmt} {p q : Db × Nat}
    (h : runStmts fails fromBlock ss p = .ok q) :
    runStmts (fun _ => false) fromBlock ss p = .ok q := by
  induction ss generalizing p with
  | nil => exact h
  | cons s ss ih =>
    rw [runStmts] at h ⊢
    split at h
    · cases h
    · rw [if_neg (by simp)]
      cases hs : s.exec fromBlock p with
      | error e => rw [hs] at h; cases h
      | ok p' =>
        rw [hs] at h
        exact ih h

theorem rollbackTx_ok (h : rollbackTx fails fromBlock db = (db', .ok n)) :
    db' = db.rolledTo fromBlock ∧ n = db.blocksFrom fromBlock := by
  unfold rollbackTx at h
  split at h
  · cases h
  · cases hr : runStmts fails fromBlock rollbackStmts (db, 0) with
    | error e => rw [hr] at h; cases h
    | ok p =>
      have hp := runStmts_of_ok hr
      rw [runStmts_rolledTo] at hp
      cases hp
      rw [hr] at h
      simp only at h
      split at h
      · cases h
      · cases h
        exact ⟨rfl, rfl⟩

theorem rollbackTx_error {e : TxError} (h : rollbackTx fails fromBlock db = (db', .error e)) :
    db' = db := by
  unfold rollbackTx at h
  split at h
  · cases h
    rfl
  · cases hr : runStmts fails fromBlock rollbackStmts (db, 0) with
    | error e' =>
      rw [hr] at h
      cases h
      rfl
    | ok p =>
      rw [hr] at h
      simp only at h
      split at h
      · cases h
        rfl
      · cases h

/-- Without failures it does what `rollbackFromBlock` does. -/
theorem rollbackTx_rollbackFromBlock (h : rollbackFromBlock fromBlock db = .ok (db', n)) :
    rollbackTx (fun _ => false) fromBlock db = (db', .ok n) := by
  have hn : n = db.blocksFrom fromBlock := by
    have hblocks := (rollbackFromBlock_ok h).1
    simp only [rollbackFromBlock, bind, Except.bind] at h
    split at h
    · cases h
    · split at h
      · cases h
      · rename_i db₂ _
        cases h
        have : db₂.blocks = db.blocks.filter fun b => b.blockNumber < fromBlock := hblocks
        rw [this, Db.blocksFrom, ← length_filter_lt]
        rfl
  rw [rollbackTx, if_neg (by simp), runStmts_rolledTo, rollbackFromBlock_eq h, hn]
  rfl

/-! ## Blocks below a height -/

/-- The transaction stands in a block below `fromBlock`. -/
def Db.below (db : Db) (fromBlock : Int) (txHash : String) : Bool :=
  (db.transactions.get txHash).any fun t => t.blockNumber < fromBlock

/-- What stays of a table whose rows refer to transactions. -/
theorem stays_below {txHash : String} (h : db.hasTransaction txHash = true) :
    db.stays fromBlock txHash = db.below fromBlock txHash := by
  obtain ⟨t, ht⟩ := Option.isSome_iff_exists.mp h
  rw [Db.stays, Db.rolledBack, Db.below, ht, Option.any_some, Option.any_some, ← decide_not]
  exact decide_eq_decide.mpr Int.not_le

theorem filter_stays {α : Type} {rows : List α} {txHash : α → String}
    (h : ∀ r ∈ rows, db.hasTransaction (txHash r) = true) :
    (rows.filter fun r => db.stays fromBlock (txHash r)) =
      rows.filter fun r => db.below fromBlock (txHash r) :=
  List.filter_congr fun r hr => stays_below (h r hr)

/-- A rollback from `fromBlock` that deleted `n` blocks. -/
structure RollbackEffect (fromBlock : Int) (db db' : Db) (n : Nat) : Prop where
  blocks : db'.blocks.rows = db.blocks.rows.filter fun b => b.blockNumber < fromBlock
  transactions : db'.transactions.rows =
    db.transactions.rows.filter fun t => t.blockNumber < fromBlock
  swapEvents : db'.swapEvents.rows = db.swapEvents.rows.filter fun e => db.below fromBlock e.txHash
  liquidityEvents : db'.liquidityEvents.rows =
    db.liquidityEvents.rows.filter fun e => db.below fromBlock e.txHash
  tokenTransfers : db'.tokenTransfers.rows =
    db.tokenTransfers.rows.filter fun e => db.below fromBlock e.txHash
  traceLogs : db'.traceLogs.rows = db.traceLogs.rows.filter fun e => db.below fromBlock e.txHash
  failedTransactions : db'.failedTransactions.rows =
    db.failedTransactions.rows.filter fun e => db.below fromBlock e.txHash
  userProfiles : db'.userProfiles = db.userProfiles
  auditLogs : db'.auditLogs = db.auditLogs
  deleted : n = (db.blocks.rows.filter fun b => fromBlock ≤ b.blockNumber).length

theorem rolledTo_effect (hfk : db.ForeignKeys) :
    RollbackEffect fromBlock db (db.rolledTo fromBlock) (db.blocksFrom fromBlock) where
  blocks := rfl
  transactions := rfl
  swapEvents := filter_stays hfk.swapTx
  liquidityEvents := filter_stays hfk.liquidityTx
  tokenTransfers := filter_stays hfk.transferTx
  traceLogs := filter_stays hfk.traceTx
  failedTransactions := filter_stays hfk.failedTx
  userProfiles := rfl
  auditLogs := rfl
  deleted := rfl

/-! ## Two rollbacks -/

/-- All tables but the checkpoint agree. -/
def SameData (a b : Db) : Prop := { a with checkpoint := none } = { b with checkpoint := none }

theorem rolledTo_stays (f g : Int) (db : Db) (txHash : String) :
    ((db.rolledTo f).stays g txHash && db.stays f txHash) = db.stays (min f g) txHash := by
  simp only [Db.stays, Db.rolledBack, Db.rolledTo, Table.get_filter]
  cases db.transactions.get txHash with
  | none => rfl
  | some t =>
    rw [Option.filter_some, Bool.eq_iff_iff]
    by_cases hf : t.blockNumber < f
    · simp [hf]
    · simp [hf]

theorem filter_lt_lt {α : Type} (rows : List α) (height : α → Int) (f g : Int) :
    ((rows.filter fun r => height r < f).filter fun r => height r < g) =
      rows.filter fun r => height r < min f g := by
  rw [List.filter_filter]
  refine List.filter_congr fun r _ => ?_
  rw [Bool.eq_iff_iff]
  simp
  omega

theorem filter_stays_stays {α : Type} (rows : List α) (txHash : α → String) (f g : Int) (db : Db) :
    ((rows.filter fun r => db.stays f (txHash r)).filter
        fun r => (db.rolledTo f).stays g (txHash r)) =
      rows.filter fun r => db.stays (min f g) (txHash r) := by
  rw [List.filter_filter]
  exact List.filter_congr fun r _ => rolledTo_stays f g db (txHash r)

/-- A table is its rows, a numbered one also its next number. -/
theorem serial_ext {α : Type} {id : α → Nat} {a b : Serial id} (hrows : a.rows = b.rows)
    (hnext : a.next = b.next) : a = b := by
  cases a
  cases b
  cases hrows
  cases hnext
  rfl

/-- Two rollbacks are one to the lower height. -/
theorem rolledTo_rolledTo (f g : Int) (db : Db) :
    SameData ((db.rolledTo f).rolledTo g) (db.rolledTo (min f g)) := by
  rw [SameData, Db.mk.injEq]
  refine ⟨?_, ?_, ?_, ?_, ?_, ?_, ?_, rfl, rfl, rfl⟩
  · exact Table.ext (filter_lt_lt db.blocks.rows Block.blockNumber f g)
  · exact Table.ext (filter_lt_lt db.transactions.rows Transaction.blockNumber f g)
  · exact Table.ext (filter_stays_stays db.swapEvents.rows SwapEvent.txHash f g db)
  · exact Table.ext (filter_stays_stays db.liquidityEvents.rows LiquidityEvent.txHash f g db)
  · exact Table.ext (filter_stays_stays db.tokenTransfers.rows TokenTransfer.txHash f g db)
  · exact serial_ext (filter_stays_stays db.traceLogs.rows TraceLog.txHash f g db) rfl
  · exact Table.ext (filter_stays_stays db.failedTransactions.rows FailedTransaction.txHash f g db)

/-- A second rollback finds nothing, the checkpoint included. -/
theorem rolledTo_idem (f : Int) (db : Db) : (db.rolledTo f).rolledTo f = db.rolledTo f := by
  have h := rolledTo_rolledTo f f db
  rw [Int.min_self] at h
  have hcheck : ((db.rolledTo f).rolledTo f).checkpoint = (db.rolledTo f).checkpoint := by
    simp only [Db.rolledTo, Option.map_map]
    rfl
  generalize (db.rolledTo f).rolledTo f = a at *
  generalize db.rolledTo f = b at *
  cases a
  cases b
  cases h
  cases hcheck
  rfl

end

/-- The effect of `rollback_from_block` on a state with its foreign keys in
order, whichever calls to the database fail. -/
theorem rollback_effect (f : Int) (db : Db) (hfk : db.ForeignKeys) :
    (∃ db' n, rollbackTx (fun _ => false) f db = (db', .ok n)) ∧
    (∀ fails db' n, rollbackTx fails f db = (db', .ok n) → RollbackEffect f db db' n) ∧
    (∀ fails ss p, ss <+: rollbackStmts → runStmts fails f ss (db, 0) = .ok p →
      p.1.ForeignKeys) ∧
    (∀ fails again db' n, rollbackTx fails f db = (db', .ok n) → (rollbackTx again f db').1 = db') ∧
    (∀ fails₁ fails₂ fails₃ g db₁ db₂ db₃ n₁ n₂ n₃, rollbackTx fails₁ f db = (db₁, .ok n₁) →
      rollbackTx fails₂ g db₁ = (db₂, .ok n₂) → rollbackTx fails₃ (min f g) db = (db₃, .ok n₃) →
      SameData db₂ db₃) ∧
    ∀ fails db' e, rollbackTx fails f db = (db', .error e) → db' = db := by
  refine ⟨?_, ?_, ?_, ?_, ?_, ?_⟩
  · obtain ⟨db', n, h⟩ := rollbackFromBlock_total f db
    exact ⟨db', n, rollbackTx_rollbackFromBlock h⟩
  · intro fails db' n h
    obtain ⟨rfl, rfl⟩ := rollbackTx_ok h
    exact rolledTo_effect hfk
  · intro fails ss p _ h
    exact runStmts_foreignKeys hfk h
  · intro fails again db' n h
    obtain ⟨rfl, -⟩ := rollbackTx_ok h
    cases hr : rollbackTx again f (db.rolledTo f) with
    | mk db'' r =>
      cases r with
      | ok m => rw [(rollbackTx_ok hr).1, rolledTo_idem]
      | error e => rw [rollbackTx_error hr]
  · intro fails₁ fails₂ fails₃ g db₁ db₂ db₃ n₁ n₂ n₃ h₁ h₂ h₃
    obtain ⟨rfl, -⟩ := rollbackTx_ok h₁
    obtain ⟨rfl, -⟩ := rollbackTx_ok h₂
    obtain ⟨rfl, -⟩ := rollbackTx_ok h₃
    exact rolledTo_rolledTo f g db
  · intro fails db' e h
    exact rollbackTx_error h

/-- Blocks 1 and 2, the second with a transaction. -/
def twoBlocks : Db :=
  { Db.empty with
    blocks := Table.empty.insertNew [⟨1, 0, 0, none, none⟩, ⟨2, 0, 0, none, none⟩]
    transactions := Table.empty.insertNew [⟨"0xa", "0xb", none, 2, 0, 0, 0, 1, none⟩]
    checkpoint := some 2 }

theorem rollback_effect_two :
    ∃ db' n, rollbackTx (fun _ => false) 2 twoBlocks = (db', .ok n) ∧
      RollbackEffect 2 twoBlocks db' n := by
  have hfk : twoBlocks.ForeignKeys := by
    constructor
    case transactionBlock => decide
    case swapTx => exact List.forall_mem_nil _
    case liquidityTx => exact List.forall_mem_nil _
    case transferTx => exact List.forall_mem_nil _
    case traceTx => exact List.forall_mem_nil _
    case failedTx => exact List.forall_mem_nil _
  obtain ⟨⟨db', n, h⟩, heffect, -⟩ := rollback_effect 2 twoBlocks hfk
  exact ⟨db', n, h, heffect _ db' n h⟩

end Amarillo.L2
