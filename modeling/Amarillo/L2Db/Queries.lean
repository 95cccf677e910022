import Mathlib
import Amarillo.L2Db.Schema

/-!
# Statements (`db/src/queries.rs`, `sql/triggers/001_triggers.sql`)

A `Stmt` is one call of an `insert_*` function. `exec` runs it: the values
and `CHECK`s of every row are tested, conflicting rows included, then the rows
with a free key go in, then the triggers of the inserted rows run if they are
installed (`Env.triggers`), and the foreign keys of the inserted rows are
tested. A refused statement changes nothing. On an empty batch the functions
return before asking the database; a statement without rows does the same.

`insert_trace_logs` is the one statement without `ON CONFLICT`: it appends.

The lemmas `exec_*` say once what a successful statement did; proofs about
runs use them and not the definitions. `rollbackFromBlock` deletes in the
order of the source and would be refused where a row still refers to a
deleted one; `rollbackFromBlock_ok` says what is left.
-/
namespace Amarillo.L2
open Amarillo.Core

inductive DbError where
  | check
  | foreignKey
  | futureBlock
  | outOfRange
  deriving DecidableEq, Repr

/-- Whether `001_triggers.sql` is installed, and the time of a statement. -/
structure Env where
  triggers : Bool
  now : Int
  deriving DecidableEq, Repr

inductive Stmt where
  | insertBlocks (rows : List Block)
  | insertTransactions (rows : List Transaction)
  | insertSwapEvents (rows : List SwapEvent)
  | insertLiquidityEvents (rows : List LiquidityEvent)
  | insertTokenTransfers (rows : List TokenTransfer)
  | insertTraceLogs (rows : List TraceLog)
  | insertFailedTransactions (rows : List FailedTransaction)
  deriving DecidableEq, Repr

/-- Every row of the batch satisfies its column types and checks. -/
def Stmt.accepted : Stmt → Prop
  | .insertBlocks rows => ∀ r ∈ rows, r.accepted
  | .insertTransactions rows => ∀ r ∈ rows, r.accepted
  | .insertSwapEvents rows => ∀ r ∈ rows, r.accepted
  | .insertLiquidityEvents rows => ∀ r ∈ rows, r.accepted
  | .insertTokenTransfers rows => ∀ r ∈ rows, r.accepted
  | .insertTraceLogs rows => ∀ r ∈ rows, r.accepted
  | .insertFailedTransactions rows => ∀ r ∈ rows, r.accepted

instance : (s : Stmt) → Decidable s.accepted
  | .insertBlocks _ => List.decidableBAll _ _
  | .insertTransactions _ => List.decidableBAll _ _
  | .insertSwapEvents _ => List.decidableBAll _ _
  | .insertLiquidityEvents _ => List.decidableBAll _ _
  | .insertTokenTransfers _ => List.decidableBAll _ _
  | .insertTraceLogs _ => List.decidableBAll _ _
  | .insertFailedTransactions _ => List.decidableBAll _ _

/-! ## Foreign keys -/

def Db.hasTransaction (db : Db) (txHash : String) : Bool := (db.transactions.get txHash).isSome

theorem Db.hasTransaction_eq_false {db : Db} {txHash : String} :
    db.hasTransaction txHash = false ↔ db.transactions.get txHash = none := by
  simp [Db.hasTransaction]

/-- Every reference points at a row. -/
structure Db.ForeignKeys (db : Db) : Prop where
  transactionBlock : ∀ t ∈ db.transactions.rows, (db.blocks.get t.blockNumber).isSome = true
  swapTx : ∀ e ∈ db.swapEvents.rows, db.hasTransaction e.txHash = true
  liquidityTx : ∀ e ∈ db.liquidityEvents.rows, db.hasTransaction e.txHash = true
  transferTx : ∀ t ∈ db.tokenTransfers.rows, db.hasTransaction t.txHash = true
  traceTx : ∀ t ∈ db.traceLogs.rows, db.hasTransaction t.txHash = true
  failedTx : ∀ f ∈ db.failedTransactions.rows, db.hasTransaction f.txHash = true

/-! ## Triggers -/

/-- The stub of a reverted transaction.
mirrors sql/triggers/001_triggers.sql:56-72 -/
def failedStub (blocks : Table Block.blockNumber) (t : Transaction) : Option FailedTransaction :=
  if t.status = 0 then
    (blocks.get t.blockNumber).map fun b =>
      { txHash := t.txHash, errorCategory := .unknown, revertReason := none, failingFunction := none
        gasUsed := t.gasUsed, timestamp := b.timestamp }
  else none

def touchProfile (address : String) (ts swaps : Int) (ps : Table UserProfile.userAddress) :
    Table UserProfile.userAddress :=
  ps.upsert ⟨address, ts, ts, swaps⟩
    (fun p => { p with lastSeen := max p.lastSeen ts, totalSwaps := p.totalSwaps + swaps })
    fun _ => rfl

/-- mirrors sql/triggers/001_triggers.sql:25-48 -/
def updateUserProfile (ps : Table UserProfile.userAddress) (e : SwapEvent) :
    Table UserProfile.userAddress :=
  let ps := touchProfile e.sender e.timestamp 1 ps
  if e.recipient ≠ e.sender then touchProfile e.recipient e.timestamp 0 ps else ps

/-- mirrors sql/triggers/001_triggers.sql:141-163 -/
def auditEvent (e : LiquidityEvent) : Option AuditLog :=
  if 1000000000000000000 < e.liquidity then
    some { eventType := e.eventType, poolAddress := e.poolAddress, provider := e.provider
           liquidity := e.liquidity, token0Amount := e.token0Amount
           token1Amount := e.token1Amount, timestamp := e.timestamp }
  else none

/-! ## Inserts -/

/-- mirrors crates/db/src/queries.rs:52-82 -/
def insertBlocks (env : Env) (rows : List Block) (db : Db) : Except DbError Db :=
  if ∃ b ∈ rows, ¬b.accepted then .error .check
  else if env.triggers = true ∧ ∃ b ∈ rows, env.now + 15 < b.timestamp then .error .futureBlock
  else .ok { db with blocks := db.blocks.insertNew rows }

/-- mirrors crates/db/src/queries.rs:86-127 -/
def insertTransactions (env : Env) (rows : List Transaction) (db : Db) : Except DbError Db :=
  let new := db.transactions.news rows
  if ∃ t ∈ rows, ¬t.accepted then .error .check
  else if ∃ t ∈ new, (db.blocks.get t.blockNumber).isNone then .error .foreignKey
  else .ok
    { db with
      transactions := db.transactions.insertNew rows
      failedTransactions :=
        if env.triggers then
          db.failedTransactions.insertNew (new.filterMap (failedStub db.blocks))
        else db.failedTransactions }

/-- mirrors crates/db/src/queries.rs:184-227 -/
def insertSwapEvents (env : Env) (rows : List SwapEvent) (db : Db) : Except DbError Db :=
  let new := db.swapEvents.news rows
  let profiles := if env.triggers then new.foldl updateUserProfile db.userProfiles else db.userProfiles
  if ∃ e ∈ rows, ¬e.accepted then .error .check
  else if ∃ e ∈ new, db.hasTransaction e.txHash = false then .error .foreignKey
  else if ∃ p ∈ profiles.rows, 2 ^ 31 ≤ p.totalSwaps then .error .outOfRange
  else .ok { db with swapEvents := db.swapEvents.insertNew rows, userProfiles := profiles }

/-- mirrors crates/db/src/queries.rs:231-279 -/
def insertLiquidityEvents (env : Env) (rows : List LiquidityEvent) (db : Db) : Except DbError Db :=
  let new := db.liquidityEvents.news rows
  if ∃ e ∈ rows, ¬e.accepted then .error .check
  else if ∃ e ∈ new, db.hasTransaction e.txHash = false then .error .foreignKey
  else .ok
    { db with
      liquidityEvents := db.liquidityEvents.insertNew rows
      auditLogs := if env.triggers then db.auditLogs ++ new.filterMap auditEvent else db.auditLogs }

/-- mirrors crates/db/src/queries.rs:283-313 -/
def insertTokenTransfers (rows : List TokenTransfer) (db : Db) : Except DbError Db :=
  if ∃ t ∈ rows, ¬t.accepted then .error .check
  else if ∃ t ∈ db.tokenTransfers.news rows, db.hasTransaction t.txHash = false then
    .error .foreignKey
  else .ok { db with tokenTransfers := db.tokenTransfers.insertNew rows }

def TraceLog.withId (n : Nat) (t : TraceLog) : TraceLog := { t with traceId := n }

theorem TraceLog.withId_traceId (n : Nat) (t : TraceLog) : (TraceLog.withId n t).traceId = n := rfl

/-- Rows are appended as they come; no key tells a repeated one.
mirrors crates/db/src/queries.rs:433-469 -/
def insertTraceLogs (rows : List TraceLog) (db : Db) : Except DbError Db :=
  if ∃ t ∈ rows, ¬t.accepted then .error .check
  else if ∃ t ∈ rows, db.hasTransaction t.txHash = false then .error .foreignKey
  else .ok
    { db with
      traceLogs := db.traceLogs.append TraceLog.withId TraceLog.withId_traceId (rows.map TraceLog.stored) }

/-- mirrors crates/db/src/queries.rs:317-356 -/
def insertFailedTransactions (rows : List FailedTransaction) (db : Db) : Except DbError Db :=
  if ∃ f ∈ rows, ¬f.accepted then .error .check
  else if ∃ f ∈ db.failedTransactions.news rows, db.hasTransaction f.txHash = false then
    .error .foreignKey
  else .ok { db with failedTransactions := db.failedTransactions.insertNew rows }

def exec (env : Env) : Stmt → Db → Except DbError Db
  | .insertBlocks rows => insertBlocks env rows
  | .insertTransactions rows => insertTransactions env rows
  | .insertSwapEvents rows => insertSwapEvents env rows
  | .insertLiquidityEvents rows => insertLiquidityEvents env rows
  | .insertTokenTransfers rows => insertTokenTransfers rows
  | .insertTraceLogs rows => insertTraceLogs rows
  | .insertFailedTransactions rows => insertFailedTransactions rows

/-- Statements one after another, until one is refused: the database as it is
left, and the refusal. -/
def execAll (env : Env) : List Stmt → Db → Db × Option DbError
  | [], db => (db, none)
  | s :: ss, db =>
    match exec env s db with
    | .ok db' => execAll env ss db'
    | .error e => (db, some e)

/-! ## What a successful statement did -/

@[simp] def Stmt.blockRows : Stmt → List Block
  | .insertBlocks rows => rows
  | _ => []

@[simp] def Stmt.transactionRows : Stmt → List Transaction
  | .insertTransactions rows => rows
  | _ => []

@[simp] def Stmt.swapRows : Stmt → List SwapEvent
  | .insertSwapEvents rows => rows
  | _ => []

@[simp] def Stmt.liquidityRows : Stmt → List LiquidityEvent
  | .insertLiquidityEvents rows => rows
  | _ => []

@[simp] def Stmt.transferRows : Stmt → List TokenTransfer
  | .insertTokenTransfers rows => rows
  | _ => []

@[simp] def Stmt.traceRows : Stmt → List TraceLog
  | .insertTraceLogs rows => rows
  | _ => []

@[simp] def Stmt.failedRows : Stmt → List FailedTransaction
  | .insertFailedTransactions rows => rows
  | _ => []

/-- The stubs the trigger inserts for the new rows of a batch. -/
def Db.stubs (env : Env) (db : Db) (rows : List Transaction) : List FailedTransaction :=
  if env.triggers then (db.transactions.news rows).filterMap (failedStub db.blocks) else []

/-- What a statement that was not refused did. The derived tables of the
swap and liquidity triggers are left open. -/
structure Applied (env : Env) (s : Stmt) (db db' : Db) : Prop where
  accepted : s.accepted
  blocks : db'.blocks = db.blocks.insertNew s.blockRows
  transactions : db'.transactions = db.transactions.insertNew s.transactionRows
  swapEvents : db'.swapEvents = db.swapEvents.insertNew s.swapRows
  liquidityEvents : db'.liquidityEvents = db.liquidityEvents.insertNew s.liquidityRows
  tokenTransfers : db'.tokenTransfers = db.tokenTransfers.insertNew s.transferRows
  traceLogs : db'.traceLogs =
    db.traceLogs.append TraceLog.withId TraceLog.withId_traceId (s.traceRows.map TraceLog.stored)
  failedTransactions : db'.failedTransactions =
    (db.failedTransactions.insertNew (db.stubs env s.transactionRows)).insertNew s.failedRows
  checkpoint : db'.checkpoint = db.checkpoint
  /-- The foreign key of `transaction`. -/
  inBlock : ∀ t ∈ db.transactions.news s.transactionRows, (db.blocks.get t.blockNumber).isSome
  /-- The foreign keys of `failed_transaction` and `trace_log`. -/
  failedTx : ∀ f ∈ db.failedTransactions.news s.failedRows, db.hasTransaction f.txHash = true
  tracedTx : ∀ t ∈ s.traceRows, db.hasTransaction t.txHash = true

@[simp] theorem Db.stubs_nil (env : Env) (db : Db) : db.stubs env [] = [] := by
  unfold Db.stubs
  split <;> simp [Table.news]

theorem failedStub_txHash {blocks : Table Block.blockNumber} {t : Transaction} {f : FailedTransaction}
    (h : failedStub blocks t = some f) : f.txHash = t.txHash := by
  unfold failedStub at h
  split at h
  · obtain ⟨b, -, rfl⟩ := Option.map_eq_some_iff.mp h
    rfl
  · cases h

/-- The stub for a hash is made from the row the batch stores under it. -/
theorem lookup_stubs {env : Env} (db : Db) (rows : List Transaction) (h : String) :
    lookup FailedTransaction.txHash h (db.stubs env rows) =
      if env.triggers = true ∧ db.hasTransaction h = false then
        (lookup Transaction.txHash h rows).bind (failedStub db.blocks)
      else none := by
  unfold Db.stubs Db.hasTransaction
  cases env.triggers with
  | false => rfl
  | true =>
    rw [if_pos rfl, lookup_filterMap _ _ (fun _ _ => failedStub_txHash) (Table.unique_news _ _),
      Table.lookup_news]
    cases (db.transactions.get h).isSome <;> simp

/-- What the two checks of an insert leave. -/
theorem forall_of_not_exists {α : Type} {p : α → Prop} {l : List α} (h : ¬∃ x ∈ l, ¬p x) :
    ∀ x ∈ l, p x := by
  push Not at h
  exact h

theorem hasTransaction_of_not_exists {α : Type} {db : Db} {txHash : α → String} {l : List α}
    (h : ¬∃ x ∈ l, db.hasTransaction (txHash x) = false) :
    ∀ x ∈ l, db.hasTransaction (txHash x) = true :=
  forall_of_not_exists fun ⟨x, hx, hno⟩ => h ⟨x, hx, Bool.eq_false_iff.mpr hno⟩

section Untouched
variable (env : Env) (db : Db)

theorem traceLogs_untouched :
    db.traceLogs = db.traceLogs.append TraceLog.withId TraceLog.withId_traceId (List.map TraceLog.stored []) :=
  (Serial.append_nil TraceLog.withId_traceId db.traceLogs).symm

theorem failedTransactions_untouched :
    db.failedTransactions = (db.failedTransactions.insertNew (db.stubs env [])).insertNew [] := by
  rw [Db.stubs_nil, Table.insertNew_nil, Table.insertNew_nil]

theorem inBlock_untouched : ∀ t ∈ db.transactions.news [], (db.blocks.get t.blockNumber).isSome := by
  rw [Table.news_nil]
  exact List.forall_mem_nil _

theorem failedTx_untouched :
    ∀ f ∈ db.failedTransactions.news [], db.hasTransaction f.txHash = true := by
  rw [Table.news_nil]
  exact List.forall_mem_nil _

end Untouched

theorem exec_applied {env : Env} {s : Stmt} {db db' : Db} (h : exec env s db = .ok db') :
    Applied env s db db' := by
  have htraces := traceLogs_untouched db
  have hfailed := failedTransactions_untouched env db
  have hinBlock := inBlock_untouched db
  have hfailedTx := failedTx_untouched db
  cases s with
  | insertBlocks rows =>
    simp only [exec, insertBlocks] at h
    split at h
    · cases h
    · rename_i hacc
      split at h
      · cases h
      · cases h
        exact ⟨forall_of_not_exists hacc, rfl, rfl, rfl, rfl, rfl, htraces, hfailed, rfl, hinBlock,
          hfailedTx, List.forall_mem_nil _⟩
  | insertTransactions rows =>
    simp only [exec, insertTransactions] at h
    split at h
    · cases h
    · rename_i hacc
      split at h
      · cases h
      · rename_i hfk
        cases h
        refine ⟨forall_of_not_exists hacc, rfl, rfl, rfl, rfl, rfl, htraces, ?_, rfl, fun t ht => ?_,
          hfailedTx, List.forall_mem_nil _⟩
        · -- the trigger
          unfold Db.stubs
          split <;> rfl
        · rw [Option.isSome_iff_ne_none]
          exact fun hnone => hfk ⟨t, ht, Option.isNone_iff_eq_none.mpr hnone⟩
  | insertSwapEvents rows =>
    simp only [exec, insertSwapEvents] at h
    generalize (if env.triggers = true then _ else _ : Table UserProfile.userAddress) = ps at h
    split at h
    · cases h
    · rename_i hacc
      split at h
      · cases h
      · split at h
        · cases h
        · cases h
          exact ⟨forall_of_not_exists hacc, rfl, rfl, rfl, rfl, rfl, htraces, hfailed, rfl, hinBlock,
            hfailedTx, List.forall_mem_nil _⟩
  | insertLiquidityEvents rows =>
    simp only [exec, insertLiquidityEvents] at h
    split at h
    · cases h
    · rename_i hacc
      split at h
      · cases h
      · cases h
        exact ⟨forall_of_not_exists hacc, rfl, rfl, rfl, rfl, rfl, htraces, hfailed, rfl, hinBlock,
          hfailedTx, List.forall_mem_nil _⟩
  | insertTokenTransfers rows =>
    simp only [exec, insertTokenTransfers] at h
    split at h
    · cases h
    · rename_i hacc
      split at h
      · cases h
      · cases h
        exact ⟨forall_of_not_exists hacc, rfl, rfl, rfl, rfl, rfl, htraces, hfailed, rfl, hinBlock,
          hfailedTx, List.forall_mem_nil _⟩
  | insertTraceLogs rows =>
    simp only [exec, insertTraceLogs] at h
    split at h
    · cases h
    · rename_i hacc
      split at h
      · cases h
      · rename_i hfk
        cases h
        exact ⟨forall_of_not_exists hacc, rfl, rfl, rfl, rfl, rfl, rfl, hfailed, rfl, hinBlock, hfailedTx,
          hasTransaction_of_not_exists hfk⟩
  | insertFailedTransactions rows =>
    simp only [exec, insertFailedTransactions] at h
    split at h
    · cases h
    · rename_i hacc
      split at h
      · cases h
      · rename_i hfk
        cases h
        refine ⟨forall_of_not_exists hacc, rfl, rfl, rfl, rfl, rfl, htraces, ?_, rfl, hinBlock,
          hasTransaction_of_not_exists hfk, List.forall_mem_nil _⟩
        change db.failedTransactions.insertNew rows =
          (db.failedTransactions.insertNew (db.stubs env [])).insertNew rows
        rw [Db.stubs_nil, Table.insertNew_nil]

/-! ## Runs of statements -/

theorem execAll_cons {env : Env} {s : Stmt} {ss : List Stmt} {db db' : Db} :
    execAll env (s :: ss) db = (db', none) ↔
      ∃ m, exec env s db = .ok m ∧ execAll env ss m = (db', none) := by
  rw [execAll]
  cases h : exec env s db with
  | ok m => simp
  | error e => simp

theorem execAll_append {env : Env} {a b : List Stmt} {db db' : Db} :
    execAll env (a ++ b) db = (db', none) ↔
      ∃ m, execAll env a db = (m, none) ∧ execAll env b m = (db', none) := by
  induction a generalizing db with
  | nil => simp [execAll]
  | cons s a ih =>
    rw [List.cons_append, execAll_cons]
    simp only [ih, execAll_cons]
    constructor
    · rintro ⟨m, hs, m', ha, hb⟩
      exact ⟨m', ⟨m, hs, ha⟩, hb⟩
    · rintro ⟨m', ⟨m, hs, ha⟩, hb⟩
      exact ⟨m, hs, m', ha, hb⟩

/-- What every statement of a list keeps, a run of the list keeps. -/
theorem execAll_keeps {env : Env} {P : Db → Prop} {ss : List Stmt}
    (h : ∀ s ∈ ss, ∀ db db', exec env s db = .ok db' → P db → P db') {db : Db} (h0 : P db) :
    P (execAll env ss db).1 := by
  induction ss generalizing db with
  | nil => exact h0
  | cons s ss ih =>
    rw [execAll]
    cases hs : exec env s db with
    | error e => exact h0
    | ok m =>
      exact ih (fun t ht => h t (List.mem_cons_of_mem _ ht))
        (h s List.mem_cons_self db m hs h0)

/-- A list without transactions and without failure records leaves both tables. -/
theorem execAll_other (env : Env) {ss : List Stmt}
    (h : ∀ s ∈ ss, s.transactionRows = [] ∧ s.failedRows = []) (db : Db) :
    (execAll env ss db).1.transactions = db.transactions ∧
    (execAll env ss db).1.failedTransactions = db.failedTransactions := by
  refine execAll_keeps (P := fun d => d.transactions = db.transactions ∧
    d.failedTransactions = db.failedTransactions) (fun s hs d d' hd ih => ?_) ⟨rfl, rfl⟩
  have ht := (exec_applied hd).transactions
  have hf := (exec_applied hd).failedTransactions
  rw [(h s hs).1] at ht hf
  rw [(h s hs).2, Db.stubs_nil] at hf
  exact ⟨ht.trans ih.1, hf.trans ih.2⟩

/-! ## Checkpoint -/

/-- mirrors crates/db/src/queries.rs:764-771 -/
def getLastCheckpoint (db : Db) : Option Int := db.checkpoint

/-- mirrors crates/db/src/queries.rs:775-792 -/
def updateCheckpoint (lastProcessedBlock : Int) (db : Db) : Db :=
  { db with checkpoint := some lastProcessedBlock }

/-! ## Reads -/

/-- mirrors crates/db/src/queries.rs:819-831 -/
def recentBlockHashes (db : Db) (limit : Nat) : List (Int × String) :=
  ((db.blocks.rows.filterMap fun b => b.blockHash.map fun h => (b.blockNumber, h)).insertionSort
    fun a b => b.1 ≤ a.1).take limit

/-- What the read of one row answers with in its place. -/
inductive FetchError where
  | sqlx
  | notFound (msg : String)
  deriving DecidableEq, Repr

/-- mirrors crates/db/src/queries.rs:586-599 -/
def getFailedTransaction (db : Db) (txHash : String) : Except FetchError FailedTransaction :=
  if text txHash then
    match db.failedTransactions.get txHash with
    | some f => .ok f
    | none => .error (.notFound ("failed transaction " ++ txHash))
  else .error .sqlx

/-- mirrors crates/db/src/queries.rs:608-625 -/
def listTraceLogsByTx (db : Db) (txHash : String) (limit : Nat) : List TraceLog :=
  ((db.traceLogs.rows.filter fun t => t.txHash = txHash).insertionSort
    fun a b => a.traceId ≤ b.traceId).take limit

/-- mirrors crates/db/src/queries.rs:632-650 -/
def getFirstErrorFrame (db : Db) (txHash : String) : Option TraceLog :=
  ((db.traceLogs.rows.filter fun t => t.txHash = txHash && t.error.isSome).insertionSort
    fun a b => a.traceId ≤ b.traceId).head?

theorem mem_recentBlockHashes {db : Db} {limit : Nat} {p : Int × String}
    (h : p ∈ recentBlockHashes db limit) :
    ∃ b ∈ db.blocks.rows, b.blockNumber = p.1 ∧ b.blockHash = some p.2 := by
  have h' := (List.mem_insertionSort _).mp (List.mem_of_mem_take h)
  obtain ⟨b, hb, hp⟩ := List.mem_filterMap.mp h'
  obtain ⟨hash, hhash, rfl⟩ := Option.map_eq_some_iff.mp hp
  exact ⟨b, hb, rfl, hhash⟩

theorem recentBlockHashes_descending (db : Db) (limit : Nat) :
    (recentBlockHashes db limit).Pairwise fun a b => b.1 ≤ a.1 := by
  refine List.Pairwise.sublist (List.take_sublist _ _) ?_
  have : Std.Total fun a b : Int × String => b.1 ≤ a.1 := ⟨fun a b => Int.le_total b.1 a.1⟩
  have : IsTrans (Int × String) fun a b => b.1 ≤ a.1 := ⟨fun _ _ _ h h' => Int.le_trans h' h⟩
  exact List.pairwise_insertionSort _ _

/-- The ids ascend in insertion order, so ordering by them changes nothing. -/
theorem orderByTraceId (t : Serial TraceLog.traceId) (p : TraceLog → Bool) :
    (t.rows.filter p).insertionSort (fun a b => a.traceId ≤ b.traceId) = t.rows.filter p :=
  List.Pairwise.insertionSort_eq ((t.ascending.sublist List.filter_sublist).imp fun h => h.le)

theorem listTraceLogsByTx_eq (db : Db) (txHash : String) (limit : Nat) :
    listTraceLogsByTx db txHash limit =
      (db.traceLogs.rows.filter fun t => t.txHash = txHash).take limit := by
  rw [listTraceLogsByTx, orderByTraceId]

theorem getFirstErrorFrame_eq (db : Db) (txHash : String) :
    getFirstErrorFrame db txHash =
      db.traceLogs.rows.find? fun t => t.txHash = txHash && t.error.isSome := by
  rw [getFirstErrorFrame, orderByTraceId, List.head?_filter]

/-! ## Rollback -/

/-- `tx_hash IN (SELECT tx_hash FROM transaction WHERE block_number >= $1)` -/
def Db.rolledBack (db : Db) (fromBlock : Int) (txHash : String) : Bool :=
  (db.transactions.get txHash).any fun t => fromBlock ≤ t.blockNumber

/-- mirrors crates/db/src/queries.rs:848-881 -/
def deleteDependents (fromBlock : Int) (db : Db) : Db :=
  { db with
    swapEvents := db.swapEvents.filter fun e => !db.rolledBack fromBlock e.txHash
    liquidityEvents := db.liquidityEvents.filter fun e => !db.rolledBack fromBlock e.txHash
    tokenTransfers := db.tokenTransfers.filter fun t => !db.rolledBack fromBlock t.txHash
    traceLogs := db.traceLogs.filter fun t => !db.rolledBack fromBlock t.txHash
    failedTransactions := db.failedTransactions.filter fun f => !db.rolledBack fromBlock f.txHash }

/-- The hashes the dependent tables refer to. -/
def Db.references (db : Db) : List String :=
  db.swapEvents.rows.map SwapEvent.txHash ++ db.liquidityEvents.rows.map LiquidityEvent.txHash ++
  db.tokenTransfers.rows.map TokenTransfer.txHash ++ db.traceLogs.rows.map TraceLog.txHash ++
  db.failedTransactions.rows.map FailedTransaction.txHash

/-- mirrors crates/db/src/queries.rs:884-887 -/
def deleteTransactions (fromBlock : Int) (db : Db) : Except DbError Db :=
  if ∃ h ∈ db.references, db.rolledBack fromBlock h = true then .error .foreignKey
  else .ok { db with transactions := db.transactions.filter fun t => t.blockNumber < fromBlock }

/-- mirrors crates/db/src/queries.rs:888-892 -/
def deleteBlocks (fromBlock : Int) (db : Db) : Except DbError Db :=
  if ∃ t ∈ db.transactions.rows, ∃ b ∈ db.blocks.rows,
      fromBlock ≤ b.blockNumber ∧ t.blockNumber = b.blockNumber then .error .foreignKey
  else .ok { db with blocks := db.blocks.filter fun b => b.blockNumber < fromBlock }

/-- The new database and the number of deleted blocks. The checkpoint is only
updated: without a row there is none afterwards either. `from_block` is an `i64`
above the least one, where `from_block - 1` would overflow.
mirrors crates/db/src/queries.rs:842-906 -/
def rollbackFromBlock (fromBlock : Int) (db : Db) : Except DbError (Db × Nat) := do
  let resume := max (fromBlock - 1) 0
  let db₁ ← deleteTransactions fromBlock (deleteDependents fromBlock db)
  let db₂ ← deleteBlocks fromBlock db₁
  return ({ db₂ with checkpoint := db₂.checkpoint.map fun _ => resume },
    db.blocks.rows.length - db₂.blocks.rows.length)

/-- The blocks and the checkpoint after a rollback. -/
theorem rollbackFromBlock_ok {fromBlock : Int} {db db' : Db} {deleted : Nat}
    (h : rollbackFromBlock fromBlock db = .ok (db', deleted)) :
    db'.blocks = db.blocks.filter (fun b => b.blockNumber < fromBlock) ∧
    db'.checkpoint = db.checkpoint.map fun _ => max (fromBlock - 1) 0 := by
  simp only [rollbackFromBlock, deleteTransactions, deleteBlocks, bind, Except.bind, pure,
    Except.pure] at h
  split at h
  · cases h
  · rename_i db₁ h₁
    split at h
    · cases h
    · rename_i db₂ h₂
      cases h
      split at h₁ <;> cases h₁
      split at h₂ <;> cases h₂
      exact ⟨rfl, rfl⟩

/-- A rollback is never refused: what refers to a deleted row goes first. -/
theorem rollbackFromBlock_total (fromBlock : Int) (db : Db) :
    ∃ db' deleted, rollbackFromBlock fromBlock db = .ok (db', deleted) := by
  have htx : ¬∃ h ∈ (deleteDependents fromBlock db).references,
      (deleteDependents fromBlock db).rolledBack fromBlock h = true := by
    rintro ⟨h, hmem, hback⟩
    have hback : db.rolledBack fromBlock h = true := hback
    simp only [Db.references, deleteDependents, Table.filter, Serial.filter, List.mem_append,
      List.mem_map, List.mem_filter] at hmem
    rcases hmem with (((⟨e, ⟨-, he⟩, rfl⟩ | ⟨e, ⟨-, he⟩, rfl⟩) | ⟨e, ⟨-, he⟩, rfl⟩) |
      ⟨e, ⟨-, he⟩, rfl⟩) | ⟨e, ⟨-, he⟩, rfl⟩ <;> rw [hback] at he <;> cases he
  simp only [rollbackFromBlock, deleteTransactions, deleteBlocks, bind, Except.bind, pure,
    Except.pure, if_neg htx]
  rw [if_neg]
  · exact ⟨_, _, rfl⟩
  · rintro ⟨t, ht, b, -, hb, htb⟩
    have hlt := of_decide_eq_true (List.mem_filter.mp ht).2
    omega

end Amarillo.L2
