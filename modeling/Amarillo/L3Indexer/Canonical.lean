import Amarillo.Core.History
import Amarillo.L3Indexer.Hashes
import Amarillo.L3Indexer.Replay

/-!
# Every store of one chain

The writes of the indexer, in any order, as often as it likes, with calls that fail,
receipts that are `null`, traces that time out, interrupted and rolled back: as long
as the answers that do come are those of one chain (`OnChain`), what is stored under a
key is decided by the chain alone (`Canonical`).

* `stores_agree`: two such stores, both with triggers or both without, never disagree about
  a key that both have, in the tables with a natural key, `user_profile` apart.
* `coherent`: what one table repeats of another is right: the time of an event and of a
  failure record is that of its transaction's block, and failure records and traces
  are of reverted transactions.
* `failures_exact`: with the triggers installed the failure records are, at every
  moment, the stubs of the stored reverted transactions, one for each and no other.
-/
namespace Amarillo.L3
open Amarillo.Core Amarillo.L1 Amarillo.L2

/-! ## The chain's rows -/

namespace Chunk
variable (R : Runtime) (abi : Abi) (c : Chunk)

/-- What the node says of a height is what the chain has there, if it says anything. -/
structure Honest (n : Nat) (a : Answers) : Prop where
  block : ∀ block ∈ a.block, block = c.block n
  receipts : ∀ receipts ∈ a.receipts, receipts = none ∨ receipts = some (c.receipts n)
  trace : ∀ h, a.trace h = c.trace h ∨ a.trace h = .failed

def transactionsAt (n : Nat) : List Transaction :=
  L3.transactionRows n (c.receipts n) (c.block n).transactions

/-- The failure record the chain's trace of a reverted transaction gives. -/
def recordAt (n : Nat) (h : String) : Option FailedTransaction :=
  if h ∈ failedHashes (c.receipts n) then recordOf R c.trace (c.batchTime n) h else none

/-- The hashes of a block's transactions differ. -/
def Distinct : Prop := ∀ n ∈ c.heights, ((c.receipts n).map RpcReceipt.transactionHash).Nodup

end Chunk

/-- The row is the one a height has under its key. -/
def At {α κ : Type} [DecidableEq κ] (key : α → κ) (c : Chunk) (batchOf : Nat → List α) (r : α) :
    Prop :=
  ∃ n ∈ c.heights, lookup key (key r) (batchOf n) = some r

/-- The rows a statement may bring for a table: those of one height, or none. -/
def Batch {α : Type} (c : Chunk) (batchOf : Nat → List α) (rows : List α) : Prop :=
  rows = [] ∨ ∃ n ∈ c.heights, rows = batchOf n

theorem at_insertNew {α κ : Type} [DecidableEq κ] {key : α → κ} {c : Chunk} {batchOf : Nat → List α}
    {t : Table key} {rows : List α} (ht : ∀ r ∈ t.rows, At key c batchOf r)
    (hrows : Batch c batchOf rows) : ∀ r ∈ (t.insertNew rows).rows, At key c batchOf r := by
  intro r hr
  rw [Table.rows_insertNew] at hr
  rcases List.mem_append.mp hr with hr | hr
  · exact ht r hr
  · have hl := (Table.mem_news hr).2
    rcases hrows with rfl | ⟨n, hn, rfl⟩
    · cases hl
    · exact ⟨n, hn, hl⟩

theorem at_unique {α κ : Type} [DecidableEq κ] {key : α → κ} {c : Chunk} {batchOf : Nat → List α}
    (hkeys : ∀ n ∈ c.heights, ∀ m ∈ c.heights, ∀ a ∈ batchOf n, ∀ b ∈ batchOf m, key a = key b → n = m)
    {r r' : α} (h : At key c batchOf r) (h' : At key c batchOf r') (hk : key r = key r') : r = r' := by
  obtain ⟨n, hn, hl⟩ := h
  obtain ⟨m, hm, hl'⟩ := h'
  obtain rfl := hkeys n hn m hm r (lookup_mem key hl) r' (lookup_mem key hl') hk
  rw [hk, hl', Option.some.injEq] at hl
  exact hl.symm

section Statements
variable {R : Runtime} {abi : Abi} {c : Chunk}

/-- What a statement built from honest answers brings. -/
structure Brings (R : Runtime) (abi : Abi) (c : Chunk) (s : Stmt) : Prop where
  blocks : Batch c (fun n => [blockRow n (c.block n).header]) s.blockRows
  transactions : Batch c c.transactionsAt s.transactionRows
  swaps : Batch c (fun n => swapEvents (c.events abi n)) s.swapRows
  liquidity : Batch c (fun n => liquidityEvents (c.events abi n)) s.liquidityRows
  transfers : Batch c (fun n => tokenTransfers (c.events abi n)) s.transferRows
  traces : ∀ t ∈ s.traceRows, ∃ n ∈ c.heights, t.txHash ∈ failedHashes (c.receipts n)
  failed : ∀ f ∈ s.failedRows, ∃ n ∈ c.heights, c.recordAt R n f.txHash = some f

theorem recordOf_honest {n : Nat} {a : Answers} (ha : c.Honest n a) {ts : Int} {h : String}
    {f : FailedTransaction} (hf : recordOf R a.trace ts h = some f) : recordOf R c.trace ts h = some f := by
  unfold recordOf traceFrames at hf ⊢
  rcases ha.trace h with he | he
  · rwa [he] at hf
  · rw [he] at hf
    cases hf

theorem stmt_brings {n : Nat} (hn : n ∈ c.heights) {a : Answers} (ha : c.Honest n a) {s : Stmt}
    (hs : s ∈ (processBlock R abi n a).stmts) : Brings R abi c s := by
  obtain ⟨block, receipts, hb, hr, hsends⟩ := mem_processBlock R hs
  obtain rfl := ha.block block hb
  have hnone : receipts.getD [] = [] ∨ receipts.getD [] = c.receipts n := by
    rcases ha.receipts receipts hr with rfl | rfl
    · exact .inl rfl
    · exact .inr rfl
  -- `null` receipts make empty batches
  have hbatch : ∀ {α : Type} (batchOf : List RpcReceipt → List α), batchOf [] = [] →
      ∀ rowsOf : Nat → List α, rowsOf n = batchOf (c.receipts n) →
      Batch c rowsOf (batchOf (receipts.getD [])) := by
    intro α batchOf h0 rowsOf hrows
    rcases hnone with he | he
    · exact .inl (by rw [he, h0])
    · exact .inr ⟨n, hn, by rw [he, hrows]⟩
  have hnil : ∀ {α : Type} (batchOf : Nat → List α), Batch c batchOf [] := fun _ => .inl rfl
  have hhashes : ∀ h ∈ failedHashes (receipts.getD []), h ∈ failedHashes (c.receipts n) := by
    intro h hh
    rcases hnone with he | he
    · rw [he] at hh
      cases hh
    · rwa [he] at hh
  have hno : ∀ {α : Type} {P : α → Prop}, ∀ x ∈ ([] : List α), P x := fun x hx => by cases hx
  cases hsends with
  | blocks => exact ⟨.inr ⟨n, hn, rfl⟩, hnil _, hnil _, hnil _, hnil _, hno, hno⟩
  | transactions =>
    refine ⟨hnil _, ?_, hnil _, hnil _, hnil _, hno, hno⟩
    exact hbatch (fun rs => transactionRows n rs (c.block n).transactions) rfl _ rfl
  | swaps he =>
    subst he
    refine ⟨hnil _, hnil _, ?_, hnil _, hnil _, hno, hno⟩
    exact hbatch (fun rs => swapEvents (decodedEvents abi _ rs)) rfl _ rfl
  | liquidity he =>
    subst he
    refine ⟨hnil _, hnil _, hnil _, ?_, hnil _, hno, hno⟩
    exact hbatch (fun rs => liquidityEvents (decodedEvents abi _ rs)) rfl _ rfl
  | transfers he =>
    subst he
    refine ⟨hnil _, hnil _, hnil _, hnil _, ?_, hno, hno⟩
    exact hbatch (fun rs => tokenTransfers (decodedEvents abi _ rs)) rfl _ rfl
  | traces hp =>
    refine ⟨hnil _, hnil _, hnil _, hnil _, hnil _, fun t ht => ?_, hno⟩
    rw [Stmt.traceRows, (processFailedTxs_ok R hp).1] at ht
    obtain ⟨h, hh, ht⟩ := List.mem_flatMap.mp ht
    obtain ⟨frame, -, rfl⟩ := List.mem_map.mp ht
    exact ⟨n, hn, hhashes h hh⟩
  | failed hp =>
    refine ⟨hnil _, hnil _, hnil _, hnil _, hnil _, hno, fun f hf => ?_⟩
    rw [Stmt.failedRows, (processFailedTxs_ok R hp).2.1] at hf
    obtain ⟨h, hh, hf⟩ := List.mem_filterMap.mp hf
    obtain ⟨rfl, -⟩ := recordOf_txHash R hf
    exact ⟨n, hn, (if_pos (hhashes _ hh)).trans (recordOf_honest ha hf)⟩

end Statements

/-! ## Writes of one chain -/

/-- The write is a statement for a height of `c` built from honest answers, with the triggers
installed or not, or a rollback or a checkpoint. -/
def OnChain (c : Chunk) (triggers : Bool) (_ : Db) : Write → Prop
  | .stmt env n a _ => n ∈ c.heights ∧ c.Honest n a ∧ env.triggers = triggers
  | .rollback _ => True
  | .checkpoint _ => True

/-- The rows are the chain's. -/
structure Canonical (R : Runtime) (abi : Abi) (c : Chunk) (db : Db) : Prop where
  blocks : ∀ b ∈ db.blocks.rows,
    At Block.blockNumber c (fun n => [blockRow n (c.block n).header]) b
  transactions : ∀ t ∈ db.transactions.rows, At Transaction.txHash c c.transactionsAt t
  swaps : ∀ e ∈ db.swapEvents.rows, At SwapEvent.key c (fun n => swapEvents (c.events abi n)) e
  liquidity : ∀ e ∈ db.liquidityEvents.rows,
    At LiquidityEvent.key c (fun n => liquidityEvents (c.events abi n)) e
  transfers : ∀ e ∈ db.tokenTransfers.rows,
    At TokenTransfer.key c (fun n => tokenTransfers (c.events abi n)) e
  traces : ∀ t ∈ db.traceLogs.rows, ∃ n ∈ c.heights, t.txHash ∈ failedHashes (c.receipts n)

section Stores
variable {R : Runtime} {abi : Abi} {c : Chunk} {triggers : Bool} {db db' : Db}

theorem exec_canonical {env : Env} {s : Stmt} (hi : Canonical R abi c db) (hb : Brings R abi c s)
    (h : exec env s db = .ok db') : Canonical R abi c db' := by
  have ha := exec_applied h
  constructor
  case blocks => rw [ha.blocks]; exact at_insertNew hi.blocks hb.blocks
  case transactions => rw [ha.transactions]; exact at_insertNew hi.transactions hb.transactions
  case swaps => rw [ha.swapEvents]; exact at_insertNew hi.swaps hb.swaps
  case liquidity => rw [ha.liquidityEvents]; exact at_insertNew hi.liquidity hb.liquidity
  case transfers => rw [ha.tokenTransfers]; exact at_insertNew hi.transfers hb.transfers
  case traces =>
    rw [ha.traceLogs]
    intro t ht
    rcases List.mem_append.mp ht with ht | ht
    · exact hi.traces t ht
    · -- numbering a row keeps its hash
      obtain ⟨u, hu, hhash⟩ : ∃ u ∈ s.traceRows, t.txHash = u.txHash := by
        have hmem : t.withId 0 ∈ (Serial.number TraceLog.withId db.traceLogs.next
            (s.traceRows.map TraceLog.stored)).map (TraceLog.withId 0) := List.mem_map_of_mem ht
        rw [Serial.number_eq_map TraceLog.withId (TraceLog.withId 0) (fun _ _ => rfl), List.map_map] at hmem
        obtain ⟨u, hu, he⟩ := List.mem_map.mp hmem
        exact ⟨u, hu, (congrArg TraceLog.txHash he).symm⟩
      rw [hhash]
      exact hb.traces u hu

theorem rolledTo_canonical (hi : Canonical R abi c db) (fromBlock : Int) :
    Canonical R abi c (db.rolledTo fromBlock) where
  blocks b hb := hi.blocks b (List.mem_of_mem_filter hb)
  transactions t ht := hi.transactions t (List.mem_of_mem_filter ht)
  swaps e he := hi.swaps e (List.mem_of_mem_filter he)
  liquidity e he := hi.liquidity e (List.mem_of_mem_filter he)
  transfers e he := hi.transfers e (List.mem_of_mem_filter he)
  traces t ht := hi.traces t (List.mem_of_mem_filter ht)

theorem canonical_inductive (R : Runtime) (abi : Abi) (c : Chunk) (triggers : Bool) :
    ((writes R abi).restrict (OnChain c triggers)).Inductive (Canonical R abi c) where
  init := by
    rintro db rfl
    constructor <;> exact fun _ hr => by cases hr
  step := by
    rintro db w db' hi ⟨hw, hg⟩
    cases w with
    | stmt env n a s => exact exec_canonical hi (stmt_brings hg.1 hg.2.1 hw.1) hw.2
    | rollback fromBlock =>
      obtain ⟨deleted, hr⟩ := hw
      rw [rollbackFromBlock_eq hr]
      exact rolledTo_canonical hi fromBlock
    | checkpoint lastProcessedBlock =>
      cases hw
      exact ⟨hi.blocks, hi.transactions, hi.swaps, hi.liquidity, hi.transfers, hi.traces⟩

/-! ## Where a stored row is from -/

theorem blockAt_inj {n m : Nat} (hn : n ∈ c.heights) (hm : m ∈ c.heights)
    (h : asI64 n = asI64 m) : n = m := by
  have hu := c.inU64
  have hn' := (Chunk.mem_heights.mp hn).2
  have hm' := (Chunk.mem_heights.mp hm).2
  have := congrArg asU64 h
  rwa [asU64_asI64 (by omega), asU64_asI64 (by omega)] at this

/-- A transaction row has the receipt it was built from. -/
theorem transactionsAt_mem {n : Nat} {h : String} {t : Transaction}
    (hl : lookup Transaction.txHash h (c.transactionsAt n) = some t) :
    t.blockNumber = asI64 n ∧ ∃ r ∈ c.receipts n, r.transactionHash.hex = h ∧
      t.status = if r.status then 1 else 0 := by
  have hkey := lookup_key _ hl
  obtain ⟨i, hi, rfl⟩ := List.getElem_of_mem (lookup_mem _ hl)
  simp only [Chunk.transactionsAt, transactionRows, List.length_zipWith] at hi
  simp only [Chunk.transactionsAt, transactionRows, List.getElem_zipWith] at hkey ⊢
  exact ⟨rfl, _, List.getElem_mem (by omega), hkey, rfl⟩

/-- The block of a stored transaction, by the height whose receipts have its hash. -/
theorem stored_block (hi : Canonical R abi c db) (hfk : db.ForeignKeys) {n : Nat}
    (hn : n ∈ c.heights) {h : String} (hh : c.HashOf n h) {t : Transaction}
    (ht : db.transactions.get h = some t) :
    lookup Transaction.txHash h (c.transactionsAt n) = some t ∧
      db.blocks.get t.blockNumber = some (blockRow n (c.block n).header) := by
  obtain ⟨m, hm, hl⟩ := hi.transactions t (Table.get_mem ht)
  rw [Table.get_key ht] at hl
  obtain ⟨hnum, r, hr, hrh, -⟩ := transactionsAt_mem hl
  obtain rfl : m = n := Chunk.hashOf_unique hm hn ⟨r, hr, hrh⟩ hh
  refine ⟨hl, ?_⟩
  obtain ⟨b, hb⟩ := Option.isSome_iff_exists.mp (hfk.transactionBlock t (Table.get_mem ht))
  obtain ⟨k, hk, hlb⟩ := hi.blocks b (Table.get_mem hb)
  have hrow := List.mem_singleton.mp (lookup_mem _ hlb)
  have hbn := Table.get_key hb
  rw [hrow, blockRow_blockNumber, hnum] at hbn
  obtain rfl := blockAt_inj hk hm hbn
  rw [hb, hrow]

/-- An event of a height is stored under the block of its transaction. -/
theorem event_coherent (hi : Canonical R abi c db) (hfk : db.ForeignKeys) {n : Nat}
    (hn : n ∈ c.heights) {h : String} (hh : c.HashOf n h) (hstored : db.hasTransaction h = true) :
    ∃ t b, db.transactions.get h = some t ∧ db.blocks.get t.blockNumber = some b ∧
      b.timestamp = c.batchTime n := by
  obtain ⟨t, ht⟩ := Option.isSome_iff_exists.mp hstored
  exact ⟨t, _, ht, (stored_block hi hfk hn hh ht).2, rfl⟩

/-- A stored transaction the chain has as reverted is stored with status 0. -/
theorem reverted_status (hi : Canonical R abi c db) (hfk : db.ForeignKeys) (hd : c.Distinct) {n : Nat}
    (hn : n ∈ c.heights) {h : String} (hh : h ∈ failedHashes (c.receipts n)) {t : Transaction}
    (ht : db.transactions.get h = some t) : t.status = 0 := by
  obtain ⟨r, hr, rfl⟩ := List.mem_map.mp hh
  obtain ⟨hr, hst⟩ := List.mem_filter.mp hr
  obtain ⟨hl, -⟩ := stored_block hi hfk hn ⟨r, hr, rfl⟩ ht
  obtain ⟨-, r', hr', hhash, hstatus⟩ := transactionsAt_mem hl
  have : r' = r := List.inj_on_of_nodup_map (hd n hn) hr' hr (FixedBytes.hex_inj hhash)
  subst this
  have hst : r'.status = false := by simpa using hst
  rw [hstatus, hst]
  rfl

theorem failedHashes_hashOf {n : Nat} {h : String} (hh : h ∈ failedHashes (c.receipts n)) :
    c.HashOf n h := by
  obtain ⟨r, hr, rfl⟩ := List.mem_map.mp hh
  exact ⟨r, (List.mem_filter.mp hr).1, rfl⟩

/-! ## Failure records -/

/-- With the triggers, each is the stub of its transaction. -/
def Stubbed (db : Db) : Prop :=
  ∀ h, db.failedTransactions.get h = (db.transactions.get h).bind (failedStub db.blocks)

theorem failedStub_eq {blocks : Table Block.blockNumber} {t : Transaction} (hst : t.status = 0)
    {b : Block} (hb : blocks.get t.blockNumber = some b) :
    failedStub blocks t = some ⟨t.txHash, .unknown, none, none, t.gasUsed, b.timestamp⟩ := by
  unfold failedStub
  rw [if_pos hst, hb]
  rfl

/-- A stub does not change when blocks come in, as its block is there. -/
theorem failedStub_insertNew {blocks : Table Block.blockNumber} {rows : List Block} {t : Transaction}
    (hb : (blocks.get t.blockNumber).isSome = true) :
    failedStub (blocks.insertNew rows) t = failedStub blocks t := by
  obtain ⟨b, hb⟩ := Option.isSome_iff_exists.mp hb
  exact failedStub_congr (by rw [Table.get_insertNew, hb, Option.some_or])

theorem exec_stubbed {env : Env} (htr : env.triggers = true) {s : Stmt} (hi : Canonical R abi c db)
    (hfk : db.ForeignKeys) (hd : c.Distinct) (hb : Brings R abi c s) (hs : Stubbed db)
    (h : exec env s db = .ok db') : Stubbed db' := by
  have ha := exec_applied h
  intro k
  -- a record that would be new is for a stored transaction, which has its stub
  have hnone : db.failedTransactions.get k = none → lookup FailedTransaction.txHash k s.failedRows = none := by
    intro hfree
    cases hf : lookup FailedTransaction.txHash k s.failedRows with
    | none => rfl
    | some f =>
      have hl := Table.lookup_news db.failedTransactions s.failedRows k
      rw [hfree, Option.isSome_none, if_neg (by decide), hf] at hl
      have hkey := lookup_key _ hf
      obtain ⟨t, ht⟩ := Option.isSome_iff_exists.mp (ha.failedTx f (lookup_mem _ hl))
      obtain ⟨n, hn, hrec⟩ := hb.failed f (lookup_mem _ hf)
      have hh : f.txHash ∈ failedHashes (c.receipts n) := by
        unfold Chunk.recordAt at hrec
        split at hrec
        · assumption
        · cases hrec
      obtain ⟨b, hblock⟩ := Option.isSome_iff_exists.mp (hfk.transactionBlock t (Table.get_mem ht))
      have hstub := hs f.txHash
      rw [ht, Option.bind_some, failedStub_eq (reverted_status hi hfk hd hn hh ht) hblock, hkey,
        hfree] at hstub
      cases hstub
  rw [ha.failedTransactions, Table.get_insertNew, Table.get_insertNew, ha.transactions,
    Table.get_insertNew, lookup_stubs, ha.blocks]
  cases ht : db.transactions.get k with
  | some t =>
    have hstub := hs k
    rw [ht, Option.bind_some] at hstub
    have hhas : db.hasTransaction k = true := by
      rw [Db.hasTransaction, ht]
      rfl
    rw [if_neg (by rw [hhas]; exact fun hn => Bool.noConfusion hn.2), Option.or_none, Option.some_or,
      Option.bind_some, failedStub_insertNew (hfk.transactionBlock t (Table.get_mem ht)), ← hstub]
    cases hf : db.failedTransactions.get k with
    | some f => rfl
    | none => rw [hnone hf, Option.none_or]
  | none =>
    have hfree : db.failedTransactions.get k = none := by rw [hs k, ht]; rfl
    rw [hfree, hnone hfree, if_pos ⟨htr, Db.hasTransaction_eq_false.mpr ht⟩, Option.none_or,
      Option.none_or, Option.or_none]
    cases hrow : lookup Transaction.txHash k s.transactionRows with
    | none => rfl
    | some t =>
      have hl := Table.lookup_news db.transactions s.transactionRows k
      rw [ht, Option.isSome_none, if_neg (by decide), hrow] at hl
      rw [Option.bind_some, Option.bind_some, failedStub_insertNew (ha.inBlock t (lookup_mem _ hl))]

theorem rolledTo_stubbed (hs : Stubbed db) (fromBlock : Int) : Stubbed (db.rolledTo fromBlock) := by
  intro h
  have hstub := hs h
  simp only [Db.rolledTo, deleteDependents, Table.get_filter]
  rw [hstub]
  cases ht : db.transactions.get h with
  | none => rfl
  | some t =>
    rw [Option.bind_some, Option.filter_some]
    by_cases hlt : t.blockNumber < fromBlock
    · rw [if_pos (decide_eq_true hlt), Option.bind_some]
      have hkeep : failedStub (db.blocks.filter fun b => b.blockNumber < fromBlock) t =
          failedStub db.blocks t := by
        refine failedStub_congr ?_
        rw [Table.get_filter]
        cases hb : db.blocks.get t.blockNumber with
        | none => rfl
        | some b =>
          rw [Option.filter_some, if_pos]
          rw [Table.get_key hb]
          exact decide_eq_true hlt
      rw [hkeep]
      cases hf : failedStub db.blocks t with
      | none => rfl
      | some f =>
        have hkey := failedStub_txHash hf
        rw [Option.filter_some, if_pos]
        rw [hkey, Table.get_key ht, Db.rolledBack, ht, Option.any_some]
        simpa using hlt
    · rw [if_neg (by simpa using hlt), Option.bind_none]
      cases hf : failedStub db.blocks t with
      | none => rfl
      | some f =>
        have hkey := failedStub_txHash hf
        rw [Option.filter_some, if_neg]
        rw [hkey, Table.get_key ht, Db.rolledBack, ht, Option.any_some]
        simpa using hlt

/-- Without the triggers, each is what the chain's trace gives. -/
def Recorded (R : Runtime) (c : Chunk) (db : Db) : Prop :=
  ∀ f ∈ db.failedTransactions.rows, ∃ n ∈ c.heights, c.recordAt R n f.txHash = some f

theorem exec_recorded {env : Env} (htr : env.triggers = false) {s : Stmt} (hb : Brings R abi c s)
    (hs : Recorded R c db) (h : exec env s db = .ok db') : Recorded R c db' := by
  intro f hf
  rw [(exec_applied h).failedTransactions, Db.stubs, if_neg (by rw [htr]; decide),
    Table.insertNew_nil] at hf
  rcases Table.mem_insertNew hf with hf | hf
  · exact hs f hf
  · exact hb.failed f hf

theorem rolledTo_recorded (hs : Recorded R c db) (fromBlock : Int) :
    Recorded R c (db.rolledTo fromBlock) := fun f hf => hs f (List.mem_of_mem_filter hf)

/-- All that holds of a store of one chain. -/
structure ChainStore (R : Runtime) (abi : Abi) (c : Chunk) (triggers : Bool) (db : Db) : Prop where
  canonical : Canonical R abi c db
  foreignKeys : db.ForeignKeys
  stubbed : triggers = true → c.Distinct → Stubbed db
  recorded : triggers = false → Recorded R c db

theorem chainStore_inductive (R : Runtime) (abi : Abi) (c : Chunk) (triggers : Bool) :
    ((writes R abi).restrict (OnChain c triggers)).Inductive (ChainStore R abi c triggers) where
  init := by
    rintro db rfl
    refine ⟨(canonical_inductive R abi c triggers).init _ rfl, empty_foreignKeys, ?_, ?_⟩
    · exact fun _ _ _ => rfl
    · exact fun _ f hf => by cases hf
  step := by
    rintro db w db' hi hw
    have hcanonical := (canonical_inductive R abi c triggers).step db w db' hi.canonical hw
    obtain ⟨hw, hg⟩ := hw
    cases w with
    | stmt env n a s =>
      obtain ⟨hn, ha, htr⟩ := hg
      have hb := stmt_brings hn ha hw.1
      refine ⟨hcanonical, exec_foreignKeys hw.2 hi.foreignKeys, fun ht hd => ?_, fun ht => ?_⟩
      · exact exec_stubbed (htr.trans ht) hi.canonical hi.foreignKeys hd hb (hi.stubbed ht hd) hw.2
      · exact exec_recorded (htr.trans ht) hb (hi.recorded ht) hw.2
    | rollback fromBlock =>
      obtain ⟨deleted, hr⟩ := hw
      have hfk := rollback_foreignKeys hr hi.foreignKeys
      rw [rollbackFromBlock_eq hr] at hcanonical hfk ⊢
      exact ⟨hcanonical, hfk, fun ht hd => rolledTo_stubbed (hi.stubbed ht hd) fromBlock,
        fun ht => rolledTo_recorded (hi.recorded ht) fromBlock⟩
    | checkpoint lastProcessedBlock =>
      cases hw
      exact ⟨hcanonical, { hi.foreignKeys with }, fun ht hd => hi.stubbed ht hd,
        fun ht => hi.recorded ht⟩

end Stores

/-! ## Agreement -/

/-- No key has one row here and another there. -/
def NoConflict {α κ : Type} [DecidableEq κ] {key : α → κ} (a b : Table key) : Prop :=
  ∀ k, ∀ x ∈ a.get k, ∀ y ∈ b.get k, x = y

/-- The tables with a natural key, the profiles apart. -/
structure NoConflicts (a b : Db) : Prop where
  blocks : NoConflict a.blocks b.blocks
  transactions : NoConflict a.transactions b.transactions
  swapEvents : NoConflict a.swapEvents b.swapEvents
  liquidityEvents : NoConflict a.liquidityEvents b.liquidityEvents
  tokenTransfers : NoConflict a.tokenTransfers b.tokenTransfers
  failedTransactions : NoConflict a.failedTransactions b.failedTransactions

section Agreement
variable {R : Runtime} {abi : Abi} {c : Chunk}

theorem noConflict_of_at {α κ : Type} [DecidableEq κ] {key : α → κ} {batchOf : Nat → List α}
    (hkeys : ∀ n ∈ c.heights, ∀ m ∈ c.heights, ∀ a ∈ batchOf n, ∀ b ∈ batchOf m, key a = key b → n = m)
    {a b : Table key} (ha : ∀ r ∈ a.rows, At key c batchOf r) (hb : ∀ r ∈ b.rows, At key c batchOf r) :
    NoConflict a b := by
  intro k x hx y hy
  refine at_unique hkeys (ha x (Table.get_mem hx)) (hb y (Table.get_mem hy)) ?_
  rw [Table.get_key hx, Table.get_key hy]

/-- Keys that tell the hash tell the height. -/
theorem keys_of_hash {α κ : Type} {key : α → κ} (hash : κ → String) {batchOf : Nat → List α}
    (h : ∀ n ∈ c.heights, ∀ a ∈ batchOf n, c.HashOf n (hash (key a))) :
    ∀ n ∈ c.heights, ∀ m ∈ c.heights, ∀ a ∈ batchOf n, ∀ b ∈ batchOf m, key a = key b → n = m := by
  intro n hn m hm a ha b hb hk
  have hb' := h m hm b hb
  rw [← hk] at hb'
  exact Chunk.hashOf_unique hn hm (h n hn a ha) hb'

theorem blocks_noConflict {a b : Db} (ha : Canonical R abi c a) (hb : Canonical R abi c b) :
    NoConflict a.blocks b.blocks := by
  refine noConflict_of_at (fun n hn m hm x hx y hy hk => ?_) ha.blocks hb.blocks
  rw [List.mem_singleton.mp hx, List.mem_singleton.mp hy] at hk
  exact blockAt_inj hn hm hk

theorem transactions_noConflict {a b : Db} (ha : Canonical R abi c a) (hb : Canonical R abi c b) :
    NoConflict a.transactions b.transactions :=
  noConflict_of_at (keys_of_hash id (Chunk.hashed_transactions R abi).hash) ha.transactions
    hb.transactions

/-- The stubs of two stores: their transactions and their blocks agree. -/
theorem failed_noConflict {triggers : Bool} (hd : c.Distinct) {a b : Db}
    (ha : ChainStore R abi c triggers a) (hb : ChainStore R abi c triggers b) :
    NoConflict a.failedTransactions b.failedTransactions := by
  intro h x hx y hy
  cases triggers with
  | true =>
    rw [Option.mem_def, ha.stubbed rfl hd, Option.bind_eq_some_iff] at hx
    rw [Option.mem_def, hb.stubbed rfl hd, Option.bind_eq_some_iff] at hy
    obtain ⟨t, ht, hx⟩ := hx
    obtain ⟨u, hu, hy⟩ := hy
    obtain rfl := transactions_noConflict ha.canonical hb.canonical h t ht u hu
    obtain ⟨p, hp⟩ := Option.isSome_iff_exists.mp (ha.foreignKeys.transactionBlock t (Table.get_mem ht))
    obtain ⟨q, hq⟩ := Option.isSome_iff_exists.mp (hb.foreignKeys.transactionBlock t (Table.get_mem hu))
    obtain rfl := blocks_noConflict ha.canonical hb.canonical t.blockNumber p hp q hq
    rw [failedStub_congr (hp.trans hq.symm), hy, Option.some.injEq] at hx
    exact hx.symm
  | false =>
    obtain ⟨n, hn, hrec⟩ := ha.recorded rfl x (Table.get_mem hx)
    obtain ⟨m, hm, hrec'⟩ := hb.recorded rfl y (Table.get_mem hy)
    rw [Table.get_key hx] at hrec
    rw [Table.get_key hy] at hrec'
    unfold Chunk.recordAt at hrec hrec'
    split at hrec
    · rename_i hh
      split at hrec'
      · rename_i hh'
        obtain rfl := Chunk.hashOf_unique hn hm (failedHashes_hashOf hh) (failedHashes_hashOf hh')
        rw [hrec, Option.some.injEq] at hrec'
        exact hrec'
      · cases hrec'
    · cases hrec

end Agreement

/-- **Stores of one chain agree.** Two databases, each written by any indexers with any
history (calls that fail, `null` receipts, traces that are not had, statements in any order
and number, crashes, rollbacks) from the answers of one chain whose blocks hold no hash twice,
and with the same triggers: where both have a row for a key, it is the same row, in the six
tables of `NoConflicts`. The profiles count what has been written, and can differ. -/
theorem stores_agree (R : Runtime) (abi : Abi) {c : Chunk} (hd : c.Distinct) (triggers : Bool)
    {a b : Db} (ha : ((writes R abi).restrict (OnChain c triggers)).Reachable a)
    (hb : ((writes R abi).restrict (OnChain c triggers)).Reachable b) : NoConflicts a b := by
  have ha := (chainStore_inductive R abi c triggers).reachable a ha
  have hb := (chainStore_inductive R abi c triggers).reachable b hb
  constructor
  · exact blocks_noConflict ha.canonical hb.canonical
  · exact transactions_noConflict ha.canonical hb.canonical
  · exact noConflict_of_at (keys_of_hash Prod.fst (Chunk.hashed_swaps R abi).hash)
      ha.canonical.swaps hb.canonical.swaps
  · exact noConflict_of_at (keys_of_hash Prod.fst (Chunk.hashed_liquidity R abi).hash)
      ha.canonical.liquidity hb.canonical.liquidity
  · exact noConflict_of_at (keys_of_hash Prod.fst (Chunk.hashed_transfers R abi).hash)
      ha.canonical.transfers hb.canonical.transfers
  · exact failed_noConflict hd ha hb

/-! ## Coherence -/

/-- The transaction is stored, in a stored block of that time. -/
def Dated (db : Db) (txHash : String) (timestamp : Int) : Prop :=
  ∃ t b, db.transactions.get txHash = some t ∧ db.blocks.get t.blockNumber = some b ∧
    b.timestamp = timestamp

/-- The transaction is stored, and reverted. -/
def Reverted (db : Db) (txHash : String) : Prop :=
  ∃ t, db.transactions.get txHash = some t ∧ t.status = 0

/-- What the tables say more than once they say alike. -/
structure Coherent (db : Db) : Prop where
  swaps : ∀ e ∈ db.swapEvents.rows, Dated db e.txHash e.timestamp
  liquidity : ∀ e ∈ db.liquidityEvents.rows, Dated db e.txHash e.timestamp
  transfers : ∀ e ∈ db.tokenTransfers.rows, Dated db e.txHash e.timestamp
  failures : ∀ f ∈ db.failedTransactions.rows, Dated db f.txHash f.timestamp ∧ Reverted db f.txHash
  traces : ∀ t ∈ db.traceLogs.rows, Reverted db t.txHash

def eventTime : DecodedEvent → Int
  | .swap s => s.timestamp
  | .liquidity l => l.timestamp
  | .transfer t => t.timestamp

theorem decodeLog_eventTime {abi : Abi} {topics : List B256} {data : Bytes} {c : LogContext}
    {e : DecodedEvent} (h : (decodeLog abi topics data c).toOption = some e) :
    eventTime e = c.timestamp := by
  unfold decodeLog decodeSwap decodeMint decodeBurn decodeTransfer at h
  repeat' split at h
  all_goals first
    | (cases h; rfl)
    | cases h

section Coherence
variable {R : Runtime} {abi : Abi} {c : Chunk} {triggers : Bool} {db : Db}

theorem events_eventTime {n : Nat} {e : DecodedEvent} (h : e ∈ c.events abi n) :
    eventTime e = c.batchTime n := by
  simp only [Chunk.events, decodedEvents, List.mem_flatMap, List.mem_filterMap] at h
  obtain ⟨r, -, l, -, he⟩ := h
  split at he
  · cases he
  · rw [decodeLog_eventTime he]

/-- The rows of an event table, each with the time of its height. -/
theorem dated_of_at (hi : ChainStore R abi c triggers db) {α κ : Type} [DecidableEq κ] {key : α → κ}
    {batchOf : Nat → List α} {txHash : α → String} {timestamp : α → Int}
    (hhash : ∀ n ∈ c.heights, ∀ r ∈ batchOf n, c.HashOf n (txHash r))
    (htime : ∀ n, ∀ r ∈ batchOf n, timestamp r = c.batchTime n) {r : α} (hr : At key c batchOf r)
    (hstored : db.hasTransaction (txHash r) = true) : Dated db (txHash r) (timestamp r) := by
  obtain ⟨n, hn, hl⟩ := hr
  have hmem := lookup_mem key hl
  rw [htime n r hmem]
  exact event_coherent hi.canonical hi.foreignKeys hn (hhash n hn r hmem) hstored

/-- A failure record of a hash the chain has as reverted. -/
theorem reverted_of_hash (hi : ChainStore R abi c triggers db) (hd : c.Distinct) {n : Nat}
    (hn : n ∈ c.heights) {h : String} (hh : h ∈ failedHashes (c.receipts n))
    (hstored : db.hasTransaction h = true) : Reverted db h := by
  obtain ⟨t, ht⟩ := Option.isSome_iff_exists.mp hstored
  exact ⟨t, ht, reverted_status hi.canonical hi.foreignKeys hd hn hh ht⟩

theorem failure_coherent (hi : ChainStore R abi c triggers db) (hd : c.Distinct)
    {f : FailedTransaction} (hf : f ∈ db.failedTransactions.rows) :
    Dated db f.txHash f.timestamp ∧ Reverted db f.txHash := by
  cases triggers with
  | true =>
    have hget := Table.mem_iff_get.mp hf
    rw [hi.stubbed rfl hd, Option.bind_eq_some_iff] at hget
    obtain ⟨t, ht, hstub⟩ := hget
    unfold failedStub at hstub
    split at hstub
    · rename_i hst
      obtain ⟨b, hb, rfl⟩ := Option.map_eq_some_iff.mp hstub
      exact ⟨⟨t, b, ht, hb, rfl⟩, t, ht, hst⟩
    · cases hstub
  | false =>
    obtain ⟨n, hn, hrec⟩ := hi.recorded rfl f hf
    unfold Chunk.recordAt at hrec
    split at hrec
    · rename_i hh
      have hstored := hi.foreignKeys.failedTx f hf
      refine ⟨?_, reverted_of_hash hi hd hn hh hstored⟩
      rw [(recordOf_txHash R hrec).2]
      exact event_coherent hi.canonical hi.foreignKeys hn (failedHashes_hashOf hh) hstored
    · cases hrec

end Coherence

/-- **The tables are coherent.** In every store of one chain: the time of every swap,
liquidity event, transfer and failure record is that of the block its transaction is stored
under, and every failure record and every trace row is of a stored transaction with
status 0. -/
theorem coherent (R : Runtime) (abi : Abi) {c : Chunk} (hd : c.Distinct) (triggers : Bool) {db : Db}
    (h : ((writes R abi).restrict (OnChain c triggers)).Reachable db) : Coherent db := by
  have hi := (chainStore_inductive R abi c triggers).reachable db h
  constructor
  case swaps =>
    refine fun e he => dated_of_at hi (Chunk.hashed_swaps R abi).hash (fun n r hr => ?_)
      (hi.canonical.swaps e he) (hi.foreignKeys.swapTx e he)
    obtain ⟨d, hd, hrow⟩ := List.mem_filterMap.mp hr
    cases d <;> cases hrow
    exact events_eventTime hd
  case liquidity =>
    refine fun e he => dated_of_at hi (Chunk.hashed_liquidity R abi).hash (fun n r hr => ?_)
      (hi.canonical.liquidity e he) (hi.foreignKeys.liquidityTx e he)
    obtain ⟨d, hd, hrow⟩ := List.mem_filterMap.mp hr
    cases d <;> cases hrow
    exact events_eventTime hd
  case transfers =>
    refine fun e he => dated_of_at hi (Chunk.hashed_transfers R abi).hash (fun n r hr => ?_)
      (hi.canonical.transfers e he) (hi.foreignKeys.transferTx e he)
    obtain ⟨d, hd, hrow⟩ := List.mem_filterMap.mp hr
    cases d <;> cases hrow
    exact events_eventTime hd
  case failures => exact fun f hf => failure_coherent hi hd hf
  case traces =>
    intro t ht
    obtain ⟨n, hn, hh⟩ := hi.canonical.traces t ht
    exact reverted_of_hash hi hd hn hh (hi.foreignKeys.traceTx t ht)

/-- **The failure records are a view.** With the triggers installed, in every store of one
chain and at every moment: the failure record of a hash is the stub of the transaction
stored under it, so there is one for each stored transaction with status 0, none else,
and none has a category, a reason or a function. -/
theorem failures_exact (R : Runtime) (abi : Abi) {c : Chunk} (hd : c.Distinct) {db : Db}
    (h : ((writes R abi).restrict (OnChain c true)).Reachable db) (txHash : String) :
    db.failedTransactions.get txHash =
      ((db.transactions.get txHash).filter fun t => t.status = 0).bind fun t =>
        (db.blocks.get t.blockNumber).map fun b =>
          ⟨txHash, .unknown, none, none, t.gasUsed, b.timestamp⟩ := by
  have hi := (chainStore_inductive R abi c true).reachable db h
  rw [hi.stubbed rfl hd]
  cases ht : db.transactions.get txHash with
  | none => rfl
  | some t =>
    rw [Option.bind_some, Option.filter_some, failedStub, Table.get_key ht]
    split
    · rename_i hst
      rw [if_pos (decide_eq_true hst), Option.bind_some]
    · rename_i hst
      rw [if_neg (by simpa using hst), Option.bind_none]

/-! ## The chunk of the reverting transaction -/

theorem onChain_execAll {R : Runtime} {abi : Abi} {c : Chunk} {triggers : Bool} {env : Env} {n : Nat}
    {a : Answers} (hn : n ∈ c.heights) (ha : c.Honest n a) (ht : env.triggers = triggers)
    {ss : List Stmt} (hss : ∀ s ∈ ss, s ∈ (processBlock R abi n a).stmts) {db : Db}
    (hr : ((writes R abi).restrict (OnChain c triggers)).Reachable db) :
    ((writes R abi).restrict (OnChain c triggers)).Reachable (execAll env ss db).1 := by
  refine execAll_keeps (fun s hs d d' he hd => ?_) hr
  have hw : ((writes R abi).restrict (OnChain c triggers)).step d (.stmt env n a s) d' :=
    ⟨⟨hss s hs, he⟩, hn, ha, ht⟩
  exact hd.run (.cons hw (.nil d'))

theorem revertChunk_distinct : revertChunk.Distinct := fun _ _ => List.nodup_singleton _

theorem revertChunk_honest : revertChunk.Honest 1 (revertAnswers customErrorTrace) where
  block _ hb := (Option.some.inj hb).symm
  receipts _ hr := .inr (Option.some.inj hr).symm
  trace _ := .inl rfl

theorem revertedAt_onChain (k : Nat) :
    ((writes (.asciiOnly true) wordAbi).restrict (OnChain revertChunk true)).Reachable (revertedAt k) :=
  onChain_execAll (n := 1) (Chunk.mem_heights.mpr ⟨le_rfl, le_rfl⟩) revertChunk_honest
    (show liveEnv.triggers = true from rfl) (fun _ hs => List.mem_of_mem_take hs)
    ⟨Db.empty, [], rfl, .nil _⟩

theorem stores_agree_reverted : NoConflicts (revertedAt 2) (revertedAt 4) :=
  stores_agree _ _ revertChunk_distinct true (revertedAt_onChain 2) (revertedAt_onChain 4)

theorem coherent_reverted : Coherent (revertedAt 4) :=
  coherent _ _ revertChunk_distinct true (revertedAt_onChain 4)

theorem failures_exact_reverted :
    (revertedAt 4).failedTransactions.get revertReceipt.transactionHash.hex =
      (((revertedAt 4).transactions.get revertReceipt.transactionHash.hex).filter
        fun t => t.status = 0).bind fun t =>
        ((revertedAt 4).blocks.get t.blockNumber).map fun b =>
          ⟨revertReceipt.transactionHash.hex, .unknown, none, none, t.gasUsed, b.timestamp⟩ :=
  failures_exact _ _ revertChunk_distinct (revertedAt_onChain 4) _

end Amarillo.L3
