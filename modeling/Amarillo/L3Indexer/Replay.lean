import Amarillo.Core.Interleave
import Amarillo.L3Indexer.FailedStub

/-!
# Replaying a chunk (`process_chunk` after a failure)

The blocks of a chunk are processed by parallel tasks, each a sequence of
statements without a transaction around them, and the checkpoint moves only
when all are done: after a failure the whole chunk runs again over what an
arbitrary part of it stored. `Partial` is the interrupted run, some statements
of some interleaving of the tasks; `Complete` is a run that leaves none.

Read by key, a table after any list of statements is what was there first and
else what the first statement wrote (`execAll_get`); the statements of a chunk
agree on every key (`Chunk.agree`), so no order and no replay shows. The
trigger's stubs are covered by `Replayed`: a stub is there as soon as its
transaction is. `trace_log` has no key: each replayed batch is there twice.

* `replay_neutral_iff`: the tables after the replay are those of one run, up
  to surrogate ids, exactly when the interrupted run had sent no trace rows.
-/
namespace Amarillo.L3
open Amarillo.Core Amarillo.L1 Amarillo.L2

/-! ## Tables after a list of statements -/

theorem execAll_get {α κ : Type} [DecidableEq κ] {key : α → κ} (T : Db → Table key)
    (rows : Stmt → List α)
    (hstep : ∀ env s db db', exec env s db = .ok db' → T db' = (T db).insertNew (rows s))
    {env : Env} {ss : List Stmt} {db db' : Db} (h : execAll env ss db = (db', none)) (k : κ) :
    (T db').get k = ((T db).get k).or (ss.findSome? fun s => lookup key k (rows s)) := by
  induction ss generalizing db with
  | nil =>
    cases h
    simp
  | cons s ss ih =>
    obtain ⟨m, hm, h⟩ := execAll_cons.mp h
    rw [ih h, hstep env s db m hm, Table.get_insertNew, Option.or_assoc, List.findSome?_cons]
    cases lookup key k (rows s) <;> rfl

/-- The trace table without its ids. -/
def tracesOf (db : Db) : List TraceLog := db.traceLogs.rows.map (TraceLog.withId 0)

def sentTraces (ss : List Stmt) : List TraceLog :=
  ss.flatMap fun s => s.traceRows.map fun t => (t.stored).withId 0

theorem sentTraces_append (a b : List Stmt) : sentTraces (a ++ b) = sentTraces a ++ sentTraces b := by
  simp [sentTraces]

theorem mem_sentTraces {ss : List Stmt} {t : TraceLog} (h : t ∈ sentTraces ss) :
    ∃ s ∈ ss, ∃ t' ∈ s.traceRows, t.txHash = t'.txHash := by
  obtain ⟨s, hs, ht⟩ := List.mem_flatMap.mp h
  obtain ⟨t', ht', rfl⟩ := List.mem_map.mp ht
  exact ⟨s, hs, t', ht', rfl⟩

theorem execAll_traces {env : Env} {ss : List Stmt} {db db' : Db}
    (h : execAll env ss db = (db', none)) : tracesOf db' = tracesOf db ++ sentTraces ss := by
  induction ss generalizing db with
  | nil =>
    cases h
    simp [sentTraces]
  | cons s ss ih =>
    obtain ⟨m, hm, h⟩ := execAll_cons.mp h
    have hnum : (Serial.number TraceLog.withId db.traceLogs.next
        (s.traceRows.map TraceLog.stored)).map (TraceLog.withId 0) =
          s.traceRows.map fun t => (t.stored).withId 0 := by
      rw [Serial.number_eq_map TraceLog.withId (TraceLog.withId 0) (fun _ _ => rfl), List.map_map]
      rfl
    rw [ih h, tracesOf, (exec_applied hm).traceLogs]
    simp only [Serial.append, List.map_append, hnum, sentTraces, List.flatMap_cons,
      List.append_assoc]
    rfl

/-! ## Failure records, with the trigger -/

/-- The stub the trigger owes for a hash: none for a transaction of `db₀`. -/
def owedStub (triggers : Bool) (db₀ db : Db) (h : String) : Option FailedTransaction :=
  if triggers = true ∧ db₀.hasTransaction h = false then
    (db.transactions.get h).bind (failedStub db.blocks)
  else none

/-- After the statements `ss` on `db₀`: a failure record is the stub, else what
was there, else the first one sent; and nothing is there without its
transaction. -/
structure Replayed (triggers : Bool) (db₀ : Db) (ss : List Stmt) (db : Db) : Prop where
  failed : ∀ h, db.failedTransactions.get h = (owedStub triggers db₀ db h).or
    ((db₀.failedTransactions.get h).or
      (ss.findSome? fun s => lookup FailedTransaction.txHash h s.failedRows))
  absent : ∀ h, db.transactions.get h = none → db₀.transactions.get h = none ∧
    db.failedTransactions.get h = none ∧
    (ss.findSome? fun s => lookup FailedTransaction.txHash h s.failedRows) = none
  inBlock : ∀ h t, db.transactions.get h = some t → (db.blocks.get t.blockNumber).isSome = true

theorem Replayed.start (triggers : Bool) {db : Db} (hfk : db.ForeignKeys) :
    Replayed triggers db [] db where
  failed h := by
    have hstub : owedStub triggers db db h = none := by
      unfold owedStub
      split
      · rename_i hc
        rw [Db.hasTransaction_eq_false.mp hc.2]
        rfl
      · rfl
    rw [hstub]
    simp
  absent h hn := by
    refine ⟨hn, Table.get_eq_none.mpr fun f hf e => ?_, rfl⟩
    have := hfk.failedTx f hf
    rw [e, Db.hasTransaction_eq_false.mpr hn] at this
    cases this
  inBlock h t ht := hfk.transactionBlock t (Table.get_mem ht)

theorem failedStub_congr {a b : Table Block.blockNumber} {t : Transaction}
    (h : a.get t.blockNumber = b.get t.blockNumber) : failedStub a t = failedStub b t := by
  unfold failedStub
  rw [h]

/-- A transaction that is not there yet is there with its stub after the
statement that brings it; no record can come before it. -/
theorem Replayed.step {env : Env} {db₀ db db' : Db} {ss : List Stmt} {s : Stmt}
    (hR : Replayed env.triggers db₀ ss db) (hs : exec env s db = .ok db') :
    Replayed env.triggers db₀ (ss ++ [s]) db' := by
  have ha := exec_applied hs
  have htx : ∀ h, db'.transactions.get h =
      (db.transactions.get h).or (lookup Transaction.txHash h s.transactionRows) := fun h => by
    rw [ha.transactions, Table.get_insertNew]
  have hkeep : ∀ n, (db.blocks.get n).isSome = true → db'.blocks.get n = db.blocks.get n := by
    intro n hn
    obtain ⟨b, hb⟩ := Option.isSome_iff_exists.mp hn
    rw [ha.blocks, Table.get_insertNew, hb, Option.some_or]
  have hfail : ∀ h, db'.failedTransactions.get h =
      ((db.failedTransactions.get h).or (lookup FailedTransaction.txHash h
        (db.stubs env s.transactionRows))).or (lookup FailedTransaction.txHash h s.failedRows) :=
    fun h => by rw [ha.failedTransactions, Table.get_insertNew, Table.get_insertNew]
  have hsent : ∀ h, ((ss ++ [s]).findSome? fun s => lookup FailedTransaction.txHash h s.failedRows) =
      (ss.findSome? fun s => lookup FailedTransaction.txHash h s.failedRows).or
        (lookup FailedTransaction.txHash h s.failedRows) := fun h => by
    rw [List.findSome?_append]
    congr 1
    simp
  -- the block of a row the statement brings is there already
  have hnewBlock : ∀ h t, db.transactions.get h = none →
      lookup Transaction.txHash h s.transactionRows = some t →
      (db.blocks.get t.blockNumber).isSome = true := by
    intro h t hn ht
    have hl := Table.lookup_news db.transactions s.transactionRows h
    rw [hn, Option.isSome_none, if_neg (by decide), ht] at hl
    exact ha.inBlock t (lookup_mem _ hl)
  -- without its transaction no record passes the foreign key
  have hnoRecord : ∀ h, db.transactions.get h = none →
      lookup FailedTransaction.txHash h s.failedRows = none := by
    intro h hn
    cases hf : lookup FailedTransaction.txHash h s.failedRows with
    | none => rfl
    | some f =>
      have hl := Table.lookup_news db.failedTransactions s.failedRows h
      rw [(hR.absent h hn).2.1, Option.isSome_none, if_neg (by decide), hf] at hl
      have := ha.failedTx f (lookup_mem _ hl)
      rw [lookup_key _ hl, Db.hasTransaction_eq_false.mpr hn] at this
      cases this
  constructor
  case inBlock =>
    intro h t ht
    rw [htx] at ht
    cases hd : db.transactions.get h with
    | some t' =>
      rw [hd, Option.some_or, Option.some.injEq] at ht
      subst ht
      rw [hkeep _ (hR.inBlock h t' hd)]
      exact hR.inBlock h t' hd
    | none =>
      rw [hd, Option.none_or] at ht
      rw [hkeep _ (hnewBlock h t hd ht)]
      exact hnewBlock h t hd ht
  case absent =>
    intro h hn
    rw [htx, Option.or_eq_none_iff] at hn
    obtain ⟨h₀, hf, hc⟩ := hR.absent h hn.1
    refine ⟨h₀, ?_, ?_⟩
    · rw [hfail, hf, lookup_stubs, hn.2, hnoRecord h hn.1]
      simp
    · rw [hsent, hc, hnoRecord h hn.1]
      rfl
  case failed =>
    intro h
    rw [hfail, hsent]
    cases hd : db.transactions.get h with
    | some t =>
      have hstubs : lookup FailedTransaction.txHash h (db.stubs env s.transactionRows) = none := by
        rw [lookup_stubs, Db.hasTransaction, hd]
        simp
      have howed : owedStub env.triggers db₀ db' h = owedStub env.triggers db₀ db h := by
        unfold owedStub
        rw [htx, hd, Option.some_or, Option.bind_some, Option.bind_some,
          failedStub_congr (hkeep _ (hR.inBlock h t hd))]
      rw [hstubs, Option.or_none, howed, hR.failed h, Option.or_assoc, Option.or_assoc]
    | none =>
      obtain ⟨h₀, hf, hc⟩ := hR.absent h hd
      have hf₀ : db₀.failedTransactions.get h = none := by
        have := hR.failed h
        rw [hf, eq_comm, Option.or_eq_none_iff, Option.or_eq_none_iff] at this
        exact this.2.1
      have hnotx : db₀.hasTransaction h = false := Db.hasTransaction_eq_false.mpr h₀
      rw [hf, hc, hf₀, hnoRecord h hd, lookup_stubs, Db.hasTransaction_eq_false.mpr hd, owedStub, htx,
        hd, hnotx]
      simp only [Option.none_or, Option.or_none, and_true]
      cases ht : lookup Transaction.txHash h s.transactionRows with
      | none => simp
      | some t =>
        simp only [Option.bind_some]
        rw [failedStub_congr (hkeep _ (hnewBlock h t hd ht))]

theorem Replayed.run {env : Env} {db₀ : Db} {ss ss' : List Stmt} {db db' : Db}
    (hR : Replayed env.triggers db₀ ss db) (h : execAll env ss' db = (db', none)) :
    Replayed env.triggers db₀ (ss ++ ss') db' := by
  induction ss' generalizing ss db with
  | nil =>
    cases h
    rwa [List.append_nil]
  | cons s ss' ih =>
    obtain ⟨m, hm, h⟩ := execAll_cons.mp h
    rw [List.append_cons]
    exact ih (hR.step hm) h

/-! ## Chunks -/

/-- The chain data of a chunk: its heights, their blocks and receipts, and the
traces by hash. A transaction is in one block only. -/
structure Chunk where
  first : Nat
  last : Nat
  block : Nat → RpcBlock
  receipts : Nat → List RpcReceipt
  trace : String → TraceAnswer
  inU64 : last < 2 ^ 64
  oneBlock : ∀ n m, first ≤ n → n ≤ last → first ≤ m → m ≤ last → n ≠ m →
    ∀ r ∈ receipts n, ∀ r' ∈ receipts m, r.transactionHash ≠ r'.transactionHash

namespace Chunk
variable (R : Runtime) (abi : Abi) (c : Chunk)

def heights : List Nat := List.range' c.first (c.last + 1 - c.first)

def answers (n : Nat) : Answers := ⟨some (c.block n), some (some (c.receipts n)), c.trace⟩

/-- mirrors crates/indexer/src/worker.rs:309-334 -/
def tasks : List (List Stmt) := c.heights.map fun n => (processBlock R abi n (c.answers n)).stmts

variable {c}

theorem mem_heights {n : Nat} : n ∈ c.heights ↔ c.first ≤ n ∧ n ≤ c.last := by
  rw [heights, List.mem_range'_1]
  omega

/-- A statement of the chunk is one a height sends. -/
theorem sends {s : Stmt} (h : s ∈ (c.tasks R abi).flatten) :
    ∃ n ∈ c.heights, Sends R abi n (c.answers n) (c.block n) (c.receipts n) s := by
  simp only [tasks, List.mem_flatten, List.mem_map] at h
  obtain ⟨_, ⟨n, hn, rfl⟩, hs⟩ := h
  obtain ⟨block, receipts, hb, hr, hsend⟩ := mem_processBlock R hs
  cases hb
  cases hr
  exact ⟨n, hn, hsend⟩

/-- The hash of a receipt of height `n`. -/
def HashOf (c : Chunk) (n : Nat) (h : String) : Prop :=
  ∃ r ∈ c.receipts n, r.transactionHash.hex = h

theorem hashOf_unique {n m : Nat} {h : String} (hn : n ∈ c.heights) (hm : m ∈ c.heights)
    (hh : c.HashOf n h) (hh' : c.HashOf m h) : n = m := by
  obtain ⟨r, hr, rfl⟩ := hh
  obtain ⟨r', hr', he⟩ := hh'
  by_contra hne
  exact c.oneBlock n m (mem_heights.mp hn).1 (mem_heights.mp hn).2 (mem_heights.mp hm).1
    (mem_heights.mp hm).2 hne r hr r' hr' (FixedBytes.hex_inj he.symm)

/-- Statements agree on a table if each height sends one batch for it, under
keys of its own. -/
theorem agree {α κ : Type} [DecidableEq κ] {key : α → κ} {rows : Stmt → List α}
    (batchOf : Nat → List α)
    (hrows : ∀ n ∈ c.heights, ∀ s, Sends R abi n (c.answers n) (c.block n) (c.receipts n) s →
      rows s = [] ∨ rows s = batchOf n)
    (hkeys : ∀ n ∈ c.heights, ∀ m ∈ c.heights, ∀ a ∈ batchOf n, ∀ b ∈ batchOf m,
      key a = key b → n = m) (k : κ) :
    Agree (fun s => lookup key k (rows s)) (c.tasks R abi).flatten := by
  intro s hs s' hs' a b ha hb
  simp only at ha hb
  obtain ⟨n, hn, hsend⟩ := sends R abi hs
  obtain ⟨m, hm, hsend'⟩ := sends R abi hs'
  have hr : rows s = batchOf n := (hrows n hn s hsend).resolve_left fun h => by
    rw [h] at ha
    cases ha
  have hr' : rows s' = batchOf m := (hrows m hm s' hsend').resolve_left fun h => by
    rw [h] at hb
    cases hb
  rw [hr] at ha
  rw [hr'] at hb
  have hnm : n = m := hkeys n hn m hm a (lookup_mem _ ha) b (lookup_mem _ hb)
    ((lookup_key _ ha).trans (lookup_key _ hb).symm)
  rw [← hnm, ha] at hb
  exact Option.some.inj hb

/-! ### The tables of a chunk -/

def batchTime (c : Chunk) (n : Nat) : Int := fromTimestamp (c.block n).header.timestamp.toInt

def events (abi : Abi) (c : Chunk) (n : Nat) : List DecodedEvent :=
  decodedEvents abi (c.batchTime n) (c.receipts n)

def failedOf (R : Runtime) (c : Chunk) (n : Nat) : List FailedTransaction :=
  match processFailedTxs R c.trace (c.batchTime n) (failedHashes (c.receipts n)) with
  | .ok rows => rows.2
  | .error _ => []

theorem agree_blocks (k : Int) :
    Agree (fun s => lookup Block.blockNumber k s.blockRows) (c.tasks R abi).flatten := by
  refine agree R abi (fun n => [blockRow n (c.block n).header]) ?_ ?_ k
  · intro n _ s hs
    cases hs <;> first | exact .inr rfl | exact .inl rfl
  · intro n hn m hm a ha b hb hk
    rw [List.mem_singleton.mp ha, List.mem_singleton.mp hb] at hk
    have hu := c.inU64
    have hn' := (mem_heights.mp hn).2
    have hm' := (mem_heights.mp hm).2
    have := congrArg asU64 hk
    rwa [blockRow_blockNumber, blockRow_blockNumber, asU64_asI64 (by omega),
      asU64_asI64 (by omega)] at this

/-- Each height sends one batch for the table, of rows with hashes of its own. -/
structure HashedBy {α : Type} (R : Runtime) (abi : Abi) (c : Chunk) (rows : Stmt → List α)
    (txHash : α → String) (batchOf : Nat → List α) : Prop where
  batch : ∀ n ∈ c.heights, ∀ s, Sends R abi n (c.answers n) (c.block n) (c.receipts n) s →
    rows s = [] ∨ rows s = batchOf n
  hash : ∀ n ∈ c.heights, ∀ a ∈ batchOf n, c.HashOf n (txHash a)

/-- A table keyed by transaction hash, alone or with a log index. -/
theorem HashedBy.agree {α κ : Type} [DecidableEq κ] {key : α → κ} {rows : Stmt → List α}
    (hash : κ → String) {batchOf : Nat → List α}
    (h : HashedBy R abi c rows (fun a => hash (key a)) batchOf) (k : κ) :
    Agree (fun s => lookup key k (rows s)) (c.tasks R abi).flatten := by
  refine Chunk.agree R abi batchOf h.batch (fun n hn m hm a ha b hb hk => ?_) k
  have hm' := h.hash m hm b hb
  simp only [← hk] at hm'
  exact hashOf_unique hn hm (h.hash n hn a ha) hm'

theorem hashed_transactions : HashedBy R abi c Stmt.transactionRows Transaction.txHash
    (fun n => transactionRows n (c.receipts n) (c.block n).transactions) where
  batch n _ s hs := by
    cases hs <;> first | exact .inr rfl | exact .inl rfl
  hash n _ t ht := by
    obtain ⟨i, hi, rfl⟩ := List.getElem_of_mem ht
    simp only [transactionRows, List.length_zipWith, List.getElem_zipWith] at hi ⊢
    exact ⟨_, List.getElem_mem (by omega), rfl⟩

theorem agree_transactions (k : String) :
    Agree (fun s => lookup Transaction.txHash k s.transactionRows) (c.tasks R abi).flatten :=
  HashedBy.agree R abi id (hashed_transactions R abi) k

theorem events_hash {n : Nat} {e : DecodedEvent} (h : e ∈ c.events abi n) : c.HashOf n e.txHash := by
  simp only [events, decodedEvents, List.mem_flatMap, List.mem_filterMap] at h
  obtain ⟨r, hr, l, -, he⟩ := h
  split at he
  · cases he
  · rw [decodeLog_txHash he]
    exact ⟨r, hr, rfl⟩

theorem hashed_swaps : HashedBy R abi c Stmt.swapRows SwapEvent.txHash
    (fun n => swapEvents (c.events abi n)) where
  batch n _ s hs := by
    cases hs with
    | swaps he => exact .inr (he ▸ rfl)
    | _ => exact .inl rfl
  hash n _ a ha := by
    obtain ⟨e, he, hrow⟩ := List.mem_filterMap.mp ha
    cases e <;> cases hrow
    exact events_hash abi he

theorem agree_swaps (k : String × Int) :
    Agree (fun s => lookup SwapEvent.key k s.swapRows) (c.tasks R abi).flatten :=
  HashedBy.agree R abi Prod.fst (hashed_swaps R abi) k

theorem hashed_liquidity : HashedBy R abi c Stmt.liquidityRows LiquidityEvent.txHash
    (fun n => liquidityEvents (c.events abi n)) where
  batch n _ s hs := by
    cases hs with
    | liquidity he => exact .inr (he ▸ rfl)
    | _ => exact .inl rfl
  hash n _ a ha := by
    obtain ⟨e, he, hrow⟩ := List.mem_filterMap.mp ha
    cases e <;> cases hrow
    exact events_hash abi he

theorem agree_liquidity (k : String × Int) :
    Agree (fun s => lookup LiquidityEvent.key k s.liquidityRows) (c.tasks R abi).flatten :=
  HashedBy.agree R abi Prod.fst (hashed_liquidity R abi) k

theorem hashed_transfers : HashedBy R abi c Stmt.transferRows TokenTransfer.txHash
    (fun n => tokenTransfers (c.events abi n)) where
  batch n _ s hs := by
    cases hs with
    | transfers he => exact .inr (he ▸ rfl)
    | _ => exact .inl rfl
  hash n _ a ha := by
    obtain ⟨e, he, hrow⟩ := List.mem_filterMap.mp ha
    cases e <;> cases hrow
    exact events_hash abi he

theorem agree_transfers (k : String × Int) :
    Agree (fun s => lookup TokenTransfer.key k s.transferRows) (c.tasks R abi).flatten :=
  HashedBy.agree R abi Prod.fst (hashed_transfers R abi) k

theorem hashed_failed : HashedBy R abi c Stmt.failedRows FailedTransaction.txHash (failedOf R c) where
  batch n _ s hs := by
    cases hs with
    | failed hp =>
      refine .inr ?_
      have : processFailedTxs R c.trace (c.batchTime n) (failedHashes (c.receipts n)) = .ok _ := hp
      rw [failedOf, this]
      rfl
    | _ => exact .inl rfl
  hash n _ f hf := by
    unfold failedOf at hf
    split at hf
    · rename_i rows hp
      rw [(processFailedTxs_ok R hp).2.1] at hf
      obtain ⟨x, hx, hfx⟩ := List.mem_filterMap.mp hf
      obtain ⟨r, hr, rfl⟩ := List.mem_map.mp hx
      exact ⟨r, (List.mem_filter.mp hr).1, (recordOf_txHash R hfx).1.symm⟩
    · cases hf

theorem agree_failed (k : String) :
    Agree (fun s => lookup FailedTransaction.txHash k s.failedRows) (c.tasks R abi).flatten :=
  HashedBy.agree R abi id (hashed_failed R abi) k

end Chunk

/-! ## Interrupted and replayed -/

/-- The indexed tables hold the same rows, trace ids apart. -/
structure SameRows (a b : Db) : Prop where
  blocks : a.blocks.rows.Perm b.blocks.rows
  transactions : a.transactions.rows.Perm b.transactions.rows
  swapEvents : a.swapEvents.rows.Perm b.swapEvents.rows
  liquidityEvents : a.liquidityEvents.rows.Perm b.liquidityEvents.rows
  tokenTransfers : a.tokenTransfers.rows.Perm b.tokenTransfers.rows
  failedTransactions : a.failedTransactions.rows.Perm b.failedTransactions.rows
  traces : (tracesOf a).Perm (tracesOf b)

/-- A run of the chunk's tasks: the statements `ss` took effect, in an order
the tasks allow. -/
def Partial (R : Runtime) (abi : Abi) (c : Chunk) (env : Env) (ss : List Stmt) (db db' : Db) : Prop :=
  (∃ rest, Interleaving (c.tasks R abi) ss rest) ∧ execAll env ss db = (db', none)

/-- A run that leaves nothing to do. -/
def Complete (R : Runtime) (abi : Abi) (c : Chunk) (env : Env) (ss : List Stmt) (db db' : Db) : Prop :=
  (∃ rest, Interleaving (c.tasks R abi) ss rest ∧ rest.flatten = []) ∧
  execAll env ss db = (db', none)

section Runs
variable {R : Runtime} {abi : Abi} {c : Chunk} {env₁ env₂ env₃ : Env} {ss₁ ss₂ ss₃ : List Stmt}
  {db₀ db₁ db₂ db₃ : Db}

/-- A keyed table ends up the same. -/
theorem get_replayed {α κ : Type} [DecidableEq κ] {key : α → κ} (T : Db → Table key)
    (rows : Stmt → List α)
    (hstep : ∀ env s db db', exec env s db = .ok db' → T db' = (T db).insertNew (rows s))
    (hagree : ∀ k, Agree (fun s => lookup key k (rows s)) (c.tasks R abi).flatten)
    (h₁ : Partial R abi c env₁ ss₁ db₀ db₁) (h₂ : Complete R abi c env₂ ss₂ db₁ db₂)
    (h₃ : Complete R abi c env₃ ss₃ db₀ db₃) (k : κ) : (T db₂).get k = (T db₃).get k := by
  obtain ⟨⟨rest₁, hi₁⟩, he₁⟩ := h₁
  obtain ⟨⟨rest₂, hi₂, hd₂⟩, he₂⟩ := h₂
  obtain ⟨⟨rest₃, hi₃, hd₃⟩, he₃⟩ := h₃
  have hp₂ := hi₂.complete hd₂
  have hp₃ := hi₃.complete hd₃
  rw [execAll_get T rows hstep he₂, execAll_get T rows hstep he₁, execAll_get T rows hstep he₃,
    Option.or_assoc, ← List.findSome?_append]
  congr 1
  refine findSome?_eq_of_agree (hagree k) ?_ ?_ hp₃.subset hp₃.symm.subset
  · exact List.append_subset.mpr ⟨fun s hs => hi₁.mem hs, hp₂.subset⟩
  · exact List.Subset.trans hp₂.symm.subset (List.subset_append_right _ _)

theorem failed_replayed (hfk : db₀.ForeignKeys) (ht₂ : env₂.triggers = env₁.triggers)
    (ht₃ : env₃.triggers = env₁.triggers) (h₁ : Partial R abi c env₁ ss₁ db₀ db₁)
    (h₂ : Complete R abi c env₂ ss₂ db₁ db₂) (h₃ : Complete R abi c env₃ ss₃ db₀ db₃) (h : String) :
    db₂.failedTransactions.get h = db₃.failedTransactions.get h := by
  have htx := get_replayed Db.transactions Stmt.transactionRows
    (fun _ _ _ _ he => (exec_applied he).transactions) (Chunk.agree_transactions R abi) h₁ h₂ h₃
  have hbl := get_replayed Db.blocks Stmt.blockRows
    (fun _ _ _ _ he => (exec_applied he).blocks) (Chunk.agree_blocks R abi) h₁ h₂ h₃
  obtain ⟨⟨rest₁, hi₁⟩, he₁⟩ := h₁
  obtain ⟨⟨rest₂, hi₂, hd₂⟩, he₂⟩ := h₂
  obtain ⟨⟨rest₃, hi₃, hd₃⟩, he₃⟩ := h₃
  have hp₂ := hi₂.complete hd₂
  have hp₃ := hi₃.complete hd₃
  have hR₁ := (Replayed.start env₁.triggers hfk).run he₁
  rw [← ht₂] at hR₁
  have hR₂ := hR₁.run he₂
  have hR₃ := (Replayed.start env₃.triggers hfk).run he₃
  rw [hR₂.failed, hR₃.failed, ht₂, ht₃]
  congr 1
  · unfold owedStub
    rw [htx]
    congr 1
    refine Option.bind_congr fun t _ => ?_
    exact failedStub_congr (hbl t.blockNumber)
  · have hagree : Agree (fun s => lookup FailedTransaction.txHash h s.failedRows)
        (c.tasks R abi).flatten := Chunk.agree_failed R abi h
    congr 1
    refine findSome?_eq_of_agree hagree ?_ ?_ ?_ ?_
    · rw [List.nil_append]
      exact List.append_subset.mpr ⟨fun s hs => hi₁.mem hs, hp₂.subset⟩
    · exact List.Subset.trans hp₂.symm.subset (List.subset_append_right _ _)
    · exact hp₃.subset
    · exact hp₃.symm.subset

/-- Two complete runs send the same trace rows, in some order. -/
theorem sentTraces_perm (h₂ : Complete R abi c env₂ ss₂ db₁ db₂)
    (h₃ : Complete R abi c env₃ ss₃ db₀ db₃) : (sentTraces ss₂).Perm (sentTraces ss₃) := by
  obtain ⟨⟨rest₂, hi₂, hd₂⟩, -⟩ := h₂
  obtain ⟨⟨rest₃, hi₃, hd₃⟩, -⟩ := h₃
  exact ((hi₂.complete hd₂).trans (hi₃.complete hd₃).symm).flatMap_right _

/-- After a replay that had sent no trace rows before. -/
theorem sameRows_replayed (hfk : db₀.ForeignKeys) (ht₂ : env₂.triggers = env₁.triggers)
    (ht₃ : env₃.triggers = env₁.triggers) (h₁ : Partial R abi c env₁ ss₁ db₀ db₁)
    (h₂ : Complete R abi c env₂ ss₂ db₁ db₂) (h₃ : Complete R abi c env₃ ss₃ db₀ db₃)
    (hnone : sentTraces ss₁ = []) : SameRows db₂ db₃ := by
  refine { blocks := ?_, transactions := ?_, swapEvents := ?_, liquidityEvents := ?_,
           tokenTransfers := ?_, failedTransactions := ?_, traces := ?_ }
  · exact Table.perm_of_get (get_replayed Db.blocks Stmt.blockRows
      (fun _ _ _ _ he => (exec_applied he).blocks) (Chunk.agree_blocks R abi) h₁ h₂ h₃)
  · exact Table.perm_of_get (get_replayed Db.transactions Stmt.transactionRows
      (fun _ _ _ _ he => (exec_applied he).transactions) (Chunk.agree_transactions R abi) h₁ h₂ h₃)
  · exact Table.perm_of_get (get_replayed Db.swapEvents Stmt.swapRows
      (fun _ _ _ _ he => (exec_applied he).swapEvents) (Chunk.agree_swaps R abi) h₁ h₂ h₃)
  · exact Table.perm_of_get (get_replayed Db.liquidityEvents Stmt.liquidityRows
      (fun _ _ _ _ he => (exec_applied he).liquidityEvents) (Chunk.agree_liquidity R abi) h₁ h₂ h₃)
  · exact Table.perm_of_get (get_replayed Db.tokenTransfers Stmt.transferRows
      (fun _ _ _ _ he => (exec_applied he).tokenTransfers) (Chunk.agree_transfers R abi) h₁ h₂ h₃)
  · exact Table.perm_of_get (failed_replayed hfk ht₂ ht₃ h₁ h₂ h₃)
  · rw [execAll_traces h₂.2, execAll_traces h₁.2, execAll_traces h₃.2, hnone, List.append_nil]
    exact (sentTraces_perm h₂ h₃).append_left _

/-- **A replayed chunk differs only in its trace rows.** Any part of a chunk
is stored, by any interleaving of its tasks, and the chunk is run again to
completion: every indexed table equals the one of a single complete run, up to
the generated ids, if and only if the interrupted run had inserted no trace
row. -/
theorem replay_neutral_iff (hfk : db₀.ForeignKeys) (ht₂ : env₂.triggers = env₁.triggers)
    (ht₃ : env₃.triggers = env₁.triggers) (h₁ : Partial R abi c env₁ ss₁ db₀ db₁)
    (h₂ : Complete R abi c env₂ ss₂ db₁ db₂) (h₃ : Complete R abi c env₃ ss₃ db₀ db₃) :
    SameRows db₂ db₃ ↔ ∀ s ∈ ss₁, s.traceRows = [] := by
  have hnil : sentTraces ss₁ = [] ↔ ∀ s ∈ ss₁, s.traceRows = [] := by
    simp [sentTraces]
  rw [← hnil]
  constructor
  · intro h
    have hlen := h.traces.length_eq
    rw [execAll_traces h₂.2, execAll_traces h₁.2, execAll_traces h₃.2] at hlen
    simp only [List.length_append, (sentTraces_perm h₂ h₃).length_eq] at hlen
    exact List.length_eq_zero_iff.mp (by omega)
  · exact sameRows_replayed hfk ht₂ ht₃ h₁ h₂ h₃

end Runs

/-- The chunk of the one height whose transaction reverts. -/
def revertChunk : Chunk where
  first := 1
  last := 1
  block _ := revertBlock
  receipts _ := [revertReceipt]
  trace := (revertAnswers customErrorTrace).trace
  inU64 := by decide
  oneBlock n m := by omega

/-- Block, transaction, trace and failure record. -/
def revertStmts : List Stmt :=
  (processBlock (.asciiOnly true) wordAbi 1 (revertAnswers customErrorTrace)).stmts

/-- The database after the first `k` statements. -/
def revertedAt (k : Nat) : Db := (execAll liveEnv (revertStmts.take k) Db.empty).1

/-- The chunk runs through, from nothing and from where a crash left it; after the crash
behind the trace rows it leaves other trace rows. -/
theorem revert_replays : (execAll liveEnv revertStmts Db.empty).2 = none ∧
    (execAll liveEnv revertStmts (revertedAt 2)).2 = none ∧
    (execAll liveEnv revertStmts (revertedAt 3)).2 = none ∧
    (tracesOf (execAll liveEnv revertStmts (revertedAt 3)).1).length ≠
      (tracesOf (execAll liveEnv revertStmts Db.empty).1).length := by
  decide +kernel

theorem revertChunk_stopped (k : Nat) :
    Partial (.asciiOnly true) wordAbi revertChunk liveEnv (revertStmts.take k) Db.empty
      (revertedAt k) := by
  have hsplit := Interleaving.single (revertStmts.take k) (revertStmts.drop k)
  rw [List.take_append_drop] at hsplit
  have hrun := Prod.snd_eq_iff.mp revert_replays.1
  rw [← List.take_append_drop k revertStmts] at hrun
  obtain ⟨m, hm, -⟩ := execAll_append.mp hrun
  exact ⟨⟨[revertStmts.drop k], hsplit⟩, Prod.snd_eq_iff.mp (congrArg Prod.snd hm)⟩

theorem revertChunk_complete (db : Db) (h : (execAll liveEnv revertStmts db).2 = none) :
    Complete (.asciiOnly true) wordAbi revertChunk liveEnv revertStmts db
      (execAll liveEnv revertStmts db).1 := by
  refine ⟨⟨[[]], ?_, rfl⟩, Prod.snd_eq_iff.mp h⟩
  have hall := Interleaving.single revertStmts []
  rw [List.append_nil] at hall
  exact hall

theorem stopped_before_traces :
    SameRows (execAll liveEnv revertStmts (revertedAt 2)).1 (execAll liveEnv revertStmts Db.empty).1 ↔
      ∀ s ∈ revertStmts.take 2, s.traceRows = [] :=
  replay_neutral_iff empty_foreignKeys rfl rfl (revertChunk_stopped 2)
    (revertChunk_complete _ revert_replays.2.1) (revertChunk_complete _ revert_replays.1)

/-- A crash between the trace rows and the failure record: the replay stores
the trace a second time. -/
theorem replay_duplicates_traces :
    ¬ ∀ (R : Runtime) (abi : Abi) (c : Chunk) (env₁ env₂ env₃ : Env) (ss₁ ss₂ ss₃ : List Stmt)
      (db₀ db₁ db₂ db₃ : Db), db₀.ForeignKeys → env₂.triggers = env₁.triggers →
      env₃.triggers = env₁.triggers → Partial R abi c env₁ ss₁ db₀ db₁ →
      Complete R abi c env₂ ss₂ db₁ db₂ → Complete R abi c env₃ ss₃ db₀ db₃ → SameRows db₂ db₃ := by
  intro h
  have hsame := h (.asciiOnly true) wordAbi revertChunk liveEnv liveEnv liveEnv (revertStmts.take 3)
    revertStmts revertStmts Db.empty (revertedAt 3) (execAll liveEnv revertStmts (revertedAt 3)).1
    (execAll liveEnv revertStmts Db.empty).1 empty_foreignKeys rfl rfl
    (revertChunk_stopped 3) (revertChunk_complete _ revert_replays.2.2.1)
    (revertChunk_complete _ revert_replays.1)
  exact revert_replays.2.2.2 hsame.traces.length_eq

end Amarillo.L3
