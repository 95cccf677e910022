import Amarillo.L2Db.References
import Amarillo.L3Indexer.Order

/-!
# Rollback and re-indexing (`rollback_from_block`, `process_chunk`)

A chunk is indexed once and to completion, the heights from `f` are rolled back, and the
same blocks are indexed again, once and to completion. In the indexed tables the deletes
undo the inserts: a row is deleted iff a height from `f` sent it (`rolledBack_iff`), and the
second run sends it again.

`user_profile` and `audit_log` are not block-scoped. The rollback leaves them, and the
triggers of the second run write to them again.

* `reindex_neutral_iff`: where the heights from `f` were indexed once, the indexed tables
  come back; the derived ones do iff the rollback deletes no swap and no audited liquidity
  event. A chunk that was cut short and replayed is another matter: its traces are there
  twice before the rollback, and once after it.
* `swap_counted_twice`: one swap, rolled back and indexed again.
-/
namespace Amarillo.L3
open Amarillo.Core Amarillo.L1 Amarillo.L2

/-! ## The heights from `f` -/

namespace Chunk
variable (R : Runtime) (abi : Abi) (c : Chunk) (f : Int)

/-- The tasks of the blocks that a rollback from `f` deletes. -/
def tasksFrom : List (List Stmt) :=
  (c.heights.filter fun n => decide (f ≤ asI64 n)).map fun n => (processBlock R abi n (c.answers n)).stmts

def tasksBelow : List (List Stmt) :=
  (c.heights.filter fun n => !decide (f ≤ asI64 n)).map fun n => (processBlock R abi n (c.answers n)).stmts

variable {c f} {s : Stmt}

theorem mem_tasks : s ∈ (c.tasks R abi).flatten ↔
    ∃ n ∈ c.heights, s ∈ (processBlock R abi n (c.answers n)).stmts := by
  simp [tasks]

theorem mem_tasksFrom : s ∈ (c.tasksFrom R abi f).flatten ↔
    ∃ n ∈ c.heights, f ≤ asI64 n ∧ s ∈ (processBlock R abi n (c.answers n)).stmts := by
  simp [tasksFrom, and_assoc]

theorem mem_tasksBelow : s ∈ (c.tasksBelow R abi f).flatten ↔
    ∃ n ∈ c.heights, ¬f ≤ asI64 n ∧ s ∈ (processBlock R abi n (c.answers n)).stmts := by
  simp [tasksBelow, and_assoc]

theorem tasksFrom_subset : (c.tasksFrom R abi f).flatten ⊆ (c.tasks R abi).flatten := by
  intro s hs
  obtain ⟨n, hn, -, hs⟩ := (mem_tasksFrom R abi).mp hs
  exact (mem_tasks R abi).mpr ⟨n, hn, hs⟩

theorem tasks_perm (f : Int) : ((c.tasksFrom R abi f).flatten ++ (c.tasksBelow R abi f).flatten).Perm
    (c.tasks R abi).flatten := by
  rw [← List.flatten_append, tasksFrom, tasksBelow, ← List.map_append]
  exact ((List.filter_append_perm _ _).map _).flatten

theorem sends_of_mem {n : Nat} (h : s ∈ (processBlock R abi n (c.answers n)).stmts) :
    Sends R abi n (c.answers n) (c.block n) (c.receipts n) s := by
  obtain ⟨block, receipts, hb, hr, hsend⟩ := mem_processBlock R h
  cases hb
  cases hr
  exact hsend

/-- A row sent for height `n` has a hash of height `n`. -/
theorem HashedBy.hashOf {α : Type} {rows : Stmt → List α} {txHash : α → String}
    {batchOf : Nat → List α} (h : HashedBy R abi c rows txHash batchOf) {n : Nat}
    (hn : n ∈ c.heights) (hs : s ∈ (processBlock R abi n (c.answers n)).stmts) {r : α}
    (hr : r ∈ rows s) : c.HashOf n (txHash r) := by
  rcases h.batch n hn s (sends_of_mem R abi hs) with he | he
  · rw [he] at hr
    cases hr
  · rw [he] at hr
    exact h.hash n hn r hr

theorem blockNumber_of_mem {n : Nat} (hs : s ∈ (processBlock R abi n (c.answers n)).stmts)
    {t : Transaction} (ht : t ∈ s.transactionRows) : t.blockNumber = asI64 n := by
  cases sends_of_mem R abi hs <;> simp only [Stmt.transactionRows, List.not_mem_nil] at ht
  obtain ⟨i, hi, rfl⟩ := List.getElem_of_mem ht
  simp only [transactionRows, List.getElem_zipWith]
  rfl

/-- The trace rows of height `n`. -/
def tracesAt (R : Runtime) (c : Chunk) (n : Nat) : List TraceLog :=
  match processFailedTxs R c.trace (c.batchTime n) (failedHashes (c.receipts n)) with
  | .ok rows => rows.1
  | .error _ => []

theorem hashed_traces : HashedBy R abi c Stmt.traceRows TraceLog.txHash (tracesAt R c) where
  batch n _ s hs := by
    cases hs with
    | traces hp =>
      refine .inr ?_
      have : processFailedTxs R c.trace (c.batchTime n) (failedHashes (c.receipts n)) = .ok _ := hp
      rw [tracesAt, this]
      rfl
    | _ => exact .inl rfl
  hash n _ t ht := by
    unfold tracesAt at ht
    split at ht
    · rename_i rows hp
      rw [(processFailedTxs_ok R hp).1] at ht
      obtain ⟨x, hx, htx⟩ := List.mem_flatMap.mp ht
      obtain ⟨r, hr, rfl⟩ := List.mem_map.mp hx
      obtain ⟨fr, -, rfl⟩ := List.mem_map.mp htx
      exact ⟨r, (List.mem_filter.mp hr).1, rfl⟩
    · cases ht

end Chunk

/-- A complete run over the heights from `f`. -/
def CompleteFrom (R : Runtime) (abi : Abi) (c : Chunk) (f : Int) (env : Env) (ss : List Stmt)
    (db db' : Db) : Prop :=
  (∃ rest, Interleaving (c.tasksFrom R abi f) ss rest ∧ rest.flatten = []) ∧
  execAll env ss db = (db', none)

/-- A database that the heights of the chunk from `f` are not in: no block from `f`, and
none of their transactions in a block below. -/
structure Below (c : Chunk) (f : Int) (db : Db) : Prop where
  foreignKeys : db.ForeignKeys
  blocks : ∀ b ∈ db.blocks.rows, b.blockNumber < f
  transactions : ∀ n ∈ c.heights, f ≤ asI64 n → ∀ h, c.HashOf n h → db.hasTransaction h = false

section Reindex
variable {R : Runtime} {abi : Abi} {c : Chunk} {f : Int} {env₁ env₂ : Env} {ss₁ ss₂ : List Stmt}
  {db₀ db₁ db₂ db₃ : Db} {deleted : Nat}

/-! ## What is rolled back -/

theorem transactions_get (h₁ : Complete R abi c env₁ ss₁ db₀ db₁) (h : String) :
    db₁.transactions.get h = (db₀.transactions.get h).or
      (ss₁.findSome? fun s => lookup Transaction.txHash h s.transactionRows) :=
  execAll_get Db.transactions Stmt.transactionRows (fun _ _ _ _ he => (exec_applied he).transactions)
    h₁.2 h

/-- What was there before is not rolled back. -/
theorem rolledBack_base (hbase : Below c f db₀) (h₁ : Complete R abi c env₁ ss₁ db₀ db₁) {h : String}
    (ht : db₀.hasTransaction h = true) : db₁.rolledBack f h = false := by
  obtain ⟨t, hget⟩ := Option.isSome_iff_exists.mp ht
  obtain ⟨b, hb⟩ := Option.isSome_iff_exists.mp
    (hbase.foreignKeys.transactionBlock t (Table.get_mem hget))
  have hlt := hbase.blocks b (Table.get_mem hb)
  rw [Table.get_key hb] at hlt
  rw [Db.rolledBack, transactions_get h₁, hget, Option.some_or, Option.any_some]
  exact decide_eq_false (not_le.mpr hlt)

/-- The rest of the transactions are those of the chunk, each at its height. -/
theorem rolledBack_iff (hbase : Below c f db₀) (h₁ : Complete R abi c env₁ ss₁ db₀ db₁) {h : String}
    (ht : db₁.hasTransaction h = true) :
    db₁.rolledBack f h = true ↔ ∃ n ∈ c.heights, f ≤ asI64 n ∧ c.HashOf n h := by
  obtain ⟨⟨rest, hi, hdone⟩, -⟩ := id h₁
  cases hget : db₀.transactions.get h with
  | some t =>
    have hin : db₀.hasTransaction h = true := by
      rw [Db.hasTransaction, hget]
      rfl
    rw [rolledBack_base hbase h₁ hin]
    refine ⟨fun hf => absurd hf (by decide), ?_⟩
    rintro ⟨n, hn, hle, hh⟩
    rw [hbase.transactions n hn hle h hh] at hin
    cases hin
  | none =>
    obtain ⟨t, hget₁⟩ := Option.isSome_iff_exists.mp ht
    have hsent := hget₁
    rw [transactions_get h₁, hget, Option.none_or] at hsent
    obtain ⟨s, hs, hl⟩ := List.exists_of_findSome?_eq_some hsent
    obtain ⟨n, hn, hs⟩ := (Chunk.mem_tasks R abi).mp ((hi.complete hdone).mem_iff.mp hs)
    have hh := (Chunk.hashed_transactions R abi).hashOf R abi hn hs (lookup_mem _ hl)
    rw [lookup_key _ hl] at hh
    rw [Db.rolledBack, hget₁, Option.any_some, decide_eq_true_eq,
      Chunk.blockNumber_of_mem R abi hs (lookup_mem _ hl)]
    constructor
    · exact fun hle => ⟨n, hn, hle, hh⟩
    · rintro ⟨m, hm, hle, hh'⟩
      rwa [Chunk.hashOf_unique hn hm hh hh']

theorem hasTransaction_of_rolledBack {db : Db} {h : String} (hr : db.rolledBack f h = true) :
    db.hasTransaction h = true := by
  unfold Db.rolledBack at hr
  unfold Db.hasTransaction
  cases hget : db.transactions.get h with
  | none =>
    rw [hget] at hr
    cases hr
  | some t => rfl

/-- A row of the chunk under a rolled back hash comes from a height from `f`. -/
theorem height_of_rolledBack (hbase : Below c f db₀) (h₁ : Complete R abi c env₁ ss₁ db₀ db₁)
    {h : String} (hr : db₁.rolledBack f h = true) {n : Nat} (hn : n ∈ c.heights)
    (hh : c.HashOf n h) : f ≤ asI64 n := by
  obtain ⟨m, hm, hle, hh'⟩ := (rolledBack_iff hbase h₁ (hasTransaction_of_rolledBack hr)).mp hr
  rwa [Chunk.hashOf_unique hn hm hh hh']

/-! ## Keyed tables -/

theorem findSome?_none_reindexed {α : Type} {W : Stmt → Option α}
    (h₁ : Complete R abi c env₁ ss₁ db₀ db₁) (h₂ : CompleteFrom R abi c f env₂ ss₂ db₂ db₃)
    (hnone : ss₁.findSome? W = none) : ss₂.findSome? W = none := by
  obtain ⟨⟨rest₁, hi₁, hd₁⟩, -⟩ := h₁
  obtain ⟨⟨rest₂, hi₂, hd₂⟩, -⟩ := h₂
  rw [List.findSome?_eq_none_iff] at hnone ⊢
  exact fun s hs => hnone s ((hi₁.complete hd₁).mem_iff.mpr (Chunk.tasksFrom_subset R abi
    ((hi₂.complete hd₂).mem_iff.mp hs)))

/-- What only heights from `f` write is written again. -/
theorem findSome?_reindexed {α : Type} {W : Stmt → Option α}
    (hagree : Agree W (c.tasks R abi).flatten) (h₁ : Complete R abi c env₁ ss₁ db₀ db₁)
    (h₂ : CompleteFrom R abi c f env₂ ss₂ db₂ db₃)
    (hfrom : ∀ n ∈ c.heights, ∀ s ∈ (processBlock R abi n (c.answers n)).stmts, ∀ a, W s = some a →
      f ≤ asI64 n) : ss₂.findSome? W = ss₁.findSome? W := by
  cases hf : ss₁.findSome? W with
  | none => exact findSome?_none_reindexed h₁ h₂ hf
  | some a =>
    obtain ⟨⟨rest₁, hi₁, hd₁⟩, -⟩ := h₁
    obtain ⟨⟨rest₂, hi₂, hd₂⟩, -⟩ := h₂
    obtain ⟨s, hs, ha⟩ := List.exists_of_findSome?_eq_some hf
    obtain ⟨n, hn, hs⟩ := (Chunk.mem_tasks R abi).mp ((hi₁.complete hd₁).mem_iff.mp hs)
    have hs₂ : s ∈ ss₂ := (hi₂.complete hd₂).mem_iff.mpr
      ((Chunk.mem_tasksFrom R abi).mpr ⟨n, hn, hfrom n hn s hs a ha, hs⟩)
    exact findSome?_of_agree hagree
      (List.Subset.trans (hi₂.complete hd₂).subset (Chunk.tasksFrom_subset R abi)) hs₂ ha

/-- A keyed table comes back. `gone` are the keys the rollback deletes. -/
theorem get_reindexed {α κ : Type} [DecidableEq κ] {key : α → κ} (T : Db → Table key)
    (rows : Stmt → List α)
    (hstep : ∀ env s db db', exec env s db = .ok db' → T db' = (T db).insertNew (rows s))
    (hagree : ∀ k, Agree (fun s => lookup key k (rows s)) (c.tasks R abi).flatten)
    (gone : κ → Bool)
    (hdelete : ∀ k, (T db₂).get k = if gone k = true then none else (T db₁).get k)
    (hbase : ∀ k, gone k = true → (T db₀).get k = none)
    (hfrom : ∀ k, gone k = true → ∀ n ∈ c.heights,
      ∀ s ∈ (processBlock R abi n (c.answers n)).stmts, ∀ r, lookup key k (rows s) = some r →
        f ≤ asI64 n)
    (h₁ : Complete R abi c env₁ ss₁ db₀ db₁) (h₂ : CompleteFrom R abi c f env₂ ss₂ db₂ db₃) (k : κ) :
    (T db₃).get k = (T db₁).get k := by
  have hget₁ := execAll_get T rows hstep h₁.2 k
  rw [execAll_get T rows hstep h₂.2, hdelete]
  by_cases hg : gone k = true
  · rw [if_pos hg, Option.none_or, findSome?_reindexed (hagree k) h₁ h₂ (hfrom k hg), hget₁,
      hbase k hg, Option.none_or]
  · rw [if_neg hg]
    cases hone : (T db₁).get k with
    | some r => rfl
    | none =>
      rw [hget₁, Option.or_eq_none_iff] at hone
      exact findSome?_none_reindexed h₁ h₂ hone.2

/-- An event table: its rows hang on their transaction. -/
theorem get_reindexed_events {α κ : Type} [DecidableEq κ] {key : α → κ} (T : Db → Table key)
    (rows : Stmt → List α) (hash : κ → String) {batchOf : Nat → List α}
    (hstep : ∀ env s db db', exec env s db = .ok db' → T db' = (T db).insertNew (rows s))
    (hhashed : Chunk.HashedBy R abi c rows (fun a => hash (key a)) batchOf)
    (hdelete : T db₂ = (T db₁).filter fun r => !db₁.rolledBack f (hash (key r)))
    (hfk : ∀ r ∈ (T db₀).rows, db₀.hasTransaction (hash (key r)) = true)
    (hbase : Below c f db₀) (h₁ : Complete R abi c env₁ ss₁ db₀ db₁)
    (h₂ : CompleteFrom R abi c f env₂ ss₂ db₂ db₃) (k : κ) : (T db₃).get k = (T db₁).get k := by
  refine get_reindexed T rows hstep (hhashed.agree R abi hash) (fun k => db₁.rolledBack f (hash k))
    (fun k => ?_) (fun k hr => ?_) (fun k hr n hn s hs r hl => ?_) h₁ h₂ k
  · rw [hdelete, Table.get_filter]
    cases hget : (T db₁).get k with
    | none => simp
    | some r =>
      rw [Option.filter_some, Table.get_key hget]
      cases db₁.rolledBack f (hash k) <;> rfl
  · refine Table.get_eq_none.mpr fun r hr' he => ?_
    have hin := hfk r hr'
    rw [he] at hin
    rw [rolledBack_base hbase h₁ hin] at hr
    cases hr
  · have hh := hhashed.hashOf R abi hn hs (lookup_mem _ hl)
    simp only [lookup_key _ hl] at hh
    exact height_of_rolledBack hbase h₁ hr hn hh

section Tables
variable (hbase : Below c f db₀) (h₁ : Complete R abi c env₁ ss₁ db₀ db₁)
  (hr : rollbackFromBlock f db₁ = .ok (db₂, deleted))
  (h₂ : CompleteFrom R abi c f env₂ ss₂ db₂ db₃)
include hbase h₁ hr h₂

theorem blocks_reindexed (n : Int) : db₃.blocks.get n = db₁.blocks.get n := by
  refine get_reindexed Db.blocks Stmt.blockRows (fun _ _ _ _ he => (exec_applied he).blocks)
    (Chunk.agree_blocks R abi) (fun n => decide (f ≤ n)) (fun n => ?_) (fun n hn => ?_)
    (fun n hn m hm s hs b hl => ?_) h₁ h₂ n
  · rw [rollbackFromBlock_eq hr, Table.get_filter]
    cases hget : db₁.blocks.get n with
    | none => simp
    | some b =>
      have hkey := Table.get_key hget
      rw [Option.filter_some, hkey]
      by_cases hle : f ≤ n
      · simp [hle, not_lt.mpr hle]
      · simp [hle, not_le.mp hle]
  · refine Table.get_eq_none.mpr fun b hb he => ?_
    have := hbase.blocks b hb
    have := of_decide_eq_true hn
    omega
  · have hle := of_decide_eq_true hn
    have hkey := lookup_key _ hl
    have hmem := lookup_mem _ hl
    cases Chunk.sends_of_mem R abi hs <;> simp only [Stmt.blockRows, List.not_mem_nil] at hmem
    rw [List.mem_singleton.mp hmem, blockRow_blockNumber] at hkey
    rwa [hkey]

theorem transactions_reindexed (h : String) :
    db₃.transactions.get h = db₁.transactions.get h := by
  refine get_reindexed Db.transactions Stmt.transactionRows
    (fun _ _ _ _ he => (exec_applied he).transactions) (Chunk.agree_transactions R abi)
    (fun h => db₁.rolledBack f h) (fun h => ?_) (fun h hroll => ?_) (fun h hroll n hn s hs t hl => ?_)
    h₁ h₂ h
  · rw [rollbackFromBlock_eq hr, Table.get_filter, Db.rolledBack]
    cases hget : db₁.transactions.get h with
    | none => rfl
    | some t =>
      rw [Option.filter_some, Option.any_some]
      by_cases hle : f ≤ t.blockNumber
      · simp [hle, not_lt.mpr hle]
      · simp [hle, not_le.mp hle]
  · refine Option.not_isSome_iff_eq_none.mp fun hin => ?_
    rw [rolledBack_base hbase h₁ hin] at hroll
    cases hroll
  · have hh := (Chunk.hashed_transactions R abi).hashOf R abi hn hs (lookup_mem _ hl)
    rw [lookup_key _ hl] at hh
    exact height_of_rolledBack hbase h₁ hroll hn hh

/-- Failure records, the trigger's stubs among them. -/
theorem failed_reindexed (ht : env₂.triggers = env₁.triggers) (h : String) :
    db₃.failedTransactions.get h = db₁.failedTransactions.get h := by
  have htx := transactions_reindexed hbase h₁ hr h₂
  have hbl := blocks_reindexed hbase h₁ hr h₂
  have hfk₂ := rollback_foreignKeys hr (execAll_foreignKeys h₁.2 hbase.foreignKeys)
  have hR₁ := (Replayed.start env₁.triggers hbase.foreignKeys).run h₁.2
  have hR₃ := (Replayed.start env₂.triggers hfk₂).run h₂.2
  rw [List.nil_append] at hR₁ hR₃
  have hdelete : db₂.failedTransactions.get h =
      (db₁.failedTransactions.get h).filter fun f' => !db₁.rolledBack f f'.txHash := by
    rw [rollbackFromBlock_eq hr]
    exact Table.get_filter _ _ _
  have hin₂ := rollback_hasTransaction hr h
  cases hget : db₁.transactions.get h with
  | none =>
    rw [(hR₁.absent h hget).2.1, (hR₃.absent h ((htx h).trans hget)).2.1]
  | some t =>
    have hin₁ : db₁.hasTransaction h = true := by
      rw [Db.hasTransaction, hget]
      rfl
    have hf₁ := hR₁.failed h
    rw [hin₁, Bool.true_and] at hin₂
    rw [hR₃.failed h]
    cases hroll : db₁.rolledBack f h with
    | false =>
      -- the transaction stays, so it owes no stub, and its record stays too
      rw [hroll, Bool.not_false] at hin₂
      have hsame : db₂.failedTransactions.get h = db₁.failedTransactions.get h := by
        rw [hdelete]
        cases hrec : db₁.failedTransactions.get h with
        | none => rfl
        | some r => rw [Option.filter_some, Table.get_key hrec, hroll, Bool.not_false, if_pos rfl]
      have howed : owedStub env₂.triggers db₂ db₃ h = none := by
        rw [owedStub, hin₂]
        simp
      rw [howed, Option.none_or, hsame]
      cases hrec : db₁.failedTransactions.get h with
      | some r => rfl
      | none =>
        rw [hrec, eq_comm, Option.or_eq_none_iff, Option.or_eq_none_iff] at hf₁
        exact findSome?_none_reindexed h₁ h₂ hf₁.2.2
    | true =>
      -- it was new to the chunk, and is new again
      rw [hroll, Bool.not_true] at hin₂
      have hin₀ : db₀.hasTransaction h = false := by
        rw [← Bool.not_eq_true]
        intro hin
        rw [rolledBack_base hbase h₁ hin] at hroll
        cases hroll
      have hnone₂ : db₂.failedTransactions.get h = none :=
        Table.get_eq_none.mpr fun r hr' he => by
          have := hfk₂.failedTx r hr'
          rw [he, hin₂] at this
          cases this
      have hnone₀ : db₀.failedTransactions.get h = none :=
        Table.get_eq_none.mpr fun r hr' he => by
          have := hbase.foreignKeys.failedTx r hr'
          rw [he, hin₀] at this
          cases this
      have howed : owedStub env₂.triggers db₂ db₃ h = owedStub env₁.triggers db₀ db₁ h := by
        rw [owedStub, owedStub, hin₂, hin₀, ht, htx h, hget, Option.bind_some, Option.bind_some,
          failedStub_congr (hbl t.blockNumber)]
      have hsent := findSome?_reindexed (Chunk.agree_failed R abi h) h₁ h₂ fun n hn s hs r hl => by
        have hh := (Chunk.hashed_failed R abi).hashOf R abi hn hs (lookup_mem _ hl)
        rw [lookup_key _ hl] at hh
        exact height_of_rolledBack hbase h₁ hroll hn hh
      rw [howed, hnone₂, hsent, hf₁, hnone₀]

/-- Trace rows have no key: those of the heights from `f` are deleted and sent again. -/
theorem traces_reindexed : (tracesOf db₃).Perm (tracesOf db₁) := by
  have hfk₁ := execAll_foreignKeys h₁.2 hbase.foreignKeys
  let keep (t : TraceLog) : Bool := !db₁.rolledBack f t.txHash
  have htr₁ : (tracesOf db₁).Perm (tracesOf db₀ ++ (sentTraces (c.tasksFrom R abi f).flatten ++
      sentTraces (c.tasksBelow R abi f).flatten)) := by
    obtain ⟨⟨rest, hi, hdone⟩, he⟩ := h₁
    rw [execAll_traces he, ← sentTraces_append]
    exact (((hi.complete hdone).trans (Chunk.tasks_perm R abi f).symm).flatMap_right _).append_left _
  have htr₂ : tracesOf db₂ = (tracesOf db₁).filter keep := by
    rw [rollbackFromBlock_eq hr, tracesOf, tracesOf, List.filter_map]
    rfl
  have htr₃ : (tracesOf db₃).Perm (tracesOf db₂ ++ sentTraces (c.tasksFrom R abi f).flatten) := by
    obtain ⟨⟨rest, hi, hdone⟩, he⟩ := h₂
    rw [execAll_traces he]
    exact ((hi.complete hdone).flatMap_right _).append_left _
  have hkept₀ : (tracesOf db₀).filter keep = tracesOf db₀ := by
    refine List.filter_eq_self.mpr fun t ht => ?_
    obtain ⟨t', ht', rfl⟩ := List.mem_map.mp ht
    have hstay := rolledBack_base hbase h₁ (hbase.foreignKeys.traceTx t' ht')
    simp only [keep, TraceLog.withId, hstay, Bool.not_false]
  have hkept : (sentTraces (c.tasksBelow R abi f).flatten).filter keep =
      sentTraces (c.tasksBelow R abi f).flatten := by
    refine List.filter_eq_self.mpr fun t ht => ?_
    obtain ⟨s, hs, t', ht', he⟩ := mem_sentTraces ht
    obtain ⟨n, hn, hlt, hs⟩ := (Chunk.mem_tasksBelow R abi).mp hs
    have hh := (Chunk.hashed_traces R abi).hashOf R abi hn hs ht'
    have hstay : db₁.rolledBack f t.txHash = false := by
      rw [he, ← Bool.not_eq_true]
      exact fun hroll => hlt (height_of_rolledBack hbase h₁ hroll hn hh)
    simp only [keep, hstay, Bool.not_false]
  have hgone : (sentTraces (c.tasksFrom R abi f).flatten).filter keep = [] := by
    refine List.filter_eq_nil_iff.mpr fun t ht => ?_
    obtain ⟨s, hs, t', ht', he⟩ := mem_sentTraces ht
    obtain ⟨n, hn, hle, hs⟩ := (Chunk.mem_tasksFrom R abi).mp hs
    have hh := (Chunk.hashed_traces R abi).hashOf R abi hn hs ht'
    have hin : db₁.hasTransaction t.txHash = true := by
      obtain ⟨r, hr', rfl⟩ := List.mem_map.mp
        (htr₁.mem_iff.mpr (List.mem_append_right _ (List.mem_append_left _ ht)))
      exact hfk₁.traceTx r hr'
    have hroll : db₁.rolledBack f t.txHash = true :=
      (rolledBack_iff hbase h₁ hin).mpr ⟨n, hn, hle, he ▸ hh⟩
    simp only [keep, hroll, Bool.not_true, Bool.false_eq_true, not_false_eq_true]
  have hfilter := htr₁.filter keep
  rw [List.filter_append, List.filter_append, hkept₀, hkept, hgone, List.nil_append, ← htr₂]
    at hfilter
  refine htr₃.trans ((hfilter.append_right _).trans (.trans ?_ htr₁.symm))
  rw [List.append_assoc]
  exact List.perm_append_comm.append_left _

/-- The indexed tables come back. -/
theorem sameRows_reindexed (ht : env₂.triggers = env₁.triggers) : SameRows db₃ db₁ := by
  have heq := rollbackFromBlock_eq hr
  refine { blocks := ?_, transactions := ?_, swapEvents := ?_, liquidityEvents := ?_,
           tokenTransfers := ?_, failedTransactions := ?_, traces := ?_ }
  · exact Table.perm_of_get (blocks_reindexed hbase h₁ hr h₂)
  · exact Table.perm_of_get (transactions_reindexed hbase h₁ hr h₂)
  · exact Table.perm_of_get (get_reindexed_events Db.swapEvents Stmt.swapRows Prod.fst
      (fun _ _ _ _ he => (exec_applied he).swapEvents) (Chunk.hashed_swaps R abi) (by rw [heq]; rfl)
      hbase.foreignKeys.swapTx hbase h₁ h₂)
  · exact Table.perm_of_get (get_reindexed_events Db.liquidityEvents Stmt.liquidityRows
      Prod.fst (fun _ _ _ _ he => (exec_applied he).liquidityEvents)
      (Chunk.hashed_liquidity R abi) (by rw [heq]; rfl) hbase.foreignKeys.liquidityTx hbase h₁ h₂)
  · exact Table.perm_of_get (get_reindexed_events Db.tokenTransfers Stmt.transferRows
      Prod.fst (fun _ _ _ _ he => (exec_applied he).tokenTransfers)
      (Chunk.hashed_transfers R abi) (by rw [heq]; rfl) hbase.foreignKeys.transferTx hbase h₁ h₂)
  · exact Table.perm_of_get fun h => failed_reindexed hbase h₁ hr h₂ ht h
  · exact traces_reindexed hbase h₁ hr h₂

end Tables

/-! ## Derived tables -/

/-- What is put back into a table are the rows that were taken out. -/
theorem news_perm_deleted {α κ : Type} [DecidableEq κ] {key : α → κ} {t t₂ : Table key}
    {gone : α → Bool} {rows : List α} (hdelete : t₂ = t.filter fun r => !gone r)
    (h : (t₂.insertNew rows).rows.Perm t.rows) : (t₂.news rows).Perm (t.rows.filter gone) := by
  have hrows : t₂.rows = t.rows.filter fun r => !gone r := by
    rw [hdelete]
    rfl
  rw [Table.rows_insertNew] at h
  refine (List.perm_append_left_iff t₂.rows).mp (h.trans ?_)
  rw [hrows]
  exact (List.filter_append_perm gone t.rows).symm.trans List.perm_append_comm

theorem touch_snd_nonneg {a : String} {e : SwapEvent} {t : Int × Int} (h : touch a e = some t) :
    0 ≤ t.2 := by
  unfold touch at h
  split at h
  · cases h
    exact Int.zero_le_ofNat 1
  · split at h <;> cases h
    exact le_refl 0

/-- A swap counts: the sender's profile is not what it was. -/
theorem foldl_updateUserProfile_ne {es : List SwapEvent} {ps : Table UserProfile.userAddress}
    {e : SwapEvent} (he : e ∈ es) : (es.foldl updateUserProfile ps).get e.sender ≠ ps.get e.sender := by
  rw [get_foldl_updateUserProfile]
  have hmem : ((e.timestamp, 1) : Int × Int) ∈ es.filterMap (touch e.sender) :=
    List.mem_filterMap.mpr ⟨e, he, if_pos rfl⟩
  have hsum : 0 < ((es.filterMap (touch e.sender)).map Prod.snd).sum := by
    have hnonneg : ∀ n ∈ (es.filterMap (touch e.sender)).map Prod.snd, 0 ≤ n := by
      intro n hn
      obtain ⟨t, ht, rfl⟩ := List.mem_map.mp hn
      obtain ⟨e', -, he'⟩ := List.mem_filterMap.mp ht
      exact touch_snd_nonneg he'
    exact lt_of_lt_of_le Int.zero_lt_one
      (List.single_le_sum hnonneg _ (List.mem_map_of_mem hmem))
  intro h
  cases hp : ps.get e.sender with
  | none =>
    rw [hp] at h
    unfold profileAfter at h
    split at h
    · rename_i hnil
      rw [hnil] at hmem
      cases hmem
    · cases h
  | some p =>
    rw [hp, profileAfter_some, Option.some.injEq] at h
    have := congrArg UserProfile.totalSwaps h
    rw [foldl_seen_totalSwaps] at this
    omega

section Derived
variable (hr : rollbackFromBlock f db₁ = .ok (db₂, deleted))
  (he : execAll env₂ ss₂ db₂ = (db₃, none)) (hrows : SameRows db₃ db₁)
include hr he hrows

theorem newSwaps_reindexed : (newSwaps db₂ ss₂).Perm
    (db₁.swapEvents.rows.filter fun e => db₁.rolledBack f e.txHash) := by
  refine news_perm_deleted (by rw [rollbackFromBlock_eq hr]; rfl) ?_
  rw [← execAll_insertNew Db.swapEvents Stmt.swapRows (fun _ _ _ _ he => (exec_applied he).swapEvents) he]
  exact hrows.swapEvents

theorem newLiquidity_reindexed : (newLiquidity db₂ ss₂).Perm
    (db₁.liquidityEvents.rows.filter fun e => db₁.rolledBack f e.txHash) := by
  refine news_perm_deleted (by rw [rollbackFromBlock_eq hr]; rfl) ?_
  rw [← execAll_insertNew Db.liquidityEvents Stmt.liquidityRows
    (fun _ _ _ _ he => (exec_applied he).liquidityEvents) he]
  exact hrows.liquidityEvents

/-- The profiles are as before iff no swap was deleted. -/
theorem userProfiles_reindexed_iff (htrig : env₂.triggers = true) :
    db₃.userProfiles.rows.Perm db₁.userProfiles.rows ↔
      ∀ e ∈ db₁.swapEvents.rows, db₁.rolledBack f e.txHash = false := by
  have hps : db₂.userProfiles = db₁.userProfiles := by
    rw [rollbackFromBlock_eq hr]
    rfl
  rw [execAll_userProfiles he, htrig, if_pos rfl, hps]
  have hnew := newSwaps_reindexed hr he hrows
  constructor
  · intro hp e hmem
    rw [← Bool.not_eq_true]
    intro hroll
    exact foldl_updateUserProfile_ne (hnew.mem_iff.mpr (List.mem_filter.mpr ⟨hmem, hroll⟩))
      (Table.get_of_perm hp e.sender)
  · intro hnone
    have hnil : newSwaps db₂ ss₂ = [] := by
      refine List.Perm.eq_nil (hnew.trans (List.Perm.of_eq ?_))
      exact List.filter_eq_nil_iff.mpr fun e hmem => by simp [hnone e hmem]
    rw [hnil]
    exact .refl _

/-- The audit log is as before iff no audited event was deleted. -/
theorem auditLogs_reindexed_iff (htrig : env₂.triggers = true) :
    db₃.auditLogs.Perm db₁.auditLogs ↔
      ∀ e ∈ db₁.liquidityEvents.rows, db₁.rolledBack f e.txHash = true → auditEvent e = none := by
  have hlogs : db₂.auditLogs = db₁.auditLogs := by
    rw [rollbackFromBlock_eq hr]
    rfl
  rw [execAll_auditLogs he, htrig, if_pos rfl, hlogs]
  have hnew := newLiquidity_reindexed hr he hrows
  have hnil : (newLiquidity db₂ ss₂).filterMap auditEvent = [] ↔
      ∀ e ∈ db₁.liquidityEvents.rows, db₁.rolledBack f e.txHash = true → auditEvent e = none := by
    rw [List.filterMap_eq_nil_iff]
    simp only [hnew.mem_iff, List.mem_filter, and_imp]
  rw [← hnil]
  constructor
  · intro hp
    have := hp.length_eq
    rw [List.length_append] at this
    exact List.length_eq_zero_iff.mp (by omega)
  · intro h
    rw [h, List.append_nil]

end Derived

/-- **Rollback and re-indexing.** From every state that one complete run of a chunk leaves, in
any interleaving and on any database that did not have the heights from `f`, and for every `f`:
rolling back from `f` and indexing the same blocks again, once and to completion, gives the
same indexed tables, surrogate ids apart; and the same derived tables iff the triggers are not
installed or the rollback deletes no swap and no liquidity event that is audited. -/
theorem reindex_neutral_iff (hbase : Below c f db₀) (ht : env₂.triggers = env₁.triggers)
    (h₁ : Complete R abi c env₁ ss₁ db₀ db₁) (hr : rollbackFromBlock f db₁ = .ok (db₂, deleted))
    (h₂ : CompleteFrom R abi c f env₂ ss₂ db₂ db₃) :
    SameRows db₃ db₁ ∧
    (db₃.userProfiles.rows.Perm db₁.userProfiles.rows ∧ db₃.auditLogs.Perm db₁.auditLogs ↔
      (env₁.triggers = true →
        (∀ e ∈ db₁.swapEvents.rows, db₁.rolledBack f e.txHash = false) ∧
        ∀ e ∈ db₁.liquidityEvents.rows, db₁.rolledBack f e.txHash = true → auditEvent e = none)) := by
  have hrows := sameRows_reindexed hbase h₁ hr h₂ ht
  refine ⟨hrows, ?_⟩
  cases htrig : env₂.triggers with
  | true =>
    rw [userProfiles_reindexed_iff hr h₂.2 hrows htrig, auditLogs_reindexed_iff hr h₂.2 hrows htrig,
      ← ht, htrig]
    simp
  | false =>
    have heq := rollbackFromBlock_eq hr
    rw [execAll_userProfiles h₂.2, execAll_auditLogs h₂.2, htrig, ← ht, htrig, heq]
    simp [deleteDependents]

end Reindex

/-- The database after a rollback. -/
def rolledBackTo (f : Int) (db : Db) : Db :=
  match rollbackFromBlock f db with
  | .ok (db', _) => db'
  | .error _ => db

theorem rolledBackTo_ok (f : Int) (db : Db) :
    ∃ deleted, rollbackFromBlock f db = .ok (rolledBackTo f db, deleted) := by
  unfold rolledBackTo
  obtain ⟨db', deleted, h⟩ := rollbackFromBlock_total f db
  rw [h]
  exact ⟨deleted, rfl⟩

/-- Block 2 of the two blocks with a swap is rolled back. -/
def swapRolledBack : Db := rolledBackTo 2 (storedOn Db.empty (swapStmts 1 ++ swapStmts 2))

def swapReindexed : Db := storedOn swapRolledBack (swapStmts 2)

/-- The second run succeeds, and counts the swap of block 2 a second time. -/
theorem swapReindexed_totals : (execAll liveEnv (swapStmts 2) swapRolledBack).2 = none ∧
    (storedOn Db.empty (swapStmts 1 ++ swapStmts 2)).userProfiles.rows.map UserProfile.totalSwaps = [2] ∧
    swapReindexed.userProfiles.rows.map UserProfile.totalSwaps = [3] := by
  decide +kernel

theorem swapReindexed_complete : CompleteFrom (.asciiOnly true) wordAbi swapChunk 2 liveEnv
    (swapStmts 2) swapRolledBack swapReindexed := by
  refine ⟨⟨[[]], ?_, rfl⟩, ?_⟩
  · have hheights : (swapChunk.heights.filter fun n => decide (2 ≤ asI64 n)) = [2] := by decide
    have hall := Interleaving.single (swapStmts 2) []
    rw [List.append_nil] at hall
    rw [Chunk.tasksFrom, hheights]
    exact hall
  · exact storedOn_run swapReindexed_totals.1

theorem empty_below (c : Chunk) (f : Int) : Below c f Db.empty where
  foreignKeys := empty_foreignKeys
  blocks _ h := nomatch h
  transactions _ _ _ _ _ := rfl

theorem swapReindexed_iff : SameRows swapReindexed (storedOn Db.empty (swapStmts 1 ++ swapStmts 2)) ∧
    (swapReindexed.userProfiles.rows.Perm
        (storedOn Db.empty (swapStmts 1 ++ swapStmts 2)).userProfiles.rows ∧
      swapReindexed.auditLogs.Perm (storedOn Db.empty (swapStmts 1 ++ swapStmts 2)).auditLogs ↔
      (liveEnv.triggers = true →
        (∀ e ∈ (storedOn Db.empty (swapStmts 1 ++ swapStmts 2)).swapEvents.rows,
          (storedOn Db.empty (swapStmts 1 ++ swapStmts 2)).rolledBack 2 e.txHash = false) ∧
        ∀ e ∈ (storedOn Db.empty (swapStmts 1 ++ swapStmts 2)).liquidityEvents.rows,
          (storedOn Db.empty (swapStmts 1 ++ swapStmts 2)).rolledBack 2 e.txHash = true →
            auditEvent e = none)) := by
  obtain ⟨deleted, hr⟩ := rolledBackTo_ok 2 (storedOn Db.empty (swapStmts 1 ++ swapStmts 2))
  exact reindex_neutral_iff (empty_below _ _) rfl ascending_complete hr swapReindexed_complete

/-- After a reorg that changes nothing the profile says three swaps instead of two. -/
theorem swap_counted_twice :
    ¬ ∀ (R : Runtime) (abi : Abi) (c : Chunk) (f : Int) (env : Env) (ss₁ ss₂ : List Stmt)
      (db₀ db₁ db₂ db₃ : Db) (deleted : Nat), Below c f db₀ → Complete R abi c env ss₁ db₀ db₁ →
      rollbackFromBlock f db₁ = .ok (db₂, deleted) → CompleteFrom R abi c f env ss₂ db₂ db₃ →
      SameTables db₃ db₁ := by
  intro h
  obtain ⟨deleted, hr⟩ := rolledBackTo_ok 2 (storedOn Db.empty (swapStmts 1 ++ swapStmts 2))
  have hsame := h (.asciiOnly true) wordAbi swapChunk 2 liveEnv _ _ Db.empty _ _ _ deleted
    (empty_below _ _) ascending_complete hr swapReindexed_complete
  have htotals := hsame.userProfiles.map UserProfile.totalSwaps
  rw [swapReindexed_totals.2.1, swapReindexed_totals.2.2] at htotals
  exact absurd htotals (by decide)

end Amarillo.L3
