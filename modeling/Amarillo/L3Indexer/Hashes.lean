import Amarillo.L2Db.Labels
import Amarillo.L2Db.Rollback
import Amarillo.L3Indexer.FailedStub
import Amarillo.L3Indexer.Follow

/-!
# The writes of the indexer (`worker.rs`, `queries.rs`)

`writes` is the system of one database with every write the indexer makes, in any order and
from any number of processes: a statement of some call of `process_block`, a rollback, a
checkpoint. The follow loop is one way to make them (`follow_writes`).

A hash comes into the tables with a row of `transaction` only, and there it is the rendering of
the 32 bytes of a receipt (`transactionRow`). The other tables refer to that row.

* `writes_hex`: in every reachable state each hash of each table is the rendering of 32 bytes.
* `stored_lower`: so it is its own lowercase form.
-/
namespace Amarillo.L3
open Amarillo.Core Amarillo.L1 Amarillo.L2

inductive Write where
  | stmt (env : Env) (blockNumber : Nat) (a : Answers) (s : Stmt)
  | rollback (fromBlock : Int)
  | checkpoint (lastProcessedBlock : Int)

section Writes
variable (R : Runtime) (abi : Abi)

def writeStep (db : Db) : Write → Db → Prop
  | .stmt env blockNumber a s, db' =>
    s ∈ (processBlock R abi blockNumber a).stmts ∧ exec env s db = .ok db'
  | .rollback fromBlock, db' => ∃ deleted, rollbackFromBlock fromBlock db = .ok (db', deleted)
  | .checkpoint lastProcessedBlock, db' => db' = updateCheckpoint lastProcessedBlock db

/-- The writes of the indexer on an empty database. -/
def writes : LTS Db Write where
  init db := db = Db.empty
  step := writeStep R abi

variable {R abi} {db db' : Db}

theorem writes_empty : (writes R abi).Reachable Db.empty := ⟨Db.empty, [], rfl, .nil _⟩

theorem writes_step {w : Write} (hr : (writes R abi).Reachable db) (h : writeStep R abi db w db') :
    (writes R abi).Reachable db' := by
  obtain ⟨db₀, ws, h0, hrun⟩ := hr
  exact ⟨db₀, ws ++ [w], h0, hrun.append (.cons h (.nil db'))⟩

/-- A call of `process_block` leaves a reachable state, whatever becomes of it. -/
theorem writes_run (hr : (writes R abi).Reachable db) (env : Env) (blockNumber : Nat) (a : Answers) :
    (writes R abi).Reachable ((processBlock R abi blockNumber a).run env db).1 := by
  have hall : (writes R abi).Reachable (execAll env (processBlock R abi blockNumber a).stmts db).1 :=
    execAll_keeps (fun s hs d d' he hd => writes_step (w := .stmt env blockNumber a s) hd ⟨hs, he⟩) hr
  unfold Program.run
  split <;> rename_i h <;> rw [h] at hall <;> exact hall

end Writes

/-! ## The follow loop -/

section Follow
variable {net : Network} {R : Runtime} {abi : Abi} {s s' : Follow}

/-- What is left of a task was built from some answers for its height. -/
def Built (R : Runtime) (abi : Abi) (t : Task) : Prop :=
  ∀ p, t.prog = some p → ∃ a, ∀ stmt ∈ p.stmts, stmt ∈ (processBlock R abi t.height a).stmts

structure Written (R : Runtime) (abi : Abi) (s : Follow) : Prop where
  db : (writes R abi).Reachable s.db
  tasks : ∀ t ∈ s.pc.tasks, Built R abi t

theorem followStep_written {l : FollowLabel} (h : Written R abi s)
    (hs : followStep net R abi s l = some s') : Written R abi s' where
  db := by
    have hwrite := followStep_write hs
    generalize s'.db = db at hwrite ⊢
    cases hwrite with
    | kept _ => exact h.db
    | @exec i height env stmt stmts ending _ htask he =>
      obtain ⟨a, ha⟩ := h.tasks _ (List.mem_of_getElem? htask) _ rfl
      exact writes_step (w := .stmt env height a stmt) h.db ⟨ha _ List.mem_cons_self, he⟩
    | rollback hpc hr => exact writes_step (w := .rollback _) h.db ⟨_, hr⟩
    | commit last => exact writes_step (w := .checkpoint last) h.db rfl
  tasks t ht := by
    cases followStep_tasks hs ht with
    | kept hold => exact h.tasks t hold
    | spawned height => exact fun p hp => by cases hp
    | fetched height a =>
      intro p hp
      cases hp
      exact ⟨a, fun _ => id⟩
    | ran hold =>
      intro p hp
      cases hp
      obtain ⟨a, ha⟩ := h.tasks _ hold _ rfl
      exact ⟨a, fun s hs => ha s (List.mem_cons_of_mem _ hs)⟩

/-- Follow processes on an empty database only make writes of `writes`. -/
theorem follow_writes (h : (follow net R abi (· = Db.empty)).Reachable s) :
    (writes R abi).Reachable s.db := by
  refine (LTS.Inductive.reachable (I := Written R abi) ⟨?_, ?_⟩ s h).db
  · rintro s ⟨-, hdb, -, hpc⟩
    refine ⟨hdb ▸ writes_empty, ?_⟩
    rw [hpc]
    exact List.forall_mem_nil _
  · exact fun s l s' hs hstep => followStep_written hs hstep

end Follow

/-! ## Hashes -/

/-- The rendering of a hash. -/
def Hex (h : String) : Prop := ∃ b : B256, h = b.hex

theorem hex_lower {n : Nat} (b : FixedBytes n) : lower b.hex = b.hex := by
  have hdigits : ("0x".toList ++ "0123456789abcdef".toList).all (fun c => c.isUpper = false) = true := by
    decide
  rw [List.all_append, Bool.and_eq_true, List.all_eq_true, List.all_eq_true] at hdigits
  refine lower_eq_self_iff.mpr fun c hc => ?_
  rw [FixedBytes.hex, String.toList_append] at hc
  rcases List.mem_append.mp hc with hc | hc
  · exact of_decide_eq_true (hdigits.1 c hc)
  · exact of_decide_eq_true (hdigits.2 c (mem_bytesToHex hc))

section Hashes
variable {R : Runtime} {abi : Abi} {db db' : Db}

/-- Every transaction a call sends has the hash of a receipt. -/
theorem processBlock_hex {blockNumber : Nat} {a : Answers} {s : Stmt}
    (h : s ∈ (processBlock R abi blockNumber a).stmts) : ∀ t ∈ s.transactionRows, Hex t.txHash := by
  obtain ⟨block, receipts, -, -, hsends⟩ := mem_processBlock R h
  intro t ht
  cases hsends with
  | transactions =>
    change t ∈ transactionRows blockNumber (receipts.getD []) block.transactions at ht
    obtain ⟨i, hi, rfl⟩ := List.getElem_of_mem ht
    simp only [transactionRows, List.getElem_zipWith]
    exact ⟨_, rfl⟩
  | _ => cases ht

/-- Every transaction has a rendered hash, and what refers to a transaction refers to one
that is there. -/
structure HexInv (db : Db) : Prop where
  foreignKeys : db.ForeignKeys
  transactions : ∀ t ∈ db.transactions.rows, Hex t.txHash

theorem writeStep_hexInv {w : Write} (hi : HexInv db) (h : writeStep R abi db w db') : HexInv db' := by
  cases w with
  | stmt env blockNumber a s =>
    obtain ⟨hs, he⟩ := h
    refine ⟨exec_foreignKeys he hi.foreignKeys, fun t ht => ?_⟩
    rw [(exec_applied he).transactions] at ht
    rcases Table.mem_insertNew ht with ht | ht
    · exact hi.transactions t ht
    · exact processBlock_hex hs t ht
  | rollback fromBlock =>
    obtain ⟨deleted, hr⟩ := h
    refine ⟨rollback_foreignKeys hr hi.foreignKeys, fun t ht => ?_⟩
    rw [rollbackFromBlock_eq hr] at ht
    exact hi.transactions t (List.mem_filter.mp ht).1
  | checkpoint lastProcessedBlock =>
    cases h
    exact ⟨{ hi.foreignKeys with }, hi.transactions⟩

theorem writes_hexInv (h : (writes R abi).Reachable db) : HexInv db := by
  refine LTS.Inductive.reachable (T := writes R abi) ⟨?_, ?_⟩ db h
  · rintro db rfl
    exact ⟨empty_foreignKeys, List.forall_mem_nil _⟩
  · exact fun db w db' hi hstep => writeStep_hexInv hi hstep

theorem HexInv.hasTransaction (hi : HexInv db) {h : String} (ht : db.hasTransaction h = true) :
    Hex h := by
  obtain ⟨t, ht⟩ := Option.isSome_iff_exists.mp ht
  rw [← Table.get_key ht]
  exact hi.transactions t (Table.get_mem ht)

/-- **Every stored hash is a rendered one.** -/
theorem writes_hex (h : (writes R abi).Reachable db) :
    (∀ t ∈ db.transactions.rows, Hex t.txHash) ∧ ∀ txHash ∈ db.references, Hex txHash := by
  have hi := writes_hexInv h
  have hfk := hi.foreignKeys
  refine ⟨hi.transactions, fun txHash href => hi.hasTransaction ?_⟩
  rcases mem_references.mp href with ⟨e, he, rfl⟩ | ⟨e, he, rfl⟩ | ⟨e, he, rfl⟩ | ⟨e, he, rfl⟩ |
    ⟨e, he, rfl⟩
  · exact hfk.swapTx e he
  · exact hfk.liquidityTx e he
  · exact hfk.transferTx e he
  · exact hfk.traceTx e he
  · exact hfk.failedTx e he

/-- The hash of a stored failure is its own lowercase form. -/
theorem stored_lower (h : (writes R abi).Reachable db) {f : FailedTransaction}
    (hf : f ∈ db.failedTransactions.rows) : lower f.txHash = f.txHash := by
  obtain ⟨b, hb⟩ := (writes_hex h).2 f.txHash
    (mem_references.mpr (.inr (.inr (.inr (.inr ⟨f, hf, rfl⟩)))))
  rw [hb, hex_lower]

end Hashes
end Amarillo.L3
