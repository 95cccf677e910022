import Mathlib
import Amarillo.L3Indexer.ProcessBlock

/-!
# The node behind the RPC

A block is known by its hash, and the hash fixes everything about it: header,
transactions, receipts and call traces (`Network`). A chain is the list of its
block hashes, genesis first, so the position in the list is the block number;
a reorg replaces one chain by another.

`eth_getBlockByNumber` and `eth_getBlockReceipts` are asked by number,
`debug_traceTransaction` by transaction hash: the answer is about the block of
the current chain that has the transaction (`including`).
-/
namespace Amarillo.L3
open Amarillo.Core Amarillo.L1 Amarillo.L2

structure Network where
  block : B256 → RpcBlock
  receipts : B256 → List RpcReceipt
  trace : B256 → String → TraceAnswer
  hash_eq : ∀ b, (block b).header.hash = b
  /-- One receipt for each transaction, in the order of the block. -/
  aligned : ∀ b, (receipts b).map RpcReceipt.transactionHash = (block b).transactions.map RpcTx.hash

abbrev Chain := List B256

/-- The hash of the chain at a height. -/
def hashOn (chain : Chain) (height : Nat) : Option String := (chain[height]?).map FixedBytes.hex

namespace Network
variable (net : Network)

/-- Every block names its predecessor. -/
def Linked (chain : Chain) : Prop := chain.IsChain fun a b => (net.block b).header.parentHash = a

instance (chain : Chain) : Decidable (net.Linked chain) :=
  inferInstanceAs (Decidable (chain.IsChain _))

/-- The block of the chain with a transaction. -/
def including (chain : Chain) (txHash : String) : Option B256 :=
  chain.find? fun b => (net.receipts b).any fun r => r.transactionHash.hex = txHash

def traceOn (chain : Chain) (txHash : String) : TraceAnswer :=
  match net.including chain txHash with
  | none => .failed
  | some b => net.trace b txHash

/-- The answers about one block, complete. -/
def answers (b : B256) : Answers := ⟨some (net.block b), some (some (net.receipts b)), net.trace b⟩

def timestamp (b : B256) : Int := fromTimestamp (net.block b).header.timestamp.toInt

/-- Linked chains that agree at a height agree below it. -/
theorem Linked.agree_below {net : Network} {chain chain' : Chain} (h : net.Linked chain)
    (h' : net.Linked chain') {k : Nat} {b : B256} (hk : chain[k]? = some b)
    (hk' : chain'[k]? = some b) {j : Nat} (hj : j ≤ k) : chain[j]? = chain'[j]? := by
  induction k generalizing b with
  | zero =>
    obtain rfl : j = 0 := by omega
    rw [hk, hk']
  | succ k ih =>
    rcases Nat.eq_or_lt_of_le hj with rfl | hj
    · rw [hk, hk']
    · obtain ⟨hlt, hb⟩ := List.getElem?_eq_some_iff.mp hk
      obtain ⟨hlt', hb'⟩ := List.getElem?_eq_some_iff.mp hk'
      have hp := List.isChain_iff_getElem.mp h k hlt
      have hp' := List.isChain_iff_getElem.mp h' k hlt'
      rw [hb] at hp
      rw [hb', hp] at hp'
      exact ih (List.getElem?_eq_getElem (by omega)) (by
        rw [List.getElem?_eq_getElem (by omega), hp']) (by omega)

/-- A receipt and the transaction at its place are about the same transaction. -/
theorem zip_hash {b : B256} {p : RpcReceipt × RpcTx}
    (h : p ∈ (net.receipts b).zip (net.block b).transactions) : p.1.transactionHash = p.2.hash := by
  obtain ⟨i, hi, rfl⟩ := List.getElem_of_mem h
  have hmap := congrArg (fun l => l[i]?) (net.aligned b)
  simp only [List.length_zip] at hi
  simp only [List.getElem?_map, List.getElem?_eq_getElem (show i < (net.receipts b).length by omega),
    List.getElem?_eq_getElem (show i < (net.block b).transactions.length by omega),
    Option.map_some, Option.some.injEq] at hmap
  simpa using hmap

end Network
end Amarillo.L3
