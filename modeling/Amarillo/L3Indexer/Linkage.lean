import Amarillo.L3Indexer.Coverage

/-!
# Stale blocks under a matching tip

`detect_fork` goes down from the highest stored block and stops at the first
hash the chain still has: by linkage, all below it must be right. That holds
for stored blocks that come from one chain. But nothing compares the parent
hash of a block with what is stored below it, and between the scan and the
store, or between two blocks of a range, the chain can be replaced.

* `scan_sound`: in every run in which each block is stored next to blocks of
  its own chain (`Chained`), a scan that finds no fork vouches for every block
  it could have looked at, whatever the chain is by then.
* `stale_under_tip`: a reorg between two blocks leaves a stale one that no scan
  finds.
-/
namespace Amarillo.L3
open Amarillo.Core Amarillo.L1 Amarillo.L2

/-- The rows that carry a hash are blocks of one linked chain, of less than
`2 ^ 63` blocks. -/
def OnOneChain (net : Network) (rows : List Block) : Prop :=
  ∃ chain : Chain, net.Linked chain ∧ chain.length ≤ 2 ^ 63 ∧
    ∀ row ∈ rows, ∀ h, row.blockHash = some h →
      ∃ k : Nat, row.blockNumber = k ∧ hashOn chain k = some h

theorem OnOneChain.mono {net : Network} {rows rows' : List Block} (h : OnOneChain net rows)
    (hs : rows' ⊆ rows) : OnOneChain net rows' := by
  obtain ⟨chain, hl, hlen, hrows⟩ := h
  exact ⟨chain, hl, hlen, fun row hr => hrows row (hs hr)⟩

/-- The statement a task is about to run. -/
def nextStmt (s : Follow) (i : Nat) : Option Stmt :=
  match s.pc with
  | .working _ _ _ _ tasks => (tasks[i]?.bind Task.prog).bind fun p => p.stmts.head?
  | _ => none

/-- A block is stored next to blocks of its own chain. -/
def Chained (net : Network) (s : Follow) : FollowLabel → Prop
  | .exec i _ => ∀ stmt ∈ nextStmt s i, stmt.blockRows ≠ [] →
      OnOneChain net (s.db.blocks.rows ++ stmt.blockRows)
  | _ => True

theorem nextStmt_of_task {s : Follow} {i height : Nat} {stmt : Stmt} {stmts : List Stmt}
    {ending : Ending} (h : s.pc.tasks[i]? = some ⟨height, some ⟨stmt :: stmts, ending⟩⟩) :
    nextStmt s i = some stmt := by
  unfold nextStmt
  cases hpc : s.pc with
  | working start next chunkEnd last tasks =>
    rw [hpc] at h
    have h : tasks[i]? = _ := h
    simp [h]
  | _ => simp [hpc, FollowPc.tasks] at h

theorem chained_inductive (net : Network) (R : Runtime) (abi : Abi) :
    ((follow net R abi fun db => OnOneChain net db.blocks.rows).restrict (Chained net)).Inductive
      fun s => OnOneChain net s.db.blocks.rows where
  init := by
    rintro s ⟨-, hdb, -, -⟩
    exact hdb
  step := by
    rintro s l s' hi ⟨hs, hg⟩
    have hwrite := followStep_write hs
    generalize s'.db = db at hwrite ⊢
    cases hwrite with
    | kept _ => exact hi
    | @exec i height env stmt stmts ending _ htask he =>
      rw [(exec_applied he).blocks]
      by_cases hempty : stmt.blockRows = []
      · rwa [hempty, Table.insertNew_nil]
      · refine (hg stmt (nextStmt_of_task htask) hempty).mono fun row hrow => ?_
        exact (Table.mem_insertNew hrow).elim (List.mem_append_left _) (List.mem_append_right _)
    | rollback hpc hr =>
      refine hi.mono fun row hrow => ?_
      rw [(rollbackFromBlock_ok hr).1] at hrow
      exact (List.mem_filter.mp hrow).1
    | commit last => exact hi

/-! ## What the scan vouches for -/

/-- A recent block of a store on one chain is a block of that chain. -/
theorem recent_on_chain {db : Db} {chain : Chain} {limit : Nat} (hlen : chain.length ≤ 2 ^ 63)
    (hrows : ∀ row ∈ db.blocks.rows, ∀ h, row.blockHash = some h →
      ∃ k : Nat, row.blockNumber = k ∧ hashOn chain k = some h)
    {p : Int × String} (hp : p ∈ recentBlockHashes db limit) :
    ∃ b, p.1 = (asU64 p.1 : Int) ∧ chain[asU64 p.1]? = some b ∧ p.2 = b.hex := by
  obtain ⟨row, hrow, hn, hh⟩ := mem_recentBlockHashes hp
  obtain ⟨k, hk, hhash⟩ := hrows row hrow p.2 hh
  obtain ⟨b, hb, hbh⟩ := Option.map_eq_some_iff.mp hhash
  have hlt := (List.getElem?_eq_some_iff.mp hb).1
  have hpk : p.1 = (k : Int) := by rw [← hn, hk]
  have hu : asU64 p.1 = k := by
    rw [hpk, asU64]
    omega
  exact ⟨b, by rw [hu, hpk], by rw [hu, hb], hbh.symm⟩

/-- On a store from one chain a matching tip vouches for every block below. -/
theorem OnOneChain.scan {net : Network} {db : Db} {chain : Chain} {limit : Nat}
    (hdb : OnOneChain net db.blocks.rows) (hlinked : net.Linked chain)
    (hall : ∀ b ∈ recentBlocks db limit, (hashOn chain b.1).isSome)
    (hnone : detectFork (recentBlocks db limit) (hashOn chain) = none) :
    ∀ b ∈ recentBlocks db limit, hashOn chain b.1 = some b.2 := by
  obtain ⟨stored, hstored, hlen, hrows⟩ := hdb
  unfold recentBlocks at hall hnone ⊢
  have hdesc := recentBlockHashes_descending db limit
  have hon : ∀ p ∈ recentBlockHashes db limit, _ := fun p hp => recent_on_chain hlen hrows hp
  cases hrecent : recentBlockHashes db limit with
  | nil => exact fun b hb => nomatch hb
  | cons tip rest =>
    rw [hrecent] at hall hnone hdesc hon
    have htip := tip_of_detectFork hall hnone
    -- the stored chain and the present one agree at the tip, hence below
    obtain ⟨bt, htn, hbt, hth⟩ := hon tip List.mem_cons_self
    obtain ⟨bc, hbc, hch⟩ := Option.map_eq_some_iff.mp htip
    have hsame : bc = bt := FixedBytes.hex_inj (hch.trans hth)
    subst hsame
    intro b hb
    obtain ⟨p, hp, rfl⟩ := List.mem_map.mp hb
    obtain ⟨bp, hpn, hbp, hph⟩ := hon p hp
    have hle : asU64 p.1 ≤ asU64 tip.1 := by
      rcases List.mem_cons.mp hp with rfl | hp
      · exact Nat.le_refl _
      · have := (List.pairwise_cons.mp hdesc).1 p hp
        omega
    have := Network.Linked.agree_below hlinked hstored hbc hbt hle
    rw [hashOn, this, hbp, Option.map_some, hph]

/-- **A scan without a fork leaves no stale block.** In every run of the follow
loop in which each block is stored next to blocks of its own chain, with reorgs
at any moment: in every state reached, a scan against a chain all of whose
hashes are at hand that finds no fork means that each of the `REORG_SCAN_CAP`
most recent blocks is the one the chain has at its height. -/
theorem scan_sound (net : Network) (R : Runtime) (abi : Abi) (s : Follow)
    (h : ((follow net R abi fun db => OnOneChain net db.blocks.rows).restrict
      (Chained net)).Reachable s)
    (chain : Chain) (hlinked : net.Linked chain)
    (hall : ∀ b ∈ recentBlocks s.db reorgScanCap, (hashOn chain b.1).isSome)
    (hnone : detectFork (recentBlocks s.db reorgScanCap) (hashOn chain) = none) :
    ∀ b ∈ recentBlocks s.db reorgScanCap, hashOn chain b.1 = some b.2 :=
  ((chained_inductive net R abi).reachable s h).scan hlinked hall hnone

/-! ## Blocks of the present chain -/

/-- The rows are blocks the chain has now. -/
abbrev OnPresent (chain : Chain) (rows : List Block) : Prop :=
  ∀ row ∈ rows, ∀ h ∈ row.blockHash,
    0 ≤ row.blockNumber ∧ hashOn chain row.blockNumber.toNat = some h

/-- A block is stored, and it and all that is stored are on the present chain. -/
def Present (net : Network) (s : Follow) : FollowLabel → Prop
  | .exec i _ => ∀ stmt ∈ nextStmt s i, net.Linked s.chain ∧ s.chain.length ≤ 2 ^ 63 ∧
      OnPresent s.chain (s.db.blocks.rows ++ stmt.blockRows)
  | _ => True

instance (net : Network) (s : Follow) : (l : FollowLabel) → Decidable (Present net s l)
  | .exec i _ => inferInstanceAs (Decidable (∀ stmt ∈ nextStmt s i, net.Linked s.chain ∧
      s.chain.length ≤ 2 ^ 63 ∧ OnPresent s.chain (s.db.blocks.rows ++ stmt.blockRows)))
  | .reorg _ => instDecidableTrue
  | .start _ => instDecidableTrue
  | .stop => instDecidableTrue
  | .detect _ => instDecidableTrue
  | .rollback => instDecidableTrue
  | .head _ => instDecidableTrue
  | .plan => instDecidableTrue
  | .chunk => instDecidableTrue
  | .fetch _ _ => instDecidableTrue
  | .join => instDecidableTrue
  | .commit => instDecidableTrue

theorem Present.chained {net : Network} (s : Follow) (l : FollowLabel) (h : Present net s l) :
    Chained net s l := by
  cases l with
  | exec i env =>
    intro stmt hstmt _
    obtain ⟨hl, hlen, hrows⟩ := h stmt hstmt
    refine ⟨s.chain, hl, hlen, fun row hrow x hx => ?_⟩
    obtain ⟨hpos, hhash⟩ := hrows row hrow x hx
    exact ⟨row.blockNumber.toNat, (Int.toNat_of_nonneg hpos).symm, hhash⟩
  | _ => trivial

/-- The run of `repaired_covered`, and the cycle after it. -/
def presentRun : Option Follow :=
  LTS.exec (LTS.guarded emptyStep (Present emptyNet)) freshFollow
    (.start ⟨0, 3⟩ :: (indexOne chainA 1 (blockHash 0xa1) ++ indexOne chainA 2 (blockHash 0xa2) ++
      [.reorg chainC, .detect (hashOn chainC), .rollback] ++
      indexOne chainC 2 (blockHash 0xc2)))

theorem empty_onOneChain (net : Network) : OnOneChain net Db.empty.blocks.rows :=
  ⟨[], .nil, by decide, fun _ h => nomatch h⟩

def presentEnd : Follow := presentRun.get (by decide +kernel)

theorem presentEnd_reachable : ((follow emptyNet (.asciiOnly true) wordAbi
    fun db => OnOneChain emptyNet db.blocks.rows).restrict (Chained emptyNet)).Reachable presentEnd :=
  LTS.restrict_mono Present.chained (LTS.reachable_of_guarded
    (show _ ∧ _ from ⟨by decide +kernel, empty_onOneChain _, rfl, rfl⟩) (Option.some_get _).symm)

/-- The tip matches, and so does the block below it. -/
theorem present_scan : (1, (blockHash 0xa1).hex) ∈ recentBlocks presentEnd.db reorgScanCap ∧
    hashOn chainC 1 = some (blockHash 0xa1).hex := by
  have key : (1, (blockHash 0xa1).hex) ∈ recentBlocks presentEnd.db reorgScanCap ∧
      emptyNet.Linked chainC ∧
      (∀ b ∈ recentBlocks presentEnd.db reorgScanCap, (hashOn chainC b.1).isSome) ∧
      detectFork (recentBlocks presentEnd.db reorgScanCap) (hashOn chainC) = none := by
    decide +kernel
  obtain ⟨hmem, hlinked, hall, hnone⟩ := key
  exact ⟨hmem, scan_sound emptyNet (.asciiOnly true) wordAbi _ presentEnd_reachable chainC
    hlinked hall hnone _ hmem⟩

/-- Height 1 is indexed from `chainA`; after the next scan the chain becomes
`chainB`, and height 2 is indexed from there. -/
def staleLabels : List FollowLabel :=
  .start ⟨0, 3⟩ :: (indexOne chainA 1 (blockHash 0xa1) ++
    [.detect (hashOn chainA), .head 2, .plan, .chunk, .reorg chainB,
     .fetch 0 (answered (blockHash 0xb2)), .exec 0 liveEnv, .join, .commit, .chunk])

/-- Block 2 is on the chain, so the scan stops there; block 1 is not. -/
theorem stale_under_tip :
    ¬ ∀ (net : Network) (R : Runtime) (abi : Abi) (s : Follow),
      (follow net R abi fun db => OnOneChain net db.blocks.rows).Reachable s →
      (∀ b ∈ recentBlocks s.db reorgScanCap, (hashOn s.chain b.1).isSome) →
      detectFork (recentBlocks s.db reorgScanCap) (hashOn s.chain) = none →
      ∀ b ∈ recentBlocks s.db reorgScanCap, hashOn s.chain b.1 = some b.2 := by
  intro h
  have hrun : (LTS.exec emptyStep freshFollow staleLabels).map (fun s =>
      (s.chain, recentBlocks s.db reorgScanCap)) =
      some (chainB, [(2, (blockHash 0xb2).hex), (1, (blockHash 0xa1).hex)]) := by
    decide +kernel
  obtain ⟨s, hexec, hs⟩ := Option.map_eq_some_iff.mp hrun
  obtain ⟨hchain, hrecent⟩ := Prod.mk.inj hs
  have hall := h emptyNet (.asciiOnly true) wordAbi s
    (LTS.reachable_of_exec ⟨by decide +kernel, empty_onOneChain _, rfl, rfl⟩ hexec)
  rw [hchain, hrecent] at hall
  have hone := hall (by decide +kernel) (by decide +kernel) (1, (blockHash 0xa1).hex) (by simp)
  exact absurd hone (by decide +kernel)

end Amarillo.L3
