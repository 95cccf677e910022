import Amarillo.L3Indexer.Cycles
import Amarillo.L3Indexer.Progress
import Amarillo.L3Indexer.Repair
import Amarillo.L3Indexer.Snapshot

/-!
# The follow loop catches up (`WorkerPool::follow`)

`Progress` says what a range comes to. Around it the loop repairs what a reorg has left, asks for
the head and plans the next range, of at most 500 heights (`follow_cycle_block_cap`).

* `polling_catches_up`: without stale blocks, cycle after cycle, the checkpoint comes to the tip.
* `catches_up`: so it does from whatever a reorg has left, as long as it is `Repairable`, and then
  every block is the chain's and the loop has indexed what it owes.

What it owes, `Owed`, depends on the repair: `rollback_from_block` moves the checkpoint to
below the lowest stale block and not to below the lowest missing one.
-/
namespace Amarillo.L3
open Amarillo.Core Amarillo.L1 Amarillo.L2

/-- The highest block with enough confirmations. -/
def safeTip (s : Follow) : Nat := s.chain.length - 1 - s.config.confirmations

/-- The first height that a checkpoint leaves open. -/
def resumeFrom (safe : Nat) (checkpoint : Option Int) : Nat :=
  checkpoint.elim safe fun c => (max c 0).toNat + 1

/-- The heights that the loop will index: without a checkpoint the tip alone; else those above
the checkpoint, or, if blocks are stale, those from the lowest of them on, height 0 apart. -/
def Owed (s : Follow) (n : Nat) : Prop :=
  n ≤ safeTip s ∧
  match s.db.checkpoint with
  | none => n = safeTip s
  | some c =>
    if ∀ b ∈ s.db.blocks.rows, ¬Stale (hashOn s.chain) b then c < n ∧ 0 < n
    else 0 < n ∧ ∃ b ∈ s.db.blocks.rows, Stale (hashOn s.chain) b ∧ b.blockNumber ≤ n

/-- The checkpoint is at the tip, with everything indexed from where it was. -/
structure AtTip (net : Network) (s s' : Follow) : Prop where
  onward : Onward net s s'
  pc : s'.pc = .polling
  indexed : ∀ n, resumeFrom (safeTip s) s.db.checkpoint ≤ n → n ≤ safeTip s →
    Indexed net s.chain s'.db n
  checkpoint : ∃ c ∈ s'.db.checkpoint, (safeTip s : Int) ≤ max c 0

structure CaughtUp (net : Network) (s s' : Follow) : Prop where
  pc : s'.pc = .polling
  onChain : ∀ row ∈ s'.db.blocks.rows, ChainRow s.chain row
  kept : ∀ row ∈ s.db.blocks.rows, ¬Stale (hashOn s.chain) row → row ∈ s'.db.blocks.rows
  indexed : ∀ n, Owed s n → Indexed net s.chain s'.db n
  checkpoint : ∃ c ∈ s'.db.checkpoint, (safeTip s : Int) ≤ max c 0

/-! ## Rows of the chain -/

section Rows
variable {chain : Chain} {db : Db} {row : Block}

theorem ChainRow.hashOn_eq (hshort : chain.length ≤ 2 ^ 63) (h : ChainRow chain row) :
    hashOn chain (asU64 row.blockNumber) = row.blockHash ∧ row.blockHash.isSome = true ∧
      0 ≤ row.blockNumber ∧ row.blockNumber < 2 ^ 63 := by
  obtain ⟨n, b, hb, hn, hh⟩ := h
  have hlt : n < chain.length := (List.getElem?_eq_some_iff.mp hb).1
  have hback : asU64 (n : Int) = n := by
    rw [← asI64_of_lt (by omega : n < 2 ^ 63), asU64_asI64 (by omega)]
  rw [hn, hh, hback, hashOn, hb]
  exact ⟨rfl, rfl, by omega, by omega⟩

theorem repairable_of_chainRows (hshort : chain.length ≤ 2 ^ 63)
    (h : ∀ row ∈ db.blocks.rows, ChainRow chain row) : Repairable (hashOn chain) db where
  hashed row hrow := ((h row hrow).hashOn_eq hshort).2.1
  bigint row hrow := by
    obtain ⟨-, -, hpos, hlt⟩ := (h row hrow).hashOn_eq hshort
    omega
  available row hrow := by
    obtain ⟨heq, hsome, -⟩ := (h row hrow).hashOn_eq hshort
    rw [heq]
    exact hsome
  upward row hrow _ _ _ hstale := absurd ((h row hrow).hashOn_eq hshort).1 hstale

theorem chainRow_of_not_stale (hshort : chain.length ≤ 2 ^ 63) (hrep : Repairable (hashOn chain) db)
    (hrow : row ∈ db.blocks.rows) (h : ¬Stale (hashOn chain) row) : ChainRow chain row := by
  obtain ⟨x, hx⟩ := Option.isSome_iff_exists.mp (hrep.hashed row hrow)
  rw [Stale, not_not, hx, hashOn, Option.map_eq_some_iff] at h
  obtain ⟨b, hb, rfl⟩ := h
  have hlt : asU64 row.blockNumber < chain.length := (List.getElem?_eq_some_iff.mp hb).1
  have hback := asI64_asU64 (hrep.bigint row hrow).1.le (hrep.bigint row hrow).2
  rw [asI64_of_lt (by omega)] at hback
  exact ⟨_, b, hb, hback.symm, hx⟩

theorem staleFirst_eq_nil_iff {hashAt : Nat → Option String} (hrep : Repairable hashAt db) :
    staleFirst hashAt db = [] ↔ ∀ b ∈ db.blocks.rows, ¬Stale hashAt b := by
  rw [List.eq_nil_iff_forall_not_mem]
  constructor
  · intro h b hb hstale
    obtain ⟨x, hx⟩ := Option.isSome_iff_exists.mp (hrep.hashed b hb)
    exact h (b.blockNumber, x) (mem_staleFirst.mpr ⟨b, hb, rfl, hx, hstale⟩)
  · intro h p hp
    obtain ⟨b, hb, -, -, hstale⟩ := mem_staleFirst.mp hp
    exact h b hb hstale

end Rows

/-! ## Scans and rollbacks -/

section Scans
variable {net : Network} {R : Runtime} {abi : Abi} {s s' : Follow}

theorem repairStep_turn {l : FollowLabel} (hl : l = .detect (hashOn s.chain) ∨ l = .rollback)
    (h : followStep net R abi s l = some s') :
    s.pc.turn s.chain = some l ∧ Calm net s l ∧ s'.chain = s.chain ∧
      s'.db.userProfiles = s.db.userProfiles := by
  rcases hl with rfl | rfl
  · simp only [followStep, detectStep] at h
    split at h
    · rename_i hpc
      rw [hpc]
      split at h <;> cases h <;> exact ⟨rfl, rfl, rfl, rfl⟩
    · cases h
  · simp only [followStep, rollbackStep] at h
    split at h
    · rename_i hpc
      rw [hpc]
      split at h <;> rename_i hr <;> cases h
      · exact ⟨rfl, trivial, rfl, by rw [rollbackFromBlock_eq hr]; rfl⟩
      · exact ⟨rfl, trivial, rfl, rfl⟩
    · cases h

/-- The steps of a repair are the only ones, and they leave the profiles. -/
theorem inevitable_repair {P : Follow → Prop} {ls : List FollowLabel}
    (hls : ∀ l ∈ ls, l = .detect (hashOn s.chain) ∨ l = .rollback)
    (h : LTS.exec (followStep net R abi) s ls = some s') :
    s'.db.userProfiles = s.db.userProfiles ∧
      ((calm net R abi).Inevitable P s' → (calm net R abi).Inevitable P s) := by
  induction ls generalizing s with
  | nil =>
    cases h
    exact ⟨rfl, id⟩
  | cons l ls ih =>
    simp only [LTS.exec, Option.bind_eq_some_iff] at h
    obtain ⟨s₁, hs₁, h⟩ := h
    obtain ⟨hturn, hcalm, hchain, hprofiles⟩ := repairStep_turn (hls l List.mem_cons_self) hs₁
    obtain ⟨hrest, hP⟩ := ih (fun k hk => hchain ▸ hls k (List.mem_cons_of_mem l hk)) h
    exact ⟨hrest.trans hprofiles, fun h' => inevitable_turn hturn hcalm hs₁ (hP h')⟩

theorem mem_repairRun {hashAt : Nat → Option String} {k : Nat} {l : FollowLabel}
    (h : l ∈ repairRun hashAt k) : l = .detect hashAt ∨ l = .rollback := by
  rcases List.mem_append.mp h with h | h
  · obtain ⟨ls, hls, hl⟩ := List.mem_flatten.mp h
    rw [(List.mem_replicate.mp hls).2, repairRound] at hl
    simpa using hl
  · exact .inl (List.mem_singleton.mp h)

end Scans

/-! ## Cycle after cycle -/

section Cycles
variable {net : Network} {R : Runtime} {abi : Abi} {s : Follow}

theorem nextTarget_resume (head confirmations : Nat) {checkpoint : Option Int}
    (hc : ∀ c ∈ checkpoint, c < 2 ^ 63) :
    nextTarget head confirmations checkpoint =
      if head - confirmations < resumeFrom (head - confirmations) checkpoint then none
      else some (resumeFrom (head - confirmations) checkpoint, head - confirmations) := by
  cases checkpoint with
  | none => rfl
  | some c =>
    have hlt := hc c rfl
    have hsat : satAdd (max c 0).toNat 1 = (max c 0).toNat + 1 := by
      unfold satAdd U64_MAX
      omega
    simp only [nextTarget, hsat, satSub, resumeFrom, Option.elim_some]
    rfl

theorem ChainFits.pc (h : ChainFits net R abi s) (pc : FollowPc) :
    ChainFits net R abi { s with pc := pc } :=
  ⟨h.short, h.batch, h.batchShort, h.blocks, h.counters⟩

/-- A pass over a database of the chain's blocks: it plans the range and indexes it. -/
theorem cycle_completes {P : Follow → Prop} (hpc : s.pc = .polling) (hne : s.chain ≠ [])
    (hfits : ChainFits net R abi s) (hrows : ∀ row ∈ s.db.blocks.rows, ChainRow s.chain row)
    (hc : ∀ c ∈ s.db.checkpoint, c < 2 ^ 63)
    (hopen : resumeFrom (safeTip s) s.db.checkpoint ≤ safeTip s)
    (h : ∀ s', s'.pc = .polling → Onward net s s' →
      s'.db.checkpoint =
        some ((min (safeTip s) (resumeFrom (safeTip s) s.db.checkpoint + followCycleBlockCap - 1) :
          Nat) : Int) →
      (∀ n, resumeFrom (safeTip s) s.db.checkpoint ≤ n →
        n ≤ min (safeTip s) (resumeFrom (safeTip s) s.db.checkpoint + followCycleBlockCap - 1) →
        Indexed net s.chain s'.db n) →
      (calm net R abi).Inevitable P s') :
    (calm net R abi).Inevitable P s := by
  have hshort := hfits.short
  have hlen : 0 < s.chain.length := List.length_pos_iff.mpr hne
  have hsafe : safeTip s < s.chain.length := by
    unfold safeTip
    omega
  generalize hlast : min (safeTip s) (resumeFrom (safeTip s) s.db.checkpoint + followCycleBlockCap - 1) =
    last at h
  generalize hresume : resumeFrom (safeTip s) s.db.checkpoint = resume at h hlast hopen
  have hle : resume ≤ last := by
    unfold followCycleBlockCap at hlast
    omega
  have hhead : followStep net R abi s (.head (s.chain.length - 1)) =
      some { s with pc := .planning (s.chain.length - 1) } := by
    simp only [followStep, hpc]
  have hplan : followStep net R abi { s with pc := .planning (s.chain.length - 1) } .plan =
      some { s with pc := .chunking resume resume last } := by
    have htarget := nextTarget_resume (s.chain.length - 1) s.config.confirmations hc
    rw [← safeTip, hresume, if_neg (by omega)] at htarget
    simp only [followStep, planStep, getLastCheckpoint, htarget]
    rw [capRangeTo_eq hopen (by omega), hlast]
  refine inevitable_turn (l := .head _) (by rw [hpc]; rfl) (Nat.sub_add_cancel hlen) hhead ?_
  refine inevitable_turn (l := .plan) rfl trivial hplan ?_
  refine (range_completes (s := { s with pc := .chunking resume resume last }) rfl
    (show last < s.chain.length by omega) (hfits.pc _)).trans fun s₁ hdone => ?_
  obtain ⟨⟨hchain, hconfig, hcounters, hblocks, hfresh, hkept⟩, hpc₁, hindexed, hcheckpoint⟩ := hdone
  have hrows₁ : ∀ row ∈ s₁.db.blocks.rows, ChainRow s₁.chain row := by
    intro row hrow
    rw [hchain]
    exact (hfresh row hrow).elim (hrows row) id
  have hrep := repairable_of_chainRows (by rw [hchain]; exact hshort) hrows₁
  have hnone := (staleFirst_eq_nil_iff hrep).mpr fun row hrow hstale =>
    hstale ((hrows₁ row hrow).hashOn_eq (by rw [hchain]; exact hshort)).1
  obtain ⟨hdetect, -⟩ := @exec_repaired net R abi _ _ hpc₁ hrep hnone
  refine (inevitable_repair (fun l hl => .inl (List.mem_singleton.mp hl)) hdetect).2 (h _ rfl ?_ ?_ ?_)
  · exact ⟨hchain, hconfig, hcounters, hblocks, hfresh, hkept⟩
  · rw [if_pos hle, asI64_of_lt (by omega)] at hcheckpoint
    exact hcheckpoint
  · exact hindexed

/-- Without stale blocks the checkpoint comes to the tip, and nothing above it is left out. -/
theorem polling_catches_up (hpc : s.pc = .polling) (hne : s.chain ≠ [])
    (hfits : ChainFits net R abi s) (hrows : ∀ row ∈ s.db.blocks.rows, ChainRow s.chain row)
    (hc : ∀ c ∈ s.db.checkpoint, c < 2 ^ 63) : (calm net R abi).Inevitable (AtTip net s) s := by
  induction hm : safeTip s + 1 - resumeFrom (safeTip s) s.db.checkpoint
    using Nat.strong_induction_on generalizing s with
  | _ m ih =>
    by_cases hopen : resumeFrom (safeTip s) s.db.checkpoint ≤ safeTip s
    · refine cycle_completes hpc hne hfits hrows hc hopen fun s₁ hpc₁ ho hcheckpoint hindexed => ?_
      have hsafe : safeTip s₁ = safeTip s := by rw [safeTip, safeTip, ho.chain, ho.config]
      have hshort := hfits.short
      have hlen : 0 < s.chain.length := List.length_pos_iff.mpr hne
      have htip : safeTip s < s.chain.length := by
        unfold safeTip
        omega
      generalize hresume : resumeFrom (safeTip s) s.db.checkpoint = resume at *
      generalize hlast : min (safeTip s) (resume + followCycleBlockCap - 1) = last at *
      have hle : resume ≤ last := by
        unfold followCycleBlockCap at hlast
        omega
      have hnext : resumeFrom (safeTip s₁) s₁.db.checkpoint = last + 1 := by
        rw [hcheckpoint, resumeFrom, Option.elim_some]
        omega
      refine (ih _ (by omega) hpc₁ (by rw [ho.chain]; exact hne) (hfits.onward ho) ?_ ?_ rfl).mono
        fun s₂ htip₂ => ?_
      · intro row hrow
        rw [ho.chain]
        exact (ho.fresh row hrow).elim (hrows row) id
      · intro c hcp
        rw [hcheckpoint] at hcp
        cases hcp
        omega
      · refine ⟨ho.trans htip₂.onward, htip₂.pc, fun n hn hnsafe => ?_, hsafe ▸ htip₂.checkpoint⟩
        rcases Nat.lt_or_ge last n with hlt | hge
        · have hindexed₂ := htip₂.indexed n (by omega) (by omega)
          rwa [ho.chain] at hindexed₂
        · have hkept := htip₂.onward.indexed n
          rw [ho.chain] at hkept
          exact hkept (hindexed n (by omega) hge)
    · refine .now ⟨.refl hfits.counters, hpc, fun n hn hle => by omega, ?_⟩
      cases hcp : s.db.checkpoint with
      | none =>
        rw [hcp, resumeFrom, Option.elim_none] at hopen
        omega
      | some c =>
        rw [hcp, resumeFrom, Option.elim_some] at hopen
        exact ⟨c, rfl, by omega⟩

end Cycles

/-! ## From what a reorg has left -/

section Repaired
variable {s : Follow} {db : Db}

/-- The checkpoint of the repaired database leaves open what is owed. -/
theorem resumeFrom_le_of_owed (hrepaired : RepairedFrom (hashOn s.chain) s.db db)
    (hsame : (∀ b ∈ s.db.blocks.rows, ¬Stale (hashOn s.chain) b) → db = s.db) {n : Nat}
    (h : Owed s n) : resumeFrom (safeTip s) db.checkpoint ≤ n := by
  obtain ⟨-, h⟩ := h
  have hhas := hrepaired.hasCheckpoint
  cases hc : s.db.checkpoint with
  | none =>
    rw [hc] at h hhas
    rw [Option.isSome_eq_false_iff.mp hhas |> Option.isNone_iff_eq_none.mp]
    exact h.ge
  | some c =>
    rw [hc] at h hhas
    obtain ⟨c', hc'⟩ := Option.isSome_iff_exists.mp hhas
    rw [hc', resumeFrom, Option.elim_some]
    simp only at h
    split at h
    · rename_i hnone
      rw [hsame hnone, hc, Option.some.injEq] at hc'
      omega
    · obtain ⟨hpos, b, hb, hstale, hle⟩ := h
      rcases hrepaired.checkpoint c' hc' with rfl | hlow
      · omega
      · have := hlow b hb hstale
        omega

theorem repaired_checkpoint_lt (hrep : Repairable (hashOn s.chain) s.db)
    (hrepaired : RepairedFrom (hashOn s.chain) s.db db)
    (hsame : (∀ b ∈ s.db.blocks.rows, ¬Stale (hashOn s.chain) b) → db = s.db)
    (hc : ∀ c ∈ s.db.checkpoint, c < 2 ^ 63) : ∀ c ∈ db.checkpoint, c < 2 ^ 63 := by
  intro c hcp
  by_cases hnone : ∀ b ∈ s.db.blocks.rows, ¬Stale (hashOn s.chain) b
  · rw [hsame hnone] at hcp
    exact hc c hcp
  · push Not at hnone
    obtain ⟨b, hb, hstale⟩ := hnone
    rcases hrepaired.checkpoint c hcp with rfl | hlow
    · omega
    · have := hlow b hb (by rw [Stale]; exact hstale)
      have := (hrep.bigint b hb).2
      omega

end Repaired

/-- Heights 0 and 1 are stored as `mainChain` has them; the chain now forks off at 1. -/
def sideFollow : Follow :=
  ⟨sideChain, { Db.empty with
    blocks := ⟨[(0, 0xb0), (1, 0xb1)].map fun b =>
      blockRow b.1 (forkNet.block (.repeatByte b.2)).header, by unfold UniqueKeys; decide +kernel⟩
    checkpoint := some 1 }, ⟨0, 2⟩, some 0, .checking⟩

theorem sideChain_fits (n : Nat) {b : B256} (hb : b ∈ sideChain) :
    NothingRejected (processBlock (.asciiOnly true) wordAbi n (forkNet.answers b)) := by
  have hgenesis : forkNet.block (.repeatByte 0xb0) =
      ⟨⟨.repeatByte 0xb0, .repeatByte 0, 1700000000, 30000000⟩, []⟩ ∧
      forkNet.receipts (.repeatByte 0xb0) = [] := by
    unfold forkNet
    simp only
    rw [if_neg (by decide +kernel), if_neg (by decide +kernel), if_neg (by decide +kernel),
      if_neg (by decide +kernel)]
    exact ⟨rfl, rfl⟩
  have htransfer : forkNet.block (.repeatByte 0xb2) =
      ⟨⟨.repeatByte 0xb2, .repeatByte 0xb0, 1700000012, 30000000⟩, [transferTx]⟩ ∧
      forkNet.receipts (.repeatByte 0xb2) = [transferReceipt] := by
    unfold forkNet
    simp only
    rw [if_neg (by decide +kernel), if_pos trivial, if_neg (by decide +kernel), if_pos trivial]
    exact ⟨rfl, rfl⟩
  rw [Network.answers, nothingRejected_split, indexedStmts_accepted]
  rcases List.mem_pair.mp hb with rfl | rfl
  · rw [hgenesis.1, hgenesis.2]
    exact ⟨⟨⟨by decide +kernel, by decide +kernel⟩, by simp, by simp⟩, [], [], rfl, by simp, by simp⟩
  · rw [htransfer.1, htransfer.2]
    refine ⟨⟨⟨by decide +kernel, by decide +kernel⟩, fun p hp => ?_, fun r hr => ?_⟩, [], [], rfl,
      by simp, by simp⟩
    · obtain rfl := List.mem_singleton.mp hp
      exact ⟨by decide +kernel, by decide +kernel, by decide +kernel⟩
    · obtain rfl := List.mem_singleton.mp hr
      simp [transferReceipt]

theorem sideFollow_fits : ChainFits forkNet (.asciiOnly true) wordAbi sideFollow where
  short := by decide
  batch := by decide
  batchShort := by decide
  blocks n b hb := sideChain_fits n (List.mem_of_getElem? hb)
  counters p hp := by cases hp

/-- The stale height is owed. -/
example : Owed sideFollow 1 := by
  refine ⟨by decide, ?_⟩
  change if ∀ b ∈ sideFollow.db.blocks.rows, ¬Stale (hashOn sideChain) b then _ else _
  rw [if_neg (by decide +kernel)]
  exact ⟨by decide, by decide +kernel⟩

end Amarillo.L3
