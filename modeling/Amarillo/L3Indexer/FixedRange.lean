import Amarillo.L3Indexer.Coverage

/-!
# The fixed-range mode (`main`, `index_range`)

A fixed-range process asks the checkpoint where to resume. Follow mode writes the
same row, and starts at the tip when there is none; an earlier fixed range may
have been any other. So the checkpoint says nothing about the heights below it,
and the process skips those of its range all the same (`Skipped`), reports success
and leaves them out. The end of a last chunk may wrap, too.

* `fixed_range_covered_iff`: a run that ends with success leaves its whole range
  stored iff the skipped heights were stored before.
* `backfill_skipped`: the range below a follow run is not indexed at all.
-/
namespace Amarillo.L3
open Amarillo.Core Amarillo.L1 Amarillo.L2

/-- mirrors crates/indexer/src/main.rs:134-145 -/
def resumeBlock (checkpoint : Option Int) (fromBlock : Nat) : Nat :=
  match checkpoint with
  | some last => if asI64 fromBlock ≤ last then asU64 (last + 1) else fromBlock
  | none => fromBlock

/-- The process before its first chunk; with nothing to do it has ended.
mirrors crates/indexer/src/main.rs:147-151 -/
def rangeStart (chain : Chain) (db : Db) (config : FollowConfig) (fromBlock : Nat)
    (toBlock : Option Nat) : Follow :=
  let first := resumeBlock (getLastCheckpoint db) fromBlock
  let last := toBlock.getD first
  ⟨chain, db, config, none, if last < first then .checking else .chunking first first last⟩

/-- The steps of `index_range`, and those of the chain. -/
def FollowLabel.indexing : FollowLabel → Bool
  | .reorg _ => true
  | .chunk => true
  | .fetch _ _ => true
  | .exec _ _ => true
  | .join => true
  | .commit => true
  | _ => false

/-- A fixed-range process. It ends with success when the loop is through. -/
def fixedRange (net : Network) (R : Runtime) (abi : Abi) : LTS Follow FollowLabel :=
  (follow net R abi fun _ => True).restrict fun _ l => l.indexing = true

/-- A height of the range that the process leaves out: one at or below the checkpoint it
resumes from, or one of a chunk whose end wraps. -/
def Skipped (checkpoint : Option Int) (fromBlock batchSize n : Nat) : Prop :=
  (∃ last ∈ checkpoint, asI64 fromBlock ≤ last ∧ n < asU64 (last + 1)) ∨
  let first := resumeBlock checkpoint fromBlock
  2 ^ 64 < first + ((n - first) / batchSize + 1) * batchSize

instance (checkpoint : Option Int) (fromBlock batchSize n : Nat) :
    Decidable (Skipped checkpoint fromBlock batchSize n) := inferInstanceAs (Decidable (_ ∨ _))

/-! ## The chunks of a range -/

/-- A height that one of the chunks holds. -/
structure Visited (first last batchSize n : Nat) : Prop where
  lower : first ≤ n
  upper : n ≤ last
  noWrap : first + ((n - first) / batchSize + 1) * batchSize ≤ 2 ^ 64

theorem mem_chunk_iff {first last batchSize k n : Nat} (hb : 0 < batchSize)
    (hb' : batchSize < 2 ^ 64) (hlast : last < 2 ^ 64) (hk : first + k * batchSize ≤ last) :
    (first + k * batchSize ≤ n ∧ n ≤ chunkEnd (first + k * batchSize) batchSize last) ↔
      Visited first last batchSize n ∧ first + k * batchSize ≤ n ∧
        n < first + k * batchSize + batchSize := by
  have hdiv : first + k * batchSize ≤ n → n < first + k * batchSize + batchSize →
      (n - first) / batchSize = k := by
    intro h h'
    refine Nat.div_eq_of_lt_le (by omega) ?_
    rw [Nat.succ_mul]
    omega
  generalize hnext : first + k * batchSize = next at *
  have hgrid : first + (k + 1) * batchSize = next + batchSize := by
    rw [Nat.succ_mul]
    omega
  unfold chunkEnd
  constructor
  · rintro ⟨hlo, hhi⟩
    have hmod : (next + batchSize - 1) % 2 ^ 64 = next + batchSize - 1 ∧ next + batchSize ≤ 2 ^ 64 := by
      omega
    have hlt : n < next + batchSize := by omega
    refine ⟨⟨by omega, by omega, ?_⟩, hlo, hlt⟩
    rw [hdiv hlo hlt, hgrid]
    exact hmod.2
  · rintro ⟨⟨-, hup, hwrap⟩, hlo, hlt⟩
    rw [hdiv hlo hlt, hgrid] at hwrap
    rw [Nat.mod_eq_of_lt (by omega)]
    omega

/-! ## The invariant -/

/-- A task stores no block but its own. -/
def OwnBlock (t : Task) : Prop :=
  ∀ p, t.prog = some p → ∀ stmt ∈ p.stmts, ∀ r ∈ stmt.blockRows, r.blockNumber = asI64 t.height

/-- All heights of the range's chunks below `n` are stored. -/
abbrev VisitedBelow (first last batchSize : Nat) (db : Db) (n : Nat) : Prop :=
  ∀ k < n, Visited first last batchSize k → Stored db k

def RangePc (first last batchSize : Nat) (db : Db) : FollowPc → Prop
  | .checking => ∀ n, Visited first last batchSize n → Stored db n
  | .chunking _ next last' => last' = last ∧ (∃ k, next = first + k * batchSize) ∧
      VisitedBelow first last batchSize db next
  | .working _ next chunkEnd' last' tasks => last' = last ∧ (∃ k, next = first + k * batchSize) ∧
      0 < batchSize ∧ next ≤ last ∧ chunkEnd' = chunkEnd next batchSize last ∧
      VisitedBelow first last batchSize db next ∧
      (∀ k, next ≤ k → k ≤ chunkEnd' → ∃ t ∈ tasks, t.height = k) ∧
      ∀ t ∈ tasks, (next ≤ t.height ∧ t.height ≤ chunkEnd') ∧ TaskInv db t ∧ OwnBlock t
  | .committing _ next _ last' => last' = last ∧ (∃ k, next = first + k * batchSize) ∧
      VisitedBelow first last batchSize db (next + batchSize)
  | .stopped => True
  | _ => False

/-- Of the range, exactly the visited heights become stored. -/
structure RangeInv (first last batchSize : Nat) (db₀ : Db) (s : Follow) : Prop where
  batch : s.config.batchSize = batchSize
  kept : ∀ n, Stored db₀ n → Stored s.db n
  added : ∀ n < 2 ^ 64, Stored s.db n → Stored db₀ n ∨ Visited first last batchSize n
  pc : RangePc first last batchSize s.db s.pc

section Steps
variable {net : Network} {R : Runtime} {abi : Abi} {s s' : Follow} {first last batchSize : Nat}
  {db₀ : Db}

theorem RangeInv.goto (hi : RangeInv first last batchSize db₀ s) {pc : FollowPc}
    (hpc : RangePc first last batchSize s.db pc) :
    RangeInv first last batchSize db₀ { s with pc := pc } :=
  ⟨hi.batch, hi.kept, hi.added, hpc⟩

theorem chunkStep_range (hb : batchSize < 2 ^ 64) (hlast : last < 2 ^ 64)
    (hi : RangeInv first last batchSize db₀ s) (h : chunkStep s = some s') :
    RangeInv first last batchSize db₀ s' := by
  unfold chunkStep at h
  split at h
  · rename_i start next last' hpc
    obtain ⟨rfl, ⟨k, hk⟩, hbelow⟩ : RangePc first last batchSize s.db (.chunking start next last') :=
      hpc ▸ hi.pc
    split at h
    · cases h
      exact hi.goto trivial
    · rename_i hpos
      rw [hi.batch] at hpos
      split at h
      · rename_i hend
        cases h
        exact hi.goto fun n hv => hbelow n (by have := hv.upper; omega) hv
      · cases h
        refine hi.goto ⟨rfl, ⟨k, hk⟩, by omega, by omega, by rw [hi.batch], hbelow, ?_, ?_⟩
        · intro n hn hn'
          refine ⟨⟨n, none⟩, List.mem_map.mpr ⟨n, ?_, rfl⟩, rfl⟩
          rw [List.mem_range'_1]
          omega
        · intro t ht
          obtain ⟨n, hn, rfl⟩ := List.mem_map.mp ht
          rw [List.mem_range'_1] at hn
          refine ⟨by simp only; omega, ?_, ?_⟩
          · intro p hp
            cases hp
          · intro p hp
            cases hp
  · cases h

theorem fetchStep_range (hi : RangeInv first last batchSize db₀ s) {i : Nat} {a : Answers}
    (h : fetchStep net R abi s i a = some s') : RangeInv first last batchSize db₀ s' := by
  unfold fetchStep at h
  split at h
  · rename_i start next chunkEnd' last' tasks hpc
    obtain ⟨hl, hk, hpos, hle, hend, hbelow, hheights, htasks⟩ :
      RangePc first last batchSize s.db (.working start next chunkEnd' last' tasks) := hpc ▸ hi.pc
    split at h
    · rename_i height htask
      split at h
      · cases h
        refine hi.goto ⟨hl, hk, hpos, hle, hend, hbelow, ?_, forall_mem_set htasks ⟨?_, ?_, ?_⟩⟩
        · exact fun n hn hn' => heights_set htask (by rfl) (hheights n hn hn')
        · exact (htasks _ (List.mem_of_getElem? htask)).1
        · intro p hp hok
          cases hp
          exact .inl (processBlock_blockFirst R hok)
        · intro p hp stmt hstmt r hr
          cases hp
          obtain ⟨block, receipts, -, -, hsends⟩ := mem_processBlock R hstmt
          cases hsends <;> cases hr
          · rfl
          · rename_i hr
            cases hr
      · cases h
    · cases h
  · cases h

theorem execStep_range (hb : batchSize < 2 ^ 64) (hlast : last < 2 ^ 64)
    (hi : RangeInv first last batchSize db₀ s) {i : Nat} {env : Env}
    (h : execStep s i env = some s') : RangeInv first last batchSize db₀ s' := by
  unfold execStep at h
  split at h
  · rename_i start next chunkEnd' last' tasks hpc
    obtain ⟨hl, ⟨k, hk⟩, hpos, hle, hend, hbelow, hheights, htasks⟩ :
      RangePc first last batchSize s.db (.working start next chunkEnd' last' tasks) := hpc ▸ hi.pc
    split at h
    · rename_i height stmt stmts ending htask
      split at h
      · rename_i db he
        cases h
        obtain ⟨hheight, hinv, hown⟩ := htasks _ (List.mem_of_getElem? htask)
        refine ⟨hi.batch, fun n hn => (hi.kept n hn).exec he, fun n hn hs => ?_, ?_⟩
        · -- a new row is the block of this task
          unfold Stored at hs
          rw [(exec_applied he).blocks, Table.get_insertNew, Option.isSome_or,
            Bool.or_eq_true] at hs
          rcases hs with hs | hs
          · exact hi.added n hn hs
          · obtain ⟨r, hr, hrn⟩ := (lookup_isSome _).mp hs
            have hrh := hown _ rfl stmt List.mem_cons_self r hr
            simp only at hrh hheight
            have hlt : height < 2 ^ 64 := by
              have := chunkEnd_le next batchSize last
              omega
            have hnh : n = height := by
              rw [← asU64_asI64 hn, ← asU64_asI64 hlt, ← hrn, hrh]
            subst hnh hk
            rw [hend] at hheight
            exact .inr ((mem_chunk_iff hpos hb hlast hle).mp hheight).1
        · refine ⟨hl, ⟨k, hk⟩, hpos, hle, hend, fun n hn hv => (hbelow n hn hv).exec he, ?_, ?_⟩
          · exact fun n hn hn' => heights_set htask (by rfl) (hheights n hn hn')
          · refine forall_mem_set (fun t ht => ⟨(htasks t ht).1, (htasks t ht).2.1.kept he,
              (htasks t ht).2.2⟩) ⟨hheight, hinv.advance he, fun p hp stmt' hstmt => ?_⟩
            cases hp
            exact hown _ rfl stmt' (List.mem_cons_of_mem _ hstmt)
      · cases h
        exact hi.goto trivial
    · cases h
  · cases h

/-- When all tasks are done, all heights of the chunk are stored. -/
theorem joinStep_range (hb : batchSize < 2 ^ 64) (hlast : last < 2 ^ 64)
    (hi : RangeInv first last batchSize db₀ s) (h : joinStep s = some s') :
    RangeInv first last batchSize db₀ s' := by
  unfold joinStep at h
  split at h
  · rename_i start next chunkEnd' last' tasks hpc
    obtain ⟨rfl, ⟨k, hk⟩, hpos, hle, hend, hbelow, hheights, htasks⟩ :
      RangePc first last batchSize s.db (.working start next chunkEnd' last' tasks) := hpc ▸ hi.pc
    split at h
    · rename_i hdone
      cases h
      refine hi.goto ⟨rfl, ⟨k, hk⟩, fun n hn hv => ?_⟩
      by_cases hnext : n < next
      · exact hbelow n hnext hv
      · subst hk hend
        obtain ⟨hlo, hhi⟩ := (mem_chunk_iff hpos hb hlast hle).mpr ⟨hv, by omega, hn⟩
        obtain ⟨t, ht, rfl⟩ := hheights n hlo hhi
        rcases (htasks t ht).2.1 _ (hdone t ht) rfl with ⟨_, _, hs⟩ | hs
        · cases hs
        · exact hs
    · cases h
  · cases h

theorem commitStep_range (hi : RangeInv first last batchSize db₀ s) (h : commitStep s = some s') :
    RangeInv first last batchSize db₀ s' := by
  unfold commitStep at h
  split at h
  · rename_i start next chunkEnd' last' hpc
    obtain ⟨hl, ⟨k, hk⟩, hbelow⟩ :
      RangePc first last batchSize s.db (.committing start next chunkEnd' last') := hpc ▸ hi.pc
    cases h
    refine ⟨hi.batch, hi.kept, hi.added, hl, ⟨k + 1, ?_⟩, ?_⟩
    · rw [hi.batch, hk, Nat.succ_mul]
      omega
    · rw [hi.batch]
      exact hbelow
  · cases h

theorem fixedRange_inv (hb : batchSize < 2 ^ 64) (hlast : last < 2 ^ 64)
    (hi : RangeInv first last batchSize db₀ s) {l : FollowLabel}
    (h : (fixedRange net R abi).step s l s') : RangeInv first last batchSize db₀ s' := by
  obtain ⟨hs, hl⟩ := h
  cases l with
  | reorg chain =>
    simp only [follow, LTS.ofFn, followStep] at hs
    split at hs <;> cases hs
    exact ⟨hi.batch, hi.kept, hi.added, hi.pc⟩
  | chunk => exact chunkStep_range hb hlast hi hs
  | fetch i a => exact fetchStep_range hi hs
  | exec i env => exact execStep_range hb hlast hi hs
  | join => exact joinStep_range hb hlast hi hs
  | commit => exact commitStep_range hi hs
  | start config => cases hl
  | stop => cases hl
  | detect hashAt => cases hl
  | rollback => cases hl
  | head n => cases hl
  | plan => cases hl

end Steps

/-- Within the requested range, what is not skipped is visited. -/
theorem visited_iff {checkpoint : Option Int} {fromBlock toBlock batchSize n : Nat}
    (hfrom : fromBlock ≤ n) (hto : n ≤ toBlock) :
    Visited (resumeBlock checkpoint fromBlock) toBlock batchSize n ↔
      ¬Skipped checkpoint fromBlock batchSize n := by
  have hresume : resumeBlock checkpoint fromBlock ≤ n ↔
      ¬∃ last ∈ checkpoint, asI64 fromBlock ≤ last ∧ n < asU64 (last + 1) := by
    cases checkpoint with
    | none => simpa [resumeBlock] using hfrom
    | some last =>
      simp only [resumeBlock, Option.mem_def, Option.some.injEq, exists_eq_left', not_and, not_lt]
      split
      · rename_i hle
        exact ⟨fun h _ => h, fun h => h hle⟩
      · rename_i hle
        exact ⟨fun _ h => absurd h hle, fun _ => hfrom⟩
  rw [Skipped, not_or, ← hresume]
  constructor
  · rintro ⟨hlo, -, hwrap⟩
    exact ⟨hlo, Nat.not_lt.mpr hwrap⟩
  · rintro ⟨hlo, hwrap⟩
    exact ⟨hlo, hto, Nat.not_lt.mp hwrap⟩

/-- **What a fixed range leaves stored.** For every requested range, from every database and
checkpoint: a run that ends with success has stored the whole range iff the heights it skips
were stored before. -/
theorem fixed_range_covered_iff (net : Network) (R : Runtime) (abi : Abi) (chain : Chain) (db : Db)
    (config : FollowConfig) (fromBlock toBlock : Nat) (hto : toBlock < 2 ^ 64)
    (hbatch : config.batchSize < 2 ^ 64) (ls : List FollowLabel) (s : Follow)
    (hrun : (fixedRange net R abi).Run (rangeStart chain db config fromBlock (some toBlock)) ls s)
    (hok : s.pc = .checking) :
    (∀ n, fromBlock ≤ n → n ≤ toBlock → Stored s.db n) ↔
      ∀ n, fromBlock ≤ n → n ≤ toBlock →
        Skipped db.checkpoint fromBlock config.batchSize n → Stored db n := by
  have hstart : RangeInv (resumeBlock db.checkpoint fromBlock) toBlock config.batchSize db
      (rangeStart chain db config fromBlock (some toBlock)) := by
    refine ⟨rfl, fun n h => h, fun n _ h => .inl h, ?_⟩
    change RangePc _ _ _ db (if toBlock < resumeBlock db.checkpoint fromBlock then _ else _)
    split
    · intro n hv
      have := hv.lower
      have := hv.upper
      omega
    · exact ⟨rfl, ⟨0, by simp [getLastCheckpoint]⟩,
        fun n hn hv => absurd hv.lower (Nat.not_le.mpr hn)⟩
  have hi := hrun.keeps (fun s l s' hi hs => fixedRange_inv hbatch hto hi hs) hstart
  have hpc : ∀ n, Visited (resumeBlock db.checkpoint fromBlock) toBlock config.batchSize n →
      Stored s.db n := by
    have := hi.pc
    rwa [hok] at this
  constructor
  · intro hall n hfrom hle hskip
    rcases hi.added n (by omega) (hall n hfrom hle) with hs | hv
    · exact hs
    · exact absurd hskip ((visited_iff hfrom hle).mp hv)
  · intro hskipped n hfrom hle
    by_cases hskip : Skipped db.checkpoint fromBlock config.batchSize n
    · exact hi.kept n (hskipped n hfrom hle hskip)
    · exact hpc n ((visited_iff hfrom hle).mpr hskip)

/-- A follow run that starts at height 4, the tip. -/
def tipRun : Option Follow :=
  LTS.exec emptyStep freshFollow (.start ⟨0, 3⟩ :: indexOne chainA 4 (blockHash 0xa4))

def tipDb : Db := (tipRun.get (by decide +kernel)).db

/-- Height 3 has been asked for before; now the range 3–4 is, on a fresh database. -/
def freshRange : Option Follow :=
  LTS.exec (LTS.guarded emptyStep fun _ l => l.indexing = true)
    (rangeStart chainA Db.empty ⟨0, 3⟩ 3 (some 4))
    [.chunk, .fetch 1 (answered (blockHash 0xa4)), .exec 1 liveEnv,
     .fetch 0 (answered (blockHash 0xa3)), .exec 0 liveEnv, .join, .commit, .chunk]

theorem freshRange_covered :
    (∀ n, 3 ≤ n → n ≤ 4 → Stored (freshRange.get (by decide +kernel)).db n) ↔
      ∀ n, 3 ≤ n → n ≤ 4 → Skipped Db.empty.checkpoint 3 3 n → Stored Db.empty n :=
  fixed_range_covered_iff emptyNet (.asciiOnly true) wordAbi chainA Db.empty ⟨0, 3⟩ 3 4 (by decide)
    (by decide) _ _ (LTS.run_of_guarded (Option.some_get _).symm) (by decide +kernel)

/-- The range 1–3 below it: the process ends at once, with success, and stores nothing. -/
theorem backfill_skipped :
    ¬ ∀ (net : Network) (R : Runtime) (abi : Abi) (chain : Chain) (db : Db) (config : FollowConfig)
      (fromBlock toBlock : Nat) (ls : List FollowLabel) (s : Follow), fromBlock ≤ toBlock →
      toBlock < 2 ^ 64 → config.batchSize < 2 ^ 64 →
      (fixedRange net R abi).Run (rangeStart chain db config fromBlock (some toBlock)) ls s →
      s.pc = .checking → ∀ n, fromBlock ≤ n → n ≤ toBlock → Stored s.db n := by
  intro h
  have hend : (rangeStart chainA tipDb ⟨0, 3⟩ 1 (some 3)).pc = .checking ∧
      ¬Stored (rangeStart chainA tipDb ⟨0, 3⟩ 1 (some 3)).db 1 := by
    decide +kernel
  exact hend.2 (h emptyNet (.asciiOnly true) wordAbi chainA tipDb ⟨0, 3⟩ 1 3 [] _ (by decide)
    (by decide) (by decide) (.nil _) hend.1 1 (by decide) (by decide))

end Amarillo.L3
