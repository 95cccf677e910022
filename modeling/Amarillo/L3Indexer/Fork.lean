import Amarillo.Core.Num
import Amarillo.L2Db.Queries

/-!
# The decisions of the follow loop (`indexer/src/worker.rs`)

Which range to index next (`nextTarget`, `capRangeTo`), how it is cut into
chunks (`chunkEnd`), and from which height on the stored blocks are off the
chain (`detectFork`).

`detectFork` reads the hashes of the chain lazily, tip first, in windows of 1,
4, 16, … blocks. Its requests are a partial view `hashAt`: `none` is a height
that could not be had, and then nothing is rolled back. The loop ends because
every window is wider than the last (`detectLoop_isSome`).

* `tip_of_detectFork`: no fork, with every hash at hand, means that the highest
  stored block is on the chain. It says nothing about the blocks below.
-/
namespace Amarillo.L3
open Amarillo.Core Amarillo.L2

/-! ## Ranges -/

/-- mirrors crates/indexer/src/worker.rs:738-753 -/
def nextTarget (head confirmations : Nat) (lastCheckpoint : Option Int) : Option (Nat × Nat) :=
  let safe := satSub head confirmations
  let resume :=
    match lastCheckpoint with
    | some c => satAdd (max c 0).toNat 1
    | none => safe
  if safe < resume then none else some (resume, safe)

def followCycleBlockCap : Nat := 500

/-- mirrors crates/indexer/src/worker.rs:721-731 -/
def capRangeTo (first last capBlocks : Nat) : Nat × Nat :=
  if capBlocks = 0 ∨ last < first then (first, last)
  else if satAdd (satSub last first) 1 ≤ capBlocks then (first, last)
  else (first, satSub (satAdd first capBlocks) 1)

/-- `(chunk_start + batch_size - 1).min(to_block)`; the sum wraps in a release
build.
mirrors crates/indexer/src/worker.rs:76 -/
def chunkEnd (chunkStart batchSize last : Nat) : Nat :=
  min ((chunkStart + batchSize - 1) % 2 ^ 64) last

theorem nextTarget_some {head confirmations : Nat} {c : Option Int} {first last : Nat}
    (h : nextTarget head confirmations c = some (first, last)) :
    last = head - confirmations ∧ first ≤ last ∧
      first = c.elim (head - confirmations) fun c => satAdd (max c 0).toNat 1 := by
  cases c <;> simp only [nextTarget] at h <;> split at h
  · cases h
  · cases h
    exact ⟨rfl, Nat.le_refl _, rfl⟩
  · cases h
  · rename_i hle
    cases h
    exact ⟨rfl, Nat.not_lt.mp hle, rfl⟩

theorem capRangeTo_le {first last capBlocks : Nat} (h : last < 2 ^ 63) (hcap : capBlocks < 2 ^ 63) :
    (capRangeTo first last capBlocks).1 = first ∧ (capRangeTo first last capBlocks).2 ≤ last := by
  unfold capRangeTo
  split
  · exact ⟨rfl, Nat.le_refl _⟩
  · split
    · exact ⟨rfl, Nat.le_refl _⟩
    · rename_i hc hs
      refine ⟨rfl, ?_⟩
      simp only [satAdd, satSub, U64_MAX] at hs ⊢
      omega

theorem chunkEnd_le (chunkStart batchSize last : Nat) : chunkEnd chunkStart batchSize last ≤ last :=
  Nat.min_le_right _ _

/-- Without a wrap a chunk reaches up to the next one, or to the end. -/
theorem chunkEnd_eq {chunkStart batchSize last : Nat} (h : chunkStart < 2 ^ 63)
    (hb : batchSize < 2 ^ 63) :
    chunkEnd chunkStart batchSize last = min (chunkStart + batchSize - 1) last := by
  unfold chunkEnd
  rw [Nat.mod_eq_of_lt (by omega)]

/-! ## Forks -/

def reorgScanCap : Nat := 4096

inductive ForkScan where
  | noReorg
  | fork (f : Nat)
  | inconclusive
  | needDeeper
  deriving DecidableEq, Repr

/-- What is said when a hash matches: the lowest mismatch above it. -/
def matchedAt : Option Nat → ForkScan
  | some f => .fork f
  | none => .noReorg

/-- mirrors crates/indexer/src/worker.rs:802-827 -/
def scanFork (hashAt : Nat → Option String) (deeper : Bool) :
    Option Nat → List (Nat × String) → ForkScan
  | lastMismatch, [] => if deeper then .needDeeper else matchedAt lastMismatch
  | lastMismatch, (height, storedHash) :: rest =>
    match hashAt height with
    | none => .inconclusive
    | some chainHash =>
      if chainHash = storedHash then matchedAt lastMismatch
      else scanFork hashAt deeper (some height) rest

/-- mirrors crates/indexer/src/worker.rs:793-828 -/
def classifyFork (blocks : List (Nat × String)) (hashAt : Nat → Option String) (depth : Nat) :
    ForkScan :=
  let n := min depth blocks.length
  if n = 0 then .noReorg else scanFork hashAt (n < blocks.length) none (blocks.take n)

/-- `Ord::clamp` -/
def clamp (x lo hi : Nat) : Nat := if x < lo then lo else if hi < x then hi else x

/-- mirrors crates/indexer/src/worker.rs:832-837 -/
def nextScanDepth (current max : Nat) : Nat :=
  if max ≤ current then max else clamp (min (current * 4) U64_MAX) (current + 1) max

/-- The loop of `detect_fork`; `none` without fuel.
mirrors crates/indexer/src/worker.rs:267-304 -/
def detectLoop (blocks : List (Nat × String)) (hashAt : Nat → Option String) :
    Nat → Nat → Option (Option Nat)
  | 0, _ => none
  | fuel + 1, depth =>
    if (blocks.take depth).all fun b => (hashAt b.1).isSome then
      match classifyFork blocks hashAt depth with
      | .noReorg => some none
      | .inconclusive => some none
      | .fork f => some (some f)
      | .needDeeper =>
        let next := nextScanDepth depth blocks.length
        if next = depth then some (blocks.getLast?.map Prod.fst)
        else detectLoop blocks hashAt fuel next
    else some none

/-- `recent_block_hashes`, with the heights as `u64`. -/
def recentBlocks (db : Db) (limit : Nat) : List (Nat × String) :=
  (recentBlockHashes db limit).map fun b => (asU64 b.1, b.2)

/-- mirrors crates/indexer/src/worker.rs:256-305 -/
def detectFork (blocks : List (Nat × String)) (hashAt : Nat → Option String) : Option Nat :=
  if blocks.isEmpty then none else (detectLoop blocks hashAt blocks.length 1).getD none

theorem nextScanDepth_gt {current max : Nat} (h : current < max) :
    current < nextScanDepth current max ∧ nextScanDepth current max ≤ max := by
  unfold nextScanDepth clamp
  rw [if_neg (by omega)]
  split
  · omega
  · split <;> omega

section Scan
variable {blocks : List (Nat × String)} {hashAt : Nat → Option String}

theorem scanFork_needDeeper {deeper : Bool} {m : Option Nat} :
    scanFork hashAt deeper m blocks = .needDeeper → deeper = true := by
  induction blocks generalizing m with
  | nil =>
    intro h
    unfold scanFork at h
    split at h
    · assumption
    · cases m <;> cases h
  | cons b rest ih =>
    intro h
    unfold scanFork at h
    split at h
    · cases h
    · split at h
      · cases m <;> cases h
      · exact ih h

theorem classifyFork_needDeeper {depth : Nat} (h : classifyFork blocks hashAt depth = .needDeeper) :
    depth < blocks.length := by
  unfold classifyFork at h
  simp only at h
  split at h
  · cases h
  · have := of_decide_eq_true (scanFork_needDeeper h)
    omega

/-- The fuel of `detectFork` is enough. -/
theorem detectLoop_isSome {fuel depth : Nat} (h : blocks.length < fuel + depth) (hf : 0 < fuel) :
    (detectLoop blocks hashAt fuel depth).isSome := by
  induction fuel generalizing depth with
  | zero => omega
  | succ fuel ih =>
    rw [detectLoop]
    split
    · split
      · rfl
      · rfl
      · rfl
      · rename_i hneed
        have hlt := classifyFork_needDeeper hneed
        have hgt := nextScanDepth_gt hlt
        simp only
        rw [if_neg (by omega)]
        exact ih (by omega) (by omega)
    · rfl

/-- A scan walks down through stale blocks. -/
theorem scanFork_append {deeper : Bool} {m : Option Nat} {stale rest : List (Nat × String)}
    (hall : ∀ b ∈ stale, (hashAt b.1).isSome) (hstale : ∀ b ∈ stale, hashAt b.1 ≠ some b.2) :
    scanFork hashAt deeper m (stale ++ rest) =
      scanFork hashAt deeper ((stale.getLast?.map Prod.fst).or m) rest := by
  induction stale generalizing m with
  | nil => simp
  | cons b bs ih =>
    obtain ⟨c, hc⟩ := Option.isSome_iff_exists.mp (hall b List.mem_cons_self)
    have hne : c ≠ b.2 := fun e => hstale b List.mem_cons_self (by rw [hc, e])
    rw [List.cons_append, scanFork, hc]
    simp only
    rw [if_neg hne, ih (fun x hx => hall x (List.mem_cons_of_mem _ hx))
      fun x hx => hstale x (List.mem_cons_of_mem _ hx)]
    cases bs with
    | nil => simp
    | cons x xs =>
      obtain ⟨y, hy⟩ := Option.isSome_iff_exists.mp
        (show (x :: xs).getLast?.isSome = true by simp)
      rw [List.getLast?_cons_cons, hy]
      simp

theorem scanFork_good {deeper : Bool} {m : Option Nat} {b : Nat × String}
    {rest : List (Nat × String)} (hb : hashAt b.1 = some b.2) :
    scanFork hashAt deeper m (b :: rest) = matchedAt m := by
  rw [scanFork, hb]
  simp

/-- Below a mismatch, with every hash at hand, the scan names a fork or goes on. -/
theorem scanFork_mismatch {deeper : Bool} {f : Nat} (hall : ∀ b ∈ blocks, (hashAt b.1).isSome) :
    scanFork hashAt deeper (some f) blocks ≠ .noReorg ∧
    scanFork hashAt deeper (some f) blocks ≠ .inconclusive := by
  induction blocks generalizing f with
  | nil => cases deeper <;> simp [scanFork, matchedAt]
  | cons b rest ih =>
    obtain ⟨height, storedHash⟩ := b
    obtain ⟨c, hc⟩ := Option.isSome_iff_exists.mp (hall _ List.mem_cons_self)
    simp only [scanFork, hc]
    split
    · simp [matchedAt]
    · exact ih fun b hb => hall b (List.mem_cons_of_mem _ hb)

theorem classifyFork_mismatch {tip : Nat × String} {rest : List (Nat × String)} {depth : Nat}
    (hall : ∀ b ∈ tip :: rest, (hashAt b.1).isSome) (hd : 0 < depth)
    (htip : hashAt tip.1 ≠ some tip.2) :
    classifyFork (tip :: rest) hashAt depth ≠ .noReorg ∧
    classifyFork (tip :: rest) hashAt depth ≠ .inconclusive := by
  obtain ⟨height, storedHash⟩ := tip
  obtain ⟨n, hn⟩ : ∃ n, min depth ((height, storedHash) :: rest).length = n + 1 :=
    ⟨min depth ((height, storedHash) :: rest).length - 1, by simp; omega⟩
  obtain ⟨c, hc⟩ := Option.isSome_iff_exists.mp (hall _ List.mem_cons_self)
  have hne : c ≠ storedHash := fun e => htip (by rw [hc, e])
  simp only [classifyFork, hn, List.take_succ_cons, scanFork, hc, if_neg hne]
  rw [if_neg (by omega)]
  exact scanFork_mismatch fun b hb => hall b (List.mem_cons_of_mem _ (List.mem_of_mem_take hb))

theorem detectLoop_mismatch {tip : Nat × String} {rest : List (Nat × String)} {fuel depth : Nat}
    {r : Option Nat} (hall : ∀ b ∈ tip :: rest, (hashAt b.1).isSome) (hd : 0 < depth)
    (htip : hashAt tip.1 ≠ some tip.2) (h : detectLoop (tip :: rest) hashAt fuel depth = some r) :
    r ≠ none := by
  induction fuel generalizing depth with
  | zero => cases h
  | succ fuel ih =>
    have hc := classifyFork_mismatch hall hd htip
    rw [detectLoop] at h
    split at h
    · split at h
      · rename_i hno
        exact absurd hno hc.1
      · rename_i hin
        exact absurd hin hc.2
      · cases h
        simp
      · simp only at h
        rename_i hneed
        split at h
        · cases h
          simp [List.getLast?_cons]
        · exact ih (Nat.lt_trans hd (nextScanDepth_gt (classifyFork_needDeeper hneed)).1) h
    · rename_i hnot
      refine absurd ?_ hnot
      exact List.all_eq_true.mpr fun b hb => hall b (List.mem_of_mem_take hb)

/-- No fork: the highest stored block is on the chain. -/
theorem tip_of_detectFork {tip : Nat × String} {rest : List (Nat × String)}
    (hall : ∀ b ∈ tip :: rest, (hashAt b.1).isSome) (h : detectFork (tip :: rest) hashAt = none) :
    hashAt tip.1 = some tip.2 := by
  by_contra htip
  have hsome : (detectLoop (tip :: rest) hashAt (tip :: rest).length 1).isSome :=
    detectLoop_isSome (by omega) (by simp)
  obtain ⟨r, hr⟩ := Option.isSome_iff_exists.mp hsome
  have hne := detectLoop_mismatch hall Nat.one_pos htip hr
  rw [detectFork, if_neg (by simp), hr] at h
  exact hne h

end Scan
end Amarillo.L3
