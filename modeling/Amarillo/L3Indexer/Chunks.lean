import Amarillo.Core.Decimal
import Amarillo.L3Indexer.Cycles

/-!
# One range and any batch size (`index_range`, `Config::from_env`)

`batchSizeFromEnv` takes whatever `parse::<usize>` accepts: any `usize` may be the batch
size. `chunkRange` is the loop of `index_range` over that batch size when no chunk fails
and nobody cancels: the chunks it processes, the checkpoints it writes and the progress
counter. The operators are those of either build (`Arith`): an overflow is a panic with
overflow checks; without them it wraps, and the run remembers that it did.

Results:
* `indexRange_eq_chunkRange`: the loop of a follow cycle is this one.
* `chunkRange_run`: a range is partitioned when its first chunk fits and it ends below
  `2 ^ 63`.
* `chunkRange_partitions_iff`: and only then.
* `chunkRange_breaks`: a `BATCH_SIZE` of 0, and one that wraps the end of a chunk to a
  height before its start.
-/
namespace Amarillo.L3
open Amarillo.Core

/-! ## The configuration -/

/-- mirrors crates/indexer/src/config.rs:51-54 -/
def batchSizeFromEnv (var : Option String) : Nat :=
  (var.bind fun v => parseUnsigned (2 ^ 64) v.toList).getD 100

/-! ## Unchecked operators -/

/-- A computation on `u64`: a panic, or a value and whether anything has wrapped. -/
abbrev Arith := StateT Bool Option

/-- `a + b` -/
def Arith.add (overflowChecks : Bool) (a b : Nat) : Arith Nat := fun wrapped =>
  if a + b < 2 ^ 64 then some (a + b, wrapped)
  else if overflowChecks then none
  else some ((a + b) % 2 ^ 64, true)

/-- `a - b` -/
def Arith.sub (overflowChecks : Bool) (a b : Nat) : Arith Nat := fun wrapped =>
  if b ≤ a then some (a - b, wrapped)
  else if overflowChecks then none
  else some ((a + 2 ^ 64 - b) % 2 ^ 64, true)

/-- A panic. -/
def Arith.panic {α : Type} : Arith α := fun _ => none

@[simp] theorem arith_pure {α : Type} (a : α) (wrapped : Bool) :
    (pure a : Arith α) wrapped = some (a, wrapped) := rfl

@[simp] theorem arith_bind {α β : Type} (x : Arith α) (f : α → Arith β) (wrapped : Bool) :
    (x >>= f) wrapped = (x wrapped).bind fun r => f r.1 r.2 := rfl

/-- What a computation that returns has gone through. -/
theorem arith_bind_some {α β : Type} {x : Arith α} {f : α → Arith β} {wrapped : Bool} {r : β × Bool}
    (h : (x >>= f) wrapped = some r) : ∃ a, x wrapped = some a ∧ f a.1 a.2 = some r :=
  Option.bind_eq_some_iff.mp h

section Operators
variable {overflowChecks : Bool} {a b : Nat} {wrapped : Bool}

theorem arith_add_of_lt (h : a + b < 2 ^ 64) :
    Arith.add overflowChecks a b wrapped = some (a + b, wrapped) := if_pos h

theorem arith_sub_of_le (h : b ≤ a) :
    Arith.sub overflowChecks a b wrapped = some (a - b, wrapped) := if_pos h

theorem arith_add_overflow (h : 2 ^ 64 ≤ a + b) {r : Nat × Bool}
    (hr : Arith.add overflowChecks a b wrapped = some r) : r.2 = true := by
  unfold Arith.add at hr
  rw [if_neg (by omega)] at hr
  split at hr
  · cases hr
  · cases hr
    rfl

end Operators

/-- Once something has wrapped, this is not forgotten. -/
def Sticky {α : Type} (x : Arith α) : Prop := ∀ r, x true = some r → r.2 = true

theorem sticky_pure {α : Type} (a : α) : Sticky (pure a) := by
  intro r hr
  cases hr
  rfl

theorem sticky_add (overflowChecks : Bool) (a b : Nat) : Sticky (Arith.add overflowChecks a b) := by
  intro r hr
  unfold Arith.add at hr
  split at hr
  · cases hr
    rfl
  · split at hr
    · cases hr
    · cases hr
      rfl

theorem sticky_sub (overflowChecks : Bool) (a b : Nat) : Sticky (Arith.sub overflowChecks a b) := by
  intro r hr
  unfold Arith.sub at hr
  split at hr
  · cases hr
    rfl
  · split at hr
    · cases hr
    · cases hr
      rfl

theorem Sticky.bind {α β : Type} {x : Arith α} {f : α → Arith β} (hx : Sticky x)
    (hf : ∀ a, Sticky (f a)) : Sticky (x >>= f) := by
  intro r hr
  obtain ⟨s, hs, hr⟩ := arith_bind_some hr
  rw [hx s hs] at hr
  exact hf s.1 r hr

theorem sticky_foldlM {α β : Type} {f : β → α → Arith β} (hf : ∀ b a, Sticky (f b a)) :
    ∀ (l : List α) (b : β), Sticky (l.foldlM f b)
  | [], b => sticky_pure b
  | a :: l, b => (hf b a).bind fun b' => sticky_foldlM hf l b'

/-! ## The loop -/

/-- What a call has done so far. -/
structure ChunkRun where
  chunks : List (Nat × Nat)
  checkpoints : List Int
  processed : Nat
  deriving DecidableEq, Repr

/-- `(from..=to).step_by(batch)` -/
def stepBy (first last batch : Nat) : Arith (List Nat) :=
  if batch = 0 then Arith.panic else pure (chunkStarts first last batch)

/-- mirrors crates/indexer/src/worker.rs:76-82 -/
def runChunk (overflowChecks : Bool) (batch last : Nat) (s : ChunkRun) (chunkStart : Nat) :
    Arith ChunkRun := do
  let sum ← Arith.add overflowChecks chunkStart batch
  let stop ← Arith.sub overflowChecks sum 1
  let chunkEnd := min stop last
  let diff ← Arith.sub overflowChecks chunkEnd chunkStart
  let size ← Arith.add overflowChecks diff 1
  let processed ← Arith.add overflowChecks s.processed size
  return {
    chunks := s.chunks ++ [(chunkStart, chunkEnd)]
    checkpoints := s.checkpoints ++ [asI64 chunkEnd]
    processed }

/-- The whole loop, with whether anything wrapped.
mirrors crates/indexer/src/worker.rs:63-88 -/
def chunkRange (overflowChecks : Bool) (batch first last : Nat) : Arith ChunkRun := do
  let _total ← Arith.add overflowChecks (satSub last first) 1
  let starts ← stepBy first last batch
  starts.foldlM (runChunk overflowChecks batch last) ⟨[], [], 0⟩

/-- The chunks are non-empty and adjacent, and hold each height of the range once. -/
structure Partition (first last : Nat) (chunks : List (Nat × Nat)) : Prop where
  nonempty : ∀ c ∈ chunks, c.1 ≤ c.2
  adjacent : chunks.IsChain fun c c' => c'.1 = c.2 + 1
  starts : chunks.head?.map Prod.fst = some first
  ends : chunks.getLast?.map Prod.snd = some last
  covers : (chunks.flatMap fun c => heights c.1 c.2) = heights first last

/-- The range is partitioned, the checkpoints grow up to its end, and nothing wrapped. -/
structure Partitioned (first last : Nat) (r : ChunkRun × Bool) : Prop where
  chunks : Partition first last r.1.chunks
  increasing : r.1.checkpoints.IsChain (· < ·)
  final : r.1.checkpoints.getLast? = some (last : Int)
  exact : r.2 = false

/-! ## The range of a cycle

`indexRange` is this loop with overflow checks: it keeps the last checkpoint only. -/

def ChunkRun.state (checkpoint : Option Int) (s : ChunkRun) : IndexState :=
  ⟨s.checkpoints.getLast?.or checkpoint, s.processed, s.chunks⟩

theorem arith_add_checked (a b : Nat) (wrapped : Bool) :
    Arith.add true a b wrapped = (addU64 a b).map (·, wrapped) := by
  unfold Arith.add addU64
  split <;> rfl

theorem arith_sub_checked (a b : Nat) (wrapped : Bool) :
    Arith.sub true a b wrapped = (subU64 a b).map (·, wrapped) := by
  unfold Arith.sub subU64
  split <;> rfl

theorem indexChunk_eq_runChunk (batch last chunkStart : Nat) (checkpoint : Option Int) (s : ChunkRun)
    (wrapped : Bool) :
    indexChunk batch last (s.state checkpoint) chunkStart =
      (runChunk true batch last s chunkStart wrapped).map fun r => r.1.state checkpoint := by
  unfold indexChunk runChunk width
  simp only [arith_bind, arith_add_checked, arith_sub_checked, Option.bind_eq_bind, Option.bind_map,
    Option.map_bind, Function.comp_def, arith_pure, Option.bind_assoc]
  simp [ChunkRun.state, pure]

theorem indexChunks_eq_runChunks (batch last : Nat) (checkpoint : Option Int) (l : List Nat)
    (s : ChunkRun) (wrapped : Bool) :
    l.foldlM (indexChunk batch last) (s.state checkpoint) =
      (l.foldlM (runChunk true batch last) s wrapped).map fun r => r.1.state checkpoint := by
  induction l generalizing s wrapped with
  | nil => rfl
  | cons chunkStart l ih =>
    rw [List.foldlM_cons, List.foldlM_cons, arith_bind, indexChunk_eq_runChunk _ _ _ _ _ wrapped]
    cases runChunk true batch last s chunkStart wrapped with
    | none => rfl
    | some r => exact ih r.1 r.2

theorem indexRange_eq_chunkRange {batch : Nat} (hb : 0 < batch) (first last : Nat)
    (checkpoint : Option Int) :
    indexRange batch first last checkpoint =
      (chunkRange true batch first last false).map fun r => r.1.state checkpoint := by
  unfold indexRange chunkRange stepBy
  rw [if_neg (by omega), arith_bind, arith_add_checked]
  cases addU64 (satSub last first) 1 with
  | none => rfl
  | some total =>
    exact indexChunks_eq_runChunks batch last checkpoint (chunkStarts first last batch) ⟨[], [], 0⟩ false

/-! ## A range that fits -/

theorem partition_single {first last : Nat} (h : first ≤ last) : Partition first last [(first, last)] where
  nonempty := by simpa using h
  adjacent := List.isChain_singleton _
  starts := rfl
  ends := rfl
  covers := by simp

theorem Partition.cons {first mid last : Nat} {chunks : List (Nat × Nat)} (hle : first ≤ mid)
    (hlt : mid < last) (h : Partition (mid + 1) last chunks) :
    Partition first last ((first, mid) :: chunks) where
  nonempty := List.forall_mem_cons.mpr ⟨hle, h.nonempty⟩
  adjacent := by
    cases chunks with
    | nil => exact List.isChain_singleton _
    | cons c cs => exact List.isChain_cons_cons.mpr ⟨Option.some.inj h.starts, h.adjacent⟩
  starts := rfl
  ends := by
    cases chunks with
    | nil => cases h.starts
    | cons c cs => exact h.ends
  covers := by
    rw [List.flatMap_cons, h.covers]
    exact heights_append (by omega) (by omega)

/-- Each chunk ends before the next one does. -/
theorem Partition.increasing {first last : Nat} {chunks : List (Nat × Nat)}
    (h : Partition first last chunks) :
    (chunks.map fun c => (c.2 : Int)).IsChain (· < ·) := by
  rw [List.isChain_map]
  obtain ⟨hle, hadj, -, -, -⟩ := h
  induction chunks with
  | nil => exact List.isChain_nil
  | cons c cs ih =>
    obtain ⟨-, hrest⟩ := List.forall_mem_cons.mp hle
    cases cs with
    | nil => exact List.isChain_singleton _
    | cons c' cs =>
      obtain ⟨hnext, hchain⟩ := List.isChain_cons_cons.mp hadj
      have hc' := hrest c' List.mem_cons_self
      exact List.isChain_cons_cons.mpr ⟨by omega, ih hrest hchain⟩

section Fits
variable {overflowChecks : Bool} {batch last : Nat} {wrapped : Bool}

theorem runChunk_eq {s : ChunkRun} {chunkStart : Nat} (hb : 0 < batch)
    (hfit : chunkStart + batch < 2 ^ 64) (hle : chunkStart ≤ last) (hlt : last < 2 ^ 63)
    (hp : s.processed + (last + 1 - chunkStart) < 2 ^ 64) :
    let chunkEnd := min (chunkStart + batch - 1) last
    runChunk overflowChecks batch last s chunkStart wrapped = some
      (⟨s.chunks ++ [(chunkStart, chunkEnd)], s.checkpoints ++ [(chunkEnd : Int)],
        s.processed + (chunkEnd + 1 - chunkStart)⟩, wrapped) := by
  intro chunkEnd
  have hend : chunkStart ≤ chunkEnd ∧ chunkEnd ≤ last := by omega
  have hsize : chunkEnd - chunkStart + 1 = chunkEnd + 1 - chunkStart := by omega
  unfold runChunk
  rw [arith_bind, arith_add_of_lt hfit, Option.bind_some, arith_bind, arith_sub_of_le (by simp only; omega),
    Option.bind_some, arith_bind, arith_sub_of_le hend.1, Option.bind_some, arith_bind,
    arith_add_of_lt (by simp only; omega), Option.bind_some, arith_bind,
    arith_add_of_lt (by simp only; omega), Option.bind_some, arith_pure, hsize]
  rw [asI64_of_lt (by omega)]

/-- The chunks from `first` on partition what is left of the range. -/
theorem runChunks_eq {n first : Nat} {s : ChunkRun} (hb : 0 < batch)
    (hfit : ∀ c ∈ List.range' first (n + 1) batch, c + batch < 2 ^ 64)
    (hn : first + n * batch ≤ last) (hn' : last < first + (n + 1) * batch) (hlt : last < 2 ^ 63)
    (hp : s.processed + (last + 1 - first) < 2 ^ 64) :
    ∃ chunks, Partition first last chunks ∧
      (List.range' first (n + 1) batch).foldlM (runChunk overflowChecks batch last) s wrapped = some
        (⟨s.chunks ++ chunks, s.checkpoints ++ chunks.map fun c => (c.2 : Int),
          s.processed + (last + 1 - first)⟩, wrapped) := by
  induction n generalizing first s with
  | zero =>
    have hend : min (first + batch - 1) last = last := by omega
    refine ⟨[(first, last)], partition_single (by omega), ?_⟩
    rw [List.range'_succ, List.foldlM_cons, arith_bind,
      runChunk_eq hb (hfit first (by simp)) (by omega) hlt hp, hend]
    rfl
  | succ n ih =>
    rw [Nat.succ_mul] at hn hn'
    have hend : min (first + batch - 1) last = first + batch - 1 := by omega
    have hnext : first + batch - 1 + 1 = first + batch := by omega
    rw [List.range'_succ] at hfit ⊢
    obtain ⟨hfirst, hrest⟩ := List.forall_mem_cons.mp hfit
    obtain ⟨chunks, hpart, hfold⟩ := ih
      (s := ⟨s.chunks ++ [(first, first + batch - 1)],
        s.checkpoints ++ [((first + batch - 1 : Nat) : Int)], s.processed + batch⟩)
      hrest (by omega) (by omega) (by simp only; omega)
    rw [← hnext] at hpart
    refine ⟨(first, first + batch - 1) :: chunks, hpart.cons (by omega) (by omega), ?_⟩
    have hsize : first + batch - 1 + 1 - first = batch := by omega
    have hcount : s.processed + batch + (last + 1 - (first + batch)) =
        s.processed + (last + 1 - first) := by omega
    rw [List.foldlM_cons, arith_bind, runChunk_eq hb hfirst (by omega) hlt hp, hend, hsize,
      Option.bind_some, hfold, hcount]
    simp only [List.append_assoc, List.singleton_append, List.map_cons]

theorem chunkRange_run {first : Nat} (hb : 0 < batch) (hfit : first + batch < 2 ^ 64)
    (hle : first ≤ last) (hlt : last < 2 ^ 63) :
    ∃ r, chunkRange overflowChecks batch first last false = some r ∧ Partitioned first last r := by
  have hdiv := Nat.div_add_mod (last - first) batch
  have hmod := Nat.mod_lt (last - first) hb
  have hcomm := Nat.mul_comm batch ((last - first) / batch)
  obtain ⟨chunks, hpart, hfold⟩ := @runChunks_eq overflowChecks batch last false _ _ ⟨[], [], 0⟩ hb
    (chunkStarts_fit hb hfit hle hlt) (by omega) (by rw [Nat.succ_mul]; omega) hlt (by simp only; omega)
  refine ⟨(⟨chunks, chunks.map fun c => (c.2 : Int), last + 1 - first⟩, false), ?_,
    ⟨hpart, hpart.increasing, ?_, rfl⟩⟩
  · unfold chunkRange
    rw [arith_bind, arith_add_of_lt (by unfold satSub; omega), Option.bind_some, arith_bind, stepBy,
      if_neg (by omega), arith_pure, Option.bind_some, chunkStarts, if_neg (by omega), hfold]
    simp only [List.nil_append, Nat.zero_add]
  · have hends := hpart.ends
    rw [List.getLast?_map]
    rw [Option.map_eq_some_iff] at hends ⊢
    obtain ⟨c, hc, rfl⟩ := hends
    exact ⟨c, hc, rfl⟩

end Fits

/-! ## Ranges that do not fit -/

section Breaks
variable {overflowChecks : Bool} {batch first last : Nat}

theorem sticky_runChunk (s : ChunkRun) (chunkStart : Nat) :
    Sticky (runChunk overflowChecks batch last s chunkStart) := by
  unfold runChunk
  exact (sticky_add _ _ _).bind fun _ => (sticky_sub _ _ _).bind fun _ =>
    (sticky_sub _ _ _).bind fun _ => (sticky_add _ _ _).bind fun _ =>
    (sticky_add _ _ _).bind fun _ => sticky_pure _

/-- A first chunk that does not fit leaves its mark. -/
theorem chunkRange_overflow (hle : first ≤ last) (hfit : 2 ^ 64 ≤ first + batch) {r : ChunkRun × Bool}
    (h : chunkRange overflowChecks batch first last false = some r) : r.2 = true := by
  unfold chunkRange at h
  obtain ⟨total, -, h⟩ := arith_bind_some h
  obtain ⟨starts, hstarts, h⟩ := arith_bind_some h
  have hstarts' : starts.1 = chunkStarts first last batch := by
    unfold stepBy at hstarts
    split at hstarts
    · cases hstarts
    · cases hstarts
      rfl
  rw [hstarts', chunkStarts, if_neg (by omega), List.range'_succ, List.foldlM_cons] at h
  obtain ⟨s, hs, h⟩ := arith_bind_some h
  obtain ⟨sum, hsum, hs⟩ := arith_bind_some hs
  -- what follows the wrapped sum keeps the mark
  have hmark := arith_add_overflow hfit hsum
  rw [hmark] at hs
  have hs' := ((sticky_sub _ _ _).bind fun _ => (sticky_sub _ _ _).bind fun _ =>
    (sticky_add _ _ _).bind fun _ => (sticky_add _ _ _).bind fun _ => sticky_pure _) s hs
  rw [hs'] at h
  exact sticky_foldlM sticky_runChunk _ _ r h

/-- What a chunk writes. -/
theorem runChunk_cases {s : ChunkRun} {chunkStart : Nat} {wrapped : Bool} {r : ChunkRun × Bool}
    (h : runChunk overflowChecks batch last s chunkStart wrapped = some r) :
    ∃ chunkEnd, r.1.chunks = s.chunks ++ [(chunkStart, chunkEnd)] ∧
      r.1.checkpoints = s.checkpoints ++ [asI64 chunkEnd] := by
  obtain ⟨sum, -, h⟩ := arith_bind_some h
  obtain ⟨stop, -, h⟩ := arith_bind_some h
  obtain ⟨diff, -, h⟩ := arith_bind_some h
  obtain ⟨size, -, h⟩ := arith_bind_some h
  obtain ⟨processed, -, h⟩ := arith_bind_some h
  cases h
  exact ⟨_, rfl, rfl⟩

/-- A checkpoint is an `i64`. -/
theorem runChunks_checkpoints {l : List Nat} {s : ChunkRun} {wrapped : Bool} {r : ChunkRun × Bool}
    (h : l.foldlM (runChunk overflowChecks batch last) s wrapped = some r)
    (hs : ∀ c ∈ s.checkpoints, c < 2 ^ 63) : ∀ c ∈ r.1.checkpoints, c < 2 ^ 63 := by
  induction l generalizing s wrapped with
  | nil =>
    cases h
    exact hs
  | cons chunkStart l ih =>
    rw [List.foldlM_cons] at h
    obtain ⟨s', hs', h⟩ := arith_bind_some h
    obtain ⟨chunkEnd, -, hcheckpoints⟩ := runChunk_cases hs'
    refine ih h ?_
    rw [hcheckpoints]
    intro c hc
    rcases List.mem_append.mp hc with hc | hc
    · exact hs c hc
    · rw [List.mem_singleton.mp hc]
      exact asI64_lt chunkEnd

theorem chunkRange_checkpoints {r : ChunkRun × Bool}
    (h : chunkRange overflowChecks batch first last false = some r) :
    ∀ c ∈ r.1.checkpoints, c < 2 ^ 63 := by
  obtain ⟨total, -, h⟩ := arith_bind_some h
  obtain ⟨starts, -, h⟩ := arith_bind_some h
  exact runChunks_checkpoints h (List.forall_mem_nil _)

theorem chunkRange_zero : chunkRange overflowChecks 0 first last false = none := by
  unfold chunkRange
  rw [arith_bind]
  cases Arith.add overflowChecks (satSub last first) 1 false with
  | none => rfl
  | some total => rfl

end Breaks

/-- **Chunking partitions the range, when it does.** For every range of heights, every value
of `BATCH_SIZE` and both builds: `index_range` visits non-empty, adjacent chunks that cover
exactly the range, writes growing checkpoints up to its end, and neither panics nor wraps, if
and only if the batch size is not 0, `from + batch_size` fits in 64 bits and the end of the
range fits the checkpoint column. -/
theorem chunkRange_partitions_iff (overflowChecks : Bool) (batchVar : Option String)
    (first last : Nat) (hle : first ≤ last) :
    (∃ r, chunkRange overflowChecks (batchSizeFromEnv batchVar) first last false = some r ∧
      Partitioned first last r) ↔
    0 < batchSizeFromEnv batchVar ∧ first + batchSizeFromEnv batchVar < 2 ^ 64 ∧ last < 2 ^ 63 := by
  generalize batchSizeFromEnv batchVar = batch
  constructor
  · rintro ⟨r, hr, hpart⟩
    refine ⟨Nat.pos_of_ne_zero ?_, Nat.lt_of_not_le fun hover => ?_, ?_⟩
    · rintro rfl
      rw [chunkRange_zero] at hr
      cases hr
    · have hwrapped := chunkRange_overflow hle hover hr
      rw [hpart.exact] at hwrapped
      cases hwrapped
    · have := chunkRange_checkpoints hr last (List.mem_of_getLast? hpart.final)
      omega
  · rintro ⟨hb, hfit, hlt⟩
    exact chunkRange_run hb hfit hle hlt

theorem chunkRange_partitions_three :
    (∃ r, chunkRange true (batchSizeFromEnv (some "3")) 5 11 false = some r ∧ Partitioned 5 11 r) ↔
      0 < batchSizeFromEnv (some "3") ∧ 5 + batchSizeFromEnv (some "3") < 2 ^ 64 ∧ 11 < 2 ^ 63 :=
  chunkRange_partitions_iff true (some "3") 5 11 (by decide)

/-- `BATCH_SIZE=0` panics. With `BATCH_SIZE=18446744073709551615` the first chunk from height 2
panics with overflow checks; without them it ends at 0, and so does the checkpoint. -/
theorem chunkRange_breaks :
    ¬(∃ r, chunkRange false (batchSizeFromEnv (some "0")) 2 3 false = some r ∧ Partitioned 2 3 r) ∧
    ¬(∃ r, chunkRange true (batchSizeFromEnv (some "18446744073709551615")) 2 3 false = some r ∧
      Partitioned 2 3 r) ∧
    chunkRange false (batchSizeFromEnv (some "18446744073709551615")) 2 3 false =
      some (⟨[(2, 0)], [0], 18446744073709551615⟩, true) := by
  refine ⟨?_, ?_, ?_⟩
  · have hrun : chunkRange false (batchSizeFromEnv (some "0")) 2 3 false = none := by decide +kernel
    rintro ⟨r, hr, -⟩
    rw [hrun] at hr
    cases hr
  · have hrun : chunkRange true (batchSizeFromEnv (some "18446744073709551615")) 2 3 false = none := by
      decide +kernel
    rintro ⟨r, hr, -⟩
    rw [hrun] at hr
    cases hr
  · decide +kernel

end Amarillo.L3
