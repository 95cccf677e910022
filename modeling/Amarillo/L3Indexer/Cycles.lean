import Amarillo.L3Indexer.Fork

/-!
# The ranges of successive cycles (`follow`, `index_range`)

The arithmetic of the follow loop without the database behind it: `followCycle`
takes the observed head, asks `nextTarget` and `capRangeTo` for a range, lets
`indexRange` cut it into chunks and keeps the checkpoint of the last one. The
unchecked `u64` operations of the source are `addU64` and `subU64`, which give
`none` where the result does not fit: a panic with overflow checks, a wrong
number without. The counters of the progress lines are part of it, the counter
of cycles is not.

`ranges` is what the cycles plan, from the heads alone. Every range but the
first starts behind the last checkpoint, so they tile (`tiles_ranges`).

Results, for heads below `2 ^ 63`:
* `cycles_tile_iff`: the cycles index a tiling without overflow exactly if
  `a + batch_size` fits in 64 bits for every start `a` of a range.
* `hugeBatch_overflows`: an unchecked `BATCH_SIZE` makes the first chunk
  overflow.
-/
namespace Amarillo.L3
open Amarillo.Core Amarillo.L2

/-- `a + b` on `u64`. -/
def addU64 (a b : Nat) : Option Nat := if a + b < 2 ^ 64 then some (a + b) else none

/-- `a - b` on `u64`. -/
def subU64 (a b : Nat) : Option Nat := if b ≤ a then some (a - b) else none

/-- `last - first + 1` -/
def width (first last : Nat) : Option Nat := (subU64 last first).bind (addU64 · 1)

theorem addU64_of_lt {a b : Nat} (h : a + b < 2 ^ 64) : addU64 a b = some (a + b) := if_pos h

theorem subU64_of_le {a b : Nat} (h : b ≤ a) : subU64 a b = some (a - b) := if_pos h

theorem width_of_le {first last : Nat} (h : first ≤ last) (hlt : last < 2 ^ 63) :
    width first last = some (last + 1 - first) := by
  rw [width, subU64_of_le h, Option.bind_some, addU64_of_lt (by omega)]
  congr 1
  omega

/-! ## One range -/

/-- The heights of a range. -/
def heights (first last : Nat) : List Nat := List.range' first (last + 1 - first)

theorem heights_append {first mid last : Nat} (h : first ≤ mid + 1) (h' : mid ≤ last) :
    heights first mid ++ heights (mid + 1) last = heights first last := by
  have hcount : last + 1 - first = (mid + 1 - first) + (last + 1 - (mid + 1)) := by omega
  have hstart : first + 1 * (mid + 1 - first) = mid + 1 := by omega
  rw [heights, heights, heights, hcount, ← List.range'_append, hstart]

/-- `(first..=last).step_by(batch)` -/
def chunkStarts (first last batch : Nat) : List Nat :=
  if last < first then [] else List.range' first ((last - first) / batch + 1) batch

structure IndexState where
  checkpoint : Option Int
  processed : Nat
  chunks : List (Nat × Nat)
  deriving DecidableEq, Repr

/-- One chunk, processed and checkpointed.
mirrors crates/indexer/src/worker.rs:66-81 -/
def indexChunk (batch last : Nat) (s : IndexState) (chunkStart : Nat) : Option IndexState := do
  let sum ← addU64 chunkStart batch
  let stop ← subU64 sum 1
  let chunkEnd := min stop last
  let size ← width chunkStart chunkEnd
  let processed ← addU64 s.processed size
  return { checkpoint := some (asI64 chunkEnd), processed, chunks := s.chunks ++ [(chunkStart, chunkEnd)] }

/-- mirrors crates/indexer/src/worker.rs:55-84 -/
def indexRange (batch first last : Nat) (checkpoint : Option Int) : Option IndexState := do
  let _total ← addU64 (satSub last first) 1
  (chunkStarts first last batch).foldlM (indexChunk batch last) ⟨checkpoint, 0, []⟩

section Range
variable {batch last : Nat}

theorem indexChunk_eq {s : IndexState} {chunkStart : Nat} (hb : 0 < batch)
    (hfit : chunkStart + batch < 2 ^ 64) (hle : chunkStart ≤ last) (hlt : last < 2 ^ 63)
    (hp : s.processed + (last + 1 - chunkStart) < 2 ^ 64) :
    indexChunk batch last s chunkStart = some
      { checkpoint := some (min (chunkStart + batch - 1) last : Nat)
        processed := s.processed + (min (chunkStart + batch - 1) last + 1 - chunkStart)
        chunks := s.chunks ++ [(chunkStart, min (chunkStart + batch - 1) last)] } := by
  unfold indexChunk
  simp only [Option.bind_eq_bind]
  rw [addU64_of_lt hfit, Option.bind_some, subU64_of_le (by omega), Option.bind_some,
    width_of_le (by omega) (by omega), Option.bind_some, addU64_of_lt (by omega),
    asI64_of_lt (by omega)]
  rfl

/-- The chunks from `first` on tile what is left of the range. -/
theorem indexChunks_eq {n first : Nat} {s : IndexState} (hb : 0 < batch)
    (hfit : ∀ c ∈ List.range' first (n + 1) batch, c + batch < 2 ^ 64)
    (hn : first + n * batch ≤ last) (hn' : last < first + (n + 1) * batch) (hlt : last < 2 ^ 63)
    (hp : s.processed + (last + 1 - first) < 2 ^ 64) :
    ∃ chunks, (List.range' first (n + 1) batch).foldlM (indexChunk batch last) s = some
        { checkpoint := some (last : Nat)
          processed := s.processed + (last + 1 - first)
          chunks := s.chunks ++ chunks } ∧
      (chunks.flatMap fun c => heights c.1 c.2) = heights first last := by
  induction n generalizing first s with
  | zero =>
    have hend : min (first + batch - 1) last = last := by omega
    refine ⟨[(first, last)], ?_, by simp⟩
    rw [List.range'_succ, List.foldlM_cons, indexChunk_eq hb (hfit first (by simp)) (by omega) hlt hp,
      hend]
    rfl
  | succ n ih =>
    rw [Nat.succ_mul] at hn hn'
    have hend : min (first + batch - 1) last = first + batch - 1 := by omega
    have hsize : first + batch - 1 + 1 - first = batch := by omega
    have hnext : first + batch - 1 + 1 = first + batch := by omega
    rw [List.range'_succ] at hfit ⊢
    obtain ⟨hfirst, hrest⟩ := List.forall_mem_cons.mp hfit
    rw [List.foldlM_cons, indexChunk_eq hb hfirst (by omega) hlt hp, hend, hsize]
    obtain ⟨chunks, hfold, hheights⟩ := ih
      (s := ⟨some (first + batch - 1 : Nat), s.processed + batch,
        s.chunks ++ [(first, first + batch - 1)]⟩)
      hrest (by omega) (by omega) (by simp only; omega)
    refine ⟨(first, first + batch - 1) :: chunks, ?_, ?_⟩
    · rw [Option.bind_eq_bind, Option.bind_some, hfold]
      simp only [List.append_assoc, List.singleton_append, Option.some.injEq, IndexState.mk.injEq,
        and_true, true_and]
      omega
    · rw [List.flatMap_cons, hheights, ← hnext]
      exact heights_append (by omega) (by omega)

/-- When the first chunk fits, they all do. -/
theorem chunkStarts_fit {first : Nat} (hb : 0 < batch) (hfit : first + batch < 2 ^ 64)
    (hle : first ≤ last) (hlt : last < 2 ^ 63) :
    ∀ c ∈ List.range' first ((last - first) / batch + 1) batch, c + batch < 2 ^ 64 := by
  have hdiv := Nat.div_add_mod (last - first) batch
  have hmod := Nat.mod_lt (last - first) hb
  intro c hc
  obtain ⟨k, hk, rfl⟩ := List.mem_range'.mp hc
  by_cases hbig : batch ≤ 2 ^ 63
  · -- every start is at most `last`
    have : batch * k ≤ batch * ((last - first) / batch) := Nat.mul_le_mul_left batch (by omega)
    omega
  · -- the batch is wider than the range
    have hzero : (last - first) / batch = 0 := Nat.div_eq_of_lt (by omega)
    rw [hzero] at hk
    have : k = 0 := by omega
    subst this
    omega

/-- A range whose first chunk fits is indexed as a whole, each height once. -/
theorem indexRange_eq {first : Nat} (checkpoint : Option Int) (hb : 0 < batch)
    (hfit : first + batch < 2 ^ 64) (hle : first ≤ last) (hlt : last < 2 ^ 63) :
    ∃ chunks, indexRange batch first last checkpoint = some
        { checkpoint := some (last : Nat), processed := last + 1 - first, chunks } ∧
      (chunks.flatMap fun c => heights c.1 c.2) = heights first last := by
  have hdiv := Nat.div_add_mod (last - first) batch
  have hmod := Nat.mod_lt (last - first) hb
  have hcomm := Nat.mul_comm batch ((last - first) / batch)
  obtain ⟨chunks, hfold, hheights⟩ := indexChunks_eq (s := ⟨checkpoint, 0, []⟩) hb
    (chunkStarts_fit hb hfit hle hlt)
    (by omega) (by rw [Nat.succ_mul]; omega) hlt (by simp only; omega)
  refine ⟨chunks, ?_, hheights⟩
  rw [indexRange, addU64_of_lt (by unfold satSub; omega), Option.bind_eq_bind, Option.bind_some,
    chunkStarts, if_neg (by omega), hfold]
  simp

/-- The first chunk decides. -/
theorem indexRange_none {first : Nat} (checkpoint : Option Int) (hfit : 2 ^ 64 ≤ first + batch)
    (hle : first ≤ last) : indexRange batch first last checkpoint = none := by
  have hsum : addU64 first batch = none := if_neg (by omega)
  have hchunk (s : IndexState) : indexChunk batch last s first = none := by
    rw [indexChunk, hsum]
    rfl
  rw [indexRange, chunkStarts, if_neg (by omega), List.range'_succ, List.foldlM_cons, hchunk]
  cases addU64 (satSub last first) 1 with
  | none => rfl
  | some n => rfl

end Range

/-! ## Cycles -/

/-- A range and the head it was planned at. -/
structure CycleRange where
  head : Nat
  first : Nat
  last : Nat
  deriving DecidableEq, Repr

structure CycleState where
  checkpoint : Option Int
  ranges : List CycleRange
  chunks : List (Nat × Nat)
  blocksIndexed : Nat
  deriving DecidableEq, Repr

def CycleState.init : CycleState := ⟨none, [], [], 0⟩

/-- mirrors crates/indexer/src/worker.rs:162-182 -/
def followCycle (confirmations batch : Nat) (s : CycleState) (head : Nat) : Option CycleState :=
  match nextTarget head confirmations s.checkpoint with
  | none => some s
  | some (first, last) => do
    let range := capRangeTo first last followCycleBlockCap
    let r ← indexRange batch range.1 range.2 s.checkpoint
    let indexedThisCycle ← width range.1 range.2
    let blocksIndexed ← addU64 s.blocksIndexed indexedThisCycle
    return {
      checkpoint := r.checkpoint
      ranges := s.ranges ++ [⟨head, range.1, range.2⟩]
      chunks := s.chunks ++ r.chunks
      blocksIndexed }

def followCycles (confirmations batch : Nat) (heads : List Nat) : Option CycleState :=
  heads.foldlM (followCycle confirmations batch) .init

/-- The ranges of the cycles when each range is indexed to its end. -/
def ranges (confirmations : Nat) : List Nat → Option Int → List CycleRange
  | [], _ => []
  | head :: heads, checkpoint =>
    match nextTarget head confirmations checkpoint with
    | none => ranges confirmations heads checkpoint
    | some (first, last) =>
      let range := capRangeTo first last followCycleBlockCap
      ⟨head, range.1, range.2⟩ :: ranges confirmations heads (some (range.2 : Int))

section Cycles
variable {confirmations batch : Nat}

theorem capRangeTo_eq {first last : Nat} (hle : first ≤ last) (hlt : last < 2 ^ 63) :
    capRangeTo first last followCycleBlockCap = (first, min last (first + followCycleBlockCap - 1)) := by
  unfold capRangeTo satAdd satSub U64_MAX followCycleBlockCap
  rw [if_neg (by omega)]
  by_cases hspan : last - first + 1 ≤ 500
  · rw [if_pos (by omega), min_eq_left (by omega)]
  · have hend : min (first + 500) (2 ^ 64 - 1) - 1 = min last (first + 500 - 1) := by omega
    rw [if_neg (by omega), hend]

/-- The first height that a checkpoint leaves open. -/
def resumeAt (head confirmations : Nat) (c : Option Nat) : Nat :=
  c.elim (head - confirmations) (· + 1)

theorem nextTarget_eq {head : Nat} {c : Option Nat} (hc : ∀ x ∈ c, x < 2 ^ 63) :
    nextTarget head confirmations (c.map Nat.cast) =
      if head - confirmations < resumeAt head confirmations c then none
      else some (resumeAt head confirmations c, head - confirmations) := by
  cases c with
  | none => rfl
  | some x =>
    have hx := hc x rfl
    have hsat : satAdd (max (x : Int) 0).toNat 1 = x + 1 := by
      unfold satAdd U64_MAX
      omega
    simp only [nextTarget, Option.map_some, hsat, satSub, resumeAt, Option.elim_some]
    rfl

/-- What is planned at one head. -/
theorem ranges_cons {head : Nat} {heads : List Nat} {c : Option Nat} (hc : ∀ x ∈ c, x < 2 ^ 63)
    (hhead : head < 2 ^ 63) :
    ranges confirmations (head :: heads) (c.map Nat.cast) =
      if head - confirmations < resumeAt head confirmations c then
        ranges confirmations heads (c.map Nat.cast)
      else
        let first := resumeAt head confirmations c
        let last := min (head - confirmations) (first + followCycleBlockCap - 1)
        ⟨head, first, last⟩ :: ranges confirmations heads ((some last).map Nat.cast) := by
  rw [ranges, nextTarget_eq hc]
  by_cases hlow : head - confirmations < resumeAt head confirmations c
  · rw [if_pos hlow, if_pos hlow]
  · rw [if_neg hlow, if_neg hlow]
    simp only
    rw [capRangeTo_eq (by omega) (by omega)]
    rfl

/-! ## The planned ranges tile -/

/-- Ranges that follow each other, each within the cap and below the head it
was planned at. -/
structure TiledFrom (confirmations : Nat) (start : Option Nat) (rs : List CycleRange) : Prop where
  starts : ∀ x ∈ start, ∀ r ∈ rs.head?, r.first = x
  adjacent : rs.IsChain fun r r' => r'.first = r.last + 1
  capped : ∀ r ∈ rs, r.first ≤ r.last ∧ r.last + 1 - r.first ≤ followCycleBlockCap
  confirmed : ∀ r ∈ rs, r.last ≤ r.head - confirmations

theorem tiledFrom_cons {start : Option Nat} {r : CycleRange} {rs : List CycleRange}
    (hstart : ∀ x ∈ start, r.first = x) (hle : r.first ≤ r.last)
    (hcap : r.last + 1 - r.first ≤ followCycleBlockCap) (hconf : r.last ≤ r.head - confirmations)
    (h : TiledFrom confirmations (some (r.last + 1)) rs) :
    TiledFrom confirmations start (r :: rs) where
  starts x hx r' hr' := by
    cases hr'
    exact hstart x hx
  adjacent := by
    cases rs with
    | nil => exact List.isChain_singleton r
    | cons r' rs => exact List.isChain_cons_cons.mpr ⟨h.starts _ rfl r' rfl, h.adjacent⟩
  capped := List.forall_mem_cons.mpr ⟨⟨hle, hcap⟩, h.capped⟩
  confirmed := List.forall_mem_cons.mpr ⟨hconf, h.confirmed⟩

/-- From a checkpoint on the ranges start behind it. -/
theorem tiles_ranges (confirmations : Nat) {heads : List Nat} {c : Option Nat} (hc : ∀ x ∈ c, x < 2 ^ 63)
    (hheads : ∀ h ∈ heads, h < 2 ^ 63) :
    TiledFrom confirmations (c.map (· + 1)) (ranges confirmations heads (c.map Nat.cast)) := by
  induction heads generalizing c with
  | nil => exact ⟨by simp [ranges], List.isChain_nil, by simp [ranges], by simp [ranges]⟩
  | cons head heads ih =>
    obtain ⟨hhead, hrest⟩ := List.forall_mem_cons.mp hheads
    rw [ranges_cons hc hhead]
    split
    · exact ih hc hrest
    · simp only
      have hcap : followCycleBlockCap = 500 := rfl
      refine tiledFrom_cons ?_ (by simp only; omega) (by simp only; omega) (by simp only; omega) ?_
      · intro x hx
        cases c with
        | none => cases hx
        | some y =>
          cases hx
          rfl
      · exact ih (c := some _) (by intro x hx; cases hx; simp only; omega) hrest

/-- A head plans at most one range. -/
theorem ranges_heads (heads : List Nat) (checkpoint : Option Int) :
    ((ranges confirmations heads checkpoint).map CycleRange.head).Sublist heads := by
  induction heads generalizing checkpoint with
  | nil => exact List.nil_sublist _
  | cons head heads ih =>
    rw [ranges]
    split
    · exact (ih checkpoint).cons head
    · exact (ih _).cons_cons head

/-- Heights of adjacent ranges are consecutive. -/
theorem heights_tiled {r : CycleRange} {rs : List CycleRange}
    (hadj : (r :: rs).IsChain fun r r' => r'.first = r.last + 1)
    (hle : ∀ x ∈ r :: rs, x.first ≤ x.last) :
    ∃ last, r.last ≤ last ∧
      ((r :: rs).flatMap fun x => heights x.first x.last) = heights r.first last := by
  induction rs generalizing r with
  | nil => exact ⟨r.last, Nat.le_refl _, by simp⟩
  | cons r' rs ih =>
    obtain ⟨hnext, hchain⟩ := List.isChain_cons_cons.mp hadj
    obtain ⟨hr, hrest⟩ := List.forall_mem_cons.mp hle
    obtain ⟨last, hlast, heq⟩ := ih hchain hrest
    have hr' := hrest r' List.mem_cons_self
    refine ⟨last, by omega, ?_⟩
    rw [List.flatMap_cons, heq, hnext]
    exact heights_append (by omega) (by omega)

/-- No height twice and none left out. -/
theorem heights_consecutive {start : Option Nat} {rs : List CycleRange}
    (h : TiledFrom confirmations start rs) :
    ∃ first n, (rs.flatMap fun x => heights x.first x.last) = List.range' first n := by
  cases rs with
  | nil => exact ⟨0, 0, rfl⟩
  | cons r rs =>
    obtain ⟨last, -, heq⟩ := heights_tiled h.adjacent fun x hx => (h.capped x hx).1
    exact ⟨r.first, last + 1 - r.first, heq⟩

/-! ## The cycles index what is planned -/

/-- The checkpoint as a height, and room for the counter. -/
structure CycleInv (s : CycleState) (c : Option Nat) : Prop where
  checkpoint : s.checkpoint = c.map Nat.cast
  bound : ∀ x ∈ c, x < 2 ^ 63
  counted : s.blocksIndexed ≤ c.elim 0 (· + 1)

/-- One cycle: nothing to do, or the range planned at this head. -/
theorem followCycle_eq (confirmations : Nat) {s : CycleState} {c : Option Nat} (h : CycleInv s c) {head : Nat}
    (hb : 0 < batch) (hhead : head < 2 ^ 63) :
    let first := resumeAt head confirmations c
    let last := min (head - confirmations) (first + followCycleBlockCap - 1)
    (head - confirmations < first → followCycle confirmations batch s head = some s) ∧
    (first ≤ head - confirmations → 2 ^ 64 ≤ first + batch →
      followCycle confirmations batch s head = none) ∧
    (first ≤ head - confirmations → first + batch < 2 ^ 64 →
      ∃ s', followCycle confirmations batch s head = some s' ∧ CycleInv s' (some last) ∧
        s'.ranges = s.ranges ++ [⟨head, first, last⟩] ∧
        (s'.chunks.flatMap fun x => heights x.1 x.2) =
          (s.chunks.flatMap fun x => heights x.1 x.2) ++ heights first last) := by
  intro first last
  have htarget : nextTarget head confirmations s.checkpoint =
      if head - confirmations < first then none else some (first, head - confirmations) := by
    rw [h.checkpoint]
    exact nextTarget_eq h.bound
  refine ⟨fun hlow => ?_, fun hle hover => ?_, fun hle hfit => ?_⟩
  · rw [followCycle, htarget, if_pos hlow]
  · rw [followCycle, htarget, if_neg (by omega)]
    simp only
    rw [capRangeTo_eq hle (by omega), indexRange_none s.checkpoint hover]
    · rfl
    · have : 0 < followCycleBlockCap := by decide
      omega
  · have hcap : followCycleBlockCap = 500 := rfl
    have hlast : first ≤ last := by omega
    have hcount : s.blocksIndexed + (last + 1 - first) ≤ last + 1 := by
      have := h.counted
      cases c with
      | none =>
        simp only [Option.elim_none] at this
        omega
      | some x =>
        have hx : first = x + 1 := rfl
        simp only [Option.elim_some] at this
        omega
    obtain ⟨chunks, hrange, hheights⟩ := indexRange_eq s.checkpoint hb hfit hlast (by omega)
    refine ⟨⟨some (last : Nat), s.ranges ++ [⟨head, first, last⟩], s.chunks ++ chunks,
      s.blocksIndexed + (last + 1 - first)⟩, ?_, ⟨rfl, ?_, ?_⟩, rfl, ?_⟩
    · rw [followCycle, htarget, if_neg (by omega)]
      simp only [Option.bind_eq_bind]
      rw [capRangeTo_eq hle (by omega), hrange, Option.bind_some, width_of_le hlast (by omega),
        Option.bind_some, addU64_of_lt (by omega)]
      rfl
    · intro x hx
      cases hx
      omega
    · simp only [Option.elim_some]
      omega
    · rw [List.flatMap_append, hheights]

/-- The whole run: all planned ranges, or an overflow at the first that does
not fit. -/
theorem followCycles_from (confirmations : Nat) {heads : List Nat} {s : CycleState} {c : Option Nat} (h : CycleInv s c)
    (hb : 0 < batch) (hheads : ∀ h ∈ heads, h < 2 ^ 63) :
    let rs := ranges confirmations heads s.checkpoint
    ((∀ r ∈ rs, r.first + batch < 2 ^ 64) →
      ∃ s', heads.foldlM (followCycle confirmations batch) s = some s' ∧
        s'.ranges = s.ranges ++ rs ∧
        (s'.chunks.flatMap fun x => heights x.1 x.2) =
          (s.chunks.flatMap fun x => heights x.1 x.2) ++ rs.flatMap fun r => heights r.first r.last) ∧
    ((∃ r ∈ rs, 2 ^ 64 ≤ r.first + batch) →
      heads.foldlM (followCycle confirmations batch) s = none) := by
  induction heads generalizing s c with
  | nil =>
    refine ⟨fun _ => ⟨s, rfl, by simp [ranges], by simp [ranges]⟩, ?_⟩
    rintro ⟨r, hr, -⟩
    cases hr
  | cons head heads ih =>
    obtain ⟨hhead, hrest⟩ := List.forall_mem_cons.mp hheads
    obtain ⟨hidle, hover, hindex⟩ := followCycle_eq confirmations h hb hhead
    rw [h.checkpoint, ranges_cons h.bound hhead, List.foldlM_cons]
    by_cases hlow : head - confirmations < resumeAt head confirmations c
    · rw [if_pos hlow, hidle hlow, ← h.checkpoint]
      exact ih h hrest
    rw [if_neg hlow]
    by_cases hfit : resumeAt head confirmations c + batch < 2 ^ 64
    · obtain ⟨s₁, hs₁, hinv, hranges, hchunks⟩ := hindex (Nat.not_lt.mp hlow) hfit
      obtain ⟨hok, hnone⟩ := ih hinv hrest
      rw [hs₁]
      rw [hinv.checkpoint] at hok hnone
      refine ⟨fun hall => ?_, ?_⟩
      · obtain ⟨s', hs', hr, hc⟩ := hok (List.forall_mem_cons.mp hall).2
        refine ⟨s', hs', ?_, ?_⟩
        · rw [hr, hranges, List.append_assoc]
          rfl
        · rw [hc, hchunks, List.flatMap_cons, List.append_assoc]
      · rintro ⟨r, hr, hbig⟩
        rcases List.mem_cons.mp hr with rfl | hr
        · exact absurd hfit (Nat.not_lt.mpr hbig)
        · exact hnone ⟨r, hr, hbig⟩
    · rw [hover (Nat.not_lt.mp hlow) (Nat.not_lt.mp hfit)]
      refine ⟨fun hall => absurd (hall _ List.mem_cons_self) hfit, fun _ => rfl⟩

/-- What the cycles did: adjacent ranges within cap and confirmations, whose
heights were processed in order, each once. -/
structure Tiled (confirmations : Nat) (heads : List Nat) (s : CycleState) : Prop where
  observed : (s.ranges.map CycleRange.head).Sublist heads
  adjacent : s.ranges.IsChain fun r r' => r'.first = r.last + 1
  capped : ∀ r ∈ s.ranges, r.first ≤ r.last ∧ r.last + 1 - r.first ≤ followCycleBlockCap
  confirmed : ∀ r ∈ s.ranges, r.last ≤ r.head - confirmations
  chunked : (s.chunks.flatMap fun x => heights x.1 x.2) =
    s.ranges.flatMap fun r => heights r.first r.last
  once : ∃ first n, (s.chunks.flatMap fun x => heights x.1 x.2) = List.range' first n

end Cycles

/-- From no checkpoint, the cycles tile the chain without an overflow exactly
if the batch size fits above the start of every range. -/
theorem cycles_tile_iff (confirmations batch : Nat) (heads : List Nat) (hb : 1 ≤ batch)
    (hheads : ∀ h ∈ heads, h < 2 ^ 63) :
    (∃ s, followCycles confirmations batch heads = some s ∧
        s.ranges = ranges confirmations heads none ∧ Tiled confirmations heads s) ↔
      ∀ r ∈ ranges confirmations heads none, r.first + batch < 2 ^ 64 := by
  have hinv : CycleInv .init none := ⟨rfl, by simp, Nat.le_refl _⟩
  obtain ⟨hok, hnone⟩ := followCycles_from confirmations hinv hb hheads
  have htiles := tiles_ranges confirmations (c := none) (by simp) hheads
  constructor
  · rintro ⟨s, hs, -, -⟩
    by_contra hc
    obtain ⟨r, hr, hbig⟩ : ∃ r ∈ ranges confirmations heads none, 2 ^ 64 ≤ r.first + batch := by
      simpa using hc
    have hstop : followCycles confirmations batch heads = none := hnone ⟨r, hr, hbig⟩
    rw [hstop] at hs
    cases hs
  · intro hall
    obtain ⟨s, hs, hr, hc⟩ := hok hall
    have hranges : s.ranges = ranges confirmations heads none := hr
    have hchunks : (s.chunks.flatMap fun x => heights x.1 x.2) =
        s.ranges.flatMap fun r => heights r.first r.last := by
      rw [hranges]
      exact hc
    refine ⟨s, hs, hranges, ?_, ?_, ?_, ?_, hchunks, ?_⟩
    · rw [hranges]
      exact ranges_heads heads none
    · rw [hranges]
      exact htiles.adjacent
    · rw [hranges]
      exact htiles.capped
    · rw [hranges]
      exact htiles.confirmed
    · rw [hchunks, hranges]
      exact heights_consecutive htiles

theorem cycles_tile_three :
    ∃ s, followCycles 1 2 [8, 5, 12] = some s ∧ s.ranges = ranges 1 [8, 5, 12] none ∧
      Tiled 1 [8, 5, 12] s :=
  (cycles_tile_iff 1 2 [8, 5, 12] (by decide) (by decide)).mpr (by decide)

/-- A batch of up to `2 ^ 63` blocks never overflows. -/
theorem fits_of_batch_le {confirmations batch : Nat} {heads : List Nat} (hb : batch ≤ 2 ^ 63)
    (hheads : ∀ h ∈ heads, h < 2 ^ 63) :
    ∀ r ∈ ranges confirmations heads none, r.first + batch < 2 ^ 64 := by
  intro r hr
  have htiles := tiles_ranges confirmations (c := none) (by simp) hheads
  have hle := (htiles.capped r hr).1
  have hconf := htiles.confirmed r hr
  have hhead := hheads r.head ((ranges_heads heads none).mem (List.mem_map_of_mem hr))
  omega

/-- With the largest batch size the first chunk overflows. A build without
overflow checks takes 0 for its end and stores it as the checkpoint. -/
theorem hugeBatch_overflows :
    followCycles 0 (2 ^ 64 - 1) [2] = none ∧ chunkEnd 2 (2 ^ 64 - 1) 2 = 0 := by
  decide

end Amarillo.L3
