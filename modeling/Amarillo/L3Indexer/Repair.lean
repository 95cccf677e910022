import Amarillo.L3Indexer.Coverage

/-!
# Repairing a reorg (`detect_fork` and `rollback_from_block` in turn)

The chain stands still and all its hashes are at hand; of the stored blocks
those above some height are off the chain. Read tip first, the stored blocks
are then a stale part followed by a good part (`tipFirst_split`), a scan names
the last stale one in its window (`detectFork_append`), and the rollback drops
the stale part of the window and nothing else (`tipFirst_rollback`).

* `repair_converges`: after `⌈m / REORG_SCAN_CAP⌉` rollbacks, `m` being the
  number of stale blocks, the scan finds no fork, and exactly the good blocks
  are left.
-/
namespace Amarillo.L3
open Amarillo.Core Amarillo.L2

/-! ## The scan -/

section Scan
variable {stale good : List (Nat × String)} {hashAt : Nat → Option String}

variable (hall : ∀ b ∈ stale ++ good, (hashAt b.1).isSome)
  (hstale : ∀ b ∈ stale, hashAt b.1 ≠ some b.2) (hgood : ∀ b ∈ good, hashAt b.1 = some b.2)
include hall hstale hgood

/-- A window that ends inside the stale part asks for a wider one, any other
names the last stale block. -/
theorem classifyFork_append {depth : Nat} (hd : 0 < depth) {b : Nat × String}
    (hlast : stale.getLast? = some b) :
    classifyFork (stale ++ good) hashAt depth =
      if depth ≤ stale.length ∧ depth < (stale ++ good).length then .needDeeper else .fork b.1 := by
  have hpos : 0 < stale.length := List.length_pos_of_mem (List.mem_of_getLast? hlast)
  have hlen : (stale ++ good).length = stale.length + good.length := List.length_append
  unfold classifyFork
  simp only
  rw [if_neg (by omega), List.take_append, scanFork_append
    (fun b hb => hall b (List.mem_append_left _ (List.mem_of_mem_take hb)))
    fun b hb => hstale b (List.mem_of_mem_take hb), Option.or_none]
  split
  · rename_i hin
    have hdrop : min depth (stale ++ good).length - stale.length = 0 := by omega
    rw [hdrop, List.take_zero, scanFork, if_pos (decide_eq_true (by omega))]
  · rename_i hout
    rw [List.take_of_length_le (by omega : stale.length ≤ min depth (stale ++ good).length), hlast,
      Option.map_some]
    cases good with
    | nil =>
      rw [List.take_nil, scanFork, if_neg]
      · rfl
      · simp only [List.append_nil, decide_eq_true_eq]
        simp only [List.length_nil] at hlen
        omega
    | cons x rest =>
      rw [List.length_cons] at hlen
      obtain ⟨k, hk⟩ : ∃ k, min depth (stale ++ x :: rest).length - stale.length = k + 1 :=
        ⟨min depth (stale ++ x :: rest).length - stale.length - 1, by omega⟩
      rw [hk, List.take_succ_cons, scanFork_good (hgood x List.mem_cons_self)]
      rfl

theorem detectLoop_append {fuel depth : Nat} (hd : 0 < depth) (hf : 0 < fuel)
    (hfuel : (stale ++ good).length < fuel + depth) {b : Nat × String}
    (hlast : stale.getLast? = some b) :
    detectLoop (stale ++ good) hashAt fuel depth = some (some b.1) := by
  induction fuel generalizing depth with
  | zero => omega
  | succ fuel ih =>
    have hasked : ((stale ++ good).take depth).all (fun b => (hashAt b.1).isSome) = true :=
      List.all_eq_true.mpr fun b hb => hall b (List.mem_of_mem_take hb)
    rw [detectLoop, if_pos hasked, classifyFork_append hall hstale hgood hd hlast]
    by_cases hin : depth ≤ stale.length ∧ depth < (stale ++ good).length
    · obtain ⟨hgt, -⟩ := nextScanDepth_gt hin.2
      rw [if_pos hin]
      simp only
      rw [if_neg (by omega)]
      exact ih (by omega) (by omega) (by omega)
    · rw [if_neg hin]

/-- A scan of stale blocks above good ones names the lowest stale one. -/
theorem detectFork_append : detectFork (stale ++ good) hashAt = stale.getLast?.map Prod.fst := by
  unfold detectFork
  by_cases hne : stale = []
  · subst hne
    cases good with
    | nil => rfl
    | cons b rest =>
      have hb := hgood b List.mem_cons_self
      rw [List.nil_append, if_neg (by simp), List.length_cons, detectLoop, if_pos (by simp [hb])]
      simp [classifyFork, scanFork_good hb, matchedAt]
  · obtain ⟨b, hb⟩ : ∃ b, stale.getLast? = some b :=
      ⟨stale.getLast hne, List.getLast?_eq_some_getLast hne⟩
    have hpos : 0 < stale.length := List.length_pos_iff.mpr hne
    rw [if_neg (by simp [hne]), detectLoop_append hall hstale hgood Nat.one_pos
      (by rw [List.length_append]; omega) (by omega) hb, hb]
    rfl

end Scan

/-! ## The store, tip first -/

/-- The blocks with a hash, as the scan reads them without a limit. -/
def tipFirst (db : Db) : List (Int × String) :=
  (db.blocks.rows.filterMap fun b => b.blockHash.map fun h => (b.blockNumber, h)).insertionSort
    fun a b => b.1 ≤ a.1

theorem recentBlockHashes_eq (db : Db) (limit : Nat) :
    recentBlockHashes db limit = (tipFirst db).take limit := rfl

theorem tipFirst_perm (db : Db) : (tipFirst db).Perm
    (db.blocks.rows.filterMap fun b => b.blockHash.map fun h => (b.blockNumber, h)) :=
  List.perm_insertionSort _ _

theorem mem_tipFirst {db : Db} {p : Int × String} :
    p ∈ tipFirst db ↔ ∃ b ∈ db.blocks.rows, b.blockNumber = p.1 ∧ b.blockHash = some p.2 := by
  rw [(tipFirst_perm db).mem_iff, List.mem_filterMap]
  refine exists_congr fun b => and_congr_right fun _ => ?_
  rw [Option.map_eq_some_iff]
  constructor
  · rintro ⟨h, hh, rfl⟩
    exact ⟨rfl, hh⟩
  · rintro ⟨hn, hh⟩
    exact ⟨p.2, hh, by rw [hn]⟩

theorem tipFirst_descending (db : Db) : (tipFirst db).Pairwise fun a b => b.1 < a.1 := by
  have hsorted : (tipFirst db).Pairwise fun a b => b.1 ≤ a.1 := by
    have := recentBlockHashes_descending db (tipFirst db).length
    rwa [recentBlockHashes_eq, List.take_length] at this
  have hunique : ((db.blocks.rows.filterMap fun b => b.blockHash.map fun h =>
      (b.blockNumber, h)).map Prod.fst).Nodup := by
    refine uniqueKeys_filterMap Block.blockNumber (fun b p hp => ?_) db.blocks.unique
    obtain ⟨h, -, rfl⟩ := Option.map_eq_some_iff.mp hp
    rfl
  have hnodup : ((tipFirst db).map Prod.fst).Nodup :=
    ((tipFirst_perm db).map Prod.fst).nodup_iff.mpr hunique
  exact hsorted.imp₂ (fun a b hle hne => by omega) (List.pairwise_map.mp hnodup)

theorem tipFirst_rollback {f : Int} {db db' : Db} {n : Nat}
    (h : rollbackFromBlock f db = .ok (db', n)) :
    tipFirst db' = (tipFirst db).filter fun p => p.1 < f := by
  refine List.Perm.eq_of_pairwise
    (fun a b _ _ (hab : b.1 < a.1) hba => absurd hab (Int.lt_asymm hba)) (tipFirst_descending db')
    ((tipFirst_descending db).sublist List.filter_sublist) ?_
  refine (tipFirst_perm db').trans (.trans ?_ ((tipFirst_perm db).filter _).symm)
  rw [(rollbackFromBlock_ok h).1]
  refine .of_eq ?_
  simp only [Table.filter]
  induction db.blocks.rows with
  | nil => rfl
  | cons b bs ih =>
    by_cases hb : b.blockNumber < f
    · rw [List.filter_cons_of_pos (by simpa using hb), List.filterMap_cons, List.filterMap_cons]
      cases b.blockHash with
      | none => exact ih
      | some x =>
        rw [Option.map_some, List.filter_cons_of_pos (by simpa using hb), ih]
    · rw [List.filter_cons_of_neg (by simpa using hb), List.filterMap_cons]
      cases b.blockHash with
      | none => exact ih
      | some x =>
        rw [Option.map_some, List.filter_cons_of_neg (by simpa using hb), ih]

/-- Where one part of a list stands before the other, it splits. -/
theorem eq_filter_append {α : Type*} {p : α → Bool} {l : List α}
    (h : l.Pairwise fun a b => p b = true → p a = true) :
    l = l.filter p ++ l.filter fun a => !p a := by
  induction l with
  | nil => rfl
  | cons a l ih =>
    obtain ⟨ha, hl⟩ := List.pairwise_cons.mp h
    by_cases hp : p a = true
    · rw [List.filter_cons_of_pos hp, List.filter_cons_of_neg (by simp [hp]), List.cons_append,
        ← ih hl]
    · have hnone : l.filter p = [] :=
        List.filter_eq_nil_iff.mpr fun b hb hpb => hp (ha b hb hpb)
      have hall : l.filter (fun a => !p a) = l :=
        List.filter_eq_self.mpr fun b hb => by
          simpa using fun hpb => hp (ha b hb hpb)
      rw [List.filter_cons_of_neg hp, hnone, List.filter_cons_of_pos (by simp [hp]), hall,
        List.nil_append]

/-- In a strictly descending list, what lies below the end of a prefix is the rest. -/
theorem filter_below_prefix {l : List (Int × String)} (h : l.Pairwise fun a b => b.1 < a.1) {k : Nat}
    {x : Int × String} (hx : (l.take k).getLast? = some x) : (l.filter fun p => p.1 < x.1) = l.drop k := by
  obtain ⟨ys, hys⟩ := List.getLast?_eq_some_iff.mp hx
  have hl : l = ys ++ x :: l.drop k := by
    conv_lhs => rw [← List.take_append_drop k l, hys]
    simp
  rw [hl] at h
  obtain ⟨-, hrest, hbefore⟩ := List.pairwise_append.mp h
  have habove : ys.filter (fun p => p.1 < x.1) = [] := by
    refine List.filter_eq_nil_iff.mpr fun y hy => ?_
    have := hbefore y hy x List.mem_cons_self
    simp only [decide_eq_true_eq]
    omega
  have hbelow : (l.drop k).filter (fun p => p.1 < x.1) = l.drop k :=
    List.filter_eq_self.mpr fun y hy => decide_eq_true ((List.pairwise_cons.mp hrest).1 y hy)
  conv_lhs => rw [hl]
  rw [List.filter_append, habove, List.nil_append, List.filter_cons_of_neg (by simp), hbelow]

/-! ## One round -/

/-- The stored hash is not the chain's. -/
abbrev Stale (hashAt : Nat → Option String) (b : Block) : Prop :=
  hashAt (asU64 b.blockNumber) ≠ b.blockHash

/-- Every stored block carries a hash, its height is a `BIGINT` above the least, the
chain has a hash for it, and above a stale block all are stale. -/
structure Repairable (hashAt : Nat → Option String) (db : Db) : Prop where
  hashed : ∀ b ∈ db.blocks.rows, b.blockHash.isSome = true
  bigint : ∀ b ∈ db.blocks.rows, -2 ^ 63 < b.blockNumber ∧ b.blockNumber < 2 ^ 63
  available : ∀ b ∈ db.blocks.rows, (hashAt (asU64 b.blockNumber)).isSome = true
  upward : ∀ b ∈ db.blocks.rows, ∀ b' ∈ db.blocks.rows, b.blockNumber ≤ b'.blockNumber →
    Stale hashAt b → Stale hashAt b'

/-- The number of stale blocks. -/
def staleCount (hashAt : Nat → Option String) (db : Db) : Nat :=
  (db.blocks.rows.filter fun b => Stale hashAt b).length

/-- The stale blocks, tip first. -/
def staleFirst (hashAt : Nat → Option String) (db : Db) : List (Int × String) :=
  (tipFirst db).filter fun p => hashAt (asU64 p.1) ≠ some p.2

section Round
variable {hashAt : Nat → Option String} {db db' : Db}

theorem Repairable.mono (h : Repairable hashAt db) (hsub : db'.blocks.rows ⊆ db.blocks.rows) :
    Repairable hashAt db' where
  hashed b hb := h.hashed b (hsub hb)
  bigint b hb := h.bigint b (hsub hb)
  available b hb := h.available b (hsub hb)
  upward b hb b' hb' := h.upward b (hsub hb) b' (hsub hb')

theorem mem_staleFirst {p : Int × String} :
    p ∈ staleFirst hashAt db ↔
      ∃ b ∈ db.blocks.rows, b.blockNumber = p.1 ∧ b.blockHash = some p.2 ∧ Stale hashAt b := by
  rw [staleFirst, List.mem_filter, mem_tipFirst, decide_eq_true_eq]
  constructor
  · rintro ⟨⟨b, hb, hn, hh⟩, hstale⟩
    exact ⟨b, hb, hn, hh, by rw [Stale, hn, hh]; exact hstale⟩
  · rintro ⟨b, hb, hn, hh, hstale⟩
    rw [Stale, hn, hh] at hstale
    exact ⟨⟨b, hb, hn, hh⟩, hstale⟩

theorem staleFirst_length (h : ∀ b ∈ db.blocks.rows, b.blockHash.isSome = true) :
    (staleFirst hashAt db).length = staleCount hashAt db := by
  rw [staleFirst, ((tipFirst_perm db).filter _).length_eq, staleCount]
  generalize db.blocks.rows = rows at h
  induction rows with
  | nil => rfl
  | cons b bs ih =>
    obtain ⟨x, hx⟩ := Option.isSome_iff_exists.mp (h b List.mem_cons_self)
    have ih := ih fun c hc => h c (List.mem_cons_of_mem _ hc)
    rw [List.filterMap_cons, hx, Option.map_some]
    simp only
    by_cases hb : Stale hashAt b
    · have hp : hashAt (asU64 b.blockNumber) ≠ some x := by rwa [Stale, hx] at hb
      rw [List.filter_cons_of_pos (by simpa using hp), List.filter_cons_of_pos (by simpa using hb),
        List.length_cons, List.length_cons, ih]
    · have hp : hashAt (asU64 b.blockNumber) = some x := by rwa [Stale, hx, not_not] at hb
      rw [List.filter_cons_of_neg (by simpa using hp), List.filter_cons_of_neg (by simpa using hb), ih]

/-- Tip first, the stale blocks come before the good ones. -/
theorem tipFirst_split (h : Repairable hashAt db) : tipFirst db =
    staleFirst hashAt db ++ (tipFirst db).filter fun p => hashAt (asU64 p.1) = some p.2 := by
  have hpair : (tipFirst db).Pairwise fun a b =>
      (decide (hashAt (asU64 b.1) ≠ some b.2)) = true →
        (decide (hashAt (asU64 a.1) ≠ some a.2)) = true := by
    refine (tipFirst_descending db).imp_of_mem fun {a b} ha hb hlt hstale => ?_
    obtain ⟨ra, hra, hna, hha⟩ := mem_tipFirst.mp ha
    obtain ⟨rb, hrb, hnb, hhb⟩ := mem_tipFirst.mp hb
    have := h.upward rb hrb ra hra (by omega) (by rw [Stale, hnb, hhb]; exact of_decide_eq_true hstale)
    rw [Stale, hna, hha] at this
    exact decide_eq_true this
  have hsplit := eq_filter_append hpair
  simp only [ne_eq, decide_not, Bool.not_not] at hsplit
  simpa only [staleFirst, ne_eq, decide_not] using hsplit

/-- The scan names the lowest stale block of its window. -/
theorem detectFork_repairable (h : Repairable hashAt db) (limit : Nat) :
    detectFork (recentBlocks db limit) hashAt =
      ((staleFirst hashAt db).take limit).getLast?.map fun p => asU64 p.1 := by
  have hmem : ∀ p ∈ tipFirst db, (hashAt (asU64 p.1)).isSome = true := by
    intro p hp
    obtain ⟨b, hb, hn, -⟩ := mem_tipFirst.mp hp
    rw [← hn]
    exact h.available b hb
  rw [recentBlocks, recentBlockHashes_eq, tipFirst_split h, List.take_append, List.map_append,
    detectFork_append, List.getLast?_map, Option.map_map]
  · rfl
  · intro b hb
    rw [← List.map_append, ← List.take_append, ← tipFirst_split h] at hb
    obtain ⟨p, hp, rfl⟩ := List.mem_map.mp hb
    exact hmem p (List.mem_of_mem_take hp)
  · intro b hb
    obtain ⟨p, hp, rfl⟩ := List.mem_map.mp hb
    exact of_decide_eq_true (List.mem_filter.mp (List.mem_of_mem_take hp)).2
  · intro b hb
    obtain ⟨p, hp, rfl⟩ := List.mem_map.mp hb
    exact of_decide_eq_true (List.mem_filter.mp (List.mem_of_mem_take hp)).2

/-- A rollback from the end of a window takes the window's stale blocks. -/
theorem staleFirst_rollback {limit n : Nat} {x : Int × String}
    (hx : ((staleFirst hashAt db).take limit).getLast? = some x)
    (hr : rollbackFromBlock x.1 db = .ok (db', n)) :
    staleFirst hashAt db' = (staleFirst hashAt db).drop limit := by
  have hdesc : (staleFirst hashAt db).Pairwise fun a b => b.1 < a.1 :=
    (tipFirst_descending db).sublist List.filter_sublist
  rw [← filter_below_prefix hdesc hx, staleFirst, tipFirst_rollback hr, staleFirst,
    List.filter_comm]

/-- No good block is deleted. -/
theorem good_rollback (h : Repairable hashAt db) {x : Int × String} {n : Nat}
    (hx : x ∈ staleFirst hashAt db) (hr : rollbackFromBlock x.1 db = .ok (db', n)) :
    (db'.blocks.rows.filter fun b => ¬Stale hashAt b) =
      db.blocks.rows.filter fun b => ¬Stale hashAt b := by
  obtain ⟨bx, hbx, hnx, -, hstale⟩ := mem_staleFirst.mp hx
  rw [(rollbackFromBlock_ok hr).1]
  simp only [Table.filter, List.filter_filter]
  refine List.filter_congr fun b hb => ?_
  by_cases hgood : Stale hashAt b
  · simp [hgood]
  · have hlt : b.blockNumber < x.1 := by
      by_contra hle
      exact hgood (h.upward bx hbx b hb (by omega) hstale)
    simp [hlt]

end Round

/-! ## All rounds -/

/-- A pass of the loop that finds a fork and rolls back. -/
def repairRound (hashAt : Nat → Option String) : List FollowLabel := [.detect hashAt, .rollback]

/-- `k` such passes, and one scan. -/
def repairRun (hashAt : Nat → Option String) (k : Nat) : List FollowLabel :=
  (List.replicate k (repairRound hashAt)).flatten ++ [.detect hashAt]

/-- What a repair leaves: the good blocks, and a checkpoint below the stale ones. -/
structure RepairedFrom (hashAt : Nat → Option String) (db db' : Db) : Prop where
  blocks : db'.blocks.rows = db.blocks.rows.filter fun b => ¬Stale hashAt b
  hasCheckpoint : db'.checkpoint.isSome = db.checkpoint.isSome
  checkpoint : ∀ c ∈ db'.checkpoint, c = 0 ∨ ∀ b ∈ db.blocks.rows, Stale hashAt b → c < b.blockNumber

section Rounds
variable {net : Network} {R : L1.Runtime} {abi : L1.Abi} {hashAt : Nat → Option String}

theorem exec_repairRound {s : Follow} {f : Nat} {db' : Db} {n : Nat} {ls : List FollowLabel}
    (hpc : s.pc = .checking) (hf : detectFork (recentBlocks s.db reorgScanCap) hashAt = some f)
    (hr : rollbackFromBlock (asI64 f) s.db = .ok (db', n)) :
    LTS.exec (followStep net R abi) s (repairRound hashAt ++ ls) =
      LTS.exec (followStep net R abi) { s with db := db' } ls := by
  obtain ⟨chain, db, config, first, pc⟩ := s
  cases hpc
  simp only [repairRound, List.cons_append, List.nil_append, LTS.exec, followStep, detectStep,
    rollbackStep, hf, hr, Option.bind_some]

/-- The scan of a store without stale blocks finds no fork. -/
theorem exec_repaired {s : Follow} (hpc : s.pc = .checking) (h : Repairable hashAt s.db)
    (hnone : staleFirst hashAt s.db = []) :
    LTS.exec (followStep net R abi) s [.detect hashAt] = some { s with pc := .polling } ∧
      RepairedFrom hashAt s.db s.db := by
  have hgood : ∀ b ∈ s.db.blocks.rows, ¬Stale hashAt b := by
    intro b hb hstale
    obtain ⟨x, hx⟩ := Option.isSome_iff_exists.mp (h.hashed b hb)
    have : (b.blockNumber, x) ∈ staleFirst hashAt s.db := mem_staleFirst.mpr ⟨b, hb, rfl, hx, hstale⟩
    rw [hnone] at this
    cases this
  have hfork : detectFork (recentBlocks s.db reorgScanCap) hashAt = none := by
    rw [detectFork_repairable h, hnone]
    rfl
  constructor
  · simp only [LTS.exec, followStep, detectStep, hpc, hfork, Option.bind_some]
  · exact ⟨(List.filter_eq_self.mpr fun b hb => decide_eq_true (hgood b hb)).symm, rfl,
      fun c _ => .inr fun b hb hstale => absurd hstale (hgood b hb)⟩

/-- The last checkpoint lies below the lowest stale block. -/
theorem RepairedFrom.rolled {db db₁ db' : Db} {x : Int × String} {n : Nat}
    (h : Repairable hashAt db)
    (hx : ((staleFirst hashAt db).take reorgScanCap).getLast? = some x)
    (hr : rollbackFromBlock x.1 db = .ok (db₁, n)) (h' : RepairedFrom hashAt db₁ db')
    (hsame : staleFirst hashAt db₁ = [] → db' = db₁) : RepairedFrom hashAt db db' := by
  have hxmem : x ∈ staleFirst hashAt db := List.mem_of_mem_take (List.mem_of_getLast? hx)
  have hcp := (rollbackFromBlock_ok hr).2
  refine ⟨by rw [h'.blocks, good_rollback h hxmem hr], by rw [h'.hasCheckpoint, hcp, Option.isSome_map],
    fun c hc => ?_⟩
  -- a stale block is in the window, or left for later rounds
  have hsplit : ∀ b ∈ db.blocks.rows, Stale hashAt b → x.1 ≤ b.blockNumber ∨
      b ∈ db₁.blocks.rows := by
    intro b hb hstale
    by_cases hlt : b.blockNumber < x.1
    · right
      rw [(rollbackFromBlock_ok hr).1]
      exact List.mem_filter.mpr ⟨hb, decide_eq_true hlt⟩
    · exact .inl (by omega)
  cases hleft : staleFirst hashAt db₁ with
  | nil =>
    rw [hsame hleft, hcp] at hc
    obtain ⟨c', -, rfl⟩ := Option.mem_map.mp hc
    by_cases hpos : x.1 ≤ 1
    · exact .inl (by omega)
    refine .inr fun b hb hstale => ?_
    rcases hsplit b hb hstale with hle | hb₁
    · omega
    · obtain ⟨y, hy⟩ := Option.isSome_iff_exists.mp (h.hashed b hb)
      have : (b.blockNumber, y) ∈ staleFirst hashAt db₁ := mem_staleFirst.mpr ⟨b, hb₁, rfl, hy, hstale⟩
      rw [hleft] at this
      cases this
  | cons y ys =>
    obtain ⟨b₁, hb₁, -, -, hstale₁⟩ := mem_staleFirst.mp (hleft ▸ List.mem_cons_self : y ∈ _)
    refine (h'.checkpoint c hc).imp_right fun hall b hb hstale => ?_
    rcases hsplit b hb hstale with hle | hb'
    · have hlow := hall b₁ hb₁ hstale₁
      rw [(rollbackFromBlock_ok hr).1] at hb₁
      have := of_decide_eq_true (List.mem_filter.mp hb₁).2
      omega
    · exact hall b hb' hstale

theorem repair_rounds (k : Nat) : ∀ s : Follow, s.pc = .checking → Repairable hashAt s.db →
    ((staleFirst hashAt s.db).length + (reorgScanCap - 1)) / reorgScanCap = k →
    ∃ db', LTS.exec (followStep net R abi) s (repairRun hashAt k) =
        some { s with db := db', pc := .polling } ∧ RepairedFrom hashAt s.db db' ∧
      (staleFirst hashAt s.db = [] → db' = s.db) := by
  unfold reorgScanCap
  induction k with
  | zero =>
    intro s hpc h hk
    have hnone : staleFirst hashAt s.db = [] := List.length_eq_zero_iff.mp (by omega)
    obtain ⟨hexec, hrep⟩ := @exec_repaired net R abi hashAt s hpc h hnone
    exact ⟨s.db, hexec, hrep, fun _ => rfl⟩
  | succ k ih =>
    intro s hpc h hk
    have hpos : 0 < (staleFirst hashAt s.db).length := by omega
    obtain ⟨x, hx⟩ : ∃ x, ((staleFirst hashAt s.db).take reorgScanCap).getLast? = some x := by
      refine ⟨_, List.getLast?_eq_some_getLast (List.ne_nil_of_length_pos ?_)⟩
      rw [List.length_take, reorgScanCap]
      omega
    have hxmem : x ∈ staleFirst hashAt s.db := List.mem_of_mem_take (List.mem_of_getLast? hx)
    obtain ⟨bx, hbx, hnx, -⟩ := mem_staleFirst.mp hxmem
    have hfork : detectFork (recentBlocks s.db reorgScanCap) hashAt = some (asU64 x.1) := by
      rw [detectFork_repairable h, hx, Option.map_some]
    obtain ⟨db₁, n, hr⟩ := rollbackFromBlock_total x.1 s.db
    have hback : asI64 (asU64 x.1) = x.1 := by
      rw [← hnx]
      exact asI64_asU64 (h.bigint bx hbx).1.le (h.bigint bx hbx).2
    have hsub : db₁.blocks.rows ⊆ s.db.blocks.rows := by
      rw [(rollbackFromBlock_ok hr).1]
      exact List.filter_subset_self _
    have hlen : (staleFirst hashAt db₁).length = (staleFirst hashAt s.db).length - 4096 := by
      rw [staleFirst_rollback hx hr, List.length_drop, reorgScanCap]
    obtain ⟨db', hexec, hrep, hsame⟩ := ih { s with db := db₁ } hpc (h.mono hsub)
      (by simp only [hlen]; omega)
    refine ⟨db', ?_, hrep.rolled h hx hr hsame, fun hnil => ?_⟩
    · rw [repairRun, List.replicate_succ, List.flatten_cons, List.append_assoc,
        exec_repairRound hpc hfork (hback ▸ hr), ← repairRun, hexec]
    · rw [hnil] at hxmem
      cases hxmem

/-- **A reorg of any depth is repaired in `⌈m / REORG_SCAN_CAP⌉` rollbacks**,
and the scan after the last one finds no fork. What is left are the good blocks,
and the checkpoint, if there is one, lies below every deleted height or at 0. -/
theorem repair_converges (net : Network) (R : L1.Runtime) (abi : L1.Abi)
    (hashAt : Nat → Option String) (s : Follow) (hpc : s.pc = .checking)
    (h : Repairable hashAt s.db) :
    ∃ db', LTS.exec (followStep net R abi) s (repairRun hashAt
        ((staleCount hashAt s.db + (reorgScanCap - 1)) / reorgScanCap)) =
        some { s with db := db', pc := .polling } ∧
      RepairedFrom hashAt s.db db' := by
  obtain ⟨db', hexec, hrep, -⟩ := @repair_rounds net R abi hashAt _ s hpc h rfl
  rw [staleFirst_length h.hashed] at hexec
  exact ⟨db', hexec, hrep⟩

end Rounds

/-- Heights 1 to 3 as `chainA` has them; the chain now forks off at 2. -/
def forkedFollow : Follow :=
  ⟨chainC, { Db.empty with
    blocks := ⟨[(1, 0xa1), (2, 0xa2), (3, 0xa3)].map fun b =>
      blockRow b.1 (emptyNet.block (blockHash b.2)).header, by unfold UniqueKeys; decide +kernel⟩
    checkpoint := some 3 }, ⟨0, 3⟩, some 1, .checking⟩

theorem forked_repaired : ∃ db', LTS.exec emptyStep forkedFollow (repairRun (hashOn chainC)
      ((staleCount (hashOn chainC) forkedFollow.db + (reorgScanCap - 1)) / reorgScanCap)) =
      some { forkedFollow with db := db', pc := .polling } ∧
    RepairedFrom (hashOn chainC) forkedFollow.db db' :=
  repair_converges emptyNet (.asciiOnly true) L1.wordAbi (hashOn chainC) forkedFollow rfl
    ⟨by decide +kernel, by decide +kernel, by decide +kernel, by decide +kernel⟩

end Amarillo.L3
