import Mathlib

/-!
# Who is tried in `N` rounds of a batch scheduler

In each round a scheduler tries a batch of items; an item is tried again in later
rounds until it is done. A place of a batch is `lost` to the items `P` if it goes to
an item outside `P`, or to one that is not done after the round and may come again.

`Rounds.all_tried`: batches of `L` that are full as long as an item of `P` has not
been tried reach every item of `P`, if no more than `N * L - |P|` places are lost.
`room` is the converse, for a scheduler that tries every lost item again in
the next round.
-/
namespace Amarillo.Core
open Finset

variable {α : Type*}

/-- `tried k` is the batch of round `k`, `done k` holds of the items done before it. -/
structure Rounds (P : Finset α) (L N : ℕ) (tried : ℕ → Finset α) (done : ℕ → α → Prop) : Prop where
  undone : ∀ k < N, ∀ a ∈ tried k, ¬done k a
  stays : ∀ k < N, ∀ a, done k a → done (k + 1) a
  full : ∀ k < N, ∀ p ∈ P, (∀ j ≤ k, p ∉ tried j) → L ≤ (tried k).card

theorem Rounds.done_mono {P : Finset α} {L N : ℕ} {tried : ℕ → Finset α} {done : ℕ → α → Prop}
    (h : Rounds P L N tried done) {j k : ℕ} (hjk : j ≤ k) (hk : k ≤ N) {a : α} (ha : done j a) :
    done k a := by
  induction k, hjk using Nat.le_induction with
  | base => exact ha
  | succ k _ ih => exact h.stays k hk a (ih (Nat.le_of_succ_le hk))

variable [DecidableEq α]

/-- The places of round `k` lost to `P`. After the last round no item comes again. -/
def lost (P : Finset α) (N : ℕ) (tried : ℕ → Finset α) (done : ℕ → α → Prop)
    [∀ k, DecidablePred (done k)] (k : ℕ) : Finset α :=
  (tried k).filter fun a => a ∉ P ∨ (k + 1 < N ∧ ¬done (k + 1) a)

section Rounds
variable {P : Finset α} {L N : ℕ} {tried : ℕ → Finset α} {done : ℕ → α → Prop}
  [∀ k, DecidablePred (done k)]

/-- An item that keeps its place does not come again. -/
theorem Rounds.kept_disjoint (h : Rounds P L N tried done) {j k : ℕ} (hjk : j < k) (hk : k < N) :
    Disjoint (tried j \ lost P N tried done j) (tried k \ lost P N tried done k) := by
  rw [Finset.disjoint_left]
  intro a hj hk'
  obtain ⟨htried, hkept⟩ := Finset.mem_sdiff.mp hj
  have hdone : done (j + 1) a := by
    by_contra hnot
    exact hkept (Finset.mem_filter.mpr ⟨htried, .inr ⟨by omega, hnot⟩⟩)
  exact h.undone k hk a (Finset.mem_sdiff.mp hk').1 (h.done_mono hjk hk.le hdone)

/-- The places that are not lost go to different items of `P`. -/
theorem Rounds.kept_card (h : Rounds P L N tried done) {Q : Finset α}
    (hQ : ∀ k < N, ∀ a ∈ tried k, a ∈ P → a ∈ Q) :
    ∑ k ∈ range N, (tried k \ lost P N tried done k).card ≤ Q.card := by
  have hdisj : (range N : Set ℕ).PairwiseDisjoint fun k => tried k \ lost P N tried done k := by
    intro j hj k hk hne
    have hj := Finset.mem_range.mp (Finset.mem_coe.mp hj)
    have hk := Finset.mem_range.mp (Finset.mem_coe.mp hk)
    rcases lt_or_gt_of_ne hne with hlt | hgt
    · exact h.kept_disjoint hlt hk
    · exact (h.kept_disjoint hgt hj).symm
  rw [← Finset.card_biUnion hdisj]
  refine Finset.card_le_card fun a ha => ?_
  obtain ⟨k, hk, ha⟩ := Finset.mem_biUnion.mp ha
  obtain ⟨htried, hkept⟩ := Finset.mem_sdiff.mp ha
  refine hQ k (Finset.mem_range.mp hk) a htried ?_
  by_contra hnot
  exact hkept (Finset.mem_filter.mpr ⟨htried, .inl hnot⟩)

theorem card_tried (P : Finset α) (N : ℕ) (tried : ℕ → Finset α) (done : ℕ → α → Prop)
    [∀ k, DecidablePred (done k)] (k : ℕ) :
    (tried k).card = (tried k \ lost P N tried done k).card + (lost P N tried done k).card :=
  (Finset.card_sdiff_add_card_eq_card (Finset.filter_subset _ _)).symm

theorem Rounds.all_tried (h : Rounds P L N tried done)
    (hroom : P.card + ∑ k ∈ range N, (lost P N tried done k).card ≤ N * L) {p : α} (hp : p ∈ P) :
    ∃ k < N, p ∈ tried k := by
  by_contra! hnever
  have hfull : N * L ≤ ∑ k ∈ range N, (tried k).card := by
    calc N * L = ∑ _k ∈ range N, L := by simp
      _ ≤ ∑ k ∈ range N, (tried k).card := by
        refine Finset.sum_le_sum fun k hk => ?_
        have hk := Finset.mem_range.mp hk
        exact h.full k hk p hp fun j hj => hnever j (by omega)
  have hkept := h.kept_card (Q := P.erase p) fun k hk a ha hP =>
    Finset.mem_erase.mpr ⟨fun e => hnever k hk (e ▸ ha), hP⟩
  rw [Finset.sum_congr rfl fun k _ => card_tried P N tried done k,
    Finset.sum_add_distrib] at hfull
  have := Finset.card_erase_lt_of_mem hp
  omega

/-- The items of round `k` that were not tried before. -/
def newly (tried : ℕ → Finset α) (k : ℕ) : Finset α := tried k \ (range k).biUnion tried

omit [∀ k, DecidablePred (done k)] in
/-- Every item is new in the first round that tries it. -/
theorem card_le_newly (hall : ∀ p ∈ P, ∃ k < N, p ∈ tried k) :
    P.card ≤ ∑ k ∈ range N, (newly tried k).card := by
  refine le_trans (Finset.card_le_card fun p hp => ?_) Finset.card_biUnion_le
  have hex : ∃ k, k < N ∧ p ∈ tried k := hall p hp
  obtain ⟨hlt, hmem⟩ := Nat.find_spec hex
  refine Finset.mem_biUnion.mpr ⟨Nat.find hex, Finset.mem_range.mpr hlt, ?_⟩
  refine Finset.mem_sdiff.mpr ⟨hmem, fun hbefore => ?_⟩
  obtain ⟨j, hj, hpj⟩ := Finset.mem_biUnion.mp hbefore
  have hj := Finset.mem_range.mp hj
  exact Nat.find_min hex hj ⟨hj.trans hlt, hpj⟩

/-- If all items have been tried, the lost places were to spare. -/
theorem room (hall : ∀ p ∈ P, ∃ k < N, p ∈ tried k) (hwithin : ∀ k < N, tried k ⊆ P)
    (hbatch : ∀ k < N, (tried k).card ≤ L)
    (hagain : ∀ k, k + 1 < N → ∀ a ∈ tried k, ¬done (k + 1) a → a ∈ tried (k + 1)) :
    P.card + ∑ k ∈ range N, (lost P N tried done k).card ≤ N * L := by
  have hlost : ∀ k < N, ∀ a ∈ lost P N tried done k,
      k + 1 < N ∧ a ∈ tried (k + 1) \ newly tried (k + 1) := by
    intro k hk a ha
    obtain ⟨htried, hnot | ⟨hk', hnot⟩⟩ := Finset.mem_filter.mp ha
    · exact absurd (hwithin k hk htried) hnot
    · refine ⟨hk', Finset.mem_sdiff.mpr ⟨hagain k hk' a htried hnot, fun hnew => ?_⟩⟩
      have hfirst := (Finset.mem_sdiff.mp hnew).2
      exact hfirst (Finset.mem_biUnion.mpr ⟨k, Finset.mem_range.mpr (Nat.lt_succ_self k), htried⟩)
  have hsum : ∑ k ∈ range N, (lost P N tried done k).card ≤
      ∑ k ∈ range N, (tried k \ newly tried k).card := by
    cases N with
    | zero => simp
    | succ m =>
      have hlast : lost P (m + 1) tried done m = ∅ :=
        Finset.eq_empty_of_forall_notMem fun a ha => absurd (hlost m (by omega) a ha).1 (by omega)
      rw [Finset.sum_range_succ, hlast, Finset.card_empty, Finset.sum_range_succ']
      refine Nat.add_le_add (Finset.sum_le_sum fun k hk => Finset.card_le_card fun a ha => ?_)
        (Nat.zero_le _)
      exact (hlost k (by have := Finset.mem_range.mp hk; omega) a ha).2
  calc P.card + ∑ k ∈ range N, (lost P N tried done k).card
      ≤ ∑ k ∈ range N, (newly tried k).card + ∑ k ∈ range N, (tried k \ newly tried k).card :=
        Nat.add_le_add (card_le_newly hall) hsum
    _ = ∑ k ∈ range N, (tried k).card := by
        rw [← Finset.sum_add_distrib]
        refine Finset.sum_congr rfl fun k _ => ?_
        have hsub : newly tried k ⊆ tried k := Finset.sdiff_subset
        rw [Nat.add_comm, Finset.card_sdiff_add_card_eq_card hsub]
    _ ≤ ∑ _k ∈ range N, L := Finset.sum_le_sum fun k hk => hbatch k (Finset.mem_range.mp hk)
    _ = N * L := by simp

end Rounds
end Amarillo.Core
