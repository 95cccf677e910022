import Amarillo.Core.Paging
import Amarillo.L2Db.Labels

/-!
# The by-label pivot (`db/src/queries.rs`)

`failedTxByLabelAggregate` folds the grouped counts into a map of maps, gives the map
away as a list, in no order of its own, sorts the list by `total_failures` and cuts it.
`Pivots` is what holds after any part of the counts: a point for each (label, address)
seen, with its counts and their sum.

* `topByLabel_top`: the rows are the points with the most failures, in order, each with
  the counts of the input and their sum.
* `topByLabel_spec_iff`: which rows those are depends on the map's order or the input's exactly
  if the cut falls between two points with equal totals.
-/
namespace Amarillo.L2
open Amarillo.Core

abbrev RawRow.group (r : RawRow) : String × String := (r.label, r.address)

abbrev RawRow.cell (r : RawRow) : (String × String) × String := (r.group, r.errorCategory)

/-- One row for each label, address and category. -/
def OnePerCell (raw : List RawRow) : Prop := (raw.map RawRow.cell).Nodup

instance (raw : List RawRow) : Decidable (OnePerCell raw) := inferInstanceAs (Decidable (List.Nodup _))

def groupsOf (raw : List RawRow) : List (String × String) := (raw.map RawRow.group).dedup

/-- All failures of a (label, address). -/
def failuresOf (raw : List RawRow) (k : String × String) : Nat :=
  ((raw.filter fun r => decide (r.group = k)).map RawRow.cnt).sum

/-- The cut after `n` rows falls between two groups with equal totals. -/
def TieAtCut (raw : List RawRow) (n : Nat) : Prop :=
  InTie (fun k => OrderDual.toDual (failuresOf raw k)) (groupsOf raw) n

instance (raw : List RawRow) (n : Nat) : Decidable (TieAtCut raw n) :=
  inferInstanceAs (Decidable (InTie _ _ _))

/-- What the aggregate makes of the grouped counts.
mirrors crates/db/src/queries.rs:1352-1375 -/
def topByLabel (order : MostFailures) (limit : Int) (raw : List RawRow) :
    List FailedTxByLabelPoint :=
  let out := order.sort (pivot raw).rows
  if 0 < limit then out.take limit.toNat else out

theorem failedTxByLabelAggregate_eq (order : MostFailures) (labels : Labels) (db : Db)
    (ownerId : Option String) (fromTs toTs : Option Int) (limit : Int) :
    failedTxByLabelAggregate order labels db ownerId fromTs toTs limit =
      if nullable text ownerId then .ok (topByLabel order limit
        (groupCounts (labelledFailures (ownedLabels labels ownerId) db fromTs toTs)))
      else .error .check := rfl

/-- `GROUP BY` gives one row for each label, address and category. -/
theorem onePerCell_groupCounts (joined : List (String × String × ErrorCategory)) :
    OnePerCell (groupCounts joined) := by
  unfold OnePerCell groupCounts
  rw [List.map_map]
  refine (List.nodup_dedup joined).map fun a b h => ?_
  simp only [Function.comp_apply, Prod.mk.injEq] at h
  obtain ⟨⟨hlabel, haddress⟩, hcat⟩ := h
  exact Prod.ext hlabel (Prod.ext haddress (ErrorCategory.asWire_inj hcat))

/-! ## The fold -/

section Fold
variable {done raw : List RawRow} {groups : Groups} {r : RawRow}

/-- What the map holds when `done` has been read. -/
structure Pivots (done : List RawRow) (groups : Groups) : Prop where
  seen : ∀ k, (groups.get k).isSome ↔ ∃ r ∈ done, r.group = k
  total : ∀ p ∈ groups.rows, p.totalFailures = failuresOf done p.key
  counts : ∀ p ∈ groups.rows, ∀ c n,
    (c, n) ∈ p.byCategory.rows ↔ ⟨p.label, p.address, c, n⟩ ∈ done

theorem failuresOf_concat (done : List RawRow) (r : RawRow) (k : String × String) :
    failuresOf (done ++ [r]) k = failuresOf done k + if r.group = k then r.cnt else 0 := by
  unfold failuresOf
  rw [List.filter_append, List.map_append, List.sum_append]
  by_cases h : r.group = k <;> simp [h]

/-- A count is put in once, for a category that is not there. -/
theorem mem_add {p : FailedTxByLabelPoint} (hnew : ∀ n, (r.errorCategory, n) ∉ p.byCategory.rows)
    (c : String) (n : Nat) : (c, n) ∈ (p.add r).byCategory.rows ↔
      (c, n) ∈ p.byCategory.rows ∨ (c = r.errorCategory ∧ n = r.cnt) := by
  have hfree : p.byCategory.get r.errorCategory = none := by
    refine Table.get_eq_none.mpr fun e he hkey => hnew e.2 ?_
    rwa [← hkey]
  rw [Table.mem_iff_get, Table.mem_iff_get, FailedTxByLabelPoint.add, Table.get_upsert]
  simp only
  split
  · rename_i hc
    subst hc
    simp [hfree, eq_comm]
  · rename_i hc
    simp [Ne.symm hc]

theorem Pivots.empty : Pivots [] .empty where
  seen := by simp
  total := List.forall_mem_nil _
  counts := List.forall_mem_nil _

/-- The entry that a count goes to. -/
def entryFor (groups : Groups) (r : RawRow) : FailedTxByLabelPoint :=
  (groups.get r.group).getD ⟨r.label, r.address, 0, .empty⟩

theorem entryFor_key (groups : Groups) (r : RawRow) : (entryFor groups r).key = r.group := by
  unfold entryFor
  cases hget : groups.get r.group with
  | none => rfl
  | some p =>
    have hkey : p.key = r.group := Table.get_key hget
    rw [Option.getD_some, hkey]

theorem mem_addRaw {p : FailedTxByLabelPoint} (h : p ∈ (addRaw groups r).rows) :
    p = (entryFor groups r).add r ∨ (p.key ≠ r.group ∧ p ∈ groups.rows) := by
  rw [Table.mem_iff_get, addRaw, Table.get_upsert] at h
  split at h
  · left
    rename_i hkey
    have hkey : r.group = p.key := hkey
    rw [← hkey, Option.some.injEq] at h
    rw [← h, entryFor]
    cases groups.get r.group <;> rfl
  · right
    rename_i hkey
    exact ⟨fun e => hkey e.symm, Table.mem_iff_get.mpr h⟩

/-- An entry that is not there yet is one without failures. -/
theorem Pivots.entry (h : Pivots done groups) (r : RawRow) :
    (entryFor groups r).totalFailures = failuresOf done r.group ∧
      ∀ c n, (c, n) ∈ (entryFor groups r).byCategory.rows ↔ ⟨r.label, r.address, c, n⟩ ∈ done := by
  unfold entryFor
  cases hget : groups.get r.group with
  | none =>
    have hnone : ∀ x ∈ done, x.group ≠ r.group := by
      intro x hx he
      have := (h.seen r.group).mpr ⟨x, hx, he⟩
      simp [hget] at this
    have hfilter : done.filter (fun x => decide (x.group = r.group)) = [] :=
      List.filter_eq_nil_iff.mpr fun x hx => by simpa using hnone x hx
    refine ⟨by rw [failuresOf, hfilter]; rfl, fun c n => ?_⟩
    constructor
    · intro hmem
      cases hmem
    · intro hmem
      exact absurd rfl (hnone ⟨r.label, r.address, c, n⟩ hmem)
  | some p =>
    have hkey : p.key = r.group := Table.get_key hget
    have hp := Table.get_mem hget
    obtain ⟨hlabel, haddress⟩ := Prod.mk.inj hkey
    refine ⟨hkey ▸ h.total p hp, fun c n => ?_⟩
    rw [Option.getD_some, h.counts p hp, hlabel, haddress]

/-- One turn of the loop. -/
theorem Pivots.step (h : Pivots done groups) (hnew : r.cell ∉ done.map RawRow.cell) :
    Pivots (done ++ [r]) (addRaw groups r) where
  seen k := by
    rw [get_addRaw, h.seen]
    simp [or_and_right, exists_or]
  total p hp := by
    rw [failuresOf_concat]
    rcases mem_addRaw hp with rfl | ⟨hkey, hp⟩
    · rw [FailedTxByLabelPoint.add_key, entryFor_key, if_pos rfl, ← (h.entry r).1]
      rfl
    · rw [if_neg fun e => hkey e.symm, h.total p hp, Nat.add_zero]
  counts p hp c n := by
    rw [List.mem_append, List.mem_singleton]
    rcases mem_addRaw hp with rfl | ⟨hkey, hp⟩
    · obtain ⟨-, hcounts⟩ := h.entry r
      obtain ⟨hlabel, haddress⟩ := Prod.mk.inj (entryFor_key groups r)
      have hfree : ∀ m, (r.errorCategory, m) ∉ (entryFor groups r).byCategory.rows := fun m hm =>
        hnew (List.mem_map.mpr ⟨_, (hcounts _ m).mp hm, rfl⟩)
      rw [mem_add hfree, hcounts]
      have hrow : (⟨r.label, r.address, c, n⟩ : RawRow) = r ↔ c = r.errorCategory ∧ n = r.cnt := by
        cases r
        simp
      show _ ↔ ⟨(entryFor groups r).label, (entryFor groups r).address, c, n⟩ ∈ done ∨
        ⟨(entryFor groups r).label, (entryFor groups r).address, c, n⟩ = r
      rw [hlabel, haddress, hrow]
    · rw [h.counts p hp]
      refine (or_iff_left fun e => hkey ?_).symm
      rw [← e]

theorem Pivots.foldl (h : Pivots done groups) (huniq : OnePerCell (done ++ raw)) :
    Pivots (done ++ raw) (raw.foldl addRaw groups) := by
  induction raw generalizing done groups with
  | nil => rwa [List.append_nil]
  | cons r raw ih =>
    rw [List.append_cons] at huniq ⊢
    refine ih (h.step fun hmem => ?_) huniq
    rw [OnePerCell, List.map_append, List.map_append, List.append_assoc] at huniq
    exact (List.disjoint_of_nodup_append huniq) hmem (by simp)

theorem pivots_pivot (huniq : OnePerCell raw) : Pivots raw (pivot raw) :=
  Pivots.empty.foldl huniq

end Fold

/-! ## The points -/

theorem rawRow_ext {r r' : RawRow} (hgroup : r.group = r'.group)
    (hcount : (r.errorCategory, r.cnt) = (r'.errorCategory, r'.cnt)) : r = r' := by
  cases r
  cases r'
  simp_all [RawRow.group]

section Points
variable {raw : List RawRow} {p : FailedTxByLabelPoint}

/-- The counts of a point are the counts of its rows, so their sum is its total. -/
theorem total_eq_sum (huniq : OnePerCell raw) (hp : p ∈ (pivot raw).rows) :
    p.totalFailures = (p.byCategory.rows.map Prod.snd).sum := by
  have h := pivots_pivot huniq
  rw [h.total p hp, failuresOf]
  have hperm : ((raw.filter fun r => decide (r.group = p.key)).map fun r =>
      (r.errorCategory, r.cnt)).Perm p.byCategory.rows := by
    refine (List.perm_ext_iff_of_nodup ?_ (.of_map _ p.byCategory.unique)).mpr fun e => ?_
    · refine List.Nodup.map_on (fun x hx y hy he => ?_) (huniq.of_map.filter _)
      simp only [List.mem_filter, decide_eq_true_eq] at hx hy
      exact rawRow_ext (hx.2.trans hy.2.symm) he
    · obtain ⟨c, n⟩ := e
      rw [h.counts p hp, List.mem_map]
      constructor
      · rintro ⟨r, hr, he⟩
        simp only [List.mem_filter, decide_eq_true_eq] at hr
        have hrow : (⟨p.label, p.address, c, n⟩ : RawRow) = r := rawRow_ext hr.2.symm he.symm
        exact hrow ▸ hr.1
      · exact fun hmem => ⟨_, List.mem_filter.mpr ⟨hmem, by simp⟩, rfl⟩
  rw [← (hperm.map Prod.snd).sum_eq, List.map_map]
  rfl

/-- The points are the groups of the input. -/
theorem map_key_pivot (huniq : OnePerCell raw) :
    ((pivot raw).rows.map FailedTxByLabelPoint.key).Perm (groupsOf raw) := by
  refine (List.perm_ext_iff_of_nodup (pivot raw).unique (List.nodup_dedup _)).mpr fun k => ?_
  have hseen := (pivots_pivot huniq).seen k
  rw [Table.get_isSome] at hseen
  simpa [groupsOf] using hseen

theorem upTo_pivot (huniq : OnePerCell raw) (x : Natᵒᵈ) :
    upTo (fun p : FailedTxByLabelPoint => OrderDual.toDual p.totalFailures) (pivot raw).rows x =
      upTo (fun k => OrderDual.toDual (failuresOf raw k)) (groupsOf raw) x := by
  rw [← upTo_perm (map_key_pivot huniq), upTo_map]
  refine upTo_congr (fun p hp => ?_) x
  rw [Function.comp_apply, (pivots_pivot huniq).total p hp]

theorem tieAtCut_iff (huniq : OnePerCell raw) (n : Nat) : TieAtCut raw n ↔
    InTie (fun p : FailedTxByLabelPoint => OrderDual.toDual p.totalFailures) (pivot raw).rows n := by
  unfold TieAtCut
  rw [← inTie_perm (map_key_pivot huniq), inTie_map]
  refine inTie_congr fun p hp => ?_
  rw [Function.comp_apply, (pivots_pivot huniq).total p hp]

end Points

/-! ## The cut -/

/-- What the rows of the answer are: the groups with the most failures, in order, each with
the counts of the input and their sum. -/
structure TopOf (raw : List RawRow) (limit : Nat) (out : List FailedTxByLabelPoint) : Prop where
  ordered : out.Pairwise fun a b => b.totalFailures ≤ a.totalFailures
  conserved : ∀ p ∈ out, p.totalFailures = (p.byCategory.rows.map Prod.snd).sum
  counts : ∀ p ∈ out, ∀ c n,
    (c, n) ∈ p.byCategory.rows ↔ ⟨p.label, p.address, c, n⟩ ∈ raw
  distinct : (out.map FailedTxByLabelPoint.key).Nodup
  length : out.length = min limit (groupsOf raw).length
  highest : ∀ p ∈ out, ∀ k ∈ groupsOf raw, (∀ q ∈ out, q.key ≠ k) →
    failuresOf raw k ≤ p.totalFailures

/-- The pivot's rows are right, and which rows they are is decided by the counts alone. -/
structure ByLabelSpec (raw : List RawRow) (limit : Int) : Prop where
  top : ∀ order, TopOf raw limit.toNat (topByLabel order limit raw)
  determined : ∀ (order order' : MostFailures) (raw' : List RawRow), raw'.Perm raw →
    ∀ k, (∃ p ∈ topByLabel order limit raw, p.key = k) ↔
      ∃ p ∈ topByLabel order' limit raw', p.key = k

section Cut
variable {raw : List RawRow} {limit : Int}

theorem topByLabel_eq (order : MostFailures) (hlimit : 1 ≤ limit) :
    topByLabel order limit raw = (order.sort (pivot raw).rows).take limit.toNat := by
  unfold topByLabel
  simp only
  rw [if_pos (by omega)]

theorem topByLabel_top (huniq : OnePerCell raw) (hlimit : 1 ≤ limit) (order : MostFailures) :
    TopOf raw limit.toNat (topByLabel order limit raw) := by
  have h := pivots_pivot huniq
  have hperm := order.perm (pivot raw).rows
  rw [topByLabel_eq order hlimit]
  have hmem : ∀ p ∈ (order.sort (pivot raw).rows).take limit.toNat, p ∈ (pivot raw).rows :=
    fun p hp => hperm.mem_iff.mp (List.mem_of_mem_take hp)
  constructor
  · exact ((order.sorted _).sublist (List.take_sublist _ _)).imp fun h => h
  · exact fun p hp => total_eq_sum huniq (hmem p hp)
  · exact fun p hp => h.counts p (hmem p hp)
  · have hnodup := ((hperm.map FailedTxByLabelPoint.key).nodup_iff).mpr (pivot raw).unique
    exact hnodup.sublist ((List.take_sublist _ _).map _)
  · rw [List.length_take, hperm.length_eq, ← (map_key_pivot huniq).length_eq, List.length_map]
  · intro p hp k hk hout
    obtain ⟨q, hq, rfl⟩ := List.mem_map.mp ((map_key_pivot huniq).mem_iff.mpr hk)
    have hdrop : q ∈ (order.sort (pivot raw).rows).drop limit.toNat := by
      have hq := hperm.mem_iff.mpr hq
      rw [← List.take_append_drop limit.toNat (order.sort _)] at hq
      exact (List.mem_append.mp hq).resolve_left fun hq => hout q hq rfl
    rw [← h.total q hq]
    exact le_of_mem_take_drop order hp hdrop

/-- The answer to a request, over the tables it reads. -/
theorem failedTxByLabelAggregate_top {order : MostFailures} {labels : Labels} {db : Db}
    {ownerId : Option String} {fromTs toTs : Option Int} {points : List FailedTxByLabelPoint}
    (h : failedTxByLabelAggregate order labels db ownerId fromTs toTs limit = .ok points)
    (hlimit : 1 ≤ limit) :
    TopOf (groupCounts (labelledFailures (ownedLabels labels ownerId) db fromTs toTs))
      limit.toNat points := by
  rw [failedTxByLabelAggregate_eq] at h
  split at h
  · cases h
    exact topByLabel_top (onePerCell_groupCounts _) hlimit order
  · cases h

/-- Without a tie a group is in the answer by its rank, which the input decides. -/
theorem mem_topByLabel (huniq : OnePerCell raw) (hlimit : 1 ≤ limit)
    (htie : ¬TieAtCut raw limit.toNat) (order : MostFailures) (k : String × String) :
    (∃ p ∈ topByLabel order limit raw, p.key = k) ↔
      k ∈ groupsOf raw ∧ upTo (fun k => OrderDual.toDual (failuresOf raw k)) (groupsOf raw)
        (OrderDual.toDual (failuresOf raw k)) ≤ limit.toNat := by
  rw [tieAtCut_iff huniq] at htie
  rw [topByLabel_eq order hlimit, take_of_not_inTie order htie]
  simp only [List.mem_filter, decide_eq_true_eq, (order.perm _).mem_iff, upTo_pivot huniq]
  have htotal := (pivots_pivot huniq).total
  constructor
  · rintro ⟨p, ⟨hp, hrank⟩, rfl⟩
    rw [htotal p hp] at hrank
    exact ⟨(map_key_pivot huniq).mem_iff.mp (List.mem_map_of_mem hp), hrank⟩
  · rintro ⟨hk, hrank⟩
    obtain ⟨p, hp, rfl⟩ := List.mem_map.mp ((map_key_pivot huniq).mem_iff.mpr hk)
    exact ⟨p, ⟨hp, by rwa [htotal p hp]⟩, rfl⟩

theorem failuresOf_perm {raw' : List RawRow} (h : raw'.Perm raw) : failuresOf raw' = failuresOf raw :=
  funext fun _ => ((h.filter _).map _).sum_eq

theorem groupsOf_perm {raw' : List RawRow} (h : raw'.Perm raw) :
    (groupsOf raw').Perm (groupsOf raw) := (h.map _).dedup

/-- With a tie at the cut the order of the map decides which of two groups is in the answer. -/
theorem not_determined_of_tie (huniq : OnePerCell raw) (hlimit : 1 ≤ limit)
    (htie : TieAtCut raw limit.toNat) : ¬ByLabelSpec raw limit := by
  intro h
  obtain ⟨o, o', x, y, l, l', ho, ho', hlen⟩ := exists_swap_of_inTie ((tieAtCut_iff huniq _).mp htie)
  have hkeys : ((l ++ x :: y :: l').map FailedTxByLabelPoint.key).Nodup := by
    rw [← ho]
    exact (((o.perm _).map _).nodup_iff).mpr (pivot raw).unique
  have hx : x ∈ topByLabel o limit raw := by
    rw [topByLabel_eq o hlimit, ho, ← hlen, List.append_cons, List.take_left' (by simp)]
    simp
  obtain ⟨q, hq, hkey⟩ := (h.determined o o' raw (.refl raw) x.key).mp ⟨x, hx, rfl⟩
  rw [topByLabel_eq o' hlimit, ho', ← hlen, List.append_cons, List.take_left' (by simp)] at hq
  -- `q` stands before or after `x` in one list of distinct keys
  simp only [List.map_append, List.map_cons, List.nodup_append, List.nodup_cons] at hkeys
  rcases List.mem_append.mp hq with hq | hq
  · exact hkeys.2.2 q.key (List.mem_map_of_mem hq) x.key List.mem_cons_self hkey
  · rw [List.mem_singleton.mp hq] at hkey
    exact hkeys.2.1.1 (by simp [hkey])

end Cut

/-- For every grouped result and every limit: the answer is right and decided by the counts
exactly if the cut does not fall between two groups with equal totals. -/
theorem topByLabel_spec_iff {raw : List RawRow} (huniq : OnePerCell raw) {limit : Int}
    (hlimit : 1 ≤ limit) : ByLabelSpec raw limit ↔ ¬TieAtCut raw limit.toNat := by
  constructor
  · exact fun h htie => not_determined_of_tie huniq hlimit htie h
  · intro htie
    refine ⟨topByLabel_top huniq hlimit, fun order order' raw' hperm k => ?_⟩
    have huniq' : OnePerCell raw' := ((hperm.map RawRow.cell).nodup_iff).mpr huniq
    have htie' : ¬TieAtCut raw' limit.toNat := by
      unfold TieAtCut
      rwa [failuresOf_perm hperm, inTie_perm (groupsOf_perm hperm)]
    rw [mem_topByLabel huniq hlimit htie order, mem_topByLabel huniq' hlimit htie' order',
      failuresOf_perm hperm, (groupsOf_perm hperm).mem_iff, upTo_perm (groupsOf_perm hperm)]

/-- Two labelled contracts, one with two failures of different kinds. -/
def routerCounts : List RawRow :=
  [⟨"Router", "0xaa", "UNKNOWN", 1⟩, ⟨"Vault", "0xbb", "UNKNOWN", 1⟩,
   ⟨"Router", "0xaa", "SLIPPAGE_EXCEEDED", 1⟩]

theorem router_first : ByLabelSpec routerCounts 1 ↔ ¬TieAtCut routerCounts 1 :=
  topByLabel_spec_iff (by decide) (by decide)

/-- One failure each, and room for one row. -/
theorem tied_labels : ¬ ∀ (raw : List RawRow) (limit : Int), OnePerCell raw → 1 ≤ limit →
    ByLabelSpec raw limit := by
  intro h
  have huniq : OnePerCell [⟨"Router", "0xaa", "UNKNOWN", 1⟩, ⟨"Vault", "0xbb", "UNKNOWN", 1⟩] := by
    decide
  exact not_determined_of_tie huniq (by decide) (by decide) (h _ 1 huniq (by decide))

end Amarillo.L2
