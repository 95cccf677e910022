import Mathlib
import Amarillo.Core.Grouping
import Amarillo.Core.Numeric
import Amarillo.L2Db.Lists

/-!
# Failures by category (`sql/views/001_views.sql`, `db/src/queries.rs`)

`vw_failed_tx_analysis` groups `failed_transaction` by category, with the number of
failures, the mean gas, the share in percent and the latest time of each. The mean and the
share are divided to the scale of `NUMERIC` and rounded again.

* `analysis_spec`: with fewer than 10^8 failures of less than 10^12 gas each, the read never
  fails; each row is about the list of its category, its share and mean rounded once; and the
  shares add up to a hundred but for half of their last decimal each.
-/
namespace Amarillo.L2
open Amarillo.Core

/-- A row of the view. The mean and the maximum may be NULL. -/
structure FailedTxAnalysisRow where
  errorCategory : ErrorCategory
  failureCount : Nat
  avgGasWasted : Option ℚ
  pctOfTotal : ℚ
  mostRecentFailure : Option Int
  deriving DecidableEq

structure FailedTxAnalysis where
  errorCategory : ErrorCategory
  failureCount : Nat
  avgGasWasted : ℚ
  pctOfTotal : ℚ
  mostRecentFailure : Int
  deriving DecidableEq

/-- `AVG(x)` -/
def avg (xs : List Int) : Option ℚ := if xs = [] then none else some (quotient xs.sum xs.length)

/-- The select list, over the rows of one group.
mirrors sql/views/001_views.sql:83-90 -/
def failedTxAnalysisRow (totalFailures : Nat) (c : ErrorCategory) (group : List FailedTransaction) :
    FailedTxAnalysisRow where
  errorCategory := c
  failureCount := group.length
  avgGasWasted := (avg (group.map FailedTransaction.gasUsed)).map (roundTo 0)
  pctOfTotal := roundTo 2 (quotient (100 * group.length) (max totalFailures 1))
  mostRecentFailure := (group.map FailedTransaction.timestamp).max?

/-- mirrors sql/views/001_views.sql:79-94 -/
def vwFailedTxAnalysis (db : Db) : List FailedTxAnalysisRow :=
  (Sql.groupBy FailedTransaction.errorCategory db.failedTransactions.rows).map fun g =>
    failedTxAnalysisRow db.failedTransactions.rows.length g.1 g.2

/-- mirrors crates/db/src/models.rs:422-435 -/
def FailedTxAnalysisRow.decode (r : FailedTxAnalysisRow) : Except FetchError FailedTxAnalysis :=
  match r.avgGasWasted, r.mostRecentFailure with
  | some avgGas, some mostRecent => .ok
    { errorCategory := r.errorCategory
      failureCount := r.failureCount
      avgGasWasted := avgGas
      pctOfTotal := r.pctOfTotal
      mostRecentFailure := mostRecent }
  | _, _ => .error .sqlx

/-- `ORDER BY failure_count DESC` -/
abbrev MostFirst := OrderBy fun r : FailedTxAnalysisRow => OrderDual.toDual r.failureCount

/-- mirrors crates/db/src/queries.rs:573-580 -/
def getFailedTxAnalysis (order : MostFirst) (db : Db) : Except FetchError (List FailedTxAnalysis) :=
  (order.sort (vwFailedTxAnalysis db)).mapM FailedTxAnalysisRow.decode

/-! ## Rows -/

theorem mapM_ok {α β ε : Type} {f : α → Except ε β} {g : α → β} {xs : List α}
    (h : ∀ x ∈ xs, f x = .ok (g x)) : xs.mapM f = .ok (xs.map g) := by
  induction xs with
  | nil => rfl
  | cons x xs ih =>
    rw [List.mapM_cons, h x List.mem_cons_self, ih fun y hy => h y (List.mem_cons_of_mem x hy)]
    rfl

/-- The failures of a category, as the list selects them. -/
abbrev ofCategory (db : Db) (c : ErrorCategory) : List FailedTransaction :=
  failedMatches db (some c) none none

theorem ofCategory_eq (db : Db) (c : ErrorCategory) : ofCategory db c =
    db.failedTransactions.rows.filter fun r => decide (r.errorCategory = c) := by
  simp [ofCategory, failedMatches, FailedTransaction.listed]

theorem mem_vwFailedTxAnalysis {db : Db} {r : FailedTxAnalysisRow} :
    r ∈ vwFailedTxAnalysis db ↔ ofCategory db r.errorCategory ≠ [] ∧
      r = failedTxAnalysisRow db.failedTransactions.rows.length r.errorCategory
        (ofCategory db r.errorCategory) := by
  have hne (c : ErrorCategory) :
      ofCategory db c ≠ [] ↔ ∃ f ∈ db.failedTransactions.rows, f.errorCategory = c := by
    simp [ofCategory_eq, List.filter_eq_nil_iff]
  rw [hne]
  constructor
  · intro h
    obtain ⟨g, hg, rfl⟩ := List.mem_map.mp h
    obtain ⟨hkey, hrows⟩ := (Sql.mem_groupBy _).mp hg
    exact ⟨hkey, by rw [hrows, ofCategory_eq]; rfl⟩
  · rintro ⟨hkey, hr⟩
    exact hr ▸ List.mem_map.mpr ⟨(r.errorCategory, ofCategory db r.errorCategory),
      (Sql.mem_groupBy _).mpr ⟨hkey, ofCategory_eq db _⟩, rfl⟩

theorem nodup_vwFailedTxAnalysis (db : Db) :
    ((vwFailedTxAnalysis db).map FailedTxAnalysisRow.errorCategory).Nodup := by
  rw [vwFailedTxAnalysis, List.map_map]
  exact Sql.nodup_groupBy _ _

/-- The counts of all rows are the number of failures. -/
theorem sum_vwFailedTxAnalysis (db : Db) :
    ((vwFailedTxAnalysis db).map FailedTxAnalysisRow.failureCount).sum =
      db.failedTransactions.rows.length := by
  have h := Sql.sum_groups FailedTransaction.errorCategory (fun _ => 1) db.failedTransactions.rows
    (List.nodup_dedup (db.failedTransactions.rows.map FailedTransaction.errorCategory))
  rw [List.filter_eq_self.mpr fun f hf =>
    decide_eq_true (List.mem_dedup.mpr (List.mem_map_of_mem hf))] at h
  rw [vwFailedTxAnalysis, List.map_map, Sql.groupBy, List.map_map]
  simpa [Function.comp_def, failedTxAnalysisRow] using h

/-- What a row says about the list of its category. -/
structure AnalysisOf (db : Db) (a : FailedTxAnalysis) : Prop where
  failureCount : a.failureCount = countFailedTransactions db (some a.errorCategory) none none
  occurs : 0 < a.failureCount
  avgGasWasted : a.avgGasWasted =
    roundDiv ((ofCategory db a.errorCategory).map FailedTransaction.gasUsed).sum a.failureCount
  pctOfTotal : a.pctOfTotal =
    roundDiv (10000 * a.failureCount) (countFailedTransactions db none none none) / 100
  mostRecentFailure : ∀ order : NewestFirst FailedTransaction.timestamp, ∃ r,
    listFailedTransactions order db (some a.errorCategory) none none 1 0 = some [r] ∧
      r.timestamp = a.mostRecentFailure

section Rounding
variable {group : List FailedTransaction}

theorem natAbs_sum_lt {xs : List Int} {b : Nat} (hne : xs ≠ []) (h : ∀ x ∈ xs, x.natAbs < b) :
    xs.sum.natAbs < xs.length * b := by
  induction xs with
  | nil => exact absurd rfl hne
  | cons x xs ih =>
    have hx := h x List.mem_cons_self
    rcases eq_or_ne xs [] with rfl | hxs
    · simpa using hx
    · have hrest := ih hxs fun y hy => h y (List.mem_cons_of_mem x hy)
      have habs := Int.natAbs_add_le x xs.sum
      rw [List.sum_cons, List.length_cons, Nat.succ_mul]
      omega

/-- The mean is rounded at eight decimals or more first, and there are fewer rows than that. -/
theorem avg_round (hne : group ≠ []) (hgas : ∀ r ∈ group, r.gasUsed.natAbs < 10 ^ 12)
    (hlen : group.length < 10 ^ 8) :
    (avg (group.map FailedTransaction.gasUsed)).map (roundTo 0) =
      some (roundDiv (group.map FailedTransaction.gasUsed).sum group.length : ℚ) := by
  have hmap : group.map FailedTransaction.gasUsed ≠ [] := fun e => hne (List.map_eq_nil_iff.mp e)
  have hsum := natAbs_sum_lt hmap (b := 10 ^ 12) (List.forall_mem_map.mpr hgas)
  have hscale := le_divScale (n := (group.map FailedTransaction.gasUsed).sum)
    (d := group.length) (k := 2) (by norm_num) (by rw [List.length_map] at hsum; simpa using hsum)
  rw [avg, if_neg hmap, Option.map_some, List.length_map,
    roundTo_quotient (List.length_pos_iff.mpr hne) 8 (by norm_num) (by simpa using hscale) hlen]
  simp

/-- The share is below 10000, so its scale is sixteen. -/
theorem pct_round {total n : Nat} (hpos : 0 < total) (hle : n ≤ total) (hlen : total < 10 ^ 8) :
    roundTo 2 (quotient (100 * n) (max total 1)) = roundDiv (10000 * n) total / 100 := by
  have hscale := le_divScale (n := 100 * n) (d := total) (k := 0) (by norm_num) (by
    rw [show (100 * (n : Int)).natAbs = 100 * n by omega]
    omega)
  rw [Nat.max_eq_left hpos, roundTo_quotient hpos 14 (by norm_num) (by simpa using hscale)
    (hlen.trans (by norm_num))]
  rw [show (100 * (n : Int)) * 10 ^ 2 = 10000 * n by ring]
  norm_num

end Rounding

/-- The first row of a list with the newest first has the latest time. -/
theorem first_listed {db : Db} {category : Option ErrorCategory} {t : Int}
    (h : ((failedMatches db category none none).map FailedTransaction.timestamp).max? = some t)
    (order : NewestFirst FailedTransaction.timestamp) : ∃ r,
      listFailedTransactions order db category none none 1 0 = some [r] ∧ r.timestamp = t := by
  obtain ⟨hmem, hmax⟩ := List.max?_eq_some_iff.mp h
  obtain ⟨f, hf, hft⟩ := List.mem_map.mp hmem
  have hf := (order.perm _).mem_iff.mpr hf
  have hsorted := order.sorted (failedMatches db category none none)
  have hall : ∀ r ∈ order.sort (failedMatches db category none none), r.timestamp ≤ t :=
    fun r hr => hmax _ (List.mem_map_of_mem ((order.perm _).mem_iff.mp hr))
  cases hsort : order.sort (failedMatches db category none none) with
  | nil =>
    rw [hsort] at hf
    exact absurd hf List.not_mem_nil
  | cons r rest =>
    refine ⟨r, ?_, ?_⟩
    · have hpage := selectPage_natCast 1 0 (r :: rest)
      rw [listFailedTransactions, hsort]
      exact hpage
    · rw [hsort] at hf hsorted hall
      refine le_antisymm (hall r List.mem_cons_self) ?_
      rcases List.mem_cons.mp hf with rfl | hrest
      · exact hft.ge
      · have hle := List.rel_of_pairwise_cons hsorted hrest
        exact hft ▸ OrderDual.toDual_le_toDual.mp hle

theorem countFailedTransactions_none (db : Db) :
    countFailedTransactions db none none none = db.failedTransactions.rows.length := by
  simp [countFailedTransactions, FailedTransaction.listed]

/-- A row of the view is read, as a row about its category. -/
theorem decode_vwFailedTxAnalysis {db : Db}
    (hgas : ∀ r ∈ db.failedTransactions.rows, r.gasUsed.natAbs < 10 ^ 12)
    (hlen : db.failedTransactions.rows.length < 10 ^ 8) {r : FailedTxAnalysisRow}
    (hr : r ∈ vwFailedTxAnalysis db) : ∃ a, r.decode = .ok a ∧ AnalysisOf db a ∧
      a.errorCategory = r.errorCategory ∧ a.failureCount = r.failureCount := by
  obtain ⟨hne, hrow⟩ := mem_vwFailedTxAnalysis.mp hr
  generalize r.errorCategory = c at *
  subst hrow
  have hsub : (ofCategory db c).Sublist db.failedTransactions.rows := List.filter_sublist
  have hle := hsub.length_le
  have hpos : 0 < (ofCategory db c).length := List.length_pos_iff.mpr hne
  have hgas' : ∀ f ∈ ofCategory db c, f.gasUsed.natAbs < 10 ^ 12 := fun f hf => hgas f (hsub.subset hf)
  have htimes : ((ofCategory db c).map FailedTransaction.timestamp).max?.isSome = true :=
    List.isSome_max?_iff.mpr fun e => hne (List.map_eq_nil_iff.mp e)
  obtain ⟨t, ht⟩ := Option.isSome_iff_exists.mp htimes
  refine ⟨_, by rw [FailedTxAnalysisRow.decode, failedTxAnalysisRow, avg_round hne hgas' (by omega), ht],
    ?_, rfl, rfl⟩
  exact {
    failureCount := (countFailedTransactions_eq db _ _ _).symm
    occurs := hpos
    avgGasWasted := rfl
    pctOfTotal := by
      rw [countFailedTransactions_none]
      exact pct_round (by omega) hle hlen
    mostRecentFailure := first_listed ht }

/-- Shares of a whole, each rounded, miss it by half a unit each at most. -/
theorem sum_roundDiv_error {d : Nat} (hd : 0 < d) (ns : List Int) :
    2 * |(ns.map fun n => roundDiv n d).sum * d - ns.sum| ≤ ns.length * d := by
  induction ns with
  | nil => simp
  | cons n ns ih =>
    have hn := roundDiv_error (n := n) hd
    have htri := abs_add_le (roundDiv n d * d - n) ((ns.map fun n => roundDiv n d).sum * d - ns.sum)
    rw [List.map_cons, List.sum_cons, List.sum_cons, List.length_cons]
    rw [show (roundDiv n d + (ns.map fun n => roundDiv n d).sum) * d - (n + ns.sum) =
      roundDiv n d * d - n + ((ns.map fun n => roundDiv n d).sum * d - ns.sum) by ring]
    push_cast
    linarith

/-- The shares of all categories, as the rows have them, add up to a hundred but for their
rounding. -/
theorem sum_pctOfTotal {db : Db} {rows : List FailedTxAnalysis} (hrows : ∀ a ∈ rows, AnalysisOf db a)
    (hsum : (rows.map FailedTxAnalysis.failureCount).sum = countFailedTransactions db none none none)
    (hne : rows ≠ []) : |(rows.map FailedTxAnalysis.pctOfTotal).sum - 100| ≤ rows.length / 200 := by
  obtain ⟨a, ha⟩ := List.exists_mem_of_ne_nil _ hne
  have htotal : 0 < countFailedTransactions db none none none := by
    have hle := List.le_sum_of_mem (List.mem_map_of_mem (f := FailedTxAnalysis.failureCount) ha)
    have hoccurs := (hrows a ha).occurs
    omega
  have hpct : rows.map FailedTxAnalysis.pctOfTotal = rows.map fun a =>
      ((roundDiv (10000 * a.failureCount) (countFailedTransactions db none none none) : Int) : ℚ) / 100 :=
    List.map_congr_left fun a ha => (hrows a ha).pctOfTotal
  have herr := sum_roundDiv_error htotal (rows.map fun a => 10000 * (a.failureCount : Int))
  rw [List.map_map, List.sum_map_mul_left, List.length_map] at herr
  rw [hpct]
  generalize countFailedTransactions db none none none = total at *
  have hwhole : (rows.map fun a => (a.failureCount : Int)).sum = total := by
    rw [← hsum, Nat.cast_list_sum, List.map_map]
    rfl
  have hcast : (rows.map fun a => ((roundDiv (10000 * a.failureCount) total : Int) : ℚ) / 100).sum =
      (((rows.map fun a => roundDiv (10000 * a.failureCount) total).sum : Int) : ℚ) / 100 := by
    rw [Int.cast_list_sum, List.map_map]
    simp only [div_eq_mul_inv, List.sum_map_mul_right]
    rfl
  rw [hcast]
  rw [hwhole, show (rows.map ((fun n => roundDiv n total) ∘ fun a => 10000 * (a.failureCount : Int))) =
    rows.map fun a => roundDiv (10000 * a.failureCount) total from rfl] at herr
  generalize (rows.map fun a => roundDiv (10000 * a.failureCount) total).sum = shares at *
  have hpos : (0 : Int) < total := by exact_mod_cast htotal
  rw [← sub_mul, abs_mul, abs_of_pos hpos, ← mul_assoc] at herr
  have hle : 2 * |shares - 10000| ≤ (rows.length : Int) := le_of_mul_le_mul_right herr hpos
  have hle : 2 * |(shares : ℚ) - 10000| ≤ rows.length := by exact_mod_cast hle
  rw [show (shares : ℚ) / 100 - 100 = (shares - 10000) / 100 by ring, abs_div,
    abs_of_pos (by norm_num : (0 : ℚ) < 100)]
  linarith

/-- **The analysis and the list agree.** There are fewer than 10^8 failures, and the gas of each
is below 10^12 in absolute value: beyond that the quotient, which `NUMERIC` has rounded, may
round otherwise than the true one. Then the read never fails. There is one row for each category
that occurs, the most frequent first; its count is the total of the category's list, its latest
failure the first of that list, its mean gas and its share rounded once from the true ones. The
counts add up to the total of the whole list, and the shares to a hundred but for half a
hundredth each. -/
theorem analysis_spec (order : MostFirst) (db : Db)
    (hgas : ∀ r ∈ db.failedTransactions.rows, r.gasUsed.natAbs < 10 ^ 12)
    (hlen : db.failedTransactions.rows.length < 10 ^ 8) :
    ∃ rows, getFailedTxAnalysis order db = .ok rows ∧
      rows.Pairwise (fun a b => b.failureCount ≤ a.failureCount) ∧
      (rows.map FailedTxAnalysis.errorCategory).Nodup ∧
      (∀ c, c ∈ rows.map FailedTxAnalysis.errorCategory ↔
        0 < countFailedTransactions db (some c) none none) ∧
      (∀ a ∈ rows, AnalysisOf db a) ∧
      (rows.map FailedTxAnalysis.failureCount).sum = countFailedTransactions db none none none ∧
      (rows ≠ [] → |(rows.map FailedTxAnalysis.pctOfTotal).sum - 100| ≤ rows.length / 200) := by
  have hread (r : FailedTxAnalysisRow) : ∃ a, r ∈ vwFailedTxAnalysis db → r.decode = .ok a ∧
      AnalysisOf db a ∧ a.errorCategory = r.errorCategory ∧ a.failureCount = r.failureCount := by
    by_cases hr : r ∈ vwFailedTxAnalysis db
    · obtain ⟨a, ha⟩ := decode_vwFailedTxAnalysis hgas hlen hr
      exact ⟨a, fun _ => ha⟩
    · exact ⟨⟨r.errorCategory, 0, 0, 0, 0⟩, fun h => absurd h hr⟩
  choose read hread using hread
  have hperm := order.perm (vwFailedTxAnalysis db)
  have hsorted := order.sorted (vwFailedTxAnalysis db)
  have hmem (r) (hr : r ∈ order.sort (vwFailedTxAnalysis db)) := hread r (hperm.mem_iff.mp hr)
  have hcategories : ((order.sort (vwFailedTxAnalysis db)).map read).map
        FailedTxAnalysis.errorCategory =
      (order.sort (vwFailedTxAnalysis db)).map FailedTxAnalysisRow.errorCategory := by
    rw [List.map_map]
    exact List.map_congr_left fun r hr => (hmem r hr).2.2.1
  have hcounts : ((order.sort (vwFailedTxAnalysis db)).map read).map FailedTxAnalysis.failureCount =
      (order.sort (vwFailedTxAnalysis db)).map FailedTxAnalysisRow.failureCount := by
    rw [List.map_map]
    exact List.map_congr_left fun r hr => (hmem r hr).2.2.2
  have hrows : ∀ a ∈ (order.sort (vwFailedTxAnalysis db)).map read, AnalysisOf db a :=
    List.forall_mem_map.mpr fun r hr => (hmem r hr).2.1
  have hsum : (((order.sort (vwFailedTxAnalysis db)).map read).map
      FailedTxAnalysis.failureCount).sum = countFailedTransactions db none none none := by
    rw [hcounts, (hperm.map _).sum_eq, sum_vwFailedTxAnalysis, countFailedTransactions_none]
  refine ⟨_, mapM_ok fun r hr => (hmem r hr).1, ?_, ?_, ?_, hrows, hsum, sum_pctOfTotal hrows hsum⟩
  · refine List.pairwise_map.mpr (hsorted.imp_of_mem fun {a b} ha hb hle => ?_)
    rw [(hmem a ha).2.2.2, (hmem b hb).2.2.2]
    exact OrderDual.toDual_le_toDual.mp hle
  · rw [hcategories, (hperm.map _).nodup_iff]
    exact nodup_vwFailedTxAnalysis db
  · intro c
    rw [hcategories, (hperm.map _).mem_iff, countFailedTransactions_eq, List.length_pos_iff,
      List.mem_map]
    constructor
    · rintro ⟨r, hr, rfl⟩
      exact (mem_vwFailedTxAnalysis.mp hr).1
    · exact fun hne => ⟨failedTxAnalysisRow db.failedTransactions.rows.length c (ofCategory db c),
        mem_vwFailedTxAnalysis.mpr ⟨hne, rfl⟩, rfl⟩

/-- Three categories, one failure each. -/
def thirdsDb : Db :=
  (execAll ⟨false, 0⟩
    [.insertBlocks [⟨1, 5, 0, none, none⟩],
     .insertTransactions [⟨"0xa", "0x1", none, 1, 21000, 1, 0, 0, none⟩,
       ⟨"0xb", "0x1", none, 1, 21000, 1, 0, 0, none⟩, ⟨"0xc", "0x1", none, 1, 21000, 1, 0, 0, none⟩],
     .insertFailedTransactions [⟨"0xa", .unknown, none, none, 21000, 5⟩,
       ⟨"0xb", .unauthorized, none, none, 21000, 5⟩,
       ⟨"0xc", .deadlineExpired, none, none, 21000, 5⟩]] Db.empty).1

/-- A third is 33.33 percent, and three of them 99.99. -/
theorem analysis_spec_thirds :
    (getFailedTxAnalysis (OrderBy.stable _) thirdsDb).map
        (fun rows => rows.map FailedTxAnalysis.pctOfTotal) = .ok [3333 / 100, 3333 / 100, 3333 / 100] ∧
    ∃ rows, getFailedTxAnalysis (OrderBy.stable _) thirdsDb = .ok rows ∧
      ∀ a ∈ rows, AnalysisOf thirdsDb a := by
  obtain ⟨rows, hrows, -, -, -, hall, -⟩ :=
    analysis_spec (OrderBy.stable _) thirdsDb (by decide +kernel) (by decide +kernel)
  exact ⟨by decide +kernel, rows, hrows, hall⟩

end Amarillo.L2
