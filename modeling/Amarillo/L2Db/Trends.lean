import Mathlib
import Amarillo.Core.Grouping
import Amarillo.L2Db.Lists

/-!
# Failures over time (`db/src/queries.rs`, `db/src/models.rs`)

The chart of failures: `failed_transaction` grouped by a time bucket and the category.
Times and bounds are whole seconds, as the rows have them; a session of the server is in
UTC, where a day has 86400 of them and a week starts on a Monday.

* `trend_drilldown`: a point of the chart is the total of the list behind it, the points
  are in order, and those of a category add up to the total of the list.
* `trend_windows`: a coarse chart is a fine one added up, and charts of two windows that
  meet at the start of a bucket are the chart of both.
-/
namespace Amarillo.L2
open Amarillo.Core

/-! ## Buckets -/

inductive TimeBucket where
  | hour
  | day
  | week
  deriving DecidableEq, Repr

/-- mirrors crates/db/src/models.rs:96-107 -/
def TimeBucket.fromStr : String → Option TimeBucket
  | "hour" => some .hour
  | "day" => some .day
  | "week" => some .week
  | _ => none

/-- In seconds. -/
def TimeBucket.width : TimeBucket → Int
  | .hour => 3600
  | .day => 86400
  | .week => 604800

/-- The start of a bucket. 5 January 1970 was a Monday. -/
def TimeBucket.origin : TimeBucket → Int
  | .hour => 0
  | .day => 0
  | .week => 4 * 86400

/-- `date_trunc($1, timestamp)` -/
def dateTrunc (bucket : TimeBucket) (t : Int) : Int := Sql.floorTo bucket.origin bucket.width t

theorem TimeBucket.width_pos (bucket : TimeBucket) : 0 < bucket.width := by
  cases bucket <;> decide

theorem dateTrunc_eq_iff {bucket : TimeBucket} {t b : Int} :
    dateTrunc bucket t = b ↔ dateTrunc bucket b = b ∧ b ≤ t ∧ t < b + bucket.width := by
  have hw := bucket.width_pos
  unfold dateTrunc
  rw [Sql.floorTo_eq_iff hw, Sql.floorTo_eq_iff hw]
  constructor
  · rintro ⟨hdvd, hle, hlt⟩
    exact ⟨⟨hdvd, le_rfl, by omega⟩, hle, hlt⟩
  · rintro ⟨⟨hdvd, -, -⟩, hle, hlt⟩
    exact ⟨hdvd, hle, hlt⟩

theorem dateTrunc_dateTrunc {fine coarse : TimeBucket} (h : fine.width ≤ coarse.width) (t : Int) :
    dateTrunc coarse (dateTrunc fine t) = dateTrunc coarse t := by
  have hfits : fine.width ∣ coarse.width ∧ fine.width ∣ coarse.origin - fine.origin := by
    revert h
    cases fine <;> cases coarse <;> decide
  exact Sql.floorTo_floorTo fine.width_pos coarse.width_pos hfits.1 hfits.2 t

/-- Times on both sides of the start of a bucket are in different ones. -/
theorem dateTrunc_lt {bucket : TimeBucket} {m s t : Int} (hm : dateTrunc bucket m = m) (hs : s < m)
    (ht : m ≤ t) : dateTrunc bucket s < dateTrunc bucket t := by
  obtain ⟨-, hle, -⟩ := dateTrunc_eq_iff.mp (rfl : dateTrunc bucket s = _)
  by_contra hge
  have hw := bucket.width_pos
  obtain ⟨hb, htle, htlt⟩ := dateTrunc_eq_iff.mp (rfl : dateTrunc bucket t = _)
  -- the bucket of `t` starts before `m` and ends after it, so it is that of `m`
  have heq : dateTrunc bucket m = dateTrunc bucket t :=
    dateTrunc_eq_iff.mpr ⟨hb, by omega, by omega⟩
  omega

/-- The order of `error_category`: that of its values, first as they were created and then
as they were added.
mirrors migrations/20240101000001_initial_schema.sql:12-20,
migrations/20240109000001_subdivide_categories.sql:12-15 -/
def ErrorCategory.enumRank : ErrorCategory → Nat
  | .insufficientBalance => 0
  | .slippageExceeded => 1
  | .deadlineExpired => 2
  | .unauthorized => 3
  | .transferFailed => 4
  | .unknown => 5
  | .slippageAmountOut => 6
  | .slippageAmountIn => 7
  | .slippagePriceImpact => 8
  | .insufficientAllowance => 9

theorem ErrorCategory.enumRank_injective : Function.Injective ErrorCategory.enumRank := by
  intro c c' h
  cases c <;> cases c' <;> first | rfl | exact absurd h (by decide)

instance ErrorCategory.linearOrder : LinearOrder ErrorCategory :=
  LinearOrder.lift' ErrorCategory.enumRank ErrorCategory.enumRank_injective

/-! ## The chart -/

structure FailedTxTrendPoint where
  bucket : Int
  errorCategory : ErrorCategory
  failureCount : Nat
  deriving DecidableEq, Repr

/-- A row of the chart: its group and the count. -/
def FailedTxTrendPoint.ofRow (g : (Int ×ₗ ErrorCategory) × Nat) : FailedTxTrendPoint :=
  ⟨(ofLex g.1).1, (ofLex g.1).2, g.2⟩

/-- `GROUP BY 1, 2 ORDER BY 1 ASC, 2 ASC` -/
def FailedTxTrendPoint.key (p : FailedTxTrendPoint) : Int ×ₗ ErrorCategory :=
  toLex (p.bucket, p.errorCategory)

def trendKey (bucket : TimeBucket) (r : FailedTransaction) : Int ×ₗ ErrorCategory :=
  toLex (dateTrunc bucket r.timestamp, r.errorCategory)

/-- mirrors crates/db/src/queries.rs:711-737 -/
def failedTxTimeseries (db : Db) (bucket : TimeBucket) (fromTs toTs : Option Int) :
    List FailedTxTrendPoint :=
  (Sql.orderedGroups (trendKey bucket) List.length (failedMatches db none fromTs toTs)).map
    FailedTxTrendPoint.ofRow

/-- The same grouping, of a chart's points. -/
def regroup (bucket : TimeBucket) (points : List FailedTxTrendPoint) : List FailedTxTrendPoint :=
  (Sql.orderedGroups (fun p => toLex (dateTrunc bucket p.bucket, p.errorCategory))
    (fun ps => (ps.map FailedTxTrendPoint.failureCount).sum) points).map FailedTxTrendPoint.ofRow

/-- The first second of a bucket that the window has. -/
def TimeBucket.opens (fromTs : Option Int) (b : Int) : Int := fromTs.elim b (max b)

/-- The last one. -/
def TimeBucket.closes (bucket : TimeBucket) (toTs : Option Int) (b : Int) : Int :=
  toTs.elim (b + bucket.width - 1) (min (b + bucket.width - 1))

section Chart
variable {db : Db} {bucket : TimeBucket} {fromTs toTs : Option Int}

/-- The rows of a point are those that the list shows for its category and its seconds. -/
theorem listed_point {b : Int} (hb : dateTrunc bucket b = b) (c : ErrorCategory)
    (r : FailedTransaction) :
    (r.listed none fromTs toTs ∧ trendKey bucket r = toLex (b, c)) ↔
      r.listed (some c) (some (TimeBucket.opens fromTs b)) (some (bucket.closes toTs b)) := by
  have hopens : TimeBucket.opens fromTs b ≤ r.timestamp ↔
      b ≤ r.timestamp ∧ ∀ t ∈ fromTs, t ≤ r.timestamp := by
    cases fromTs <;> simp [TimeBucket.opens]
  have hcloses : r.timestamp ≤ bucket.closes toTs b ↔
      r.timestamp < b + bucket.width ∧ ∀ t ∈ toTs, r.timestamp ≤ t := by
    cases toTs with
    | none => simp [TimeBucket.closes]
    | some t => simp [TimeBucket.closes]
  have hbucket : dateTrunc bucket r.timestamp = b ↔ dateTrunc bucket b = b ∧ b ≤ r.timestamp ∧
      r.timestamp < b + bucket.width := dateTrunc_eq_iff
  simp only [FailedTransaction.listed, trendKey, EmbeddingLike.apply_eq_iff_eq, Prod.mk.injEq,
    hbucket, hb, true_and, Option.mem_some_iff, forall_eq', hopens, hcloses]
  simp only [Option.not_mem_none, false_imp_iff, implies_true, true_and]
  tauto

theorem countFailedTransactions_point [d : DecidableEq (Int ×ₗ ErrorCategory)] {b : Int}
    (hb : dateTrunc bucket b = b) (c : ErrorCategory) :
    countFailedTransactions db (some c) (some (TimeBucket.opens fromTs b))
        (some (bucket.closes toTs b)) =
      ((failedMatches db none fromTs toTs).filter fun r =>
        decide (trendKey bucket r = toLex (b, c))).length := by
  rw [countFailedTransactions_eq, failedMatches, failedMatches, List.filter_filter]
  refine congrArg List.length (List.filter_congr fun r _ => ?_)
  rw [← Bool.decide_and, decide_eq_decide, ← listed_point hb, and_comm]

theorem failedTxTimeseries_ascending (db : Db) (bucket : TimeBucket) (fromTs toTs : Option Int) :
    (failedTxTimeseries db bucket fromTs toTs).Pairwise fun p q => p.key < q.key :=
  List.pairwise_map.mpr (Sql.orderedGroups_ascending _ _ _)

theorem mem_failedTxTimeseries {p : FailedTxTrendPoint} :
    p ∈ failedTxTimeseries db bucket fromTs toTs ↔
      dateTrunc bucket p.bucket = p.bucket ∧
      p.failureCount = countFailedTransactions db (some p.errorCategory)
        (some (TimeBucket.opens fromTs p.bucket)) (some (bucket.closes toTs p.bucket)) ∧
      0 < p.failureCount := by
  have hrow : p ∈ failedTxTimeseries db bucket fromTs toTs ↔ (p.key, p.failureCount) ∈
      Sql.orderedGroups (trendKey bucket) List.length (failedMatches db none fromTs toTs) := by
    refine List.mem_map.trans ⟨?_, fun h => ⟨_, h, rfl⟩⟩
    rintro ⟨g, hg, rfl⟩
    exact hg
  rw [hrow, Sql.mem_orderedGroups]
  dsimp only
  constructor
  · rintro ⟨⟨r, hr, hkey⟩, hlen⟩
    have hb : dateTrunc bucket p.bucket = p.bucket := by
      have h : dateTrunc bucket r.timestamp = p.bucket := congrArg (fun k => (ofLex k).1) hkey
      exact (dateTrunc_eq_iff.mp h).1
    refine ⟨hb, hlen.trans (countFailedTransactions_point (d := LinearOrder.toDecidableEq) hb _).symm, ?_⟩
    rw [hlen]
    exact List.length_pos_of_mem (List.mem_filter.mpr ⟨hr, by simpa using hkey⟩)
  · rintro ⟨hb, hlen, hpos⟩
    have hlen := hlen.trans (countFailedTransactions_point (d := LinearOrder.toDecidableEq) hb _)
    obtain ⟨r, hr⟩ := List.exists_mem_of_length_pos (hlen ▸ hpos)
    obtain ⟨hr, hkey⟩ := List.mem_filter.mp hr
    exact ⟨⟨r, hr, by simpa [FailedTxTrendPoint.key] using hkey⟩, hlen⟩

theorem length_eq_sum_ones {α : Type*} (xs : List α) : xs.length = (xs.map fun _ => 1).sum := by
  simp

theorem sum_failedTxTimeseries (db : Db) (bucket : TimeBucket) (fromTs toTs : Option Int)
    (category : Option ErrorCategory) :
    (((failedTxTimeseries db bucket fromTs toTs).filter fun p =>
      decide (∀ c ∈ category, p.errorCategory = c)).map FailedTxTrendPoint.failureCount).sum =
    countFailedTransactions db category fromTs toTs := by
  have h := Sql.sum_orderedGroups (trendKey bucket) (fun _ => 1)
    (fun k => decide (∀ c ∈ category, (ofLex k).2 = c)) (failedMatches db none fromTs toTs)
  simp only [← length_eq_sum_ones] at h
  rw [failedTxTimeseries, List.filter_map, List.map_map, countFailedTransactions_eq]
  refine h.trans (congrArg List.length ?_)
  rw [failedMatches, failedMatches, List.filter_filter]
  refine List.filter_congr fun r _ => ?_
  rw [← Bool.decide_and, decide_eq_decide]
  simp [FailedTransaction.listed, trendKey]

/-- **Drill-down.** The points ascend by bucket and category. A point is where a bucket
starts, and its count is the total that the list gives for its category and the seconds of
its bucket that the window has; a bucket without failures has no point. The points of a
category, or all of them, add up to the total of the list for the window. -/
theorem trend_drilldown (db : Db) (bucket : TimeBucket) (fromTs toTs : Option Int) :
    ((failedTxTimeseries db bucket fromTs toTs).Pairwise fun p q => p.key < q.key) ∧
    (∀ p, p ∈ failedTxTimeseries db bucket fromTs toTs ↔
      dateTrunc bucket p.bucket = p.bucket ∧
      p.failureCount = countFailedTransactions db (some p.errorCategory)
        (some (TimeBucket.opens fromTs p.bucket)) (some (bucket.closes toTs p.bucket)) ∧
      0 < p.failureCount) ∧
    ∀ category : Option ErrorCategory,
      (((failedTxTimeseries db bucket fromTs toTs).filter fun p =>
        decide (∀ c ∈ category, p.errorCategory = c)).map FailedTxTrendPoint.failureCount).sum =
      countFailedTransactions db category fromTs toTs :=
  ⟨failedTxTimeseries_ascending db bucket fromTs toTs, fun _ => mem_failedTxTimeseries,
    sum_failedTxTimeseries db bucket fromTs toTs⟩

end Chart

/-! ## Charts of charts -/

section Windows
variable {db : Db}

theorem regroup_failedTxTimeseries {fine coarse : TimeBucket} (h : fine.width ≤ coarse.width)
    (db : Db) (fromTs toTs : Option Int) :
    regroup coarse (failedTxTimeseries db fine fromTs toTs) =
      failedTxTimeseries db coarse fromTs toTs := by
  have hroll := Sql.orderedGroups_rollup (trendKey fine) (fun _ => 1)
    (fun k => toLex (dateTrunc coarse (ofLex k).1, (ofLex k).2)) (failedMatches db none fromTs toTs)
  simp only [← length_eq_sum_ones] at hroll
  rw [regroup, failedTxTimeseries, Sql.orderedGroups_map]
  simp only [List.map_map]
  refine congrArg (List.map FailedTxTrendPoint.ofRow) (hroll.trans ?_)
  simp only [trendKey, ofLex_toLex, dateTrunc_dateTrunc h]
  rfl

/-- The rows of a window, cut at `m`. -/
theorem failedMatches_cut (db : Db) (fromTs toTs : Option Int) (m : Int) :
    (failedMatches db none fromTs toTs).Perm
      (failedMatches db none fromTs (some (toTs.elim (m - 1) (min (m - 1)))) ++
        failedMatches db none (some (fromTs.elim m (max m))) toTs) := by
  have hparts := List.filter_append_perm (fun r => decide (r.timestamp < m))
    (failedMatches db none fromTs toTs)
  refine hparts.symm.trans (.of_eq ?_)
  simp only [failedMatches, List.filter_filter]
  congr 1 <;> refine List.filter_congr fun r _ => ?_
  · have hlt : r.timestamp < m ↔ r.timestamp ≤ m - 1 := by omega
    rw [← Bool.decide_and, decide_eq_decide, hlt]
    cases toTs <;> (simp [FailedTransaction.listed]; tauto)
  · rw [Bool.eq_iff_iff]
    cases fromTs with
    | none => simp [FailedTransaction.listed]
    | some t =>
      simp [FailedTransaction.listed]
      tauto

theorem failedTxTimeseries_cut {bucket : TimeBucket} {m : Int} (hm : dateTrunc bucket m = m)
    (db : Db) (fromTs toTs : Option Int) :
    failedTxTimeseries db bucket fromTs toTs =
      failedTxTimeseries db bucket fromTs (some (toTs.elim (m - 1) (min (m - 1)))) ++
        failedTxTimeseries db bucket (some (fromTs.elim m (max m))) toTs := by
  unfold failedTxTimeseries
  rw [Sql.orderedGroups_of_perm _ _ (failedMatches_cut db fromTs toTs m) List.Perm.length_eq,
    Sql.orderedGroups_append, List.map_append]
  intro x hx y hy
  have hxm : x.timestamp < m := by
    have h := (of_decide_eq_true (List.mem_filter.mp hx).2).2.2
    cases toTs <;> simp at h <;> omega
  have hym : m ≤ y.timestamp := by
    have h := (of_decide_eq_true (List.mem_filter.mp hy).2).2.1
    cases fromTs <;> simp at h <;> omega
  exact Prod.Lex.left _ _ (dateTrunc_lt hm hxm hym)

/-- **Charts of charts.** The points of a fine chart, added up by the coarse buckets they
lie in, are the coarse chart; and a chart is the chart up to the start of a bucket followed
by the chart from there. -/
theorem trend_windows {fine coarse : TimeBucket} (h : fine.width ≤ coarse.width) (db : Db)
    (fromTs toTs : Option Int) :
    regroup coarse (failedTxTimeseries db fine fromTs toTs) =
      failedTxTimeseries db coarse fromTs toTs ∧
    ∀ m, dateTrunc fine m = m → failedTxTimeseries db fine fromTs toTs =
      failedTxTimeseries db fine fromTs (some (toTs.elim (m - 1) (min (m - 1)))) ++
        failedTxTimeseries db fine (some (fromTs.elim m (max m))) toTs :=
  ⟨regroup_failedTxTimeseries h db fromTs toTs,
    fun _ hm => failedTxTimeseries_cut hm db fromTs toTs⟩

end Windows

/-- Two failures around a midnight, and one of another kind after it. -/
def midnightDb : Db :=
  (execAll ⟨false, 0⟩
    [.insertBlocks [⟨1, 86399, 0, none, none⟩, ⟨2, 86400, 0, none, none⟩],
     .insertTransactions [⟨"0xa", "0x1", none, 1, 21000, 1, 0, 0, none⟩,
       ⟨"0xb", "0x1", none, 2, 21000, 1, 0, 0, none⟩, ⟨"0xc", "0x1", none, 2, 21000, 1, 0, 0, none⟩],
     .insertFailedTransactions [⟨"0xa", .unknown, none, none, 21000, 86399⟩,
       ⟨"0xb", .unknown, none, none, 21000, 86400⟩,
       ⟨"0xc", .deadlineExpired, none, none, 21000, 86400⟩]] Db.empty).1

theorem trend_windows_midnight :
    failedTxTimeseries midnightDb .week none none =
      [⟨-259200, .deadlineExpired, 1⟩, ⟨-259200, .unknown, 2⟩] ∧
    regroup .week (failedTxTimeseries midnightDb .day none none) =
      failedTxTimeseries midnightDb .week none none ∧
    failedTxTimeseries midnightDb .day none none =
      failedTxTimeseries midnightDb .day none (some 86399) ++
        failedTxTimeseries midnightDb .day (some 86400) none := by
  obtain ⟨hroll, hcut⟩ :=
    trend_windows (show TimeBucket.day.width ≤ TimeBucket.week.width by decide) midnightDb none none
  exact ⟨by decide +kernel, hroll, hcut 86400 (by decide)⟩

end Amarillo.L2
