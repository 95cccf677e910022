import Amarillo.Core.Numeric
import Amarillo.Core.Sql
import Amarillo.Core.Text
import Amarillo.L2Db.Queries

/-!
# Pool statistics (`db/src/queries.rs`, `sql/procedures/001_procedures.sql`)

`fn_get_pool_stats` joins the pool with its swaps of a window, groups the join and takes
its sums; `getPoolStats` reads the one row of the answer into a type without NULLs.
`NUMERIC` divides in decimals (`quotient`).

Bounds are microseconds; the rows have the whole seconds of their blocks.

* `getPoolStats_spec`: for a pool with swaps in the window the numbers are those of its
  swaps, the two quotients rounded; only a pool that does not exist is not found; and rows
  of other pools do not count.
* `getPoolStats_exact_iff`: when the numbers are the ones without rounding.
* `getPoolStats_no_swaps`: without a swap in the window the sums are NULL, which the type
  has no place for, and the call fails.
-/
namespace Amarillo.L2
open Amarillo.Core

/-- The columns the statistics read. -/
structure Pool where
  poolAddress : String
  pairName : String
  feeTier : Int
  deriving DecidableEq, Repr

/-- `'^0x[a-fA-F0-9]{40}$'` -/
def addressFormat (address : String) : Bool :=
  match address.toList with
  | '0' :: 'x' :: hex => hex.length = 40 && hex.all fun c => (hexVal c).isSome
  | _ => false

/-- mirrors migrations/20240101000001_initial_schema.sql:89-104 -/
def Pool.accepted (p : Pool) : Prop :=
  varchar 42 p.poolAddress ∧ varchar 50 p.pairName ∧ p.feeTier ∈ [100, 500, 3000, 10000] ∧
    addressFormat p.poolAddress = true

instance Pool.decidableAccepted (p : Pool) : Decidable p.accepted := inferInstanceAs (Decidable (_ ∧ _))

/-- The table `pool`. -/
structure Pools where
  table : Table Pool.poolAddress
  accepted : ∀ p ∈ table.rows, p.accepted

/-- A row of `fn_get_pool_stats`. The two sums, and what is computed from them, may be NULL. -/
structure PoolStatsRow where
  pairName : String
  swapCount : Nat
  uniqueTraders : Nat
  totalVolumeIn : Option Int
  avgTradeSize : Option ℚ
  liquidityEvents : Nat
  estimatedFees : Option ℚ
  deriving DecidableEq

structure PoolStats where
  pairName : String
  swapCount : Nat
  uniqueTraders : Nat
  totalVolumeIn : ℚ
  avgTradeSize : ℚ
  liquidityEvents : Nat
  estimatedFees : ℚ
  deriving DecidableEq

/-- `timestamp BETWEEN p_from_date AND p_to_date` -/
def between (fromDate toDate timestamp : Int) : Prop :=
  fromDate ≤ timestamp * 1000000 ∧ timestamp * 1000000 ≤ toDate

instance (fromDate toDate timestamp : Int) : Decidable (between fromDate toDate timestamp) :=
  inferInstanceAs (Decidable (_ ∧ _))

/-- The select list, over the rows of one group.
mirrors sql/procedures/001_procedures.sql:168-181 -/
def poolStatsRow (db : Db) (address : String) (fromDate toDate : Int) (pairName : String)
    (feeTier : Int) (group : List (Option SwapEvent)) : PoolStatsRow :=
  let swapCount := Sql.count group
  let total := Sql.sum (group.map fun s => s.map SwapEvent.amountIn)
  { pairName := pairName
    swapCount := swapCount
    uniqueTraders := Sql.countDistinct (group.map fun s => s.map SwapEvent.sender)
    totalVolumeIn := total
    avgTradeSize :=
      if 0 < swapCount then total.map fun total => quotient total swapCount else some 0
    liquidityEvents := db.liquidityEvents.rows.countP fun e =>
      decide (e.poolAddress = address ∧ between fromDate toDate e.timestamp)
    estimatedFees := total.map fun total => quotient (total * feeTier) 1000000 }

/-- mirrors sql/procedures/001_procedures.sql:149-187 -/
def fnGetPoolStats (pools : Pools) (db : Db) (address : String) (fromDate toDate : Int) :
    List PoolStatsRow :=
  let joined := Sql.leftJoin (pools.table.rows.filter fun p => decide (p.poolAddress = address))
    db.swapEvents.rows fun p s =>
      decide (p.poolAddress = s.poolAddress ∧ between fromDate toDate s.timestamp)
  (Sql.groupBy (fun r => (r.1.pairName, r.1.feeTier)) joined).map fun g =>
    poolStatsRow db address fromDate toDate g.1.1 g.1.2 (g.2.map Prod.snd)

/-- A NULL in a column whose type has none is an error of `sqlx`.
mirrors crates/db/src/models.rs:437-454 -/
def PoolStatsRow.decode (r : PoolStatsRow) : Except FetchError PoolStats :=
  match r.totalVolumeIn, r.avgTradeSize, r.estimatedFees with
  | some total, some avg, some fees => .ok
    { pairName := r.pairName
      swapCount := r.swapCount
      uniqueTraders := r.uniqueTraders
      totalVolumeIn := total
      avgTradeSize := avg
      liquidityEvents := r.liquidityEvents
      estimatedFees := fees }
  | _, _, _ => .error .sqlx

/-- A value the `TIMESTAMPTZ` of a parameter can hold, in microseconds. -/
def bindable (t : Int) : Prop := -210866803200 * 1000000 ≤ t ∧ t < 9224318016000 * 1000000

instance (t : Int) : Decidable (bindable t) := inferInstanceAs (Decidable (_ ∧ _))

/-- mirrors crates/db/src/queries.rs:743-756 -/
def getPoolStats (pools : Pools) (db : Db) (address : String) (fromDate toDate : Int) :
    Except FetchError PoolStats :=
  if text address ∧ bindable fromDate ∧ bindable toDate then
    match (fnGetPoolStats pools db address fromDate toDate).head? with
    | some row => row.decode
    | none => .error (.notFound ("pool stats for " ++ address))
  else .error .sqlx

/-! ## The pool's rows -/

/-- The swaps of the pool in the window. -/
def poolSwaps (db : Db) (address : String) (fromDate toDate : Int) : List SwapEvent :=
  db.swapEvents.rows.filter fun s =>
    decide (address = s.poolAddress ∧ between fromDate toDate s.timestamp)

def poolVolume (db : Db) (address : String) (fromDate toDate : Int) : Int :=
  ((poolSwaps db address fromDate toDate).map SwapEvent.amountIn).sum

def poolLiquidityEvents (db : Db) (address : String) (fromDate toDate : Int) :
    List LiquidityEvent :=
  db.liquidityEvents.rows.filter fun e =>
    decide (e.poolAddress = address ∧ between fromDate toDate e.timestamp)

section Rows
variable {pools : Pools} {db : Db} {address : String} {fromDate toDate : Int} {p : Pool}

/-- The one group of an existing pool. -/
theorem fnGetPoolStats_some (hp : pools.table.get address = some p) :
    fnGetPoolStats pools db address fromDate toDate =
      [poolStatsRow db address fromDate toDate p.pairName p.feeTier
        ((Sql.leftJoin [p] db.swapEvents.rows fun p s =>
          decide (p.poolAddress = s.poolAddress ∧ between fromDate toDate s.timestamp)).map
            Prod.snd)] := by
  simp only [fnGetPoolStats, Table.filter_key hp]
  rw [Sql.groupBy_const (k := (p.pairName, p.feeTier)) (Sql.leftJoin_ne_nil _ _ _)]
  · rfl
  · intro r hr
    rw [List.mem_singleton.mp (Sql.fst_of_mem_leftJoin hr)]

theorem fnGetPoolStats_none (hp : pools.table.get address = none) :
    fnGetPoolStats pools db address fromDate toDate = [] := by
  have hnone : pools.table.rows.filter (fun p => decide (p.poolAddress = address)) = [] :=
    List.filter_eq_nil_iff.mpr fun p h => by simpa using Table.get_eq_none.mp hp p h
  simp [fnGetPoolStats, hnone, Sql.leftJoin]

theorem leftJoin_swaps (hp : pools.table.get address = some p)
    (hswaps : poolSwaps db address fromDate toDate ≠ []) :
    ((Sql.leftJoin [p] db.swapEvents.rows fun p s =>
      decide (p.poolAddress = s.poolAddress ∧ between fromDate toDate s.timestamp)).map
        Prod.snd) = (poolSwaps db address fromDate toDate).map some := by
  have hkey : p.poolAddress = address := Table.get_key hp
  rw [Sql.leftJoin_of_some (by rwa [hkey]), List.map_map, hkey]
  rfl

theorem text_poolAddress (hp : pools.table.get address = some p) : text address := by
  have hkey : p.poolAddress = address := Table.get_key hp
  exact hkey ▸ (pools.accepted p (Table.get_mem hp)).1.1

end Rows

/-! ## A window with swaps -/

/-- The numbers of a pool whose swaps and liquidity events of the window are given by
`poolSwaps` and `poolLiquidityEvents`. -/
structure StatsOf (db : Db) (p : Pool) (fromDate toDate : Int) (s : PoolStats) : Prop where
  pairName : s.pairName = p.pairName
  swapCount : s.swapCount = (poolSwaps db p.poolAddress fromDate toDate).length
  uniqueTraders : s.uniqueTraders =
    ((poolSwaps db p.poolAddress fromDate toDate).map SwapEvent.sender).dedup.length
  totalVolumeIn : s.totalVolumeIn = poolVolume db p.poolAddress fromDate toDate
  avgTradeSize : s.avgTradeSize = quotient (poolVolume db p.poolAddress fromDate toDate) s.swapCount
  estimatedFees :
    s.estimatedFees = quotient (poolVolume db p.poolAddress fromDate toDate * p.feeTier) 1000000
  liquidityEvents :
    s.liquidityEvents = (poolLiquidityEvents db p.poolAddress fromDate toDate).length

/-- The numbers as one would compute them without rounding. -/
structure ExactStats (db : Db) (p : Pool) (fromDate toDate : Int) (s : PoolStats) : Prop where
  swapCount : s.swapCount = (poolSwaps db p.poolAddress fromDate toDate).length
  totalVolumeIn : s.totalVolumeIn = poolVolume db p.poolAddress fromDate toDate
  avgTradeSize : s.avgTradeSize * s.swapCount = s.totalVolumeIn
  estimatedFees : s.estimatedFees = s.totalVolumeIn * p.feeTier / 10 ^ 6
  liquidityEvents :
    s.liquidityEvents = (poolLiquidityEvents db p.poolAddress fromDate toDate).length

section Window
variable {pools : Pools} {db : Db} {address : String} {fromDate toDate : Int} {p : Pool}

/-- With a swap in the window, the answer. -/
theorem getPoolStats_ok (hp : pools.table.get address = some p) (hfrom : bindable fromDate)
    (hto : bindable toDate) (hswaps : poolSwaps db address fromDate toDate ≠ []) :
    ∃ s, getPoolStats pools db address fromDate toDate = .ok s ∧ StatsOf db p fromDate toDate s := by
  have hkey : p.poolAddress = address := Table.get_key hp
  have hpos : 0 < (poolSwaps db address fromDate toDate).length := List.length_pos_iff.mpr hswaps
  unfold getPoolStats
  rw [if_pos ⟨text_poolAddress hp, hfrom, hto⟩, fnGetPoolStats_some hp, leftJoin_swaps hp hswaps]
  simp only [List.head?_cons, poolStatsRow, List.map_map, Function.comp_def, Option.map_some,
    Sql.sum_map_some hswaps, Sql.countDistinct_map_some]
  rw [show Sql.count (List.map some (poolSwaps db address fromDate toDate)) = _ from
    Sql.count_map_some id _, if_pos hpos]
  subst hkey
  exact ⟨_, rfl, {
    pairName := rfl
    swapCount := rfl
    uniqueTraders := rfl
    totalVolumeIn := rfl
    avgTradeSize := rfl
    estimatedFees := rfl
    liquidityEvents := List.countP_eq_length_filter }⟩

/-- Without one, the sums are NULL and the row cannot be read. -/
theorem getPoolStats_no_swaps (hp : pools.table.get address = some p)
    (hswaps : poolSwaps db address fromDate toDate = []) :
    getPoolStats pools db address fromDate toDate = .error .sqlx := by
  have hkey : p.poolAddress = address := Table.get_key hp
  have hjoin : Sql.leftJoin [p] db.swapEvents.rows (fun p s =>
      decide (p.poolAddress = s.poolAddress ∧ between fromDate toDate s.timestamp)) = [(p, none)] :=
    Sql.leftJoin_of_none (by rwa [hkey])
  unfold getPoolStats
  split
  · rw [fnGetPoolStats_some hp, hjoin]
    rfl
  · rfl

theorem getPoolStats_unbindable (h : ¬(bindable fromDate ∧ bindable toDate)) :
    getPoolStats pools db address fromDate toDate = .error .sqlx :=
  if_neg fun hbound => h hbound.2

/-- Only a pool that does not exist is not found. -/
theorem notFound_of_getPoolStats {msg : String}
    (h : getPoolStats pools db address fromDate toDate = .error (.notFound msg)) :
    pools.table.get address = none := by
  by_contra hne
  obtain ⟨p, hp⟩ := Option.ne_none_iff_exists'.mp hne
  by_cases hbound : bindable fromDate ∧ bindable toDate
  · by_cases hswaps : poolSwaps db address fromDate toDate = []
    · rw [getPoolStats_no_swaps hp hswaps] at h
      cases h
    · obtain ⟨s, hs, -⟩ := getPoolStats_ok hp hbound.1 hbound.2 hswaps
      rw [hs] at h
      cases h
  · rw [getPoolStats_unbindable hbound] at h
    cases h

end Window

/-! ## How exact the numbers are -/

section Exact
variable {db : Db} {fromDate toDate : Int} {p : Pool} {s : PoolStats}

/-- Sixteen significant digits of the average. -/
theorem StatsOf.avg_rounded (h : StatsOf db p fromDate toDate s) (hpos : 0 < s.swapCount)
    (hcount : s.swapCount < 2 ^ 63) :
    |s.avgTradeSize * s.swapCount - s.totalVolumeIn| ≤ |s.totalVolumeIn| / (2 * 10 ^ 16) := by
  rw [h.avgTradeSize, h.totalVolumeIn]
  refine quotient_relative hpos (Nat.lt_succ_iff.mp (Nat.log_lt_of_lt_pow hpos.ne' ?_))
  exact hcount.trans (by norm_num)

/-- And of the fees. -/
theorem StatsOf.fees_rounded (h : StatsOf db p fromDate toDate s) :
    |s.estimatedFees * 10 ^ 6 - s.totalVolumeIn * p.feeTier| ≤
      |s.totalVolumeIn * p.feeTier| / (2 * 10 ^ 16) := by
  rw [h.estimatedFees, h.totalVolumeIn]
  have hweight : numericWeight 1000000 ≤ 245 := by decide
  have hdiv := quotient_relative (n := poolVolume db p.poolAddress fromDate toDate * p.feeTier)
    (show 0 < 1000000 by decide) hweight
  push_cast at hdiv
  norm_num at hdiv ⊢
  exact hdiv

/-- The numbers are the exact ones iff both quotients have few enough decimals. -/
theorem StatsOf.exact_iff (h : StatsOf db p fromDate toDate s) (hpos : 0 < s.swapCount) :
    ExactStats db p fromDate toDate s ↔
      Terminates (poolVolume db p.poolAddress fromDate toDate) s.swapCount ∧
      Terminates (poolVolume db p.poolAddress fromDate toDate * p.feeTier) 1000000 := by
  have hfees : s.estimatedFees = s.totalVolumeIn * p.feeTier / 10 ^ 6 ↔
      quotient (poolVolume db p.poolAddress fromDate toDate * p.feeTier) 1000000 * (1000000 : Nat) =
        (poolVolume db p.poolAddress fromDate toDate * p.feeTier : Int) := by
    rw [h.estimatedFees, h.totalVolumeIn, eq_div_iff (by norm_num)]
    norm_num
  rw [← quotient_exact_iff hpos, ← quotient_exact_iff (by decide), ← hfees, ← h.avgTradeSize,
    ← h.totalVolumeIn]
  constructor
  · exact fun hex => ⟨hex.avgTradeSize, hex.estimatedFees⟩
  · exact fun hex => ⟨h.swapCount, h.totalVolumeIn, hex.1, hex.2, h.liquidityEvents⟩

/-- The exact numbers come back iff there is a swap in the window and both quotients have few
enough decimals. -/
theorem getPoolStats_exact_iff {pools : Pools} {address : String}
    (hp : pools.table.get address = some p) (hfrom : bindable fromDate) (hto : bindable toDate) :
    (∃ s, getPoolStats pools db address fromDate toDate = .ok s ∧
      ExactStats db p fromDate toDate s) ↔
      poolSwaps db address fromDate toDate ≠ [] ∧
      Terminates (poolVolume db address fromDate toDate)
        (poolSwaps db address fromDate toDate).length ∧
      Terminates (poolVolume db address fromDate toDate * p.feeTier) 1000000 := by
  have hkey : p.poolAddress = address := Table.get_key hp
  by_cases hswaps : poolSwaps db address fromDate toDate = []
  · simp [getPoolStats_no_swaps hp hswaps, hswaps]
  · obtain ⟨s, hs, hstats⟩ := getPoolStats_ok hp hfrom hto hswaps
    have hpos : 0 < s.swapCount := by
      rw [hstats.swapCount, hkey]
      exact List.length_pos_iff.mpr hswaps
    have hexact := hstats.exact_iff hpos
    rw [hstats.swapCount, hkey] at hexact
    simp [hs, hexact, hswaps]

end Exact

/-! ## Other pools -/

/-- Both databases have the same rows of the pool. -/
structure SamePool (address : String) (pools pools' : Pools) (db db' : Db) : Prop where
  pool : pools'.table.get address = pools.table.get address
  swaps : ∀ s, s.poolAddress = address → (s ∈ db'.swapEvents.rows ↔ s ∈ db.swapEvents.rows)
  liquidity : ∀ e, e.poolAddress = address →
    (e ∈ db'.liquidityEvents.rows ↔ e ∈ db.liquidityEvents.rows)

section Others
variable {pools pools' : Pools} {db db' : Db} {address : String}

theorem SamePool.swaps_perm (h : SamePool address pools pools' db db') (fromDate toDate : Int) :
    (poolSwaps db' address fromDate toDate).Perm (poolSwaps db address fromDate toDate) :=
  Table.filter_perm fun s hs => h.swaps s (of_decide_eq_true hs).1.symm

theorem SamePool.liquidity_perm (h : SamePool address pools pools' db db') (fromDate toDate : Int) :
    (poolLiquidityEvents db' address fromDate toDate).Perm
      (poolLiquidityEvents db address fromDate toDate) :=
  Table.filter_perm fun e he => h.liquidity e (of_decide_eq_true he).1

/-- The row depends on the group and on the pool's liquidity events. -/
theorem poolStatsRow_congr (fromDate toDate : Int) (pairName : String) (feeTier : Int)
    {group group' : List (Option SwapEvent)} (hgroup : group'.Perm group)
    (hliquidity : (poolLiquidityEvents db' address fromDate toDate).Perm
      (poolLiquidityEvents db address fromDate toDate)) :
    poolStatsRow db' address fromDate toDate pairName feeTier group' =
      poolStatsRow db address fromDate toDate pairName feeTier group := by
  have hlength := hliquidity.length_eq
  simp only [poolLiquidityEvents, ← List.countP_eq_length_filter] at hlength
  simp only [poolStatsRow, Sql.count_perm hgroup, Sql.sum_perm (hgroup.map _),
    Sql.countDistinct_perm (hgroup.map _), hlength]

theorem getPoolStats_congr (h : SamePool address pools pools' db db') (fromDate toDate : Int) :
    getPoolStats pools' db' address fromDate toDate = getPoolStats pools db address fromDate toDate := by
  have hrows : fnGetPoolStats pools' db' address fromDate toDate =
      fnGetPoolStats pools db address fromDate toDate := by
    cases hp : pools.table.get address with
    | none => rw [fnGetPoolStats_none hp, fnGetPoolStats_none (h.pool.trans hp)]
    | some p =>
      have hkey : p.poolAddress = address := Table.get_key hp
      rw [fnGetPoolStats_some hp, fnGetPoolStats_some (h.pool.trans hp)]
      refine congrArg (fun r => [r]) (poolStatsRow_congr _ _ _ _ ?_ (h.liquidity_perm _ _))
      refine (Sql.leftJoin_perm ?_).map _
      have hperm := h.swaps_perm fromDate toDate
      rwa [← hkey] at hperm
  unfold getPoolStats
  rw [hrows]

end Others

/-! ## The statistics -/

/-- Pool statistics, for every database, pool and window. With a swap in the window they are
the numbers of the pool's swaps and liquidity events, the average and the fees as the sixteen
digits of a `NUMERIC` quotient; only a pool that does not exist is not found; other pools'
rows do not count. -/
theorem getPoolStats_spec (pools : Pools) (db : Db) (address : String) (fromDate toDate : Int) :
    (∀ p, pools.table.get address = some p → bindable fromDate → bindable toDate →
      poolSwaps db address fromDate toDate ≠ [] →
      ∃ s, getPoolStats pools db address fromDate toDate = .ok s ∧
        StatsOf db p fromDate toDate s ∧
        (s.swapCount < 2 ^ 63 → |s.avgTradeSize * s.swapCount - s.totalVolumeIn| ≤
          |s.totalVolumeIn| / (2 * 10 ^ 16)) ∧
        |s.estimatedFees * 10 ^ 6 - s.totalVolumeIn * p.feeTier| ≤
          |s.totalVolumeIn * p.feeTier| / (2 * 10 ^ 16)) ∧
    (∀ msg, getPoolStats pools db address fromDate toDate = .error (.notFound msg) →
      pools.table.get address = none) ∧
    ∀ pools' db', SamePool address pools pools' db db' →
      getPoolStats pools' db' address fromDate toDate =
        getPoolStats pools db address fromDate toDate := by
  refine ⟨fun p hp hfrom hto hswaps => ?_, fun msg h => notFound_of_getPoolStats h,
    fun pools' db' h => getPoolStats_congr h fromDate toDate⟩
  obtain ⟨s, hs, hstats⟩ := getPoolStats_ok hp hfrom hto hswaps
  have hkey : p.poolAddress = address := Table.get_key hp
  have hpos : 0 < s.swapCount := by
    rw [hstats.swapCount, hkey]
    exact List.length_pos_iff.mpr hswaps
  exact ⟨s, hs, hstats, hstats.avg_rounded hpos, hstats.fees_rounded⟩

def usdcWeth : Pool := ⟨"0x8ad599c3a0ff1de082011efddc58f1908eb6e6d8", "USDC/WETH", 3000⟩

def onePool : Pools where
  table := Table.empty.insertNew [usdcWeth]
  accepted := by decide +kernel

def swapOf (amountIn : Int) (logIndex : Int) : SwapEvent :=
  ⟨usdcWeth.poolAddress, "0xaa", "0xbb", "0xcc", 0, 0, amountIn, 0, 0, 0, 0, logIndex, 100⟩

/-- Three swaps of 3, 3 and 4 in one block. -/
def threeSwaps : Db :=
  { Db.empty with swapEvents := Table.empty.insertNew [swapOf 3 0, swapOf 3 1, swapOf 4 2] }

theorem three_swaps_stats :
    ∃ s, getPoolStats onePool threeSwaps usdcWeth.poolAddress 0 1000000000 = .ok s ∧
      StatsOf threeSwaps usdcWeth 0 1000000000 s ∧
      (s.swapCount < 2 ^ 63 → |s.avgTradeSize * s.swapCount - s.totalVolumeIn| ≤
        |s.totalVolumeIn| / (2 * 10 ^ 16)) ∧
      |s.estimatedFees * 10 ^ 6 - s.totalVolumeIn * usdcWeth.feeTier| ≤
        |s.totalVolumeIn * usdcWeth.feeTier| / (2 * 10 ^ 16) :=
  (getPoolStats_spec onePool threeSwaps usdcWeth.poolAddress 0 1000000000).1 usdcWeth
    (by decide +kernel) (by decide) (by decide) (by decide +kernel)

/-- Their average has no end in decimals. -/
theorem three_swaps_inexact :
    ¬ ∀ (pools : Pools) (db : Db) (address : String) (p : Pool) (fromDate toDate : Int),
      pools.table.get address = some p → ∃ s, getPoolStats pools db address fromDate toDate = .ok s ∧
        ExactStats db p fromDate toDate s := by
  intro h
  have hexact := h onePool threeSwaps usdcWeth.poolAddress usdcWeth 0 1000000000 (by decide +kernel)
  rw [getPoolStats_exact_iff (by decide +kernel) (by decide) (by decide)] at hexact
  have hnot : ¬Terminates (poolVolume threeSwaps usdcWeth.poolAddress 0 1000000000)
      (poolSwaps threeSwaps usdcWeth.poolAddress 0 1000000000).length := by
    decide +kernel
  exact hnot hexact.2.1

end Amarillo.L2
