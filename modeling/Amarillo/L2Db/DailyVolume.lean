import Mathlib
import Amarillo.Core.Grouping
import Amarillo.L2Db.Lists
import Amarillo.L2Db.PoolStats

/-!
# Daily volume (`sql/views/001_views.sql`, `db/src/queries.rs`)

`vw_daily_swap_volume` joins each swap with its pool and groups by pool and day. A session
of the server is in UTC, where `DATE` counts days of 86400 seconds.

* `daily_volume_reconciles`: the days of a registered pool add up to the statistics of the
  pool over these days, which fail exactly when there is no such day; a pool that is not
  registered has no day, though it may have swaps.
-/
namespace Amarillo.L2
open Amarillo.Core

structure DailySwapVolume where
  poolAddress : String
  pairName : String
  swapDate : Int
  swapCount : Nat
  totalAmountIn : Int
  totalAmountOut : Int
  deriving DecidableEq, Repr

/-- `DATE(timestamp)`, in days since the epoch. -/
def dateOf (timestamp : Int) : Int := timestamp / 86400

/-- The select list, over the rows of one group. A group has a row and `swap_event` no
NULLs, so neither sum is NULL.
mirrors sql/views/001_views.sql:13-19 -/
def dailySwapVolumeRow (k : String × String × Int) (group : List SwapEvent) : DailySwapVolume where
  poolAddress := k.1
  pairName := k.2.1
  swapDate := k.2.2
  swapCount := group.length
  totalAmountIn := (group.map SwapEvent.amountIn).sum
  totalAmountOut := (group.map SwapEvent.amountOut).sum

/-- `s.pool_address, p.pair_name, DATE(s.timestamp)` -/
def volumeKey (r : SwapEvent × Pool) : String × String × Int :=
  (r.1.poolAddress, r.2.pairName, dateOf r.1.timestamp)

/-- `swap_event s JOIN pool p ON s.pool_address = p.pool_address` -/
def registeredSwaps (pools : Pools) (db : Db) : List (SwapEvent × Pool) :=
  Sql.innerJoin db.swapEvents.rows pools.table.rows fun s p => decide (p.poolAddress = s.poolAddress)

/-- mirrors sql/views/001_views.sql:12-23 -/
def vwDailySwapVolume (pools : Pools) (db : Db) : List DailySwapVolume :=
  (Sql.groupBy volumeKey (registeredSwaps pools db)).map fun g =>
    dailySwapVolumeRow g.1 (g.2.map Prod.fst)

def volumeMatches (pools : Pools) (db : Db) (poolAddress : Option String) : List DailySwapVolume :=
  (vwDailySwapVolume pools db).filter fun v => decide (∀ a ∈ poolAddress, v.poolAddress = a)

/-- `ORDER BY swap_date DESC` -/
abbrev LatestFirst := OrderBy fun v : DailySwapVolume => OrderDual.toDual v.swapDate

/-- mirrors crates/db/src/queries.rs:541-562 -/
def getDailySwapVolume (order : LatestFirst) (pools : Pools) (db : Db) (poolAddress : Option String)
    (limit offset : Int) : Option (List DailySwapVolume) :=
  selectPage limit offset (order.sort (volumeMatches pools db poolAddress))

/-! ## Days -/

/-- The first microsecond of a day. -/
def dayStart (date : Int) : Int := date * 86400 * 1000000

/-- The last one. -/
def dayEnd (date : Int) : Int := dayStart (date + 1) - 1

theorem between_days {a b t : Int} :
    between (dayStart a) (dayEnd b) t ↔ a ≤ dateOf t ∧ dateOf t ≤ b := by
  unfold between dayStart dayEnd dayStart dateOf
  omega

section Days
variable {pools : Pools} {db : Db} {p : Pool} {address : String}

/-- The joined rows of a registered pool and a range of days. -/
theorem registeredSwaps_days (hp : pools.table.get address = some p) (a b : Int) :
    (registeredSwaps pools db).filter (fun r =>
        decide (r.1.poolAddress = address ∧ a ≤ dateOf r.1.timestamp ∧ dateOf r.1.timestamp ≤ b)) =
      (poolSwaps db address (dayStart a) (dayEnd b)).map fun s => (s, p) := by
  unfold registeredSwaps poolSwaps
  simp only [between_days]
  refine Sql.filter_innerJoin (fun s _ hs => ?_) fun s _ hs q _ _ => ?_
  · obtain ⟨haddr, hdays⟩ := of_decide_eq_true hs
    exact ⟨haddr ▸ Table.filter_key hp, decide_eq_true ⟨haddr.symm, hdays⟩⟩
  · refine decide_eq_false fun h => of_decide_eq_false hs ⟨h.1.symm, h.2⟩

/-- The pair's name is that of the address, so the key is the address and the day. -/
theorem filter_volumeKey (hp : pools.table.get address = some p) (date : Int) :
    (registeredSwaps pools db).filter (fun r =>
        decide (volumeKey r = (address, p.pairName, date))) =
      (poolSwaps db address (dayStart date) (dayEnd date)).map fun s => (s, p) := by
  rw [← registeredSwaps_days hp]
  refine List.filter_congr fun r hr => ?_
  obtain ⟨-, hpool, hon⟩ := Sql.mem_innerJoin.mp hr
  have hget : pools.table.get r.1.poolAddress = some r.2 :=
    of_decide_eq_true hon ▸ Table.mem_iff_get.mp hpool
  rw [decide_eq_decide, volumeKey, Prod.mk.injEq, Prod.mk.injEq]
  constructor
  · rintro ⟨haddr, -, hdate⟩
    exact ⟨haddr, hdate.ge, hdate.le⟩
  · rintro ⟨haddr, hlo, hhi⟩
    rw [haddr, hp] at hget
    exact ⟨haddr, congrArg Pool.pairName (Option.some.inj hget).symm, le_antisymm hhi hlo⟩

/-- A day of the view: that of a registered pool with swaps on it, and their sums. -/
theorem mem_vwDailySwapVolume {v : DailySwapVolume} :
    v ∈ vwDailySwapVolume pools db ↔ ∃ p, pools.table.get v.poolAddress = some p ∧
      poolSwaps db v.poolAddress (dayStart v.swapDate) (dayEnd v.swapDate) ≠ [] ∧
      v = dailySwapVolumeRow (v.poolAddress, p.pairName, v.swapDate)
        (poolSwaps db v.poolAddress (dayStart v.swapDate) (dayEnd v.swapDate)) := by
  constructor
  · intro h
    obtain ⟨⟨k, group⟩, hg, rfl⟩ := List.mem_map.mp h
    obtain ⟨⟨r, hr, hkey⟩, hgroup⟩ := (Sql.mem_groupBy _).mp hg
    obtain ⟨-, hpool, hon⟩ := Sql.mem_innerJoin.mp hr
    have hget : pools.table.get r.1.poolAddress = some r.2 :=
      of_decide_eq_true hon ▸ Table.mem_iff_get.mp hpool
    obtain ⟨address, pairName, date⟩ := k
    obtain ⟨rfl, rfl, rfl⟩ : r.1.poolAddress = address ∧ r.2.pairName = pairName ∧
        dateOf r.1.timestamp = date := by simpa [volumeKey] using hkey
    dsimp only at hgroup
    rw [filter_volumeKey hget] at hgroup
    refine ⟨r.2, hget, fun hnil => ?_, ?_⟩
    · have hmem : r ∈ group := hgroup ▸ filter_volumeKey hget _ ▸
        List.mem_filter.mpr ⟨hr, decide_eq_true hkey⟩
      rw [hgroup] at hmem
      obtain ⟨s, hs, -⟩ := List.mem_map.mp hmem
      exact absurd (hnil ▸ hs) List.not_mem_nil
    · rw [hgroup, List.map_map]
      exact congrArg _ (List.map_id _)
  · rintro ⟨p, hp, hne, hv⟩
    obtain ⟨s, hs⟩ := List.exists_mem_of_ne_nil _ hne
    have hrow : (s, p) ∈ (registeredSwaps pools db).filter fun r =>
        decide (volumeKey r = (v.poolAddress, p.pairName, v.swapDate)) :=
      filter_volumeKey hp _ ▸ List.mem_map_of_mem hs
    obtain ⟨hjoin, hkey⟩ := List.mem_filter.mp hrow
    rw [hv]
    refine List.mem_map.mpr ⟨((v.poolAddress, p.pairName, v.swapDate),
      (poolSwaps db v.poolAddress (dayStart v.swapDate) (dayEnd v.swapDate)).map fun s => (s, p)),
      (Sql.mem_groupBy _).mpr
        ⟨⟨_, hjoin, of_decide_eq_true hkey⟩, (filter_volumeKey hp _).symm⟩, ?_⟩
    dsimp only
    rw [List.map_map]
    exact congrArg _ (List.map_id _)

/-- The days of a pool among `a` to `b`. -/
def volumeDays (pools : Pools) (db : Db) (address : String) (a b : Int) : List DailySwapVolume :=
  (volumeMatches pools db (some address)).filter fun v => decide (a ≤ v.swapDate ∧ v.swapDate ≤ b)

/-- Days add up to their swaps, whatever is added up. -/
theorem sum_volumeDays (hp : pools.table.get address = some p) (a b : Int)
    {M : Type} [AddCommMonoid M] (w : SwapEvent → M) (column : DailySwapVolume → M)
    (hcolumn : ∀ k group, column (dailySwapVolumeRow k group) = (group.map w).sum) :
    ((volumeDays pools db address a b).map column).sum =
      ((poolSwaps db address (dayStart a) (dayEnd b)).map w).sum := by
  have hgroups := Sql.sum_groupBy volumeKey (fun r => w r.1)
    (fun k => decide (k.1 = address ∧ a ≤ k.2.2 ∧ k.2.2 ≤ b)) (registeredSwaps pools db)
  have hdays : (registeredSwaps pools db).filter (fun r =>
      decide ((volumeKey r).1 = address ∧ a ≤ (volumeKey r).2.2 ∧ (volumeKey r).2.2 ≤ b)) =
        (poolSwaps db address (dayStart a) (dayEnd b)).map fun s => (s, p) :=
    registeredSwaps_days hp a b
  rw [hdays, List.map_map] at hgroups
  rw [volumeDays, volumeMatches, List.filter_filter, vwDailySwapVolume, List.filter_map, List.map_map]
  refine Eq.trans ?_ hgroups
  have hsame : ∀ g : (String × String × Int) × List (SwapEvent × Pool),
      ((decide (a ≤ g.1.2.2 ∧ g.1.2.2 ≤ b) && decide (∀ x ∈ some address, g.1.1 = x)) : Bool) =
        decide (g.1.1 = address ∧ a ≤ g.1.2.2 ∧ g.1.2.2 ≤ b) := by
    intro g
    rw [← Bool.decide_and, decide_eq_decide]
    simp
    tauto
  refine congrArg List.sum ?_
  refine (List.map_congr_left fun g _ => ?_).trans
    (congrArg _ (List.filter_congr fun g _ => hsame g))
  rw [Function.comp_apply, hcolumn, List.map_map]
  rfl

theorem volumeDays_eq_nil_iff (hp : pools.table.get address = some p) (a b : Int) :
    volumeDays pools db address a b = [] ↔ poolSwaps db address (dayStart a) (dayEnd b) = [] := by
  simp only [volumeDays, volumeMatches, List.filter_filter, List.filter_eq_nil_iff,
    ← Bool.decide_and, decide_eq_true_eq]
  constructor
  · intro h
    refine List.eq_nil_iff_forall_not_mem.mpr fun s hs => ?_
    obtain ⟨hmem, hs⟩ := List.mem_filter.mp hs
    obtain ⟨haddr, hdays⟩ := of_decide_eq_true hs
    have hday : s ∈ poolSwaps db address (dayStart (dateOf s.timestamp)) (dayEnd (dateOf s.timestamp)) :=
      List.mem_filter.mpr ⟨hmem, decide_eq_true ⟨haddr, between_days.mpr ⟨le_rfl, le_rfl⟩⟩⟩
    refine h (dailySwapVolumeRow (address, p.pairName, dateOf s.timestamp)
      (poolSwaps db address (dayStart (dateOf s.timestamp)) (dayEnd (dateOf s.timestamp)))) ?_ ?_
    · exact mem_vwDailySwapVolume.mpr ⟨p, hp, List.ne_nil_of_mem hday, rfl⟩
    · exact ⟨between_days.mp hdays, fun x hx => Option.some.inj hx⟩
  · rintro h v hv ⟨⟨hlo, hhi⟩, haddr⟩
    obtain rfl := haddr address rfl
    obtain ⟨-, -, hne, -⟩ := mem_vwDailySwapVolume.mp hv
    obtain ⟨s, hs⟩ := List.exists_mem_of_ne_nil _ hne
    obtain ⟨hmem, hs⟩ := List.mem_filter.mp hs
    obtain ⟨haddr, hday⟩ := of_decide_eq_true hs
    obtain ⟨hday, hday'⟩ := between_days.mp hday
    refine absurd (?_ : s ∈ poolSwaps db v.poolAddress (dayStart a) (dayEnd b)) (h ▸ List.not_mem_nil)
    exact List.mem_filter.mpr
      ⟨hmem, decide_eq_true ⟨haddr, between_days.mpr ⟨hlo.trans hday, hday'.trans hhi⟩⟩⟩

theorem volumeMatches_unregistered (hp : pools.table.get address = none) :
    volumeMatches pools db (some address) = [] := by
  refine List.filter_eq_nil_iff.mpr fun v hv haddr => ?_
  obtain ⟨p, hget, -⟩ := mem_vwDailySwapVolume.mp hv
  rw [of_decide_eq_true haddr address rfl, hp] at hget
  exact absurd hget (by simp)

/-- **Days and statistics agree.** For a registered pool and a range of days, of which the first
microsecond and the last are each a `TIMESTAMPTZ`, the statistics of the pool from the one to the
other are read exactly when a day of the range is in the daily volume, and then the days add up
to them. A pool that is not registered has no day, and its statistics are not found, whatever
swaps it has and whatever text without NUL its address is. -/
theorem daily_volume_reconciles (pools : Pools) (db : Db) (address : String) {a b : Int}
    (ha : bindable (dayStart a)) (hb : bindable (dayEnd b)) :
    (∀ p, pools.table.get address = some p →
      (volumeDays pools db address a b ≠ [] ↔
        ∃ s, getPoolStats pools db address (dayStart a) (dayEnd b) = .ok s) ∧
      ∀ s, getPoolStats pools db address (dayStart a) (dayEnd b) = .ok s →
        ((volumeDays pools db address a b).map DailySwapVolume.swapCount).sum = s.swapCount ∧
        (((volumeDays pools db address a b).map DailySwapVolume.totalAmountIn).sum : ℚ) =
          s.totalVolumeIn) ∧
    (pools.table.get address = none → text address →
      volumeMatches pools db (some address) = [] ∧
      getPoolStats pools db address (dayStart a) (dayEnd b) =
        .error (.notFound ("pool stats for " ++ address))) := by
  refine ⟨fun p hp => ?_, fun hp htext => ⟨volumeMatches_unregistered hp, ?_⟩⟩
  · have hkey : p.poolAddress = address := Table.get_key hp
    have hread : poolSwaps db address (dayStart a) (dayEnd b) ≠ [] →
        ∃ s, getPoolStats pools db address (dayStart a) (dayEnd b) = .ok s ∧
          StatsOf db p (dayStart a) (dayEnd b) s := getPoolStats_ok hp ha hb
    by_cases hswaps : poolSwaps db address (dayStart a) (dayEnd b) = []
    · have hnone := getPoolStats_no_swaps hp hswaps
      refine ⟨iff_of_false (not_not_intro ((volumeDays_eq_nil_iff hp a b).mpr hswaps)) ?_, ?_⟩
      · rintro ⟨s, hs⟩
        exact absurd (hnone.symm.trans hs) (by simp)
      · exact fun s hs => absurd (hnone.symm.trans hs) (by simp)
    · obtain ⟨s, hs, hstats⟩ := hread hswaps
      refine ⟨iff_of_true (fun e => hswaps ((volumeDays_eq_nil_iff hp a b).mp e)) ⟨s, hs⟩, ?_⟩
      intro s' hs'
      obtain rfl : s = s' := Except.ok.inj (hs.symm.trans hs')
      constructor
      · rw [hstats.swapCount, hkey, sum_volumeDays hp a b (fun _ => 1) DailySwapVolume.swapCount
          fun k group => by simp [dailySwapVolumeRow]]
        simp
      · rw [hstats.totalVolumeIn, hkey, poolVolume,
          ← sum_volumeDays hp a b SwapEvent.amountIn DailySwapVolume.totalAmountIn fun _ _ => rfl]
  · rw [getPoolStats, if_pos ⟨htext, ha, hb⟩, fnGetPoolStats_none hp]
    rfl

theorem daily_volume_three_swaps :
    volumeDays onePool threeSwaps usdcWeth.poolAddress 0 0 =
      [⟨usdcWeth.poolAddress, "USDC/WETH", 0, 3, 10, 0⟩] ∧
    ∃ s, getPoolStats onePool threeSwaps usdcWeth.poolAddress (dayStart 0) (dayEnd 0) = .ok s ∧
      s.swapCount = 3 := by
  have hdays : volumeDays onePool threeSwaps usdcWeth.poolAddress 0 0 =
      [⟨usdcWeth.poolAddress, "USDC/WETH", 0, 3, 10, 0⟩] := by decide +kernel
  obtain ⟨hread, hsums⟩ := (daily_volume_reconciles onePool threeSwaps usdcWeth.poolAddress
    (by decide : bindable (dayStart 0)) (by decide : bindable (dayEnd 0))).1 usdcWeth (by decide +kernel)
  obtain ⟨s, hs⟩ := hread.mp (hdays ▸ List.cons_ne_nil _ _)
  refine ⟨hdays, s, hs, ?_⟩
  rw [← (hsums s hs).1, hdays]
  rfl

end Days
end Amarillo.L2
