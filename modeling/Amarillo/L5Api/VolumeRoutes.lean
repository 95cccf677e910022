import Mathlib
import Amarillo.L2Db.DailyVolume
import Amarillo.L5Api.ListRoutes

/-!
# Daily volume over HTTP (`api/src/routes/analytics.rs`)

`dailyVolume` pages through the view, which sorts by `swap_date DESC` alone. The days of one
pool have different dates, those of several pools do not.

* `daily_volume_pages`: walking the pages of one pool gives each of its days once, latest
  first, in every order the database may pick; walking those of all pools does iff no page
  boundary lies between two pools' rows of one date.
-/
namespace Amarillo.L5
open Amarillo.Core Amarillo.L2

structure DailyVolumeFilter where
  poolAddress : Option String
  limit : Option Int
  offset : Option Int

/-- mirrors crates/api/src/routes/analytics.rs:20-45 -/
def dailyVolume (order : LatestFirst) (pools : Pools) (db : Db) (filter : DailyVolumeFilter) :
    Except ApiError (PaginatedResponse DailySwapVolume) :=
  let limit := effectiveLimit filter.limit
  let offset := effectiveOffset filter.offset
  match getDailySwapVolume order pools db filter.poolAddress limit offset with
  | none => .error (.internal "database error")
  | some volumes => .ok ⟨volumes, limit, offset, volumes.length⟩

/-- The days of one answer, asked for by limit and offset. -/
def volumePage (order : LatestFirst) (pools : Pools) (db : Db) (poolAddress : Option String)
    (limit : Nat) (offset : Int) : Option (List DailySwapVolume) :=
  (dailyVolume order pools db ⟨poolAddress, some limit, some offset⟩).toOption.map
    PaginatedResponse.data

section Pages
variable {pools : Pools} {db : Db}

/-- Limits and offsets in range reach the view as they are. -/
theorem volumePage_eq {L : Nat} (hL : 0 < L) (hmax : L ≤ 100) (order : LatestFirst) (pools : Pools)
    (db : Db) (poolAddress : Option String) (offset : Nat) :
    volumePage order pools db poolAddress L offset =
      selectPage L offset (order.sort (volumeMatches pools db poolAddress)) := by
  obtain ⟨hlimit, hoffset⟩ := effective_natCast hL hmax offset
  simp only [volumePage, dailyVolume, hlimit, hoffset, getDailySwapVolume, selectPage_natCast]
  rfl

theorem browse_volumePage {L : Nat} (hL : 0 < L) (hmax : L ≤ 100) (orders : Nat → LatestFirst)
    (poolAddress : Option String) (total : Nat) :
    browse (fun k => volumePage (orders k) pools db poolAddress L) L total =
      browse (fun k offset => selectPage L offset
        ((orders k).sort (volumeMatches pools db poolAddress))) L total :=
  browse_congr (fun k => volumePage_eq hL hmax (orders k) pools db poolAddress) L total

theorem nodup_vwDailySwapVolume (pools : Pools) (db : Db) :
    ((vwDailySwapVolume pools db).map fun v => (v.poolAddress, v.pairName, v.swapDate)).Nodup := by
  rw [vwDailySwapVolume, List.map_map]
  exact Sql.nodup_groupBy _ _

theorem nodup_volumeMatches (pools : Pools) (db : Db) (poolAddress : Option String) :
    (volumeMatches pools db poolAddress).Nodup :=
  (List.Nodup.of_map _ (nodup_vwDailySwapVolume pools db)).filter _

/-- A pool has one row for each date. -/
theorem swapDate_inj {address : String} {v w : DailySwapVolume}
    (hv : v ∈ volumeMatches pools db (some address)) (hw : w ∈ volumeMatches pools db (some address))
    (h : v.swapDate = w.swapDate) : v = w := by
  obtain ⟨hv, haddr⟩ := List.mem_filter.mp hv
  obtain ⟨hw, haddr'⟩ := List.mem_filter.mp hw
  have haddr : v.poolAddress = address := of_decide_eq_true haddr address rfl
  have haddr' : w.poolAddress = address := of_decide_eq_true haddr' address rfl
  obtain ⟨p, hp, -, hv⟩ := mem_vwDailySwapVolume.mp hv
  obtain ⟨q, hq, -, hw⟩ := mem_vwDailySwapVolume.mp hw
  rw [haddr] at hp hv
  rw [haddr'] at hq hw
  obtain rfl : p = q := Option.some.inj (hp.symm.trans hq)
  rw [hv, hw, h]

/-- **Paging through daily volume.** For every page size the route allows: walking the days of one pool gives
each of them once, the latest first, whatever order the database picks for each page; and
walking those of all pools gives each once, in every order, iff no page boundary lies
between two rows of one date. -/
theorem daily_volume_pages (pools : Pools) (db : Db) (L : Nat) (hL : 0 < L) (hmax : L ≤ 100) :
    (∀ (address : String) (orders : Nat → LatestFirst), ∃ rows,
      browse (fun k => volumePage (orders k) pools db (some address) L) L
        (volumeMatches pools db (some address)).length = some rows ∧
      EachOnce (vwDailySwapVolume pools db) (fun v => v.poolAddress = address) rows ∧
      rows.Pairwise fun v w => w.swapDate < v.swapDate) ∧
    ((∀ orders : Nat → LatestFirst, ∃ rows,
      browse (fun k => volumePage (orders k) pools db none L) L
        (volumeMatches pools db none).length = some rows ∧
      EachOnce (vwDailySwapVolume pools db) (fun v => ∀ a ∈ (none : Option String), v.poolAddress = a)
        rows) ↔
      ∀ k, ¬InTie (fun v => OrderDual.toDual v.swapDate) (volumeMatches pools db none) (k * L)) := by
  simp only [browse_volumePage hL hmax]
  refine ⟨fun address orders => ?_, browse_complete_iff hL (nodup_volumeMatches pools db none)⟩
  have hinj : ∀ v ∈ volumeMatches pools db (some address), ∀ w ∈ volumeMatches pools db (some address),
      OrderDual.toDual v.swapDate = OrderDual.toDual w.swapDate → v = w :=
    fun v hv w hw h => swapDate_inj hv hw (OrderDual.toDual_inj.mp h)
  have hperm := (orders 0).perm (volumeMatches pools db (some address))
  have hnodup := hperm.nodup_iff.mpr (nodup_volumeMatches pools db (some address))
  refine ⟨(orders 0).sort (volumeMatches pools db (some address)), ?_, ⟨hnodup, fun v => ?_⟩, ?_⟩
  · exact (browse_eq_pages orders _ L _).trans (congrArg some (pages_of_inj hL (orders 0) hinj))
  · rw [hperm.mem_iff]
    simp [volumeMatches]
  · refine (((orders 0).sorted _).and hnodup).imp_of_mem fun {v w} hv hw h => ?_
    refine lt_of_le_of_ne (OrderDual.toDual_le_toDual.mp h.1) fun heq => h.2 ?_
    exact hinj v (hperm.mem_iff.mp hv) w (hperm.mem_iff.mp hw) (congrArg OrderDual.toDual heq.symm)

end Pages

def daiUsdc : Pool := ⟨"0x5777d92f208679db4b9778590fa3cab3ac9e2168", "DAI/USDC", 100⟩

def twoPools : Pools where
  table := Table.empty.insertNew [usdcWeth, daiUsdc]
  accepted := by decide +kernel

def swapOn (pool : Pool) (date logIndex : Int) : SwapEvent :=
  { swapOf 3 logIndex with
    poolAddress := pool.poolAddress
    timestamp := date * 86400 }

/-- Three days of swaps in one pool, the last two of them in another one also. -/
def threeDays : Db :=
  { Db.empty with
    swapEvents := Table.empty.insertNew [swapOn usdcWeth 0 0, swapOn usdcWeth 1 1, swapOn daiUsdc 1 2,
      swapOn usdcWeth 2 3, swapOn daiUsdc 2 4] }

/-- On pages of two, the one pool's days come latest first, and both pools' days are all there:
the pages end between the dates. -/
theorem daily_volume_pages_threeDays :
    (∀ orders : Nat → LatestFirst, ∃ rows,
      browse (fun k => volumePage (orders k) twoPools threeDays (some usdcWeth.poolAddress) 2) 2
        (volumeMatches twoPools threeDays (some usdcWeth.poolAddress)).length = some rows ∧
      rows.map DailySwapVolume.swapDate = [2, 1, 0]) ∧
    ∀ orders : Nat → LatestFirst, ∃ rows,
      browse (fun k => volumePage (orders k) twoPools threeDays none 2) 2
        (volumeMatches twoPools threeDays none).length = some rows ∧
      rows.length = 5 ∧ ∀ v ∈ vwDailySwapVolume twoPools threeDays, v ∈ rows := by
  obtain ⟨hone, hall⟩ := daily_volume_pages twoPools threeDays 2 (by decide) (by decide)
  have hlength : (vwDailySwapVolume twoPools threeDays).length = 5 := by decide +kernel
  have hview : (vwDailySwapVolume twoPools threeDays).Nodup := by decide +kernel
  refine ⟨fun orders => ?_, fun orders => ?_⟩
  · obtain ⟨rows, hrows, heach, hlatest⟩ := hone usdcWeth.poolAddress orders
    refine ⟨rows, hrows, ?_⟩
    have hperm := (eachOnce_iff (hview.filter _)).mp heach
    have hdates : (((vwDailySwapVolume twoPools threeDays).filter fun v =>
        decide (v.poolAddress = usdcWeth.poolAddress)).map DailySwapVolume.swapDate).Perm [2, 1, 0] := by
      decide +kernel
    have hlatest : (rows.map DailySwapVolume.swapDate).Pairwise fun a b => b < a :=
      List.pairwise_map.mpr hlatest
    exact ((hperm.map DailySwapVolume.swapDate).trans hdates).eq_of_pairwise
      (fun a b _ _ hab hba => absurd hab hba.asymm) hlatest (by decide)
  · have hfree : ∀ k, ¬InTie (fun v => OrderDual.toDual v.swapDate)
        (volumeMatches twoPools threeDays none) (k * 2) := by
      have hfive : (volumeMatches twoPools threeDays none).length = 5 := by decide +kernel
      have hlow : ∀ k < 3, ¬InTie (fun v => OrderDual.toDual v.swapDate)
          (volumeMatches twoPools threeDays none) (k * 2) := by decide +kernel
      intro k
      by_cases hk : k < 3
      · exact hlow k hk
      · exact not_inTie_of_length_le (by omega)
    obtain ⟨rows, hrows, heach⟩ := hall.mpr hfree orders
    have hmem : ∀ v, v ∈ rows ↔ v ∈ vwDailySwapVolume twoPools threeDays := fun v => by
      rw [heach.mem]
      simp
    refine ⟨rows, hrows, ?_, fun v hv => (hmem v).mpr hv⟩
    rw [((List.perm_ext_iff_of_nodup heach.nodup hview).mpr hmem).length_eq, hlength]

end Amarillo.L5
