import Amarillo.L4Alerts.Ledger

/-!
# Rate alerts (`rate_threshold` subscriptions, `alert_rate_dispatch`)

A `rate_threshold` subscription fires when its window holds enough failures,
unless one of its dispatches is younger than `debounce_secs`. There is no claim:
the query looks at the recorded dispatches and a record comes after the request.

`RateColumns` are the columns of `alert_subscription` that only these rows have,
as a function of the id: an id is not used twice and no statement updates them.
-/
namespace Amarillo.L4
open Amarillo.Core Amarillo.L2

structure RateColumns where
  thresholdCount : Int
  thresholdWindowSecs : Int
  debounceSecs : Int
  deriving DecidableEq, Repr

/-- `alert_subscription_rate_fields_chk` of a `rate_threshold` row. -/
def RateColumns.accepted (r : RateColumns) : Prop :=
  0 < r.thresholdCount ∧ 0 < r.thresholdWindowSecs ∧ 0 ≤ r.debounceSecs

instance (r : RateColumns) : Decidable r.accepted := inferInstanceAs (Decidable (_ ∧ _))

structure RateDispatch where
  subscriptionId : Int
  dispatchedAt : Int
  matchCount : Int
  status : DeliveryStatus
  lastError : Option String
  deriving DecidableEq, Repr

structure RateAlertMatch where
  subscriptionId : Int
  webhookUrl : String
  signingSecret : String
  matchCount : Nat
  thresholdCount : Int
  thresholdWindowSecs : Int
  deriving DecidableEq, Repr

/-- The failures in the window of a subscription. -/
def rateWindow (db : Db) (now : Int) (s : AlertSubscription) (r : RateColumns) :
    List FailedTransaction :=
  db.failedTransactions.rows.filter fun f =>
    (∀ c ∈ s.errorCategory, c = f.errorCategory) ∧
    (∀ a ∈ s.toAddr, (db.transactions.get f.txHash).bind Transaction.toAddr = some a) ∧
    now - seconds r.thresholdWindowSecs ≤ seconds f.timestamp

/-- A dispatch of the subscription that is younger than its debounce. -/
def debouncing (now : Int) (id : Int) (r : RateColumns) (d : RateDispatch) : Prop :=
  d.subscriptionId = id ∧ now - seconds r.debounceSecs < d.dispatchedAt

instance (now id : Int) (r : RateColumns) (d : RateDispatch) : Decidable (debouncing now id r d) :=
  inferInstanceAs (Decidable (_ ∧ _))

/-- The group of a subscription, if the query returns it. -/
def rateMatch (db : Db) (rates : Int → Option RateColumns) (dispatches : List RateDispatch)
    (now : Int) (s : AlertSubscription) : Option RateAlertMatch :=
  match rates s.subscriptionId with
  | none => none
  | some r =>
    let count := (rateWindow db now s r).length
    if s.active = true ∧ s.subType = .rateThreshold ∧
        (¬∃ d ∈ dispatches, debouncing now s.subscriptionId r d) ∧
        0 < count ∧ r.thresholdCount ≤ count then
      some ⟨s.subscriptionId, s.webhookUrl, s.signingSecret, count, r.thresholdCount,
        r.thresholdWindowSecs⟩
    else none

/-- mirrors crates/db/src/queries.rs:1166-1194 -/
def findPendingRateAlertMatches (db : Db) (subscriptions : Table AlertSubscription.subscriptionId)
    (rates : Int → Option RateColumns) (dispatches : List RateDispatch) (now : Int) (limit : Nat) :
    List RateAlertMatch :=
  ((subscriptions.rows.filterMap (rateMatch db rates dispatches now)).insertionSort
    fun a b => a.subscriptionId ≤ b.subscriptionId).take limit

/-- mirrors crates/db/src/queries.rs:1200-1224 -/
def recordRateAlertDispatch (subscriptions : Table AlertSubscription.subscriptionId) (now : Int)
    (id : Int) (matchCount : Int) (delivered : Bool) (lastError : Option String)
    (dispatches : List RateDispatch) : Except DbError (List RateDispatch) :=
  if (subscriptions.get id).isNone then .error .foreignKey
  else .ok (dispatches ++ [⟨id, now, matchCount, outcomeStatus delivered, lastError⟩])

section Query
variable {db : Db} {subscriptions : Table AlertSubscription.subscriptionId}
  {rates : Int → Option RateColumns} {dispatches : List RateDispatch} {now : Int} {limit : Nat}

theorem rateMatch_some {s : AlertSubscription} {m : RateAlertMatch}
    (h : rateMatch db rates dispatches now s = some m) :
    m.subscriptionId = s.subscriptionId ∧ m.signingSecret = s.signingSecret ∧ s.active = true ∧
      ∃ r, rates s.subscriptionId = some r ∧
        ∀ d ∈ dispatches, d.subscriptionId = s.subscriptionId →
          d.dispatchedAt + seconds r.debounceSecs ≤ now := by
  unfold rateMatch at h
  split at h
  · cases h
  · rename_i r hr
    simp only at h
    split at h
    · rename_i hc
      cases h
      refine ⟨rfl, rfl, hc.1, r, hr, fun d hd hid => ?_⟩
      by_contra hlt
      exact hc.2.2.1 ⟨d, hd, hid, by omega⟩
    · cases h

theorem mem_findPendingRateAlertMatches {m : RateAlertMatch}
    (h : m ∈ findPendingRateAlertMatches db subscriptions rates dispatches now limit) :
    ∃ s, subscriptions.get m.subscriptionId = some s ∧ m.signingSecret = s.signingSecret ∧
      s.active = true ∧ ∃ r, rates m.subscriptionId = some r ∧
        ∀ d ∈ dispatches, d.subscriptionId = m.subscriptionId →
          d.dispatchedAt + seconds r.debounceSecs ≤ now := by
  have hsorted := List.mem_of_mem_take h
  rw [List.mem_insertionSort, List.mem_filterMap] at hsorted
  obtain ⟨s, hs, hm⟩ := hsorted
  obtain ⟨hid, hsecret, hactive, r, hr, hold⟩ := rateMatch_some hm
  rw [hid]
  exact ⟨s, Table.mem_iff_get.mp hs, hsecret, hactive, r, hr, hold⟩

/-- One row for each subscription. -/
theorem findPendingRateAlertMatches_nodup :
    ((findPendingRateAlertMatches db subscriptions rates dispatches now limit).map
      RateAlertMatch.subscriptionId).Nodup := by
  refine ((List.take_sublist limit _).map _).nodup ?_
  refine ((List.perm_insertionSort _ _).map RateAlertMatch.subscriptionId).nodup_iff.mpr ?_
  exact uniqueKeys_filterMap _ (fun s m hm => (rateMatch_some hm).1) subscriptions.unique

end Query
end Amarillo.L4
