import Amarillo.L2Db.Queries

/-!
# The delivery ledger (`alert_delivery`)

One row for each pair of a subscription and a failed transaction. A worker
takes the pair with `tryClaimAlertMatch`, which leaves a `claimed` row stamped
with the time, posts, and writes the outcome with `recordAlertDelivery`. A
claim is refused while the row is `delivered` or freshly `claimed`; after
`staleAfterSecs` a claim counts as abandoned.

The claim looks at the row it finds. The record does not: it overwrites any
row of the pair (`recordAlertDelivery_get`).

Times are microseconds, the resolution of `TIMESTAMPTZ`.
-/
namespace Amarillo.L4
open Amarillo.Core Amarillo.L2

inductive SubType where
  | perEvent
  | rateThreshold
  deriving DecidableEq, Repr

structure AlertSubscription where
  subscriptionId : Int
  errorCategory : Option ErrorCategory
  toAddr : Option String
  webhookUrl : String
  signingSecret : String
  active : Bool
  subType : SubType
  deriving DecidableEq, Repr

inductive DeliveryStatus where
  | claimed
  | failed
  | delivered
  deriving DecidableEq, Repr

structure AlertDelivery where
  subscriptionId : Int
  txHash : String
  status : DeliveryStatus
  attempts : Int
  lastError : Option String
  deliveredAt : Option Int
  createdAt : Int
  deriving DecidableEq, Repr

/-- A (subscription, transaction) pair. -/
abbrev Pair := Int × String

def AlertDelivery.pair (d : AlertDelivery) : Pair := (d.subscriptionId, d.txHash)

abbrev Ledger := Table AlertDelivery.pair

structure AlertMatch where
  subscriptionId : Int
  txHash : String
  webhookUrl : String
  signingSecret : String
  deriving DecidableEq, Repr

def AlertMatch.pair (m : AlertMatch) : Pair := (m.subscriptionId, m.txHash)

/-- `$n::int * INTERVAL '1 second'` -/
def seconds (n : Int) : Int := n * 1000000

/-! ## Claim -/

/-- The `WHERE` of the claim: a failed row, or a claim that has gone stale. -/
def claimable (now staleAfterSecs : Int) (d : AlertDelivery) : Prop :=
  d.status = .failed ∨ (d.status = .claimed ∧ d.createdAt < now - seconds staleAfterSecs)

instance (now staleAfterSecs : Int) (d : AlertDelivery) :
    Decidable (claimable now staleAfterSecs d) :=
  inferInstanceAs (Decidable (_ ∨ _))

/-- A fresh claim. -/
def newClaim (now : Int) (p : Pair) : AlertDelivery where
  subscriptionId := p.1
  txHash := p.2
  status := .claimed
  attempts := 1
  lastError := none
  deliveredAt := none
  createdAt := now

/-- A claim over an existing row. -/
def claimOver (now : Int) (d : AlertDelivery) : AlertDelivery :=
  { d with
    status := .claimed, attempts := d.attempts + 1, lastError := none, deliveredAt := none
    createdAt := now }

theorem claimOver_pair (now : Int) (d : AlertDelivery) : (claimOver now d).pair = d.pair := rfl

/-- Whether the pair was claimed. A row that is not claimable is left alone.
mirrors crates/db/src/queries.rs:1436-1467 -/
def tryClaimAlertMatch (subscriptions : Table AlertSubscription.subscriptionId) (now : Int)
    (p : Pair) (staleAfterSecs : Int) (ledger : Ledger) : Except DbError (Ledger × Bool) :=
  match ledger.get p with
  | none =>
    if (subscriptions.get p.1).isNone then .error .foreignKey
    else .ok (ledger.insertNew [newClaim now p], true)
  | some d =>
    if ¬claimable now staleAfterSecs d then .ok (ledger, false)
    else if 2 ^ 31 ≤ d.attempts + 1 then .error .outOfRange
    else .ok (ledger.upsert (newClaim now p) (claimOver now) (claimOver_pair now), true)

/-! ## Record -/

def outcomeStatus (delivered : Bool) : DeliveryStatus := if delivered then .delivered else .failed

/-- The row of a pair without one. -/
def newOutcome (now : Int) (p : Pair) (delivered : Bool) (lastError : Option String) :
    AlertDelivery where
  subscriptionId := p.1
  txHash := p.2
  status := outcomeStatus delivered
  attempts := 1
  lastError := lastError
  deliveredAt := if delivered then some now else none
  createdAt := now

/-- The outcome over an existing row, whatever its status. -/
def outcomeOver (now : Int) (delivered : Bool) (lastError : Option String) (d : AlertDelivery) :
    AlertDelivery :=
  { d with
    status := outcomeStatus delivered, attempts := d.attempts + 1, lastError := lastError
    deliveredAt := if delivered then some now else d.deliveredAt }

theorem outcomeOver_pair (now : Int) (delivered : Bool) (lastError : Option String)
    (d : AlertDelivery) : (outcomeOver now delivered lastError d).pair = d.pair := rfl

/-- mirrors crates/db/src/queries.rs:1042-1070 -/
def recordAlertDelivery (subscriptions : Table AlertSubscription.subscriptionId) (now : Int)
    (p : Pair) (delivered : Bool) (lastError : Option String) (ledger : Ledger) :
    Except DbError Ledger :=
  match ledger.get p with
  | none =>
    if (subscriptions.get p.1).isNone then .error .foreignKey
    else .ok (ledger.insertNew [newOutcome now p delivered lastError])
  | some d =>
    if 2 ^ 31 ≤ d.attempts + 1 then .error .outOfRange
    else .ok (ledger.upsert (newOutcome now p delivered lastError)
      (outcomeOver now delivered lastError) (outcomeOver_pair now delivered lastError))

/-! ## Pending pairs -/

/-- The rows the anti-join leaves out. -/
def settled (now staleAfterSecs : Int) (d : AlertDelivery) : Prop :=
  d.status = .delivered ∨ (d.status = .claimed ∧ now - seconds staleAfterSecs < d.createdAt)

instance (now staleAfterSecs : Int) (d : AlertDelivery) : Decidable (settled now staleAfterSecs d) :=
  inferInstanceAs (Decidable (_ ∨ _))

/-- The rows of the query, before `ORDER BY` and `LIMIT`.
mirrors crates/db/src/queries.rs:1006-1034 -/
def pendingAlertMatches (db : Db) (subscriptions : Table AlertSubscription.subscriptionId)
    (ledger : Ledger) (now staleAfterSecs : Int) : List AlertMatch :=
  subscriptions.rows.flatMap fun s => db.failedTransactions.rows.filterMap fun f =>
    if (∀ c ∈ s.errorCategory, c = f.errorCategory) ∧ s.active = true ∧ s.subType = .perEvent ∧
        (∀ a ∈ s.toAddr, (db.transactions.get f.txHash).bind Transaction.toAddr = some a) ∧
        ¬∃ d ∈ ledger.get (s.subscriptionId, f.txHash), settled now staleAfterSecs d then
      some ⟨s.subscriptionId, f.txHash, s.webhookUrl, s.signingSecret⟩
    else none

/-! ## What a statement does to the row of a pair -/

section Rows
variable {subscriptions : Table AlertSubscription.subscriptionId} {now staleAfterSecs : Int} {p : Pair}
  {ledger ledger' : Ledger}

@[simp] theorem newClaim_pair : (newClaim now p).pair = p := rfl

@[simp] theorem newOutcome_pair {delivered : Bool} {lastError : Option String} :
    (newOutcome now p delivered lastError).pair = p := rfl

/-- A claim writes the row of its pair if it succeeds, and nothing else. -/
theorem tryClaimAlertMatch_get {won : Bool}
    (h : tryClaimAlertMatch subscriptions now p staleAfterSecs ledger = .ok (ledger', won))
    (q : Pair) :
    ledger'.get q = if won = true ∧ p = q then
      some ((ledger.get q).elim (newClaim now p) (claimOver now)) else ledger.get q := by
  unfold tryClaimAlertMatch at h
  split at h
  · rename_i hnone
    split at h <;> cases h
    rw [Table.get_insertNew]
    by_cases hq : p = q
    · subst hq
      simp [hnone, lookup]
    · simp [lookup, hq]
  · split at h
    · cases h
      simp
    · split at h <;> cases h
      rw [Table.get_upsert]
      by_cases hq : p = q <;> simp [hq]

/-- A claim succeeds on a free or a claimable row only. -/
theorem tryClaimAlertMatch_won
    (h : tryClaimAlertMatch subscriptions now p staleAfterSecs ledger = .ok (ledger', true)) :
    ∀ d, ledger.get p = some d → claimable now staleAfterSecs d := by
  intro d hd
  unfold tryClaimAlertMatch at h
  rw [hd] at h
  simp only at h
  split at h
  · cases h
  · rename_i hc
    exact not_not.mp hc

/-- A record writes the row of its pair, whatever is there. -/
theorem recordAlertDelivery_get {delivered : Bool} {lastError : Option String}
    (h : recordAlertDelivery subscriptions now p delivered lastError ledger = .ok ledger')
    (q : Pair) :
    ledger'.get q = if p = q then some ((ledger.get q).elim (newOutcome now p delivered lastError)
      (outcomeOver now delivered lastError)) else ledger.get q := by
  unfold recordAlertDelivery at h
  split at h
  · rename_i hnone
    split at h <;> cases h
    rw [Table.get_insertNew]
    by_cases hq : p = q
    · subst hq
      simp [hnone, lookup]
    · simp [lookup, hq]
  · split at h <;> cases h
    rw [Table.get_upsert]
    by_cases hq : p = q <;> simp [hq]

end Rows
end Amarillo.L4
