import Mathlib
import Amarillo.Core.Paging
import Amarillo.L2Db.Queries

/-!
# List queries (`db/src/queries.rs`)

Both lists sort by `timestamp DESC` alone, which is no total order: all rows of one
block share a timestamp. Each request therefore brings its own `NewestFirst`, the
order the database happens to pick among ties.
-/
namespace Amarillo.L2
open Amarillo.Core

variable {α : Type}

/-- `ORDER BY timestamp DESC` -/
abbrev NewestFirst (timestamp : α → Int) := OrderBy fun r => OrderDual.toDual (timestamp r)

/-- Postgres refuses a negative `LIMIT` or `OFFSET`. -/
def selectPage (limit offset : Int) (rows : List α) : Option (List α) :=
  if limit < 0 ∨ offset < 0 then none else some (limitOffset limit.toNat offset.toNat rows)

@[simp] theorem selectPage_natCast (limit offset : Nat) (rows : List α) :
    selectPage limit offset rows = some (limitOffset limit offset rows) := by
  rw [selectPage, if_neg (by omega)]
  rfl

theorem selectPage_sublist {limit offset : Int} {rows page : List α}
    (h : selectPage limit offset rows = some page) : page.Sublist rows := by
  unfold selectPage at h
  split at h
  · cases h
  · obtain rfl := Option.some.inj h
    exact limitOffset_sublist _ _ _

/-! ## `failed_transaction` -/

/-- The `WHERE` of both queries. -/
def FailedTransaction.listed (category : Option ErrorCategory) (fromTs toTs : Option Int)
    (r : FailedTransaction) : Prop :=
  (∀ c ∈ category, r.errorCategory = c) ∧ (∀ t ∈ fromTs, t ≤ r.timestamp) ∧
    ∀ t ∈ toTs, r.timestamp ≤ t

instance (category : Option ErrorCategory) (fromTs toTs : Option Int) (r : FailedTransaction) :
    Decidable (r.listed category fromTs toTs) :=
  inferInstanceAs (Decidable (_ ∧ _ ∧ _))

def failedMatches (db : Db) (category : Option ErrorCategory) (fromTs toTs : Option Int) :
    List FailedTransaction :=
  db.failedTransactions.rows.filter fun r => decide (r.listed category fromTs toTs)

/-- mirrors crates/db/src/queries.rs:658-685 -/
def listFailedTransactions (order : NewestFirst FailedTransaction.timestamp) (db : Db)
    (category : Option ErrorCategory) (fromTs toTs : Option Int) (limit offset : Int) :
    Option (List FailedTransaction) :=
  selectPage limit offset (order.sort (failedMatches db category fromTs toTs))

/-- mirrors crates/db/src/queries.rs:691-709 -/
def countFailedTransactions (db : Db) (category : Option ErrorCategory) (fromTs toTs : Option Int) :
    Nat :=
  db.failedTransactions.rows.countP fun r => decide (r.listed category fromTs toTs)

theorem countFailedTransactions_eq (db : Db) (category : Option ErrorCategory)
    (fromTs toTs : Option Int) : countFailedTransactions db category fromTs toTs =
      (failedMatches db category fromTs toTs).length :=
  List.countP_eq_length_filter

theorem nodup_failedMatches (db : Db) (category : Option ErrorCategory) (fromTs toTs : Option Int) :
    (failedMatches db category fromTs toTs).Nodup :=
  Table.nodup_filter _ _

/-! ## `swap_event` -/

def swapMatches (db : Db) (poolAddress : Option String) : List SwapEvent :=
  db.swapEvents.rows.filter fun e => decide (∀ a ∈ poolAddress, e.poolAddress = a)

/-- mirrors crates/db/src/queries.rs:521-540 -/
def listSwapEvents (order : NewestFirst SwapEvent.timestamp) (db : Db) (poolAddress : Option String)
    (limit offset : Int) : Option (List SwapEvent) :=
  selectPage limit offset (order.sort (swapMatches db poolAddress))

theorem nodup_swapMatches (db : Db) (poolAddress : Option String) :
    (swapMatches db poolAddress).Nodup :=
  Table.nodup_filter _ _

end Amarillo.L2
