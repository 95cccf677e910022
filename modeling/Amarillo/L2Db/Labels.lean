import Mathlib
import Amarillo.L2Db.Lists

/-!
# Contract labels (`db/src/queries.rs`, `migrations/20240105000001_add_contract_label.sql`)

`contract_label` names a contract for one owner, or for everyone when `owner_id` is
NULL. Its key is the address alone, so an address has one row and one owner:
`upsertContractLabel` overwrites label and owner of a row that is there.
`failedTxByLabelAggregate` joins the labels of one owner with the failed transactions
sent to their addresses, counts by (label, address, category) and pivots the counts
into one point for each (label, address).

* `ownedLabels_put`: a label put in for another owner takes its address out of an
  owner's labels and changes nothing else of them.
* `labelledFailures_filter`: a label whose contract has no failures does not show.
* `mem_aggregate_address`: an address is in the aggregate iff it is labelled for the
  owner and a failed transaction was sent to it.

`LOWER` is `Char.toLower`, which is what Postgres does with ASCII; the only caller
brings an address in ASCII.
-/
namespace Amarillo.L2
open Amarillo.Core

/-! ## The table -/

structure ContractLabel where
  address : String
  label : String
  ownerId : Option String
  createdAt : Int
  deriving DecidableEq, Repr

/-- mirrors migrations/20240105000001_add_contract_label.sql:8-13 -/
def ContractLabel.accepted (l : ContractLabel) : Prop :=
  text l.address ∧ text l.label ∧ nullable text l.ownerId

instance (l : ContractLabel) : Decidable l.accepted := inferInstanceAs (Decidable (_ ∧ _))

/-- The table `contract_label`. -/
structure Labels where
  table : Table ContractLabel.address
  accepted : ∀ l ∈ table.rows, l.accepted

def Labels.empty : Labels := ⟨.empty, List.forall_mem_nil _⟩

/-- `ON CONFLICT (address) DO UPDATE SET label = EXCLUDED.label, owner_id = EXCLUDED.owner_id` -/
def Labels.put (labels : Labels) (row : ContractLabel) (h : row.accepted) : Labels where
  table := labels.table.upsert row
    (fun l => { l with label := row.label, ownerId := row.ownerId }) fun _ => rfl
  accepted := by
    intro l hl
    rcases Table.mem_upsert hl with rfl | hl | ⟨a, ha, rfl⟩
    · exact h
    · exact labels.accepted l hl
    · exact ⟨(labels.accepted a ha).1, h.2⟩

/-- `LOWER($1)` -/
def lower (s : String) : String := String.ofList (s.toList.map Char.toLower)

theorem lower_eq_self_iff {s : String} : lower s = s ↔ ∀ c ∈ s.toList, c.isUpper = false := by
  rw [← String.toList_inj, lower, String.toList_ofList]
  constructor
  · intro h c hc
    rw [← h] at hc
    obtain ⟨x, -, rfl⟩ := List.mem_map.mp hc
    exact Char.isUpper_toLower_eq_false x
  · intro h
    refine (List.map_congr_left fun c hc => ?_).trans (List.map_id _)
    exact Char.toLower_eq_of_not_isUpper (by rw [h c hc]; decide)

/-- mirrors crates/db/src/queries.rs:1258-1277 -/
def upsertContractLabel (now : Int) (address label : String) (ownerId : Option String)
    (labels : Labels) : Except DbError (Labels × ContractLabel) :=
  let row : ContractLabel := ⟨lower address, label, ownerId, now⟩
  if h : row.accepted then
    let labels' := labels.put row h
    .ok (labels', (labels'.table.get row.address).getD row)
  else .error .check

/-! ## The aggregate -/

structure FailedTxByLabelPoint where
  label : String
  address : String
  totalFailures : Nat
  byCategory : Table (Prod.fst : String × Nat → String)
  deriving DecidableEq

abbrev FailedTxByLabelPoint.key (p : FailedTxByLabelPoint) : String × String := (p.label, p.address)

structure RawRow where
  label : String
  address : String
  errorCategory : String
  cnt : Nat
  deriving DecidableEq, Repr

/-- `cl.owner_id = $1`, or no filter. -/
def ContractLabel.ownedBy (ownerId : Option String) (l : ContractLabel) : Bool :=
  decide (∀ o ∈ ownerId, l.ownerId = some o)

/-- `JOIN transaction t ON t.to_addr = cl.address
JOIN failed_transaction f ON f.tx_hash = t.tx_hash` for one address. -/
def failuresTo (db : Db) (fromTs toTs : Option Int) (address : String) : List FailedTransaction :=
  (db.transactions.rows.filter fun t => decide (t.toAddr = some address)).flatMap fun t =>
    db.failedTransactions.rows.filter fun f =>
      decide (f.txHash = t.txHash ∧ f.listed none fromTs toTs)

/-- The `(label, address, category)` of every row of the join. -/
def labelledFailures (labels : List ContractLabel) (db : Db) (fromTs toTs : Option Int) :
    List (String × String × ErrorCategory) :=
  labels.flatMap fun l =>
    (failuresTo db fromTs toTs l.address).map fun f => (l.label, l.address, f.errorCategory)

/-- `GROUP BY cl.label, cl.address, f.error_category` -/
def groupCounts (joined : List (String × String × ErrorCategory)) : List RawRow :=
  joined.dedup.map fun k => ⟨k.1, k.2.1, k.2.2.asWire, joined.count k⟩

/-- `entry.0 += r.cnt; entry.1.insert(r.error_category, r.cnt)` -/
def FailedTxByLabelPoint.add (p : FailedTxByLabelPoint) (r : RawRow) : FailedTxByLabelPoint :=
  { p with
    totalFailures := p.totalFailures + r.cnt
    byCategory := p.byCategory.upsert (r.errorCategory, r.cnt) (fun e => (e.1, r.cnt)) fun _ => rfl }

theorem FailedTxByLabelPoint.add_key (p : FailedTxByLabelPoint) (r : RawRow) :
    (p.add r).key = p.key := rfl

abbrev Groups := Table FailedTxByLabelPoint.key

/-- One turn of the loop over `raw`. -/
def addRaw (groups : Groups) (r : RawRow) : Groups :=
  groups.upsert (FailedTxByLabelPoint.add ⟨r.label, r.address, 0, .empty⟩ r) (·.add r) fun p =>
    p.add_key r

def pivot (raw : List RawRow) : Groups := raw.foldl addRaw .empty

/-- `sort_by(|a, b| b.total_failures.cmp(&a.total_failures))`, over the order in which
the `HashMap` happens to give its entries. -/
abbrev MostFailures := OrderBy fun p : FailedTxByLabelPoint => OrderDual.toDual p.totalFailures

def ownedLabels (labels : Labels) (ownerId : Option String) : List ContractLabel :=
  labels.table.rows.filter (ContractLabel.ownedBy ownerId)

/-- mirrors crates/db/src/queries.rs:1317-1376 -/
def failedTxByLabelAggregate (order : MostFailures) (labels : Labels) (db : Db)
    (ownerId : Option String) (fromTs toTs : Option Int) (limit : Int) :
    Except DbError (List FailedTxByLabelPoint) :=
  if nullable text ownerId then
    let raw := groupCounts (labelledFailures (ownedLabels labels ownerId) db fromTs toTs)
    let out := order.sort (pivot raw).rows
    .ok (if 0 < limit then out.take limit.toNat else out)
  else .error .check

/-! ## What a label put in changes -/

theorem ownedBy_some (tenant : String) (l : ContractLabel) :
    l.ownedBy (some tenant) = decide (l.ownerId = some tenant) := by
  simp [ContractLabel.ownedBy]

theorem mem_ownedLabels {labels : Labels} {tenant : String} {l : ContractLabel} :
    l ∈ ownedLabels labels (some tenant) ↔ l ∈ labels.table.rows ∧ l.ownerId = some tenant := by
  simp [ownedLabels, ownedBy_some]

/-- A row for another owner takes its address from the tenant's labels, if it was there. -/
theorem ownedLabels_put (labels : Labels) {row : ContractLabel} (h : row.accepted) {tenant : String}
    (howner : row.ownerId ≠ some tenant) : ownedLabels (labels.put row h) (some tenant) =
      (ownedLabels labels (some tenant)).filter fun l => decide (l.address ≠ row.address) := by
  unfold ownedLabels Labels.put
  apply Table.filter_upsert
  · exact fun _ => rfl
  · simp [ownedBy_some, howner]
  · simp [ownedBy_some, howner]

/-- The row that comes back holds what was asked for. -/
theorem upsertContractLabel_returns {now : Int} {address label : String} {ownerId : Option String}
    {labels labels' : Labels} {row : ContractLabel}
    (h : upsertContractLabel now address label ownerId labels = .ok (labels', row)) :
    labels'.table.get (lower address) = some row ∧ row.address = lower address ∧
      row.label = label ∧ row.ownerId = ownerId := by
  unfold upsertContractLabel at h
  simp only at h
  split at h
  · cases h
    rw [Labels.put]
    simp only
    rw [Table.get_upsert, if_pos rfl, Option.getD_some]
    refine ⟨rfl, ?_⟩
    cases hold : labels.table.get (lower address) with
    | none => exact ⟨rfl, rfl, rfl⟩
    | some l =>
      have haddress : l.address = lower address := Table.get_key hold
      exact ⟨haddress, rfl, rfl⟩
  · cases h

/-! ## What the aggregate reads -/

/-- The aggregate reads the labels through the join only. -/
theorem failedTxByLabelAggregate_congr {labels labels' : Labels} {db : Db} {ownerId : Option String}
    {fromTs toTs : Option Int}
    (h : labelledFailures (ownedLabels labels' ownerId) db fromTs toTs =
      labelledFailures (ownedLabels labels ownerId) db fromTs toTs)
    (order : MostFailures) (limit : Int) :
    failedTxByLabelAggregate order labels' db ownerId fromTs toTs limit =
      failedTxByLabelAggregate order labels db ownerId fromTs toTs limit := by
  unfold failedTxByLabelAggregate
  rw [h]

/-- No failure at all means none in any window. -/
theorem failuresTo_window {db : Db} {address : String} (h : failuresTo db none none address = [])
    (fromTs toTs : Option Int) : failuresTo db fromTs toTs address = [] := by
  refine List.eq_nil_iff_forall_not_mem.mpr fun f hf => ?_
  simp only [failuresTo, List.mem_flatMap, List.mem_filter, decide_eq_true_eq] at hf
  obtain ⟨t, ht, hrow, htx, -⟩ := hf
  have hmem : f ∈ failuresTo db none none address := by
    simp only [failuresTo, List.mem_flatMap, List.mem_filter, decide_eq_true_eq]
    exact ⟨t, ht, hrow, htx, by simp [FailedTransaction.listed]⟩
  rw [h] at hmem
  cases hmem

/-- A label without failures adds nothing to the join. -/
theorem labelledFailures_filter {labels : List ContractLabel} {db : Db} {fromTs toTs : Option Int}
    {p : ContractLabel → Bool}
    (h : ∀ l ∈ labels, p l = false → failuresTo db fromTs toTs l.address = []) :
    labelledFailures (labels.filter p) db fromTs toTs = labelledFailures labels db fromTs toTs := by
  induction labels with
  | nil => rfl
  | cons l labels ih =>
    have ih := ih fun x hx => h x (List.mem_cons_of_mem _ hx)
    cases hp : p l with
    | true =>
      rw [List.filter_cons_of_pos hp]
      simp only [labelledFailures, List.flatMap_cons] at ih ⊢
      rw [ih]
    | false =>
      rw [List.filter_cons_of_neg (by simp [hp]), ih]
      simp [labelledFailures, h l List.mem_cons_self hp]

theorem get_addRaw (groups : Groups) (r : RawRow) (k : String × String) :
    ((addRaw groups r).get k).isSome ↔ (groups.get k).isSome ∨ (r.label, r.address) = k := by
  rw [addRaw, Table.get_upsert]
  by_cases h : (r.label, r.address) = k
  · simp [FailedTxByLabelPoint.add, h]
  · simp [FailedTxByLabelPoint.add, h]

theorem get_foldl_addRaw (raw : List RawRow) (groups : Groups) (k : String × String) :
    ((raw.foldl addRaw groups).get k).isSome ↔
      (groups.get k).isSome ∨ ∃ r ∈ raw, (r.label, r.address) = k := by
  induction raw generalizing groups with
  | nil => simp
  | cons r raw ih => rw [List.foldl_cons, ih, get_addRaw, List.exists_mem_cons_iff, or_assoc]

/-- The pivot has a point for each (label, address) of the counts, and no other. -/
theorem mem_pivot_address (raw : List RawRow) (address : String) :
    (∃ p ∈ (pivot raw).rows, p.address = address) ↔ ∃ r ∈ raw, r.address = address := by
  have key : ∀ k, (∃ p ∈ (pivot raw).rows, p.key = k) ↔ ∃ r ∈ raw, (r.label, r.address) = k := by
    intro k
    rw [← Table.get_isSome, pivot, get_foldl_addRaw]
    simp
  constructor
  · rintro ⟨p, hp, rfl⟩
    obtain ⟨r, hr, he⟩ := (key p.key).mp ⟨p, hp, rfl⟩
    exact ⟨r, hr, congrArg Prod.snd he⟩
  · rintro ⟨r, hr, rfl⟩
    obtain ⟨p, hp, he⟩ := (key (r.label, r.address)).mpr ⟨r, hr, rfl⟩
    exact ⟨p, hp, congrArg Prod.snd he⟩

theorem mem_groupCounts_address (joined : List (String × String × ErrorCategory)) (address : String) :
    (∃ r ∈ groupCounts joined, r.address = address) ↔ ∃ k ∈ joined, k.2.1 = address := by
  simp [groupCounts, List.mem_dedup]

theorem mem_labelledFailures_address (labels : List ContractLabel) (db : Db)
    (fromTs toTs : Option Int) (address : String) :
    (∃ k ∈ labelledFailures labels db fromTs toTs, k.2.1 = address) ↔
      (∃ l ∈ labels, l.address = address) ∧ failuresTo db fromTs toTs address ≠ [] := by
  simp only [labelledFailures, List.mem_flatMap, List.mem_map]
  constructor
  · rintro ⟨_, ⟨l, hl, f, hf, rfl⟩, rfl⟩
    exact ⟨⟨l, hl, rfl⟩, List.ne_nil_of_mem hf⟩
  · rintro ⟨⟨l, hl, rfl⟩, hne⟩
    obtain ⟨f, hf⟩ := List.exists_mem_of_ne_nil _ hne
    exact ⟨_, ⟨l, hl, f, hf, rfl⟩, rfl⟩

/-- Without a limit, an address is in the aggregate iff it is labelled for the owner and a
failed transaction of the window was sent to it. -/
theorem mem_aggregate_address {order : MostFailures} {labels : Labels} {db : Db}
    {ownerId : Option String} {fromTs toTs : Option Int} {points : List FailedTxByLabelPoint}
    (h : failedTxByLabelAggregate order labels db ownerId fromTs toTs 0 = .ok points)
    (address : String) : (∃ p ∈ points, p.address = address) ↔
      (∃ l ∈ ownedLabels labels ownerId, l.address = address) ∧
        failuresTo db fromTs toTs address ≠ [] := by
  unfold failedTxByLabelAggregate at h
  simp only [lt_irrefl, if_false] at h
  split at h
  · cases h
    rw [← mem_labelledFailures_address, ← mem_groupCounts_address, ← mem_pivot_address]
    simp [(order.perm _).mem_iff]
  · cases h

end Amarillo.L2
