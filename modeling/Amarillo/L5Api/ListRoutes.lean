import Mathlib
import Amarillo.L2Db.Lists

/-!
# List routes (`api/src/routes/failed_tx.rs`, `swaps.rs`, `pagination.rs`)

`listFailedTx` and `listSwaps` parse the query string and ask for one page. A client
that walks a list asks for the offsets 0, L, 2L, … below `total` (`browse`). The table
stays as it is, but each request sorts anew.

A date in a query has microseconds, a row's time and the bounds of the queries are whole
seconds: a bound goes to the database as the next second inside it (`listed_bounds`).

`pages_complete_iff`: the walk gives every matching row once, whatever the database
does with ties, iff no page boundary lies inside a tie. `repeated_page` shows two
failures of one block, one of which comes twice and the other never. `listSwaps_ok` says
what one answer of the swaps is, and `listSwaps_pages_iff` when walking them is complete.
-/
namespace Amarillo.L5
open Amarillo.Core Amarillo.L2

variable {α : Type}

inductive ApiError where
  | badRequest (msg : String)
  | internal (msg : String)
  deriving DecidableEq, Repr

theorem bind_ok {ε α β : Type} {x : Except ε α} {f : α → Except ε β} {b : β}
    (h : (x >>= f) = .ok b) : ∃ a, x = .ok a ∧ f a = .ok b := by
  cases x with
  | error e => cases h
  | ok a => exact ⟨a, rfl, h⟩

/-! ## Parameters -/

/-- mirrors crates/api/src/pagination.rs:17-19 -/
def effectiveLimit (limit : Option Int) : Int := max 1 (min (limit.getD 20) 100)

/-- mirrors crates/api/src/pagination.rs:22-24 -/
def effectiveOffset (offset : Option Int) : Int := max (offset.getD 0) 0

/-- mirrors crates/db/src/models.rs:37-51 -/
def categoryFromStr : String → Option ErrorCategory
  | "INSUFFICIENT_BALANCE" => some .insufficientBalance
  | "INSUFFICIENT_ALLOWANCE" => some .insufficientAllowance
  | "SLIPPAGE_EXCEEDED" => some .slippageExceeded
  | "SLIPPAGE_AMOUNT_OUT" => some .slippageAmountOut
  | "SLIPPAGE_AMOUNT_IN" => some .slippageAmountIn
  | "SLIPPAGE_PRICE_IMPACT" => some .slippagePriceImpact
  | "DEADLINE_EXPIRED" => some .deadlineExpired
  | "UNAUTHORIZED" => some .unauthorized
  | "TRANSFER_FAILED" => some .transferFailed
  | "UNKNOWN" => some .unknown
  | _ => none

/-- The wire names are read back. -/
theorem categoryFromStr_eq_some {s : String} {c : ErrorCategory} :
    categoryFromStr s = some c ↔ c.asWire = s := by
  constructor
  · intro h
    unfold categoryFromStr at h
    split at h <;> cases h <;> rfl
  · rintro rfl
    cases c <;> rfl

def parseCategory : Option String → Except ApiError (Option ErrorCategory)
  | none => .ok none
  | some s =>
    if s = "" then .ok none
    else match categoryFromStr s with
      | some c => .ok (some c)
      | none => .error (.badRequest ("invalid `category`: " ++ s))

/-- `parseRfc3339` reads a date of `chrono`, in microseconds.
mirrors crates/api/src/routes/failed_tx.rs:142-153 -/
def parseTs (parseRfc3339 : String → Option Int) (value : Option String) (field : String) :
    Except ApiError (Option Int) :=
  match value with
  | none => .ok none
  | some s =>
    if s = "" then .ok none
    else match parseRfc3339 s with
      | some t => .ok (some t)
      | none => .error (.badRequest
          ("invalid `" ++ field ++ "` timestamp (expected RFC3339): " ++ s))

/-- The first whole second from a time in microseconds on. -/
def ceilSecond (t : Int) : Int := -(-t / 1000000)

/-- The last whole second up to it. -/
def floorSecond (t : Int) : Int := t / 1000000

theorem ceilSecond_le {t s : Int} : ceilSecond t ≤ s ↔ t ≤ s * 1000000 := by
  unfold ceilSecond
  omega

theorem le_floorSecond {t s : Int} : s ≤ floorSecond t ↔ s * 1000000 ≤ t := by
  unfold floorSecond
  omega

/-- Rounded inwards, the bounds compare with whole seconds as they were. -/
theorem listed_bounds {category : Option ErrorCategory} {fromTs toTs : Option Int}
    {r : FailedTransaction} : r.listed category (fromTs.map ceilSecond) (toTs.map floorSecond) ↔
      (∀ c ∈ category, r.errorCategory = c) ∧ (∀ t ∈ fromTs, t ≤ r.timestamp * 1000000) ∧
        ∀ t ∈ toTs, r.timestamp * 1000000 ≤ t := by
  simp [FailedTransaction.listed, ceilSecond_le, le_floorSecond]

/-! ## Routes -/

structure FailedTxQuery where
  category : Option String
  fromTs : Option String
  toTs : Option String
  limit : Option Int
  offset : Option Int

structure PaginationMeta where
  limit : Int
  offset : Int
  count : Nat
  total : Nat
  deriving DecidableEq, Repr

structure TotalPaginatedResponse (α : Type) where
  data : List α
  pagination : PaginationMeta
  deriving DecidableEq, Repr

/-- mirrors crates/api/src/routes/failed_tx.rs:158-192 -/
def listFailedTx (parseRfc3339 : String → Option Int)
    (order : NewestFirst FailedTransaction.timestamp) (db : Db) (q : FailedTxQuery) :
    Except ApiError (TotalPaginatedResponse FailedTransaction) := do
  let category ← parseCategory q.category
  let fromTs ← parseTs parseRfc3339 q.fromTs "from"
  let toTs ← parseTs parseRfc3339 q.toTs "to"
  let fromSecond := fromTs.map ceilSecond
  let toSecond := toTs.map floorSecond
  let limit := effectiveLimit q.limit
  let offset := effectiveOffset q.offset
  match listFailedTransactions order db category fromSecond toSecond limit offset with
  | none => .error (.internal "database error")
  | some rows =>
    .ok ⟨rows, limit, offset, rows.length, countFailedTransactions db category fromSecond toSecond⟩

structure SwapFilter where
  poolAddress : Option String
  limit : Option Int
  offset : Option Int

structure PaginationInfo where
  limit : Int
  offset : Int
  count : Nat
  deriving DecidableEq, Repr

structure PaginatedResponse (α : Type) where
  data : List α
  pagination : PaginationInfo
  deriving DecidableEq, Repr

/-- mirrors crates/api/src/routes/swaps.rs:21-43 -/
def listSwaps (order : NewestFirst SwapEvent.timestamp) (db : Db) (filter : SwapFilter) :
    Except ApiError (PaginatedResponse SwapEvent) :=
  let limit := effectiveLimit filter.limit
  let offset := effectiveOffset filter.offset
  match listSwapEvents order db filter.poolAddress limit offset with
  | none => .error (.internal "database error")
  | some swaps => .ok ⟨swaps, limit, offset, swaps.length⟩

/-- The limits and offsets that reach the database are in its range. -/
theorem effective_in_range (limit offset : Option Int) :
    (1 ≤ effectiveLimit limit ∧ effectiveLimit limit ≤ 100) ∧ 0 ≤ effectiveOffset offset := by
  unfold effectiveLimit effectiveOffset
  omega

/-- So no page is refused, or has more than a hundred rows. -/
theorem selectPage_effective (limit offset : Option Int) (rows : List α) :
    ∃ page, selectPage (effectiveLimit limit) (effectiveOffset offset) rows = some page ∧
      page.length ≤ 100 := by
  obtain ⟨⟨hpos, hmax⟩, hoffset⟩ := effective_in_range limit offset
  refine ⟨_, if_neg (by omega), ?_⟩
  have := List.length_take_le (effectiveLimit limit).toNat (rows.drop (effectiveOffset offset).toNat)
  simp only [limitOffset]
  omega

/-- Numbers in range reach it as they are. -/
theorem effective_natCast {limit : Nat} (hlimit : 0 < limit) (hmax : limit ≤ 100) (offset : Nat) :
    effectiveLimit (some (limit : Int)) = limit ∧ effectiveOffset (some (offset : Int)) = offset := by
  simp only [effectiveLimit, effectiveOffset, Option.getD_some]
  omega

/-- A request whose filters parse is answered with its page, whose rows are in the window that
it asks for, and the exact total. -/
theorem listFailedTx_ok (parseRfc3339 : String → Option Int)
    (order : NewestFirst FailedTransaction.timestamp) (db : Db) (q : FailedTxQuery)
    {category : Option ErrorCategory} {fromTs toTs : Option Int}
    (hcategory : parseCategory q.category = .ok category)
    (hfrom : parseTs parseRfc3339 q.fromTs "from" = .ok fromTs)
    (hto : parseTs parseRfc3339 q.toTs "to" = .ok toTs) :
    ∃ rows, listFailedTransactions order db category (fromTs.map ceilSecond) (toTs.map floorSecond)
        (effectiveLimit q.limit) (effectiveOffset q.offset) = some rows ∧
      listFailedTx parseRfc3339 order db q = .ok ⟨rows, effectiveLimit q.limit,
        effectiveOffset q.offset, rows.length,
        (failedMatches db category (fromTs.map ceilSecond) (toTs.map floorSecond)).length⟩ ∧
      ∀ r ∈ rows, (∀ t ∈ fromTs, t ≤ r.timestamp * 1000000) ∧ ∀ t ∈ toTs, r.timestamp * 1000000 ≤ t := by
  obtain ⟨rows, hpage, -⟩ := selectPage_effective q.limit q.offset
    (order.sort (failedMatches db category (fromTs.map ceilSecond) (toTs.map floorSecond)))
  have hlist : listFailedTransactions order db category (fromTs.map ceilSecond)
      (toTs.map floorSecond) (effectiveLimit q.limit) (effectiveOffset q.offset) = some rows := hpage
  refine ⟨rows, hlist, ?_, fun r hr => ?_⟩
  · unfold listFailedTx
    rw [hcategory, hfrom, hto, ← countFailedTransactions_eq]
    simp only [bind, Except.bind, hlist]
  · have hmatch := (order.perm _).mem_iff.mp ((selectPage_sublist hpage).subset hr)
    exact (listed_bounds.mp (of_decide_eq_true (List.mem_filter.mp hmatch).2)).2

/-- Every request for swaps is answered, with at most a hundred of the pool's, the newest first. -/
theorem listSwaps_ok (order : NewestFirst SwapEvent.timestamp) (db : Db) (filter : SwapFilter) :
    ∃ rows, listSwaps order db filter = .ok ⟨rows, effectiveLimit filter.limit,
        effectiveOffset filter.offset, rows.length⟩ ∧
      rows.length ≤ 100 ∧ (rows.Pairwise fun a b => b.timestamp ≤ a.timestamp) ∧
      ∀ e ∈ rows, e ∈ db.swapEvents.rows ∧ ∀ a ∈ filter.poolAddress, e.poolAddress = a := by
  obtain ⟨rows, hpage, hlen⟩ := selectPage_effective filter.limit filter.offset
    (order.sort (swapMatches db filter.poolAddress))
  have hlist : listSwapEvents order db filter.poolAddress (effectiveLimit filter.limit)
      (effectiveOffset filter.offset) = some rows := hpage
  have hsub := selectPage_sublist hpage
  refine ⟨rows, by simp only [listSwaps, hlist], hlen, ?_, fun e he => ?_⟩
  · exact ((order.sorted _).sublist hsub).imp OrderDual.toDual_le_toDual.mp
  · have hmatch := List.mem_filter.mp ((order.perm _).mem_iff.mp (hsub.subset he))
    exact ⟨hmatch.1, of_decide_eq_true hmatch.2⟩

/-! ## Walking a list -/

/-- The pages at offsets 0, L, 2L, … below `total`; request `k` is `page k`. -/
def browse (page : Nat → Int → Option (List α)) (L total : Nat) : Option (List α) :=
  ((List.range (pageCount L total)).mapM fun k => page k (k * L : Nat)).map List.flatten

theorem browse_congr {page page' : Nat → Int → Option (List α)}
    (h : ∀ k (offset : Nat), page k offset = page' k offset) (L total : Nat) :
    browse page L total = browse page' L total := by
  unfold browse
  simp only [h]

/-- Every matching row of the table exactly once, and no other. -/
structure EachOnce (table : List α) (matching : α → Prop) (rows : List α) : Prop where
  nodup : rows.Nodup
  mem : ∀ r, r ∈ rows ↔ r ∈ table ∧ matching r

theorem eachOnce_iff {table rows : List α} {matching : α → Prop} [DecidablePred matching]
    (h : (table.filter fun r => decide (matching r)).Nodup) : EachOnce table matching rows ↔
      rows.Perm (table.filter fun r => decide (matching r)) := by
  constructor
  · rintro ⟨hnodup, hmem⟩
    rw [List.perm_ext_iff_of_nodup hnodup h]
    simpa using hmem
  · exact fun hp => ⟨hp.nodup_iff.mpr h, fun r => by simp [hp.mem_iff]⟩

theorem browse_eq_pages {κ : Type} [LinearOrder κ] {key : α → κ} (orders : Nat → OrderBy key)
    (rows : List α) (L total : Nat) :
    browse (fun k offset => selectPage L offset ((orders k).sort rows)) L total =
      some (pages key orders L rows (pageCount L total)) := by
  unfold browse pages
  simp only [selectPage_natCast, List.flatMap_def]
  exact congrArg (Option.map List.flatten) List.mapM_pure

/-- A walk of each order is complete iff no boundary lies inside a tie. -/
theorem browse_complete_iff {κ : Type} [LinearOrder κ] [DecidableEq α] {key : α → κ}
    {table : List α} {matching : α → Prop} [DecidablePred matching] {L : Nat} (hL : 0 < L)
    (hnodup : (table.filter fun r => decide (matching r)).Nodup) :
    (∀ orders : Nat → OrderBy key, ∃ rows,
        browse (fun k offset => selectPage L offset
          ((orders k).sort (table.filter fun r => decide (matching r)))) L
          (table.filter fun r => decide (matching r)).length = some rows ∧
        EachOnce table matching rows) ↔
      ∀ k, ¬InTie key (table.filter fun r => decide (matching r)) (k * L) := by
  rw [← pages_perm_iff hL hnodup]
  refine forall_congr' fun orders => ?_
  rw [browse_eq_pages]
  simp [eachOnce_iff hnodup]

/-- The swaps of one answer, asked for by limit and offset. -/
def swapPage (order : NewestFirst SwapEvent.timestamp) (db : Db) (poolAddress : Option String)
    (limit : Nat) (offset : Int) : Option (List SwapEvent) :=
  (listSwaps order db ⟨poolAddress, some limit, some offset⟩).toOption.map PaginatedResponse.data

theorem swapPage_eq {L : Nat} (hL : 0 < L) (hmax : L ≤ 100) (order : NewestFirst SwapEvent.timestamp)
    (db : Db) (poolAddress : Option String) (offset : Nat) :
    swapPage order db poolAddress L offset =
      selectPage L offset (order.sort (swapMatches db poolAddress)) := by
  obtain ⟨hlimit, hoffset⟩ := effective_natCast hL hmax offset
  simp only [swapPage, listSwaps, hlimit, hoffset, listSwapEvents, selectPage_natCast]
  rfl

/-- Walking the swaps over the route, with any page size that it allows. -/
theorem listSwaps_pages_iff (db : Db) (poolAddress : Option String) {L : Nat} (hL : 0 < L)
    (hmax : L ≤ 100) :
    (∀ orders : Nat → NewestFirst SwapEvent.timestamp, ∃ rows,
        browse (fun k => swapPage (orders k) db poolAddress L) L
          (swapMatches db poolAddress).length = some rows ∧
        EachOnce db.swapEvents.rows (fun e => ∀ a ∈ poolAddress, e.poolAddress = a) rows) ↔
      ∀ k, ¬InTie (fun e => OrderDual.toDual e.timestamp) (swapMatches db poolAddress) (k * L) := by
  have hpages (orders : Nat → NewestFirst SwapEvent.timestamp) (total : Nat) :
      browse (fun k => swapPage (orders k) db poolAddress L) L total =
        browse (fun k offset => selectPage L offset ((orders k).sort (swapMatches db poolAddress))) L
          total :=
    browse_congr (fun k => swapPage_eq hL hmax (orders k) db poolAddress) L total
  simp only [hpages]
  exact browse_complete_iff hL (nodup_swapMatches db poolAddress)

/-- **Pagination.** For every table, filter and page size: the total is exact, and walking
the list gives each matching row once, in every order the database may pick, iff no page
boundary lies between two rows of one timestamp. Failed transactions and swaps alike. -/
theorem pages_complete_iff (db : Db) (category : Option ErrorCategory) (fromTs toTs : Option Int)
    (poolAddress : Option String) (L : Nat) (hL : 0 < L) :
    (countFailedTransactions db category fromTs toTs =
        (failedMatches db category fromTs toTs).length ∧
      ((∀ orders : Nat → NewestFirst FailedTransaction.timestamp, ∃ rows,
          browse (fun k => listFailedTransactions (orders k) db category fromTs toTs L) L
            (countFailedTransactions db category fromTs toTs) = some rows ∧
          EachOnce db.failedTransactions.rows (fun r => r.listed category fromTs toTs) rows) ↔
        ∀ k, ¬InTie (fun r => OrderDual.toDual r.timestamp)
          (failedMatches db category fromTs toTs) (k * L))) ∧
    ((∀ orders : Nat → NewestFirst SwapEvent.timestamp, ∃ rows,
        browse (fun k => listSwapEvents (orders k) db poolAddress L) L
          (swapMatches db poolAddress).length = some rows ∧
        EachOnce db.swapEvents.rows (fun e => ∀ a ∈ poolAddress, e.poolAddress = a) rows) ↔
      ∀ k, ¬InTie (fun e => OrderDual.toDual e.timestamp) (swapMatches db poolAddress) (k * L)) := by
  refine ⟨⟨countFailedTransactions_eq db category fromTs toTs, ?_⟩, ?_⟩
  · rw [countFailedTransactions_eq]
    exact browse_complete_iff hL (nodup_failedMatches db category fromTs toTs)
  · exact browse_complete_iff hL (nodup_swapMatches db poolAddress)

def failedRow (txHash : String) : FailedTransaction := ⟨txHash, .unknown, none, none, 21000, 5⟩

/-- One block with two failed transactions. -/
def tiedDb : Db :=
  (execAll ⟨false, 0⟩
    [.insertBlocks [⟨1, 5, 0, none, none⟩],
     .insertTransactions [⟨"0xa", "0x1", none, 1, 21000, 1, 0, 0, none⟩,
       ⟨"0xb", "0x1", none, 1, 21000, 1, 0, 0, none⟩],
     .insertFailedTransactions [failedRow "0xa", failedRow "0xb"]] Db.empty).1

/-- Both fit on one page. -/
theorem tied_onePage : ∃ rows,
    browse (fun _ => listFailedTransactions (OrderBy.stable _) tiedDb none none none (2 : Nat)) 2
      (countFailedTransactions tiedDb none none none) = some rows ∧
    EachOnce tiedDb.failedTransactions.rows (fun r => r.listed none none none) rows := by
  refine (pages_complete_iff tiedDb none none none none 2 (by decide)).1.2.mpr (fun k => ?_)
    fun _ => OrderBy.stable _
  cases k with
  | zero => rintro ⟨r, -, hlo, -⟩; omega
  | succ k =>
    refine not_inTie_of_length_le ?_
    have : (failedMatches tiedDb none none none).length = 2 := by decide +kernel
    omega

/-- On pages of one row each, one of the two may come twice and the other never. -/
theorem repeated_page : ¬∀ orders : Nat → NewestFirst FailedTransaction.timestamp, ∃ rows,
    browse (fun k => listFailedTransactions (orders k) tiedDb none none none (1 : Nat)) 1
      (countFailedTransactions tiedDb none none none) = some rows ∧
    EachOnce tiedDb.failedTransactions.rows (fun r => r.listed none none none) rows := by
  intro h
  rw [countFailedTransactions_eq] at h
  have htie : InTie (fun r => OrderDual.toDual r.timestamp) (failedMatches tiedDb none none none)
      (1 * 1) := by
    decide +kernel
  exact (browse_complete_iff (by decide) (nodup_failedMatches tiedDb none none none)).mp h 1 htie

end Amarillo.L5
