import Mathlib
import Amarillo.L5Api.ListRoutes
import Amarillo.L6Tui.Detail
import Amarillo.L6Tui.Paging
import Amarillo.L6Tui.Selection

/-!
# The client against the API (`tui/src/client.rs`, `tui/src/dto.rs`, `api/src/routes/failed_tx.rs`)

The client writes the filter of its list into the query of `GET /v1/failed-tx` and reads
rows in which a category is spelled another way than in the query. Here the server of the
client is that route, over any database of `dbs` at each answer.

* `wired_step`: a step keeps the filters of the client and of its requests `Legible`, the
  page on screen `Served` and the hashes it holds `Known`.
* `tui_speaks_api`: so in every run each list request is one that the route answers, with
  the page it asks for and rows of the category it asks for; what is on screen is such an
  answer; and a detail is only asked for when a database has the transaction.

`toRfc3339` writes the client's times, which are in nanoseconds, and `parseRfc3339` reads them in
microseconds; `showTs` writes the seconds of a row.
-/
namespace Amarillo.L6
open Amarillo.Core

/-! ## Categories -/

/-- A category in a row: `serde` writes the variant's own name.
mirrors crates/db/src/models.rs:10-29 -/
def serdeName : L2.ErrorCategory → String
  | .insufficientBalance => "InsufficientBalance"
  | .insufficientAllowance => "InsufficientAllowance"
  | .slippageExceeded => "SlippageExceeded"
  | .slippageAmountOut => "SlippageAmountOut"
  | .slippageAmountIn => "SlippageAmountIn"
  | .slippagePriceImpact => "SlippagePriceImpact"
  | .deadlineExpired => "DeadlineExpired"
  | .unauthorized => "Unauthorized"
  | .transferFailed => "TransferFailed"
  | .unknown => "Unknown"

/-- mirrors crates/tui/src/format.rs:27-40 -/
def normalizeCategory : String → String
  | "InsufficientBalance" | "INSUFFICIENT_BALANCE" => "INSUFFICIENT_BALANCE"
  | "InsufficientAllowance" | "INSUFFICIENT_ALLOWANCE" => "INSUFFICIENT_ALLOWANCE"
  | "SlippageExceeded" | "SLIPPAGE_EXCEEDED" => "SLIPPAGE_EXCEEDED"
  | "SlippageAmountOut" | "SLIPPAGE_AMOUNT_OUT" => "SLIPPAGE_AMOUNT_OUT"
  | "SlippageAmountIn" | "SLIPPAGE_AMOUNT_IN" => "SLIPPAGE_AMOUNT_IN"
  | "SlippagePriceImpact" | "SLIPPAGE_PRICE_IMPACT" => "SLIPPAGE_PRICE_IMPACT"
  | "DeadlineExpired" | "DEADLINE_EXPIRED" => "DEADLINE_EXPIRED"
  | "Unauthorized" | "UNAUTHORIZED" => "UNAUTHORIZED"
  | "TransferFailed" | "TRANSFER_FAILED" => "TRANSFER_FAILED"
  | _ => "UNKNOWN"

theorem normalizeCategory_serdeName (c : L2.ErrorCategory) :
    normalizeCategory (serdeName c) = c.asWire := by
  cases c <;> rfl

/-- The client cycles through the names that the API reads. -/
theorem mem_CATEGORIES_iff {s : String} :
    s ∈ CATEGORIES ↔ ∃ c, L5.categoryFromStr s = some c := by
  simp only [L5.categoryFromStr_eq_some]
  constructor
  · intro h
    fin_cases h
    exacts [⟨.insufficientBalance, rfl⟩, ⟨.insufficientAllowance, rfl⟩, ⟨.slippageExceeded, rfl⟩,
      ⟨.slippageAmountOut, rfl⟩, ⟨.slippageAmountIn, rfl⟩, ⟨.slippagePriceImpact, rfl⟩,
      ⟨.deadlineExpired, rfl⟩, ⟨.unauthorized, rfl⟩, ⟨.transferFailed, rfl⟩, ⟨.unknown, rfl⟩]
  · rintro ⟨c, rfl⟩
    cases c <;> decide

/-! ## Requests and answers -/

/-- mirrors crates/tui/src/app.rs:124-136, crates/api/src/routes/failed_tx.rs:129-140 -/
def ListQuery.toFailedTxQuery (toRfc3339 : Int → String) (q : ListQuery) : L5.FailedTxQuery :=
  ⟨q.category, q.fromTs.map toRfc3339, none, some q.limit, some q.offset⟩

/-- A row of the answer, as the client reads it.
mirrors crates/tui/src/dto.rs:57-72 -/
def readRow (showTs : Int → String) (r : L2.FailedTransaction) : FailedTransaction where
  txHash := r.txHash
  errorCategory := serdeName r.errorCategory
  revertReason := r.revertReason
  failingFunction := r.failingFunction
  gasUsed := r.gasUsed
  timestamp := showTs r.timestamp

def readPage (showTs : Int → String) (p : L5.TotalPaginatedResponse L2.FailedTransaction) :
    TotalPaginated FailedTransaction :=
  ⟨p.data.map (readRow showTs),
    ⟨p.pagination.limit, p.pagination.offset, p.pagination.count, p.pagination.total⟩⟩

/-- What the client may have as a filter. -/
structure Legible (f : FailedTxFilter) : Prop where
  limit : f.limit = 20
  offset : 0 ≤ f.offset
  category : ∀ c ∈ f.category, c ∈ CATEGORIES

section Route
variable {parseRfc3339 : String → Option Int} {toRfc3339 : Int → String}

theorem parseCategory_legible {f : FailedTxFilter} (h : Legible f) :
    ∃ category, L5.parseCategory f.category = .ok category ∧
      category.map L2.ErrorCategory.asWire = f.category := by
  cases hc : f.category with
  | none => exact ⟨none, rfl, rfl⟩
  | some s =>
    obtain ⟨c, hs⟩ := mem_CATEGORIES_iff.mp (h.category s hc)
    have hwire := L5.categoryFromStr_eq_some.mp hs
    refine ⟨some c, ?_, congrArg some hwire⟩
    have hne : s ≠ "" := by
      rintro rfl
      cases c <;> simp [L2.ErrorCategory.asWire] at hwire
    rw [L5.parseCategory, if_neg hne, hs]

/-- Numbers in range arrive as they are. -/
theorem effective_legible {f : FailedTxFilter} (h : Legible f) :
    L5.effectiveLimit (some f.limit) = 20 ∧ L5.effectiveOffset (some f.offset) = f.offset := by
  refine ⟨by rw [h.limit]; rfl, ?_⟩
  have := h.offset
  simp only [L5.effectiveOffset, Option.getD_some]
  omega

/-- The page is the answer to a legible filter: its meta data and its rows. -/
structure Answers (f : FailedTxFilter) (db : L2.Db) (category : Option L2.ErrorCategory)
    (fromTs : Option Int) (page : L5.TotalPaginatedResponse L2.FailedTransaction) : Prop where
  wire : category.map L2.ErrorCategory.asWire = f.category
  pagination : page.pagination = ⟨20, f.offset, page.data.length,
    L2.countFailedTransactions db category fromTs none⟩
  rows : ∀ r ∈ page.data, r ∈ L2.failedMatches db category fromTs none

/-- The client reads the category it asked for. -/
theorem Answers.named {f : FailedTxFilter} {db : L2.Db} {category : Option L2.ErrorCategory}
    {fromTs : Option Int} {page : L5.TotalPaginatedResponse L2.FailedTransaction}
    (h : Answers f db category fromTs page) {r : L2.FailedTransaction} (hr : r ∈ page.data)
    {c : String} (hc : c ∈ f.category) : normalizeCategory (serdeName r.errorCategory) = c := by
  have hlisted : r.listed category fromTs none := of_decide_eq_true (List.mem_filter.mp (h.rows r hr)).2
  rw [← h.wire] at hc
  obtain ⟨c', hc', rfl⟩ := Option.mem_map.mp hc
  rw [normalizeCategory_serdeName, hlisted.1 c' hc']

/-- A page that the route answers a legible filter with. -/
theorem answers_of_ok {f : FailedTxFilter} (h : Legible f) {t : Int}
    {order : L2.NewestFirst L2.FailedTransaction.timestamp} {db : L2.Db}
    {page : L5.TotalPaginatedResponse L2.FailedTransaction}
    (hok : L5.listFailedTx parseRfc3339 order db ((f.queryPairs t).toFailedTxQuery toRfc3339) =
      .ok page) : ∃ category fromTs, Answers f db category fromTs page := by
  obtain ⟨category, hcategory, hwire⟩ := parseCategory_legible h
  obtain ⟨hlimit, hoffset⟩ := effective_legible h
  cases hfrom : L5.parseTs parseRfc3339 ((f.window.startIso t).map toRfc3339) "from" with
  | error e =>
    unfold L5.listFailedTx ListQuery.toFailedTxQuery FailedTxFilter.queryPairs at hok
    simp only [hcategory, hfrom] at hok
    cases hok
  | ok fromTs =>
    obtain ⟨rows, hrows, hpage, -⟩ := L5.listFailedTx_ok parseRfc3339 order db
      ((f.queryPairs t).toFailedTxQuery toRfc3339) hcategory hfrom rfl
    obtain rfl := Except.ok.inj (hpage.symm.trans hok)
    refine ⟨category, fromTs.map L5.ceilSecond, hwire, ?_, fun r hr => ?_⟩
    · rw [L2.countFailedTransactions_eq]
      exact congrArg₂ (fun l o => L5.PaginationMeta.mk l o _ _) hlimit hoffset
    · exact (order.perm _).mem_iff.mp ((L2.selectPage_sublist hrows).subset hr)

/-- A legible filter is answered, when its time is read. -/
theorem listFailedTx_legible {f : FailedTxFilter} (h : Legible f) {t : Int}
    (order : L2.NewestFirst L2.FailedTransaction.timestamp) (db : L2.Db)
    (hfrom : ∀ start ∈ f.window.startIso t, (parseRfc3339 (toRfc3339 start)).isSome = true) :
    ∃ page, L5.listFailedTx parseRfc3339 order db ((f.queryPairs t).toFailedTxQuery toRfc3339) =
      .ok page := by
  obtain ⟨category, hcategory, -⟩ := parseCategory_legible h
  have hread : ∃ fromTs,
      L5.parseTs parseRfc3339 ((f.window.startIso t).map toRfc3339) "from" = .ok fromTs := by
    cases hstart : f.window.startIso t with
    | none => exact ⟨none, rfl⟩
    | some start =>
      obtain ⟨x, hx⟩ := Option.isSome_iff_exists.mp (hfrom start hstart)
      simp only [Option.map_some, L5.parseTs, hx]
      split <;> exact ⟨_, rfl⟩
  obtain ⟨fromTs, hread⟩ := hread
  obtain ⟨rows, -, hpage, -⟩ := L5.listFailedTx_ok parseRfc3339 order db
    ((f.queryPairs t).toFailedTxQuery toRfc3339) hcategory hread rfl
  exact ⟨_, hpage⟩

end Route

/-! ## Both ends -/

section System
variable (parseRfc3339 : String → Option Int) (toRfc3339 showTs : Int → String) (dbs : L2.Db → Prop)

/-- The client's page is an answer of the route to the filter at time `t`. -/
def Served (f : FailedTxFilter) (t : Int) (p : TotalPaginated FailedTransaction) : Prop :=
  ∃ db, dbs db ∧ ∃ order page,
    L5.listFailedTx parseRfc3339 order db ((f.queryPairs t).toFailedTxQuery toRfc3339) = .ok page ∧
      p = readPage showTs page

/-- The server answers lists with the route. -/
def IsApi (list : ListQuery → TotalPaginated FailedTransaction → Bool) : Prop :=
  ∀ f t p, list (FailedTxFilter.queryPairs t f) p = true →
    Served parseRfc3339 toRfc3339 showTs dbs f t p

/-- A database has the transaction among the failed ones. -/
def Known (hash : String) : Prop := ∃ db, dbs db ∧ ∃ row, db.failedTransactions.get hash = some row

structure Wired (s : Sys) : Prop where
  filter : Legible s.app.filter
  asked : ∀ r ∈ lists s.flight, Legible r.1
  shown : ∀ p ∈ s.app.failed.loaded?, ∃ f t, Legible f ∧
    Served parseRfc3339 toRfc3339 showTs dbs f t p
  selected : ∀ hash ∈ s.app.selectedHash, Known dbs hash
  details : ∀ hash, .detail hash ∈ s.flight → Known dbs hash

variable {parseRfc3339 toRfc3339 showTs dbs}

/-- A row on screen is one of a database. -/
theorem Served.known {f : FailedTxFilter} (hf : Legible f) {t : Int}
    {p : TotalPaginated FailedTransaction} (h : Served parseRfc3339 toRfc3339 showTs dbs f t p)
    {r : FailedTransaction} (hr : r ∈ p.data) : Known dbs r.txHash := by
  obtain ⟨db, hdb, order, page, hok, rfl⟩ := h
  obtain ⟨category, fromTs, hanswers⟩ := answers_of_ok hf hok
  obtain ⟨row, hrow, rfl⟩ := List.mem_map.mp hr
  exact ⟨db, hdb, row, Table.mem_iff_get.mp (List.mem_filter.mp (hanswers.rows row hrow)).1⟩

/-- The category stays or is cycled. -/
theorem apply_category (now : Int) (app : App) (a : Action) :
    (app.apply now a).1.filter.category = app.filter.category ∨
      (app.apply now a).1.filter.category = nextCategory app.filter.category := by
  cases a with
  | quit | toggleHelp | toggleAutoPoll | none => exact .inl rfl
  | refreshNow | selectScreen s => simp [App.apply]
  | nextTab => simp [App.apply, cycleScreen_next]
  | prevTab => simp [App.apply, cycleScreen_prev]
  | up => exact .inl (congrArg FailedTxFilter.category (moved_up app).2)
  | down => exact .inl (congrArg FailedTxFilter.category (moved_down app).2)
  | enter =>
    left
    simp only [App.apply, App.onEnter]
    split
    · rfl
    · split <;> simp
  | back | cycleWindow =>
    left
    simp only [App.apply, App.onBack, App.cycleWindow]
    split <;> simp
  | cycleCategory =>
    simp only [App.apply, App.cycleCategory]
    split
    · exact .inr (by simp)
    · exact .inl rfl
  | nextPage =>
    left
    simp only [App.apply, App.nextPage]
    split
    · split
      · split <;> simp
      · rfl
    · rfl
  | prevPage =>
    left
    simp only [App.apply, App.prevPage]
    split
    · split <;> simp
    · rfl

theorem legible_apply {app : App} (h : Legible app.filter) (now : Int) (a : Action) :
    Legible (app.apply now a).1.filter := by
  have hcategory : ∀ c ∈ (app.apply now a).1.filter.category, c ∈ CATEGORIES := by
    intro c hc
    rcases apply_category now app a with hsame | hnext
    · exact h.category c (hsame ▸ hc)
    · rw [hnext] at hc
      cases hcur : app.filter.category <;> rw [hcur] at hc <;> exact List.mem_of_getElem? hc
  have hlimit := h.limit
  have hoffset := h.offset
  rcases apply_filter now app a with hf | ⟨c, w, hf⟩ | ⟨-, hf⟩ | ⟨-, -, hf⟩
  · exact hf ▸ h
  · refine ⟨by rw [hf]; exact hlimit, by rw [hf], hcategory⟩
  · refine ⟨by rw [hf]; exact hlimit, ?_, hcategory⟩
    rw [hf]
    exact le_max_right _ _
  · refine ⟨by rw [hf]; exact hlimit, ?_, hcategory⟩
    rw [hf]
    exact Int.add_nonneg hoffset (by omega)

theorem wired_send {s : Sys} (h : Wired parseRfc3339 toRfc3339 showTs dbs s) {sent : Sent}
    (hsends : Sends s.now s.app sent) (hfilter : Legible sent.1.filter)
    (hselected : ∀ hash ∈ sent.1.selectedHash, Known dbs hash) :
    Wired parseRfc3339 toRfc3339 showTs dbs (s.send sent) := by
  obtain ⟨hfailed, hasks⟩ := hsends.asksFor
  refine ⟨hfilter, fun r hr => ?_, fun p hp => h.shown p (hfailed ▸ hp), hselected, fun hash hmem => ?_⟩
  · simp only [Sys.send, lists_append, List.mem_append] at hr
    rcases hr with hr | hr
    · exact h.asked r hr
    · rcases hasks with ⟨hnone, -⟩ | hone
      · exact absurd (hnone ▸ hr) List.not_mem_nil
      · rw [hone] at hr
        exact List.mem_singleton.mp hr ▸ hfilter
  · rcases List.mem_append.mp hmem with hmem | hmem
    · exact h.details hash hmem
    · exact hselected hash (hsends.asked hmem)

variable {list : ListQuery → TotalPaginated FailedTransaction → Bool}

theorem wired_deliver (hlist : IsApi parseRfc3339 toRfc3339 showTs dbs list) {s : Sys}
    (h : Wired parseRfc3339 toRfc3339 showTs dbs s) {r : Request} {msg : DataMsg} (hr : r ∈ s.flight)
    (hans : answers list r msg = true) : Wired parseRfc3339 toRfc3339 showTs dbs
      { s with app := s.app.ingest s.now msg, flight := s.flight.erase r } := by
  obtain ⟨hfilter, hfailed⟩ := ingest_list s.now s.app msg
  obtain ⟨-, hselected, -⟩ := ingest_detail s.now s.app msg
  refine ⟨hfilter ▸ h.filter, fun x hx => ?_, fun p hp => ?_, hselected ▸ h.selected,
    fun hash hmem => h.details hash (List.mem_of_mem_erase hmem)⟩
  · exact h.asked x ((List.erase_sublist.filterMap _).subset hx)
  · rw [hfailed] at hp
    cases msg with
    | latestBlock m | analysis m | detail m => exact h.shown p hp
    | failedList m =>
      cases m with
      | error e => cases hp
      | ok page =>
        obtain rfl : page = p := Option.some.inj hp
        cases r with
        | latestBlock | analysis | detail hash => cases hans
        | failedList f t =>
          exact ⟨f, t, h.asked (f, t) (List.mem_filterMap.mpr ⟨_, hr, rfl⟩), hlist f t page hans⟩

theorem wired_step (hlist : IsApi parseRfc3339 toRfc3339 showTs dbs list) {s s' : Sys} {e : Event}
    (h : Wired parseRfc3339 toRfc3339 showTs dbs s) (hstep : s.step list e = some s') :
    Wired parseRfc3339 toRfc3339 showTs dbs s' := by
  rcases step_cases hstep with ⟨a, -, rfl⟩ | ⟨-, rfl⟩ | ⟨r, msg, -, hr, hans, rfl⟩ | ⟨now, -, -, rfl⟩
  · refine wired_send h (apply_sends s.now s.app a) (legible_apply h.filter s.now a) fun hash hhash => ?_
    rcases apply_selected s.now s.app a with hsame | ⟨-, -, row, hrow, hopened⟩
    · exact h.selected hash (hsame ▸ hhash)
    · -- a row of the page on screen was opened
      obtain rfl : row.txHash = hash := Option.some.inj (hopened.symm.trans hhash)
      obtain ⟨i, -, hi⟩ := Option.bind_eq_some_iff.mp hrow
      have hmem : row ∈ s.app.rows := List.mem_of_getElem? hi
      rw [rows_eq] at hmem
      cases hp : s.app.failed.loaded? with
      | none => simp [hp] at hmem
      | some p =>
        rw [hp] at hmem
        obtain ⟨f, t, hf, hserved⟩ := h.shown p hp
        exact hserved.known hf hmem
  · refine wired_send h (poll_sends s.now s.app) ?_ ?_
    · simpa only [poll_frame] using h.filter
    · simpa only [poll_frame] using h.selected
  · exact wired_deliver hlist h hr hans
  · exact ⟨h.filter, h.asked, h.shown, h.selected, h.details⟩

theorem wired_reachable (hlist : IsApi parseRfc3339 toRfc3339 showTs dbs list) {s : Sys}
    (h : (tui list).Reachable s) : Wired parseRfc3339 toRfc3339 showTs dbs s := by
  have key : (tui list).Inductive (Wired parseRfc3339 toRfc3339 showTs dbs) := by
    constructor
    · rintro _ ⟨now, rfl⟩
      constructor
      · exact ⟨rfl, le_rfl, fun c hc => absurd hc (Option.not_mem_none c)⟩
      · exact fun r hr => absurd hr List.not_mem_nil
      · exact fun p hp => absurd hp (Option.not_mem_none p)
      · exact fun hash hhash => absurd hhash (Option.not_mem_none hash)
      · intro hash hmem
        simp [Sys.start, App.spawnFetchActive, App.new] at hmem
    · exact fun s e s' hs hstep => wired_step hlist hs hstep
  exact key.reachable s h

/-- **The client speaks the API's language.** Whatever the user does and however late answers
come: every list request that is out is one the route answers over any database, never an
error, with the page size and the offset it asks for and rows whose category the client reads
as the one it asks for, provided the time in it can be read. The list on screen is such an
answer over one of the databases there were. And a detail is only ever asked for when one of
them has that transaction among the failed ones. -/
theorem tui_speaks_api (hlist : IsApi parseRfc3339 toRfc3339 showTs dbs list) {s : Sys}
    (h : (tui list).Reachable s) :
    (∀ f t, .failedList f t ∈ s.flight →
      (∀ start ∈ f.window.startIso t, (parseRfc3339 (toRfc3339 start)).isSome = true) →
      ∀ (order : L2.NewestFirst L2.FailedTransaction.timestamp) (db : L2.Db), ∃ page category fromTs,
        L5.listFailedTx parseRfc3339 order db ((f.queryPairs t).toFailedTxQuery toRfc3339) = .ok page ∧
        Answers f db category fromTs page ∧
        ∀ r ∈ (readPage showTs page).data, ∀ c ∈ f.category, normalizeCategory r.errorCategory = c) ∧
    (∀ p ∈ s.app.failed.loaded?, ∃ f db category fromTs page,
      dbs db ∧ Answers f db category fromTs page ∧ p = readPage showTs page) ∧
    ∀ hash, .detail hash ∈ s.flight → ∃ db, dbs db ∧ ∃ row, db.failedTransactions.get hash = some row := by
  have hwired := wired_reachable hlist h
  refine ⟨fun f t hmem hfrom order db => ?_, fun p hp => ?_, hwired.details⟩
  · have hf : Legible f := hwired.asked (f, t) (List.mem_filterMap.mpr ⟨_, hmem, rfl⟩)
    obtain ⟨page, hok⟩ := listFailedTx_legible hf order db hfrom
    obtain ⟨category, fromTs, hanswers⟩ := answers_of_ok hf hok
    refine ⟨page, category, fromTs, hok, hanswers, fun r hr c hc => ?_⟩
    obtain ⟨row, hrow, rfl⟩ := List.mem_map.mp hr
    exact hanswers.named hrow hc
  · obtain ⟨f, t, hf, db, hdb, order, page, hok, rfl⟩ := hwired.shown p hp
    obtain ⟨category, fromTs, hanswers⟩ := answers_of_ok hf hok
    exact ⟨f, db, category, fromTs, page, hdb, hanswers, rfl⟩

end System

/-! ## A client over two failures -/

/-- Right for the first ten seconds. -/
def clockText (t : Int) : String := "1970-01-01T00:00:0" ++ toString t ++ "Z"

def clockRead (s : String) : Option Int := (List.range 10).findSome? fun t =>
  if clockText t = s then some (t * 1000000 : Int) else none

/-- The same clock in nanoseconds. -/
def nanoText (t : Int) : String := clockText (t / 10 ^ 9)

def twoFailures (q : ListQuery) (p : TotalPaginated FailedTransaction) : Bool :=
  match L5.listFailedTx clockRead (OrderBy.stable _) L5.tiedDb (q.toFailedTxQuery nanoText) with
  | .ok page => decide (p = readPage clockText page)
  | .error _ => false

theorem isApi_twoFailures : IsApi clockRead nanoText clockText (· = L5.tiedDb) twoFailures := by
  intro f t p h
  unfold twoFailures at h
  split at h
  · rename_i page hpage
    exact ⟨_, rfl, _, page, hpage, of_decide_eq_true h⟩
  · cases h

def failureRow (txHash : String) : FailedTransaction :=
  ⟨txHash, "Unknown", none, none, 21000, "1970-01-01T00:00:05Z"⟩

/-- The list is opened, arrives, and its first row is entered. -/
def enterFirst : List Event :=
  [.act (.selectScreen .failedTx),
   .deliver (.failedList ⟨none, .all, 20, 0⟩ 0)
     (.failedList (.ok ⟨[failureRow "0xa", failureRow "0xb"], ⟨20, 0, 2, 2⟩⟩)),
   .act .enter]

theorem tui_speaks_api_first : ∃ s, (tui twoFailures).Run (Sys.start 0) enterFirst s ∧
    .detail "0xa" ∈ s.flight ∧
    ∃ db, db = L5.tiedDb ∧ ∃ row, db.failedTransactions.get "0xa" = some row := by
  obtain ⟨s, hrun, hmem⟩ := LTS.exists_run_of_exec 
    (show (LTS.exec (Sys.step twoFailures) (Sys.start 0) enterFirst).any
      (fun s => decide (.detail "0xa" ∈ s.flight)) = true by decide +kernel)
  have hmem := of_decide_eq_true hmem
  obtain ⟨-, -, hdetails⟩ := tui_speaks_api isApi_twoFailures ⟨_, _, ⟨0, rfl⟩, hrun⟩
  exact ⟨s, hrun, hmem, hdetails "0xa" hmem⟩

end Amarillo.L6
