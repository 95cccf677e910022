import Mathlib
import Amarillo.Core.LTS

/-!
# The terminal client (`tui/src/app.rs`)

`App` is the state of the client and `App.apply` one user action. A fetch runs in the
background: `spawnFetchActive` sends requests and `App.ingest` takes the answers, one
at a time, in whatever order they come. An answer does not say which request it is for.

`Sys` puts the two ends together: the client, the requests that are out and the clock.
A step is an action, a tick of the poll, time passing, or one outstanding request being
answered with an error or with what the server has. The server's lists are a parameter
(`list q p`: it may answer `q` with `p`); a detail is the one of the transaction asked
for, as `GET /v1/failed-tx/{tx_hash}` selects by the hash it is given.

* `step_cases`: what a step can do; `apply_sends`: what an action can send.
* `inflight_eq`: the counter behind the spinner is the number of requests out.

Rows of a page carry all columns; a detail carries its `failed` row only, the rest is
drawn and never read. `u32` and `usize` counters are `Nat`.
-/
namespace Amarillo.L6
open Amarillo.Core

/-! ## Data -/

inductive Screen where
  | overview
  | failedTx
  | detail
  deriving DecidableEq, Repr

/-- mirrors crates/tui/src/app.rs:47 -/
def SCREEN_ORDER : List Screen := [.overview, .failedTx, .detail]

inductive TimeWindow where
  | all
  | h24
  | d7
  | d30
  deriving DecidableEq, Repr

def TimeWindow.next : TimeWindow → TimeWindow
  | .all => .h24
  | .h24 => .d7
  | .d7 => .d30
  | .d30 => .all

/-- An hour of the clock, in nanoseconds. -/
def HOUR : Int := 3600 * 10 ^ 9

/-- The `from` of a query, `none` for `All`.
mirrors crates/tui/src/app.rs:84-92 -/
def TimeWindow.startIso (now : Int) : TimeWindow → Option Int
  | .all => none
  | .h24 => some (now - 24 * HOUR)
  | .d7 => some (now - 7 * 24 * HOUR)
  | .d30 => some (now - 30 * 24 * HOUR)

inductive Loadable (α : Type) where
  | idle
  | loading
  | loaded (v : α)
  | failed (e : String)
  deriving DecidableEq, Repr

structure FailedTransaction where
  txHash : String
  errorCategory : String
  revertReason : Option String
  failingFunction : Option String
  gasUsed : Int
  timestamp : String
  deriving DecidableEq, Repr

structure FailedTxDetail where
  failed : FailedTransaction
  deriving DecidableEq, Repr

structure FailedTxAnalysis where
  errorCategory : String
  failureCount : Int
  avgGasWasted : String
  pctOfTotal : String
  mostRecentFailure : String
  deriving DecidableEq, Repr

structure PaginationMeta where
  limit : Int
  offset : Int
  count : Int
  total : Int
  deriving DecidableEq, Repr

structure TotalPaginated (α : Type) where
  data : List α
  pagination : PaginationMeta
  deriving DecidableEq, Repr

structure FailedTxFilter where
  category : Option String
  window : TimeWindow
  limit : Int
  offset : Int
  deriving DecidableEq, Repr

/-- The pairs of `query_pairs`. -/
structure ListQuery where
  limit : Int
  offset : Int
  category : Option String
  fromTs : Option Int
  deriving DecidableEq, Repr

/-- mirrors crates/tui/src/app.rs:124-136 -/
def FailedTxFilter.queryPairs (now : Int) (f : FailedTxFilter) : ListQuery :=
  ⟨f.limit, f.offset, f.category, f.window.startIso now⟩

/-- mirrors crates/tui/src/format.rs:10-21 -/
def CATEGORIES : List String :=
  ["INSUFFICIENT_BALANCE", "INSUFFICIENT_ALLOWANCE", "SLIPPAGE_EXCEEDED", "SLIPPAGE_AMOUNT_OUT",
    "SLIPPAGE_AMOUNT_IN", "SLIPPAGE_PRICE_IMPACT", "DEADLINE_EXPIRED", "UNAUTHORIZED",
    "TRANSFER_FAILED", "UNKNOWN"]

inductive Action where
  | quit
  | nextTab
  | prevTab
  | selectScreen (s : Screen)
  | up
  | down
  | enter
  | back
  | cycleCategory
  | cycleWindow
  | nextPage
  | prevPage
  | refreshNow
  | toggleAutoPoll
  | toggleHelp
  | none
  deriving DecidableEq, Repr

inductive DataMsg where
  | latestBlock (r : Except String (Option Int))
  | analysis (r : Except String (List FailedTxAnalysis))
  | failedList (r : Except String (TotalPaginated FailedTransaction))
  | detail (r : Except String FailedTxDetail)

/-- A fetch task. A list remembers the filter and the time its query was made from. -/
inductive Request where
  | latestBlock
  | analysis
  | failedList (filter : FailedTxFilter) (sentAt : Int)
  | detail (hash : String)
  deriving DecidableEq, Repr

structure App where
  screen : Screen
  prevScreen : Screen
  shouldQuit : Bool
  showHelp : Bool
  autoPoll : Bool
  tick : Nat
  inflight : Nat
  lastUpdated : Option Int
  latestBlock : Loadable (Option Int)
  analysis : Loadable (List FailedTxAnalysis)
  failed : Loadable (TotalPaginated FailedTransaction)
  tableState : Option Nat
  filter : FailedTxFilter
  detail : Loadable FailedTxDetail
  detailScroll : Nat
  selectedHash : Option String
  deriving DecidableEq, Repr

/-- mirrors crates/tui/src/app.rs:183-214 -/
def App.new : App where
  screen := .overview
  prevScreen := .overview
  shouldQuit := false
  showHelp := false
  autoPoll := true
  tick := 0
  inflight := 0
  lastUpdated := none
  latestBlock := .idle
  analysis := .idle
  failed := .idle
  tableState := none
  filter := ⟨none, .all, 20, 0⟩
  detail := .idle
  detailScroll := 0
  selectedHash := none

/-! ## Fetches -/

/-- Data that is there stays on screen.
mirrors crates/tui/src/app.rs:457-461 -/
def begin {α : Type} : Loadable α → Loadable α
  | .loaded v => .loaded v
  | _ => .loading

/-- mirrors crates/tui/src/app.rs:464-469 -/
def settle {α : Type} : Except String α → Loadable α
  | .ok v => .loaded v
  | .error e => .failed e

/-- The client and the requests it has sent. -/
abbrev Sent := App × List Request

/-- mirrors crates/tui/src/app.rs:270-317 -/
def App.spawnFetchActive (now : Int) (app : App) : Sent :=
  match app.screen with
  | .overview =>
    ({ app with latestBlock := begin app.latestBlock, analysis := begin app.analysis,
                inflight := app.inflight + 2 }, [.latestBlock, .analysis])
  | .failedTx =>
    ({ app with failed := begin app.failed, inflight := app.inflight + 1 },
      [.failedList app.filter now])
  | .detail =>
    match app.selectedHash with
    | some hash => ({ app with detail := begin app.detail, inflight := app.inflight + 1 },
        [.detail hash])
    | none => (app, [])

/-- The rows of the page that is loaded. -/
def App.rows (app : App) : List FailedTransaction :=
  match app.failed with
  | .loaded p => p.data
  | _ => []

/-- mirrors crates/tui/src/app.rs:402-414 -/
def App.clampSelection (app : App) : App :=
  let len := app.rows.length
  { app with
    tableState :=
      if len = 0 then none
      else match app.tableState with
        | some i => if len ≤ i then some (len - 1) else some i
        | none => some 0 }

/-- mirrors crates/tui/src/app.rs:255-267 -/
def App.ingest (now : Int) (app : App) (msg : DataMsg) : App :=
  let app := { app with inflight := app.inflight - 1, lastUpdated := some now }
  match msg with
  | .latestBlock r => { app with latestBlock := settle r }
  | .analysis r => { app with analysis := settle r }
  | .failedList r => App.clampSelection { app with failed := settle r }
  | .detail r => { app with detail := settle r }

/-! ## Actions -/

/-- mirrors crates/tui/src/app.rs:340-346 -/
def App.gotoScreen (now : Int) (app : App) (s : Screen) : Sent :=
  if app.screen ≠ s then
    App.spawnFetchActive now { app with prevScreen := app.screen, screen := s }
  else (app, [])

/-- mirrors crates/tui/src/app.rs:331-338 -/
def App.cycleScreen (now : Int) (app : App) (dir : Int) : Sent :=
  let idx : Int := (SCREEN_ORDER.findIdx? (· = app.screen)).getD 0
  app.gotoScreen now (SCREEN_ORDER.getD ((idx + dir) % SCREEN_ORDER.length).toNat .overview)

/-- The row under the cursor. -/
def App.selectedRow (app : App) : Option FailedTransaction :=
  app.tableState.bind fun i => app.rows[i]?

/-- mirrors crates/tui/src/app.rs:348-365 -/
def App.onEnter (now : Int) (app : App) : Sent :=
  if app.screen ≠ .failedTx then (app, [])
  else match app.selectedRow with
    | some r => App.gotoScreen now { app with selectedHash := some r.txHash, detailScroll := 0 } .detail
    | none => (app, [])

/-- mirrors crates/tui/src/app.rs:367-371 -/
def App.onBack (now : Int) (app : App) : Sent :=
  if app.screen = .detail then app.gotoScreen now .failedTx else (app, [])

/-- mirrors crates/tui/src/app.rs:389-400 -/
def App.moveSelection (app : App) (dir : Int) : App :=
  let len := app.rows.length
  if len = 0 then app
  else
    let cur : Int := app.tableState.getD 0
    { app with tableState := some (max 0 (min (cur + dir) (len - 1))).toNat }

/-- mirrors crates/tui/src/app.rs:373-387 -/
def App.onDown (app : App) : App :=
  match app.screen with
  | .failedTx => app.moveSelection 1
  | .detail => { app with detailScroll := min (app.detailScroll + 1) 65535 }
  | .overview => app

def App.onUp (app : App) : App :=
  match app.screen with
  | .failedTx => app.moveSelection (-1)
  | .detail => { app with detailScroll := app.detailScroll - 1 }
  | .overview => app

/-- After the last category comes no filter. -/
def nextCategory : Option String → Option String
  | none => CATEGORIES[0]?
  | some cur => CATEGORIES[(CATEGORIES.findIdx? (· = cur)).getD 0 + 1]?

/-- mirrors crates/tui/src/app.rs:416-430 -/
def App.cycleCategory (now : Int) (app : App) : Sent :=
  App.spawnFetchActive now
    { app with filter := { app.filter with category := nextCategory app.filter.category, offset := 0 } }

/-- mirrors crates/tui/src/app.rs:432-436 -/
def App.cycleWindow (now : Int) (app : App) : Sent :=
  App.spawnFetchActive now
    { app with filter := { app.filter with window := app.filter.window.next, offset := 0 } }

/-- mirrors crates/tui/src/app.rs:438-445 -/
def App.nextPage (now : Int) (app : App) : Sent :=
  match app.failed with
  | .loaded p =>
    if app.filter.offset + app.filter.limit < p.pagination.total then
      App.spawnFetchActive now
        { app with filter := { app.filter with offset := app.filter.offset + app.filter.limit } }
    else (app, [])
  | _ => (app, [])

/-- mirrors crates/tui/src/app.rs:447-452 -/
def App.prevPage (now : Int) (app : App) : Sent :=
  if 0 < app.filter.offset then
    App.spawnFetchActive now
      { app with filter := { app.filter with offset := max (app.filter.offset - app.filter.limit) 0 } }
  else (app, [])

/-- mirrors crates/tui/src/app.rs:217-252 -/
def App.apply (now : Int) (app : App) : Action → Sent
  | .quit => ({ app with shouldQuit := true }, [])
  | .toggleHelp => ({ app with showHelp := !app.showHelp }, [])
  | .toggleAutoPoll => ({ app with autoPoll := !app.autoPoll }, [])
  | .refreshNow => app.spawnFetchActive now
  | .nextTab => app.cycleScreen now 1
  | .prevTab => app.cycleScreen now (-1)
  | .selectScreen s => app.gotoScreen now s
  | .up => (app.onUp, [])
  | .down => (app.onDown, [])
  | .enter => app.onEnter now
  | .back => app.onBack now
  | .cycleCategory => if app.screen = .failedTx then app.cycleCategory now else (app, [])
  | .cycleWindow => if app.screen = .failedTx then app.cycleWindow now else (app, [])
  | .nextPage => if app.screen = .failedTx then app.nextPage now else (app, [])
  | .prevPage => if app.screen = .failedTx then app.prevPage now else (app, [])
  | .none => (app, [])

/-! ## The system -/

inductive Event where
  | act (a : Action)
  | tick
  | deliver (r : Request) (msg : DataMsg)
  | advance (now : Int)

structure Sys where
  app : App
  flight : List Request
  now : Int
  deriving DecidableEq, Repr

/-- `App::new` and the first fetch of `run`. -/
def Sys.start (now : Int) : Sys :=
  let sent := App.new.spawnFetchActive now
  ⟨sent.1, sent.2, now⟩

/-- What a request may be answered with, where the server may answer the query `q` with
the page `p` iff `list q p`. -/
def answers (list : ListQuery → TotalPaginated FailedTransaction → Bool) :
    Request → DataMsg → Bool
  | .latestBlock, .latestBlock _ => true
  | .analysis, .analysis _ => true
  | .failedList _ _, .failedList (.error _) => true
  | .failedList f t, .failedList (.ok p) => list (f.queryPairs t) p
  | .detail _, .detail (.error _) => true
  | .detail hash, .detail (.ok d) => decide (d.failed.txHash = hash)
  | _, _ => false

/-- mirrors crates/tui/src/app.rs:502-507 -/
def App.poll (now : Int) (app : App) : Sent :=
  let app := { app with tick := (app.tick + 1) % 2 ^ 64 }
  if app.autoPoll then app.spawnFetchActive now else (app, [])

def Sys.send (s : Sys) (sent : Sent) : Sys := { s with app := sent.1, flight := s.flight ++ sent.2 }

/-- One turn of the loop; there is none once the client has quit.
mirrors crates/tui/src/app.rs:487-510 -/
def Sys.step (list : ListQuery → TotalPaginated FailedTransaction → Bool) (s : Sys) :
    Event → Option Sys
  | .act a => if s.app.shouldQuit then none else some (s.send (s.app.apply s.now a))
  | .tick => if s.app.shouldQuit then none else some (s.send (s.app.poll s.now))
  | .deliver r msg =>
    if s.app.shouldQuit then none
    else if r ∈ s.flight ∧ answers list r msg = true then
      some { s with app := s.app.ingest s.now msg, flight := s.flight.erase r }
    else none
  | .advance now => if s.now ≤ now then some { s with now := now } else none

def tui (list : ListQuery → TotalPaginated FailedTransaction → Bool) : LTS Sys Event :=
  .ofFn (fun s => ∃ now, s = Sys.start now) (Sys.step list)

/-- What a step can do. -/
theorem step_cases {list : ListQuery → TotalPaginated FailedTransaction → Bool} {s s' : Sys}
    {e : Event} (h : s.step list e = some s') :
    (∃ a, e = .act a ∧ s' = s.send (s.app.apply s.now a)) ∨
    (e = .tick ∧ s' = s.send (s.app.poll s.now)) ∨
    (∃ r msg, e = .deliver r msg ∧ r ∈ s.flight ∧ answers list r msg = true ∧
      s' = { s with app := s.app.ingest s.now msg, flight := s.flight.erase r }) ∨
    ∃ now, e = .advance now ∧ s.now ≤ now ∧ s' = { s with now := now } := by
  cases e with
  | act a =>
    simp only [Sys.step] at h
    split at h
    · cases h
    · exact .inl ⟨a, rfl, (Option.some.inj h).symm⟩
  | tick =>
    simp only [Sys.step] at h
    split at h
    · cases h
    · exact .inr (.inl ⟨rfl, (Option.some.inj h).symm⟩)
  | deliver r msg =>
    simp only [Sys.step] at h
    split at h
    · cases h
    · split at h
      · rename_i hr
        exact .inr (.inr (.inl ⟨r, msg, rfl, hr.1, hr.2, (Option.some.inj h).symm⟩))
      · cases h
  | advance now =>
    simp only [Sys.step] at h
    split at h
    · rename_i hle
      exact .inr (.inr (.inr ⟨now, rfl, hle, (Option.some.inj h).symm⟩))
    · cases h

/-! ## What a fetch leaves alone -/

/-- The data, if it is on screen. -/
def Loadable.loaded? {α : Type} : Loadable α → Option α
  | .loaded v => some v
  | _ => none

@[simp] theorem loaded?_begin {α : Type} (x : Loadable α) : (begin x).loaded? = x.loaded? := by
  cases x <;> rfl

@[simp] theorem loaded?_settle {α : Type} (r : Except String α) : (settle r).loaded? = r.toOption := by
  cases r <;> rfl

section Frame
variable (now : Int) (app : App)

@[simp] theorem spawn_frame : (app.spawnFetchActive now).1.screen = app.screen ∧
    (app.spawnFetchActive now).1.selectedHash = app.selectedHash ∧
    (app.spawnFetchActive now).1.filter = app.filter ∧
    (app.spawnFetchActive now).1.failed.loaded? = app.failed.loaded? ∧
    (app.spawnFetchActive now).1.detail.loaded? = app.detail.loaded? := by
  unfold App.spawnFetchActive
  split
  · exact ⟨rfl, rfl, rfl, rfl, rfl⟩
  · exact ⟨rfl, rfl, rfl, loaded?_begin _, rfl⟩
  · split
    · exact ⟨rfl, rfl, rfl, rfl, loaded?_begin _⟩
    · exact ⟨rfl, rfl, rfl, rfl, rfl⟩

@[simp] theorem goto_frame (s : Screen) : (app.gotoScreen now s).1.screen = s ∧
    (app.gotoScreen now s).1.selectedHash = app.selectedHash ∧
    (app.gotoScreen now s).1.filter = app.filter ∧
    (app.gotoScreen now s).1.failed.loaded? = app.failed.loaded? ∧
    (app.gotoScreen now s).1.detail.loaded? = app.detail.loaded? := by
  unfold App.gotoScreen
  split
  · simp
  · rename_i h
    exact ⟨not_not.mp h, rfl, rfl, rfl, rfl⟩

@[simp] theorem poll_frame : (app.poll now).1.screen = app.screen ∧
    (app.poll now).1.selectedHash = app.selectedHash ∧
    (app.poll now).1.filter = app.filter ∧
    (app.poll now).1.failed.loaded? = app.failed.loaded? ∧
    (app.poll now).1.detail.loaded? = app.detail.loaded? := by
  unfold App.poll
  dsimp only
  split
  · simp
  · exact ⟨rfl, rfl, rfl, rfl, rfl⟩

end Frame

/-- The tab to the right, and round to the first. -/
def Screen.next : Screen → Screen
  | .overview => .failedTx
  | .failedTx => .detail
  | .detail => .overview

def Screen.prev : Screen → Screen
  | .overview => .detail
  | .failedTx => .overview
  | .detail => .failedTx

theorem cycleScreen_next (now : Int) (app : App) :
    app.cycleScreen now 1 = app.gotoScreen now app.screen.next := by
  unfold App.cycleScreen
  cases app.screen <;> rfl

theorem cycleScreen_prev (now : Int) (app : App) :
    app.cycleScreen now (-1) = app.gotoScreen now app.screen.prev := by
  unfold App.cycleScreen
  cases app.screen <;> rfl

/-! ## What an action sends -/

/-- Before it fetches, an action leaves the data and the counter alone. -/
structure Moved (app app' : App) : Prop where
  failed : app'.failed = app.failed
  detail : app'.detail = app.detail
  inflight : app'.inflight = app.inflight

theorem Moved.refl (app : App) : Moved app app := ⟨rfl, rfl, rfl⟩

/-- Nothing is sent and the filter stays, or the active screen is fetched; where the filter
changed, that is the list. -/
def Sends (now : Int) (app : App) (sent : Sent) : Prop :=
  ∃ app', Moved app app' ∧ (sent = (app', []) ∧ app'.filter = app.filter ∨
    sent = app'.spawnFetchActive now ∧ (app'.filter = app.filter ∨ app'.screen = .failedTx))

theorem sends_nothing (now : Int) {app app' : App} (h : Moved app app')
    (hfilter : app'.filter = app.filter) : Sends now app (app', []) :=
  ⟨app', h, .inl ⟨rfl, hfilter⟩⟩

theorem sends_fetch (now : Int) {app app' : App} (h : Moved app app')
    (hfilter : app'.filter = app.filter ∨ app'.screen = .failedTx) :
    Sends now app (app'.spawnFetchActive now) :=
  ⟨app', h, .inr ⟨rfl, hfilter⟩⟩

theorem sends_goto (now : Int) {app app' : App} (h : Moved app app')
    (hfilter : app'.filter = app.filter) (s : Screen) : Sends now app (app'.gotoScreen now s) := by
  unfold App.gotoScreen
  split
  · exact sends_fetch now ⟨h.failed, h.detail, h.inflight⟩ (.inl hfilter)
  · exact sends_nothing now h hfilter

theorem moved_selection (app : App) (dir : Int) : Moved app (app.moveSelection dir) ∧
    (app.moveSelection dir).filter = app.filter := by
  unfold App.moveSelection
  dsimp only
  split
  · exact ⟨Moved.refl app, rfl⟩
  · exact ⟨⟨rfl, rfl, rfl⟩, rfl⟩

theorem moved_up (app : App) : Moved app app.onUp ∧ app.onUp.filter = app.filter := by
  unfold App.onUp
  split
  · exact moved_selection app _
  · exact ⟨⟨rfl, rfl, rfl⟩, rfl⟩
  · exact ⟨Moved.refl app, rfl⟩

theorem moved_down (app : App) : Moved app app.onDown ∧ app.onDown.filter = app.filter := by
  unfold App.onDown
  split
  · exact moved_selection app _
  · exact ⟨⟨rfl, rfl, rfl⟩, rfl⟩
  · exact ⟨Moved.refl app, rfl⟩

theorem apply_sends (now : Int) (app : App) (a : Action) : Sends now app (app.apply now a) := by
  have hstay : Sends now app (app, []) := sends_nothing now (Moved.refl app) rfl
  cases a with
  | quit | toggleHelp | toggleAutoPoll | none => exact sends_nothing now ⟨rfl, rfl, rfl⟩ rfl
  | refreshNow => exact sends_fetch now (Moved.refl app) (.inl rfl)
  | nextTab =>
    rw [App.apply, cycleScreen_next]
    exact sends_goto now (Moved.refl app) rfl _
  | prevTab =>
    rw [App.apply, cycleScreen_prev]
    exact sends_goto now (Moved.refl app) rfl _
  | selectScreen s => exact sends_goto now (Moved.refl app) rfl s
  | up => exact sends_nothing now (moved_up app).1 (moved_up app).2
  | down => exact sends_nothing now (moved_down app).1 (moved_down app).2
  | enter =>
    simp only [App.apply, App.onEnter]
    split
    · exact hstay
    · split
      · rename_i r _
        have hselected : Moved app { app with selectedHash := some r.txHash, detailScroll := 0 } :=
          ⟨rfl, rfl, rfl⟩
        exact sends_goto now hselected rfl _
      · exact hstay
  | back =>
    simp only [App.apply, App.onBack]
    split
    · exact sends_goto now (Moved.refl app) rfl _
    · exact hstay
  | cycleCategory =>
    simp only [App.apply, App.cycleCategory]
    split
    · rename_i h
      exact sends_fetch now ⟨rfl, rfl, rfl⟩ (.inr h)
    · exact hstay
  | cycleWindow =>
    simp only [App.apply, App.cycleWindow]
    split
    · rename_i h
      exact sends_fetch now ⟨rfl, rfl, rfl⟩ (.inr h)
    · exact hstay
  | nextPage =>
    simp only [App.apply, App.nextPage]
    split
    · rename_i h
      split
      · split
        · exact sends_fetch now ⟨rfl, rfl, rfl⟩ (.inr h)
        · exact hstay
      · exact hstay
    · exact hstay
  | prevPage =>
    simp only [App.apply, App.prevPage]
    split
    · rename_i h
      split
      · exact sends_fetch now ⟨rfl, rfl, rfl⟩ (.inr h)
      · exact hstay
    · exact hstay

theorem poll_sends (now : Int) (app : App) : Sends now app (app.poll now) := by
  unfold App.poll
  dsimp only
  split
  · exact sends_fetch now ⟨rfl, rfl, rfl⟩ (.inl rfl)
  · exact sends_nothing now ⟨rfl, rfl, rfl⟩ rfl

theorem Sends.detail {now : Int} {app : App} {sent : Sent} (h : Sends now app sent) :
    sent.1.detail.loaded? = app.detail.loaded? := by
  obtain ⟨app', hmoved, ⟨rfl, -⟩ | ⟨rfl, -⟩⟩ := h
  · exact congrArg Loadable.loaded? hmoved.detail
  · simp [hmoved.detail]

/-! ## The spinner -/

theorem spawn_inflight (now : Int) (app : App) : (app.spawnFetchActive now).1.inflight =
    app.inflight + (app.spawnFetchActive now).2.length := by
  unfold App.spawnFetchActive
  split
  · rfl
  · rfl
  · split <;> rfl

theorem Sends.inflight {now : Int} {app : App} {sent : Sent} (h : Sends now app sent) :
    sent.1.inflight = app.inflight + sent.2.length := by
  obtain ⟨app', hmoved, ⟨rfl, -⟩ | ⟨rfl, -⟩⟩ := h
  · exact hmoved.inflight
  · rw [spawn_inflight, hmoved.inflight]

theorem ingest_inflight (now : Int) (app : App) (msg : DataMsg) :
    (app.ingest now msg).inflight = app.inflight - 1 := by
  cases msg <;> rfl

/-- `is_busy` says whether a request is out. -/
theorem inflight_eq {list : ListQuery → TotalPaginated FailedTransaction → Bool} {s : Sys}
    (h : (tui list).Reachable s) : s.app.inflight = s.flight.length := by
  have key : (tui list).Inductive fun s => s.app.inflight = s.flight.length := by
    constructor
    · rintro _ ⟨now, rfl⟩
      rfl
    · intro s e s' ih hstep
      rcases step_cases hstep with ⟨a, -, rfl⟩ | ⟨-, rfl⟩ | ⟨r, msg, -, hr, -, rfl⟩ | ⟨now, -, -, rfl⟩
      · simp only [Sys.send, List.length_append, (apply_sends s.now s.app a).inflight, ih]
      · simp only [Sys.send, List.length_append, (poll_sends s.now s.app).inflight, ih]
      · simp only [ingest_inflight, List.length_erase_of_mem hr, ih]
      · exact ih
  exact key.reachable s h

end Amarillo.L6
