import Amarillo.Core.Num
import Amarillo.L6Tui.App

/-!
# The selected row (`tui/src/app.rs`)

`table_state` and `failed` are changed by different handlers: the arrow keys move the selection,
a list that arrives clamps it, and a fetch leaves both alone unless no page is loaded. `Selected`
says that the selection is a row of the loaded page.

`move_selection` computes with `i32`: `applyI32` has its casts, and panics where the addition
overflows (`overflowChecks`; else it wraps) and where `clamp` is given an empty range. For pages
below `2 ^ 31` rows it is `App.apply`. The inputs come in any order: an answer need not belong to
a request.

* `selected_input`, `selected_sys`: every input and every step keep `Selected`.
* `selection_kept`: so Enter always opens a row.
-/
namespace Amarillo.L6
open Amarillo.Core

/-! ## `i32` -/

/-- `a + b` for `i32`. -/
def addI32 (overflowChecks : Bool) (a b : Int) : Option Int :=
  if -2 ^ 31 ≤ a + b ∧ a + b < 2 ^ 31 then some (a + b)
  else if overflowChecks then none
  else some ((a + b + 2 ^ 31) % 2 ^ 32 - 2 ^ 31)

/-- `x.clamp(lo, hi)` -/
def clampI32 (x lo hi : Int) : Option Int := if hi < lo then none else some (max lo (min x hi))

/-- mirrors crates/tui/src/app.rs:389-400 -/
def App.moveSelectionI32 (overflowChecks : Bool) (app : App) (dir : Int) : Option App :=
  let len := app.rows.length
  if len = 0 then some app
  else do
    let cur := asI32 (app.tableState.getD 0)
    let sum ← addI32 overflowChecks cur dir
    let last ← addI32 overflowChecks (asI32 len) (-1)
    let next ← clampI32 sum 0 last
    some { app with tableState := some next.toNat }

/-- mirrors crates/tui/src/app.rs:373-387 -/
def App.onDownI32 (overflowChecks : Bool) (app : App) : Option App :=
  match app.screen with
  | .failedTx => app.moveSelectionI32 overflowChecks 1
  | .detail => some { app with detailScroll := min (app.detailScroll + 1) 65535 }
  | .overview => some app

def App.onUpI32 (overflowChecks : Bool) (app : App) : Option App :=
  match app.screen with
  | .failedTx => app.moveSelectionI32 overflowChecks (-1)
  | .detail => some { app with detailScroll := app.detailScroll - 1 }
  | .overview => some app

/-- mirrors crates/tui/src/app.rs:217-252 -/
def App.applyI32 (overflowChecks : Bool) (now : Int) (app : App) : Action → Option Sent
  | .up => (app.onUpI32 overflowChecks).map fun app => (app, [])
  | .down => (app.onDownI32 overflowChecks).map fun app => (app, [])
  | a => some (app.apply now a)

/-! ## Inputs -/

inductive Input where
  | act (a : Action)
  | tick
  | ingest (msg : DataMsg)

/-- An input at the time `now`. -/
def App.input (overflowChecks : Bool) (app : App) : Int × Input → Option App
  | (now, .act a) => (app.applyI32 overflowChecks now a).map Prod.fst
  | (now, .tick) => some (app.poll now).1
  | (now, .ingest msg) => some (app.ingest now msg)

def inputs (overflowChecks : Bool) : LTS App (Int × Input) :=
  .ofFn (· = App.new) (App.input overflowChecks)

/-- The selection is a row of the loaded page. -/
def Selected (app : App) : Prop := ∀ i ∈ app.tableState, i < app.rows.length

/-! ## Moving -/

section Move
variable {overflowChecks : Bool} {app app' : App} {dir : Int}

theorem asI32_range (n : Nat) : -2 ^ 31 ≤ asI32 n ∧ asI32 n < 2 ^ 31 ∧ asI32 n ≤ n ∧
    (asI32 n < 0 → 2 ^ 31 ≤ n) := by
  unfold asI32
  split <;> omega

/-- The last index, as far as an `i32` can say. -/
theorem addI32_last {len : Nat} {last : Int} (h : addI32 overflowChecks (asI32 len) (-1) = some last) :
    last < len := by
  obtain ⟨hlow, hhigh, hle, hneg⟩ := asI32_range len
  unfold addI32 at h
  split at h
  · obtain rfl := Option.some.inj h
    omega
  · split at h
    · cases h
    · -- the cast gave the least `i32`, so there are `2 ^ 31` rows at least
      obtain rfl := Option.some.inj h
      omega

theorem clampI32_bounds {x lo hi y : Int} (h : clampI32 x lo hi = some y) : lo ≤ y ∧ y ≤ hi := by
  unfold clampI32 at h
  split at h
  · cases h
  · obtain rfl := Option.some.inj h
    omega

theorem moveSelectionI32_cases (h : app.moveSelectionI32 overflowChecks dir = some app') :
    app' = app ∨ ∃ i < app.rows.length, app' = { app with tableState := some i } := by
  unfold App.moveSelectionI32 at h
  dsimp only at h
  split at h
  · exact .inl (Option.some.inj h).symm
  · simp only [bind, Option.bind_eq_some_iff] at h
    obtain ⟨sum, -, last, hlast, next, hnext, h⟩ := h
    have hbound := addI32_last hlast
    obtain ⟨hlow, hhigh⟩ := clampI32_bounds hnext
    exact .inr ⟨next.toNat, by omega, (Option.some.inj h).symm⟩

theorem moveSelection_cases (app : App) (dir : Int) : app.moveSelection dir = app ∨
    ∃ i < app.rows.length, app.moveSelection dir = { app with tableState := some i } := by
  unfold App.moveSelection
  dsimp only
  split
  · exact .inl rfl
  · exact .inr ⟨_, by omega, rfl⟩

theorem addI32_of_fits {a b : Int} (h : -2 ^ 31 ≤ a + b ∧ a + b < 2 ^ 31) :
    addI32 overflowChecks a b = some (a + b) := if_pos h

theorem asI32_of_lt {n : Nat} (h : n < 2 ^ 31) : asI32 n = n := by
  unfold asI32
  omega

/-- On a page that an `i32` can count the casts change nothing. -/
theorem moveSelectionI32_eq (hs : Selected app) (hlen : app.rows.length < 2 ^ 31)
    (hdir : dir = 1 ∨ dir = -1) :
    app.moveSelectionI32 overflowChecks dir = some (app.moveSelection dir) := by
  unfold App.moveSelectionI32 App.moveSelection
  dsimp only
  split
  · rfl
  · rename_i hne
    have hcur : app.tableState.getD 0 < app.rows.length := by
      cases h : app.tableState with
      | none => exact Nat.pos_of_ne_zero hne
      | some i => exact hs i h
    rw [asI32_of_lt (by omega), asI32_of_lt hlen, addI32_of_fits (by omega), addI32_of_fits (by omega)]
    simp only [bind, Option.bind_some]
    rw [clampI32, if_neg (by omega), Option.bind_some]
    rfl

end Move

/-! ## Every input -/

section Kept
variable {app app' : App}

theorem rows_eq (app : App) : app.rows = (app.failed.loaded?.map TotalPaginated.data).getD [] := by
  unfold App.rows
  cases app.failed <;> rfl

theorem Selected.loaded (h : Selected app) {i : Nat} (hi : app.tableState = some i) :
    ∃ p, app.failed = .loaded p ∧ i < p.data.length := by
  have hlt := h i hi
  unfold App.rows at hlt
  split at hlt
  · rename_i p hp
    exact ⟨p, hp, hlt⟩
  · exact absurd hlt (Nat.not_lt_zero i)

theorem Selected.of_eq (h : Selected app) (htable : app'.tableState = app.tableState)
    (hrows : app'.rows = app.rows) : Selected app' := by
  unfold Selected
  rwa [htable, hrows]

theorem Sends.rows {now : Int} {sent : Sent} (h : Sends now app sent) : sent.1.rows = app.rows := by
  obtain ⟨app', hmoved, ⟨rfl, -⟩ | ⟨rfl, -⟩⟩ := h
  · rw [rows_eq, rows_eq, hmoved.failed]
  · rw [rows_eq, rows_eq, (spawn_frame now app').2.2.2.1, hmoved.failed]

theorem spawn_tableState (now : Int) (app : App) :
    (app.spawnFetchActive now).1.tableState = app.tableState := by
  unfold App.spawnFetchActive
  split
  · rfl
  · rfl
  · split <;> rfl

theorem goto_tableState (now : Int) (app : App) (s : Screen) :
    (app.gotoScreen now s).1.tableState = app.tableState := by
  unfold App.gotoScreen
  split
  · exact spawn_tableState now _
  · rfl

/-- Only the arrow keys move the selection. -/
theorem apply_tableState (now : Int) (app : App) {a : Action} (hup : a ≠ .up) (hdown : a ≠ .down) :
    (app.apply now a).1.tableState = app.tableState := by
  cases a with
  | up => exact absurd rfl hup
  | down => exact absurd rfl hdown
  | quit | toggleHelp | toggleAutoPoll | none => rfl
  | refreshNow => exact spawn_tableState now app
  | nextTab | prevTab => exact goto_tableState now app _
  | selectScreen s => exact goto_tableState now app s
  | enter =>
    simp only [App.apply, App.onEnter]
    split
    · rfl
    · split
      · exact goto_tableState now _ _
      · rfl
  | back =>
    simp only [App.apply, App.onBack]
    split
    · exact goto_tableState now app _
    · rfl
  | cycleCategory | cycleWindow =>
    simp only [App.apply]
    split
    · exact spawn_tableState now _
    · rfl
  | nextPage =>
    simp only [App.apply, App.nextPage]
    split
    · split
      · split
        · exact spawn_tableState now _
        · rfl
      · rfl
    · rfl
  | prevPage =>
    simp only [App.apply, App.prevPage]
    split
    · split
      · exact spawn_tableState now _
      · rfl
    · rfl

theorem selected_apply (h : Selected app) (now : Int) {a : Action} (hup : a ≠ .up) (hdown : a ≠ .down) :
    Selected (app.apply now a).1 :=
  h.of_eq (apply_tableState now app hup hdown) (apply_sends now app a).rows

theorem selected_poll (h : Selected app) (now : Int) : Selected (app.poll now).1 := by
  refine h.of_eq ?_ (poll_sends now app).rows
  unfold App.poll
  dsimp only
  split
  · exact spawn_tableState now _
  · rfl

theorem selected_moved (h : Selected app)
    (hcases : app' = app ∨ ∃ i < app.rows.length, app' = { app with tableState := some i }) :
    Selected app' := by
  rcases hcases with rfl | ⟨i, hi, rfl⟩
  · exact h
  · intro j hj
    obtain rfl := Option.some.inj hj
    exact hi

/-- A list that arrives selects a row, if it has one. -/
theorem clampSelection_spec (app : App) : Selected app.clampSelection ∧
    (app.clampSelection.tableState.isSome ↔ app.rows ≠ []) := by
  have hrows : app.clampSelection.rows = app.rows := rfl
  unfold Selected
  rw [hrows]
  unfold App.clampSelection
  dsimp only
  split
  · rename_i hlen
    refine ⟨fun i hi => ?_, iff_of_false Bool.false_ne_true ?_⟩
    · cases hi
    · exact not_not.mpr (List.length_eq_zero_iff.mp hlen)
  · rename_i hlen
    have hne : app.rows ≠ [] := fun h => hlen (congrArg List.length h)
    refine ⟨fun i hi => ?_, iff_of_true ?_ hne⟩
    · cases hsel : app.tableState with
      | none =>
        rw [hsel] at hi
        obtain rfl := Option.some.inj hi
        exact Nat.pos_of_ne_zero hlen
      | some j =>
        rw [hsel] at hi
        dsimp only at hi
        split at hi
        · obtain rfl := Option.some.inj hi
          omega
        · obtain rfl := Option.some.inj hi
          omega
    · cases app.tableState with
      | none => rfl
      | some j =>
        dsimp only
        split <;> rfl

theorem selected_ingest (h : Selected app) (now : Int) (msg : DataMsg) : Selected (app.ingest now msg) := by
  cases msg with
  | latestBlock r => exact h.of_eq rfl rfl
  | analysis r => exact h.of_eq rfl rfl
  | failedList r => exact (clampSelection_spec _).1
  | detail r => exact h.of_eq rfl rfl

theorem applyI32_of_ne {overflowChecks : Bool} {a : Action} (hup : a ≠ .up) (hdown : a ≠ .down)
    (now : Int) (app : App) : app.applyI32 overflowChecks now a = some (app.apply now a) := by
  unfold App.applyI32
  split
  · exact absurd rfl hup
  · exact absurd rfl hdown
  · rfl

theorem selected_onUp {overflowChecks : Bool} (h : Selected app)
    (hup : app.onUpI32 overflowChecks = some app') : Selected app' := by
  unfold App.onUpI32 at hup
  split at hup
  · exact selected_moved h (moveSelectionI32_cases hup)
  · obtain rfl := Option.some.inj hup
    exact h.of_eq rfl rfl
  · obtain rfl := Option.some.inj hup
    exact h

theorem selected_onDown {overflowChecks : Bool} (h : Selected app)
    (hdown : app.onDownI32 overflowChecks = some app') : Selected app' := by
  unfold App.onDownI32 at hdown
  split at hdown
  · exact selected_moved h (moveSelectionI32_cases hdown)
  · obtain rfl := Option.some.inj hdown
    exact h.of_eq rfl rfl
  · obtain rfl := Option.some.inj hdown
    exact h

theorem selected_input {overflowChecks : Bool} {l : Int × Input} (h : Selected app)
    (hs : app.input overflowChecks l = some app') : Selected app' := by
  obtain ⟨now, input⟩ := l
  cases input with
  | tick =>
    obtain rfl := Option.some.inj hs
    exact selected_poll h now
  | ingest msg =>
    obtain rfl := Option.some.inj hs
    exact selected_ingest h now msg
  | act a =>
    obtain ⟨sent, hsent, rfl⟩ := Option.map_eq_some_iff.mp hs
    by_cases hup : a = .up
    · subst hup
      obtain ⟨moved, hmoved, rfl⟩ := Option.map_eq_some_iff.mp hsent
      exact selected_onUp h hmoved
    · by_cases hdown : a = .down
      · subst hdown
        obtain ⟨moved, hmoved, rfl⟩ := Option.map_eq_some_iff.mp hsent
        exact selected_onDown h hmoved
      · rw [applyI32_of_ne hup hdown] at hsent
        obtain rfl := Option.some.inj hsent
        exact selected_apply h now hup hdown

theorem selected_reachable {overflowChecks : Bool} (hr : (inputs overflowChecks).Reachable app) :
    Selected app := by
  refine LTS.Inductive.reachable (T := inputs overflowChecks)
    ⟨?_, fun _ _ _ h hs => selected_input h hs⟩ app hr
  rintro app rfl i hi
  cases hi

/-! ## The client with its requests -/

/-- On pages that an `i32` can count no action panics, and each is what `App.apply` says. -/
theorem applyI32_eq (h : Selected app) (hlen : app.rows.length < 2 ^ 31) (overflowChecks : Bool)
    (now : Int) (a : Action) : app.applyI32 overflowChecks now a = some (app.apply now a) := by
  by_cases hup : a = .up
  · subst hup
    have hmove : app.onUpI32 overflowChecks = some app.onUp := by
      unfold App.onUpI32 App.onUp
      cases app.screen with
      | failedTx => exact moveSelectionI32_eq h hlen (.inr rfl)
      | detail | overview => rfl
    rw [App.applyI32, hmove]
    rfl
  · by_cases hdown : a = .down
    · subst hdown
      have hmove : app.onDownI32 overflowChecks = some app.onDown := by
        unfold App.onDownI32 App.onDown
        cases app.screen with
        | failedTx => exact moveSelectionI32_eq h hlen (.inl rfl)
        | detail | overview => rfl
      rw [App.applyI32, hmove]
      rfl
    · exact applyI32_of_ne hup hdown now app

theorem selected_sys {list : ListQuery → TotalPaginated FailedTransaction → Bool} {s : Sys}
    (hr : (tui list).Reachable s) : Selected s.app := by
  refine LTS.Inductive.reachable (T := tui list) (I := fun s => Selected s.app) ⟨?_, ?_⟩ s hr
  · rintro s ⟨now, rfl⟩ i hi
    cases hi
  · intro s e s' h hstep
    rcases step_cases hstep with ⟨a, -, rfl⟩ | ⟨-, rfl⟩ | ⟨r, msg, -, -, -, rfl⟩ | ⟨now, -, -, rfl⟩
    · by_cases hup : a = .up
      · subst hup
        change Selected s.app.onUp
        unfold App.onUp
        split
        · exact selected_moved h (moveSelection_cases s.app (-1))
        · exact h.of_eq rfl rfl
        · exact h
      · by_cases hdown : a = .down
        · subst hdown
          change Selected s.app.onDown
          unfold App.onDown
          split
          · exact selected_moved h (moveSelection_cases s.app 1)
          · exact h.of_eq rfl rfl
          · exact h
        · exact selected_apply h s.now hup hdown
    · exact selected_poll h s.now
    · exact selected_ingest h s.now msg
    · exact h

/-! ## Enter -/

theorem enter_opens (h : Selected app) (hscreen : app.screen = .failedTx) {i : Nat}
    (hi : app.tableState = some i) : ∃ row, app.rows[i]? = some row ∧ ∀ now,
      (app.apply now .enter).1.screen = .detail ∧
        (app.apply now .enter).1.selectedHash = some row.txHash := by
  obtain ⟨row, hrow⟩ : ∃ row, app.rows[i]? = some row := ⟨_, List.getElem?_eq_getElem (h i hi)⟩
  refine ⟨row, hrow, fun now => ?_⟩
  have hselected : app.selectedRow = some row := by
    rw [App.selectedRow, hi]
    exact hrow
  have henter : app.apply now .enter = App.gotoScreen now
      { app with selectedHash := some row.txHash, detailScroll := 0 } .detail := by
    rw [App.apply, App.onEnter, if_neg (not_not.mpr hscreen), hselected]
  rw [henter]
  exact ⟨(goto_frame now _ _).1, (goto_frame now _ _).2.1⟩

/-- **The selection is a row.** Whatever the inputs are and in whatever order they come, the
selection is a row of the loaded page, which Enter opens, and a list that arrives leaves a row
selected exactly if it has one. -/
theorem selection_kept {overflowChecks : Bool} (hr : (inputs overflowChecks).Reachable app) :
    (∀ i, app.tableState = some i →
      (∃ p, app.failed = .loaded p ∧ i < p.data.length) ∧
      (app.screen = .failedTx → ∃ row, app.rows[i]? = some row ∧ ∀ now, ∃ sent,
        app.applyI32 overflowChecks now .enter = some sent ∧ sent.1.screen = .detail ∧
          sent.1.selectedHash = some row.txHash)) ∧
    ∀ now r, (app.ingest now (.failedList r)).tableState.isSome ↔
      ∃ p, (app.ingest now (.failedList r)).failed = .loaded p ∧ p.data ≠ [] := by
  have h := selected_reachable hr
  refine ⟨fun i hi => ⟨h.loaded hi, fun hscreen => ?_⟩, fun now r => ?_⟩
  · obtain ⟨row, hrow, hopens⟩ := enter_opens h hscreen hi
    exact ⟨row, hrow, fun now => ⟨_, rfl, hopens now⟩⟩
  · rw [App.ingest, (clampSelection_spec _).2]
    cases r with
    | error e => simp [App.rows, App.clampSelection, settle]
    | ok p => simp [App.rows, App.clampSelection, settle]

end Kept

def pageOf (hashes : List String) : TotalPaginated FailedTransaction :=
  ⟨hashes.map fun h => ⟨h, "UNKNOWN", none, none, 50000, "2024-01-01T00:00:00Z"⟩,
    ⟨20, 0, hashes.length, hashes.length⟩⟩

/-- Three rows, and down to the last of them. -/
def toLastRow : List (Int × Input) :=
  [(0, .act (.selectScreen .failedTx)),
   (1, .ingest (.failedList (.ok (pageOf ["0xaa", "0xbb", "0xcc"])))), (2, .act .down), (3, .act .down)]

/-- The page that comes next has two. -/
def toShrunk : List (Int × Input) :=
  toLastRow ++ [(4, .ingest (.failedList (.ok (pageOf ["0xdd", "0xee"]))))]

theorem selection_kept_shrunk : ∃ app app', LTS.exec (App.input true) App.new toLastRow = some app ∧
    LTS.exec (App.input true) App.new toShrunk = some app' ∧
    app.tableState = some 2 ∧ (∃ p, app.failed = .loaded p ∧ 2 < p.data.length) ∧
    app'.tableState = some 1 ∧ (∃ p, app'.failed = .loaded p ∧ 1 < p.data.length) ∧
    ∃ row, app'.rows[1]? = some row ∧ ∀ now, ∃ sent, app'.applyI32 true now .enter = some sent ∧
      sent.1.screen = .detail ∧ sent.1.selectedHash = some row.txHash := by
  obtain ⟨app, happ⟩ : ∃ app, LTS.exec (App.input true) App.new toLastRow = some app := ⟨_, rfl⟩
  obtain ⟨app', happ'⟩ : ∃ app', LTS.exec (App.input true) App.new toShrunk = some app' := ⟨_, rfl⟩
  have hsel : app.tableState = some 2 := by
    obtain rfl := Option.some.inj happ
    rfl
  have hsel' : app'.tableState = some 1 ∧ app'.screen = .failedTx := by
    obtain rfl := Option.some.inj happ'
    exact ⟨rfl, rfl⟩
  have hkept := (selection_kept (LTS.reachable_of_exec rfl happ)).1 2 hsel
  have hkept' := (selection_kept (LTS.reachable_of_exec rfl happ')).1 1 hsel'.1
  exact ⟨app, app', happ, happ', hsel, hkept.1, hsel'.1, hkept'.1, hkept'.2 hsel'.2⟩

end Amarillo.L6
