import Mathlib
import Amarillo.L6Tui.App

/-!
# The detail view (`tui/src/app.rs`, `ui/detail.rs`)

The detail view draws whatever `detail` holds; `selected_hash` says which transaction it is
for. Two steps can set them apart. `begin` keeps a loaded detail on screen, for a poll and
for a newly selected transaction alike; and `ingest` takes every detail that arrives, also
one that was asked for before the selection changed.

* `shows_step`: from a state that shows the selected transaction, a step leads to one
  that does exactly if it meets `Fresh`.
* `detail_shows_selected_iff`: so a run shows the selected transaction throughout iff all
  its steps meet `Fresh`.
* `unhurried_shows`: in particular if no row is opened while another one's detail is loaded or
  on its way.
* `wrong_detail`: one run for each of the two steps.
-/
namespace Amarillo.L6
open Amarillo.Core

variable {list : ListQuery → TotalPaginated FailedTransaction → Bool}

/-- A detail on screen is the selected transaction's. -/
def ShowsSelected (s : Sys) : Prop :=
  s.app.screen = .detail → ∀ d ∈ s.app.detail.loaded?, s.app.selectedHash = some d.failed.txHash

instance (s : Sys) : Decidable (ShowsSelected s) := inferInstanceAs (Decidable (_ → _))

/-- The selection that an action opens the detail view for, if it opens it. -/
def App.opens (app : App) : Action → Option (Option String)
  | .enter => if app.screen = .failedTx then app.selectedRow.map fun r => some r.txHash else none
  | .selectScreen .detail => if app.screen ≠ .detail then some app.selectedHash else none
  | .nextTab => if app.screen = .failedTx then some app.selectedHash else none
  | .prevTab => if app.screen = .overview then some app.selectedHash else none
  | _ => none

/-- The detail view is opened only for the transaction whose detail is loaded, if any is; and
while it is open, a detail that arrives was asked for under the current selection. -/
def Fresh (s : Sys) : Event → Prop
  | .act a => ∀ target ∈ s.app.opens a, ∀ d ∈ s.app.detail.loaded?, target = some d.failed.txHash
  | .deliver (.detail hash) (.detail (.ok _)) => s.app.screen = .detail → s.app.selectedHash = some hash
  | _ => True

instance (s : Sys) : (e : Event) → Decidable (Fresh s e)
  | .act a => inferInstanceAs (Decidable (∀ target ∈ s.app.opens a, _))
  | .tick => .isTrue trivial
  | .advance _ => .isTrue trivial
  | .deliver .latestBlock _ => .isTrue trivial
  | .deliver .analysis _ => .isTrue trivial
  | .deliver (.failedList _ _) _ => .isTrue trivial
  | .deliver (.detail _) (.latestBlock _) => .isTrue trivial
  | .deliver (.detail _) (.analysis _) => .isTrue trivial
  | .deliver (.detail _) (.failedList _) => .isTrue trivial
  | .deliver (.detail _) (.detail (.error _)) => .isTrue trivial
  | .deliver (.detail _) (.detail (.ok _)) => inferInstanceAs (Decidable (_ → _))

/-! ## One step -/

/-- An action opens the view for the selection `opens` names; otherwise the view is closed
afterwards or as it was. -/
theorem apply_detail (now : Int) (app : App) (a : Action) :
    (∀ target ∈ app.opens a, (app.apply now a).1.screen = .detail ∧
      (app.apply now a).1.selectedHash = target) ∧
    (app.opens a = none → (app.apply now a).1.screen = .detail →
      app.screen = .detail ∧ (app.apply now a).1.selectedHash = app.selectedHash) := by
  cases a with
  | quit | toggleHelp | toggleAutoPoll | none => simp [App.apply, App.opens]
  | refreshNow => simp [App.apply, App.opens]
  | nextTab =>
    rw [App.apply, cycleScreen_next]
    cases h : app.screen <;> simp [App.opens, h, Screen.next]
  | prevTab =>
    rw [App.apply, cycleScreen_prev]
    cases h : app.screen <;> simp [App.opens, h, Screen.prev]
  | selectScreen s =>
    cases s with
    | overview | failedTx => simp [App.apply, App.opens]
    | detail => by_cases h : app.screen = .detail <;> simp [App.apply, App.opens, h]
  | up =>
    cases h : app.screen <;> simp [App.apply, App.opens, App.onUp, App.moveSelection, h]
    split <;> simp [h]
  | down =>
    cases h : app.screen <;> simp [App.apply, App.opens, App.onDown, App.moveSelection, h]
    split <;> simp [h]
  | enter =>
    by_cases h : app.screen = .failedTx
    · cases hr : app.selectedRow with
      | none => simp [App.apply, App.opens, App.onEnter, h, hr]
      | some r => simp [App.apply, App.opens, App.onEnter, h, hr]
    · simp [App.apply, App.opens, App.onEnter, h]
  | back => by_cases h : app.screen = .detail <;> simp [App.apply, App.opens, App.onBack, h]
  | cycleCategory =>
    by_cases h : app.screen = .failedTx <;> simp [App.apply, App.opens, App.cycleCategory, h]
  | cycleWindow =>
    by_cases h : app.screen = .failedTx <;> simp [App.apply, App.opens, App.cycleWindow, h]
  | nextPage =>
    by_cases h : app.screen = .failedTx
    · simp only [App.apply, App.opens, App.nextPage, if_pos h]
      split
      · split <;> simp [h]
      · simp [h]
    · simp [App.apply, App.opens, h]
  | prevPage =>
    by_cases h : app.screen = .failedTx
    · simp only [App.apply, App.opens, App.prevPage, if_pos h]
      split <;> simp [h]
    · simp [App.apply, App.opens, h]

/-- The app as an answer leaves it: only a detail touches the detail view. -/
theorem ingest_detail (now : Int) (app : App) (msg : DataMsg) :
    (app.ingest now msg).screen = app.screen ∧
    (app.ingest now msg).selectedHash = app.selectedHash ∧
    (app.ingest now msg).detail.loaded? =
      match msg with
      | .detail r => r.toOption
      | _ => app.detail.loaded? := by
  cases msg with
  | latestBlock r | analysis r | failedList r => exact ⟨rfl, rfl, rfl⟩
  | detail r => exact ⟨rfl, rfl, loaded?_settle r⟩

theorem shows_step {s s' : Sys} {e : Event} (h : ShowsSelected s) (hstep : s.step list e = some s') :
    ShowsSelected s' ↔ Fresh s e := by
  rcases step_cases hstep with ⟨a, rfl, rfl⟩ | ⟨rfl, rfl⟩ | ⟨r, msg, rfl, -, hans, rfl⟩ | ⟨now, rfl, -, rfl⟩
  · obtain ⟨hopens, hstays⟩ := apply_detail s.now s.app a
    have hdata := (apply_sends s.now s.app a).detail
    simp only [ShowsSelected, Sys.send, hdata, Fresh]
    cases ho : s.app.opens a with
    | none =>
      have hkept : (s.app.apply s.now a).1.screen = .detail → ∀ d ∈ s.app.detail.loaded?,
          (s.app.apply s.now a).1.selectedHash = some d.failed.txHash := by
        intro hscreen
        obtain ⟨hwas, hsame⟩ := hstays ho hscreen
        rw [hsame]
        exact h hwas
      exact iff_of_true hkept fun _ ht => by cases ht
    | some target =>
      obtain ⟨hscreen, hselected⟩ := hopens target ho
      simp [hscreen, hselected]
  · refine iff_of_true ?_ trivial
    simpa only [ShowsSelected, Sys.send, poll_frame] using h
  · obtain ⟨hscreen, hselected, hdata⟩ := ingest_detail s.now s.app msg
    simp only [ShowsSelected, hscreen, hselected, hdata]
    cases r with
    | latestBlock | analysis | failedList f t =>
      cases msg with
      | latestBlock m | analysis m | failedList m => exact iff_of_true h trivial
      | detail m => cases hans
    | detail hash =>
      cases msg with
      | latestBlock m | analysis m | failedList m => exact iff_of_true h trivial
      | detail m =>
        cases m with
        | error e => simp [Fresh, Except.toOption]
        | ok d =>
          have hhash : d.failed.txHash = hash := of_decide_eq_true hans
          simp [Fresh, Except.toOption, hhash]
  · exact iff_of_true h trivial

/-! ## Runs -/

theorem shows_start (now : Int) : ShowsSelected (Sys.start now) := by
  intro h
  cases h

/-- **The detail view.** In every run, every state reached shows the selected transaction iff
every step opens the view for what is loaded and takes in what is selected. -/
theorem detail_shows_selected_iff {now : Int} {es : List Event} {s : Sys}
    (h : (tui list).Run (Sys.start now) es s) :
    (∀ pre mid, pre <+: es → (tui list).Run (Sys.start now) pre mid → ShowsSelected mid) ↔
      ∀ pre e mid, pre ++ [e] <+: es → (tui list).Run (Sys.start now) pre mid → Fresh mid e :=
  LTS.run_all_iff (fun _ _ _ hs hstep => shows_step hs hstep) h (shows_start now)

/-! ## A row is opened when the last one is done -/

/-- Enter opens a row only when no detail of another transaction is loaded or on its way. -/
def Unhurried (s : Sys) : Event → Prop
  | .act .enter => s.app.screen = .failedTx → ∀ r ∈ s.app.selectedRow,
    (∀ d ∈ s.app.detail.loaded?, d.failed.txHash = r.txHash) ∧
      ∀ hash, .detail hash ∈ s.flight → hash = r.txHash
  | _ => True

/-- All that is loaded or asked for belongs to the selection. -/
structure OfSelection (s : Sys) : Prop where
  loaded : ∀ d ∈ s.app.detail.loaded?, s.app.selectedHash = some d.failed.txHash
  asked : ∀ hash, .detail hash ∈ s.flight → s.app.selectedHash = some hash

/-- The selection changes when a row is opened, and then only. -/
theorem apply_selected (now : Int) (app : App) (a : Action) :
    (app.apply now a).1.selectedHash = app.selectedHash ∨
    (a = .enter ∧ app.screen = .failedTx ∧
      ∃ r ∈ app.selectedRow, (app.apply now a).1.selectedHash = some r.txHash) := by
  cases a with
  | quit | toggleHelp | toggleAutoPoll | none => exact .inl rfl
  | refreshNow | selectScreen s => simp [App.apply]
  | nextTab => simp [App.apply, cycleScreen_next]
  | prevTab => simp [App.apply, cycleScreen_prev]
  | up =>
    left
    simp only [App.apply, App.onUp, App.moveSelection]
    split
    · split <;> rfl
    · rfl
    · rfl
  | down =>
    left
    simp only [App.apply, App.onDown, App.moveSelection]
    split
    · split <;> rfl
    · rfl
    · rfl
  | enter =>
    by_cases h : app.screen = .failedTx
    · cases hr : app.selectedRow with
      | none => simp [App.apply, App.onEnter, h, hr]
      | some r => simp [App.apply, App.onEnter, h, hr]
    · simp [App.apply, App.onEnter, h]
  | back =>
    left
    simp only [App.apply, App.onBack]
    split <;> simp
  | cycleCategory | cycleWindow =>
    left
    simp only [App.apply, App.cycleCategory, App.cycleWindow]
    split <;> simp
  | nextPage =>
    left
    simp only [App.apply, App.nextPage]
    split
    · split
      · split <;> simp
      · rfl
    · rfl
  | prevPage =>
    left
    simp only [App.apply, App.prevPage]
    split
    · split <;> simp
    · rfl

/-- A detail is asked for under the selection it is for. -/
theorem Sends.asked {now : Int} {app : App} {sent : Sent} (h : Sends now app sent) {hash : String}
    (hmem : .detail hash ∈ sent.2) : sent.1.selectedHash = some hash := by
  obtain ⟨app', -, ⟨rfl, -⟩ | ⟨rfl, -⟩⟩ := h
  · cases hmem
  · simp only [spawn_frame]
    unfold App.spawnFetchActive at hmem
    cases hscreen : app'.screen with
    | overview | failedTx => simp [hscreen] at hmem
    | detail =>
      cases hselected : app'.selectedHash with
      | none => simp [hscreen, hselected] at hmem
      | some h =>
        simp only [hscreen, hselected, List.mem_singleton, Request.detail.injEq] at hmem
        rw [hmem]

theorem ofSelection_send {s : Sys} {sent : Sent} (hsends : Sends s.now s.app sent)
    (h : ∀ d ∈ s.app.detail.loaded?, sent.1.selectedHash = some d.failed.txHash)
    (hasked : ∀ hash, .detail hash ∈ s.flight → sent.1.selectedHash = some hash) :
    OfSelection (s.send sent) := by
  refine ⟨fun d hd => h d (hsends.detail ▸ hd), fun hash hmem => ?_⟩
  rcases List.mem_append.mp hmem with hmem | hmem
  · exact hasked hash hmem
  · exact hsends.asked hmem

theorem ofSelection_step {s s' : Sys} {e : Event} (h : OfSelection s)
    (hstep : s.step list e = some s') (hg : Unhurried s e) : OfSelection s' := by
  rcases step_cases hstep with ⟨a, rfl, rfl⟩ | ⟨rfl, rfl⟩ | ⟨r, msg, rfl, hr, hans, rfl⟩ |
    ⟨now, rfl, -, rfl⟩
  · have hsends := apply_sends s.now s.app a
    rcases apply_selected s.now s.app a with hsame | ⟨rfl, hscreen, row, hrow, hselected⟩
    · exact ofSelection_send hsends (fun d hd => hsame ▸ h.loaded d hd)
        fun hash hmem => hsame ▸ h.asked hash hmem
    · obtain ⟨hloaded, hasked⟩ := hg hscreen row hrow
      refine ofSelection_send hsends (fun d hd => ?_) fun hash hmem => ?_
      · rw [hselected, hloaded d hd]
      · rw [hselected, hasked hash hmem]
  · have hsame : (s.app.poll s.now).1.selectedHash = s.app.selectedHash := by simp
    exact ofSelection_send (poll_sends s.now s.app) (fun d hd => hsame ▸ h.loaded d hd)
      fun hash hmem => hsame ▸ h.asked hash hmem
  · obtain ⟨-, hselected, hdata⟩ := ingest_detail s.now s.app msg
    refine ⟨fun d hd => ?_, fun hash hmem => ?_⟩
    · rw [hdata] at hd
      rw [hselected]
      cases msg with
      | latestBlock m | analysis m | failedList m => exact h.loaded d hd
      | detail m =>
        cases m with
        | error e => cases hd
        | ok d' =>
          obtain rfl : d' = d := Option.some.inj hd
          cases r with
          | latestBlock | analysis | failedList f t => cases hans
          | detail hash =>
            have hhash : d'.failed.txHash = hash := of_decide_eq_true hans
            rw [hhash]
            exact h.asked hash hr
    · rw [hselected]
      exact h.asked hash (List.mem_of_mem_erase hmem)
  · exact ⟨h.loaded, h.asked⟩

/-- Whoever waits for a detail before opening the next row sees the selected one. -/
theorem unhurried_shows {s : Sys} (h : ((tui list).restrict Unhurried).Reachable s) :
    ShowsSelected s := by
  have key : ((tui list).restrict Unhurried).Inductive OfSelection := by
    constructor
    · rintro _ ⟨now, rfl⟩
      refine ⟨fun d hd => (by cases hd), fun hash hmem => ?_⟩
      simp [Sys.start, App.spawnFetchActive, App.new] at hmem
    · rintro s e s' hs ⟨hstep, hg⟩
      exact ofSelection_step hs hstep hg
  exact fun _ => (key.reachable s h).loaded

/-! ## Two rows -/

def txRow (hash : String) : FailedTransaction :=
  ⟨hash, "Unknown", none, none, 21000, "2023-09-01T12:00:00Z"⟩

/-- To the list, and its answer: two failed transactions. -/
def openList : List Event :=
  [.act (.selectScreen .failedTx),
    .deliver (.failedList App.new.filter 0)
      (.failedList (.ok ⟨[txRow "0xa", txRow "0xb"], ⟨20, 0, 2, 2⟩⟩))]

def detailArrives (hash : String) : Event := .deliver (.detail hash) (.detail (.ok ⟨txRow hash⟩))

/-- The first row is opened and its detail arrives. -/
def openFirst : List Event := openList ++ [.act .enter, detailArrives "0xa"]

/-- Back, and down to the second row while the first one's detail stays loaded. -/
def keptRun : List Event := openFirst ++ [.act .back, .act .down, .act .enter]

/-- Both rows are asked for, and the first one's detail comes last. -/
def overtakenRun : List Event :=
  openList ++ [.act .enter, .act .back, .act .down, .act .enter, detailArrives "0xb",
    detailArrives "0xa"]

/-- The first row's detail shows, and the run is one the criterion is about. -/
theorem detail_shows_first : ∃ s, (tui fun _ _ => true).Run (Sys.start 0) openFirst s ∧
    s.app.detail = .loaded ⟨txRow "0xa"⟩ ∧
    ((∀ pre mid, pre <+: openFirst → (tui fun _ _ => true).Run (Sys.start 0) pre mid →
        ShowsSelected mid) ↔
      ∀ pre e mid, pre ++ [e] <+: openFirst → (tui fun _ _ => true).Run (Sys.start 0) pre mid →
        Fresh mid e) := by
  have key : (LTS.exec (Sys.step fun _ _ => true) (Sys.start 0) openFirst).any
      (fun s => decide (s.app.detail = .loaded ⟨txRow "0xa"⟩)) = true := by
    decide +kernel
  obtain ⟨s, hrun, hshown⟩ := LTS.exists_run_of_exec key
  exact ⟨s, hrun, of_decide_eq_true hshown, detail_shows_selected_iff hrun⟩

/-- The first transaction's diagnosis under the second one's selection, in both runs. -/
theorem wrong_detail :
    (∃ s, (tui fun _ _ => true).Run (Sys.start 0) keptRun s ∧ ¬ShowsSelected s) ∧
      ∃ s, (tui fun _ _ => true).Run (Sys.start 0) overtakenRun s ∧ ¬ShowsSelected s := by
  have key : (LTS.exec (Sys.step fun _ _ => true) (Sys.start 0) keptRun).any
        (fun s => decide ¬ShowsSelected s) = true ∧
      (LTS.exec (Sys.step fun _ _ => true) (Sys.start 0) overtakenRun).any
        (fun s => decide ¬ShowsSelected s) = true := by
    decide +kernel
  obtain ⟨s, hrun, hwrong⟩ := LTS.exists_run_of_exec key.1
  obtain ⟨s', hrun', hwrong'⟩ := LTS.exists_run_of_exec key.2
  exact ⟨⟨s, hrun, of_decide_eq_true hwrong⟩, s', hrun', of_decide_eq_true hwrong'⟩

end Amarillo.L6
