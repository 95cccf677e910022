import Mathlib
import Amarillo.L6Tui.App

/-!
# Paging through failed transactions (`tui/src/app.rs`)

The list has a filter (category, window, page size, offset) and a page that was loaded for
some filter. A change of filter sends a request and leaves the old page on screen until
its answer comes. The server's table does not change; its total for a filter is the same
for every page, and a time window reaches back from the moment a query is made.

In between, three things can go wrong. `next_page` compares the offset with the total of
the page on screen, which may be another filter's. The answers to two list requests may come
in either order, and the one that comes last stays. And a window that moves on with the clock
loses rows, while the offset stays.

* `Sends.asksFor`, `apply_filter`: what an action asks for, and what it does to the filter.
* `paged_step`: a step that meets `Orderly` keeps the invariant `Paged`.
* `paging_inside_filter`: so in every run of such steps, once nothing is in flight, the page
  on screen is the server's answer to the current filter, at an offset that filter has.
* `page_outside_filter`: a run past the total of a new filter, and one that ends with another
  filter's page.
-/
namespace Amarillo.L6
open Amarillo.Core

/-! ## The server -/

structure Server where
  rows : ListQuery → List FailedTransaction
  /-- independent of limit and offset -/
  total : Option String → Option Int → Int

def Server.answer (server : Server) (q : ListQuery) : TotalPaginated FailedTransaction :=
  ⟨server.rows q, ⟨q.limit, q.offset, (server.rows q).length, server.total q.category q.fromTs⟩⟩

def Server.list (server : Server) (q : ListQuery) (p : TotalPaginated FailedTransaction) : Bool :=
  decide (p = server.answer q)

def FailedTxFilter.total (server : Server) (now : Int) (f : FailedTxFilter) : Int :=
  server.total f.category (f.window.startIso now)

/-- The offset is one the filter has. -/
def InRange (server : Server) (now : Int) (f : FailedTxFilter) : Prop :=
  f.offset = 0 ∨ f.offset < f.total server now

instance (server : Server) (now : Int) (f : FailedTxFilter) : Decidable (InRange server now f) :=
  inferInstanceAs (Decidable (_ ∨ _))

def Request.list? : Request → Option (FailedTxFilter × Int)
  | .failedList f t => some (f, t)
  | _ => none

/-- The list requests, each with its filter and its time. -/
def lists (rs : List Request) : List (FailedTxFilter × Int) := rs.filterMap Request.list?

/-- Once nothing is in flight, the page on screen is what the server answers the current
filter (its window as of some moment `t`), at an offset the filter has, then and now. The
list on screen is loaded exactly if the last list answer was one. -/
def InsideFilter (server : Server) (s : Sys) : Prop :=
  s.flight = [] → ∀ p ∈ s.app.failed.loaded?,
    (∃ t ≤ s.now, p = server.answer (s.app.filter.queryPairs t) ∧ InRange server t s.app.filter) ∧
      InRange server s.now s.app.filter

/-- The list answer that leaves no other one outstanding is for the current filter; the next
page is taken only where the current filter has one; and the current window does not lose
the page it is at as time passes. -/
def Orderly (server : Server) (s : Sys) : Event → Prop
  | .deliver (.failedList f t) (.failedList (.ok _)) =>
    lists (s.flight.erase (.failedList f t)) = [] → f = s.app.filter
  | .act .nextPage => s.app.screen = .failedTx → ∀ p ∈ s.app.failed.loaded?,
    s.app.filter.offset + s.app.filter.limit < p.pagination.total →
      s.app.filter.offset + s.app.filter.limit < s.app.filter.total server s.now
  | .advance now => InRange server now s.app.filter
  | _ => True

instance (server : Server) (s : Sys) : (e : Event) → Decidable (Orderly server s e)
  | .act .nextPage => inferInstanceAs (Decidable (_ → ∀ p ∈ s.app.failed.loaded?, _))
  | .advance now => inferInstanceAs (Decidable (InRange server now s.app.filter))
  | .deliver (.failedList _ _) (.failedList (.ok _)) => inferInstanceAs (Decidable (_ → _))
  | .deliver (.failedList _ _) (.failedList (.error _)) => .isTrue trivial
  | .deliver (.failedList _ _) (.latestBlock _) => .isTrue trivial
  | .deliver (.failedList _ _) (.analysis _) => .isTrue trivial
  | .deliver (.failedList _ _) (.detail _) => .isTrue trivial
  | .deliver .latestBlock _ => .isTrue trivial
  | .deliver .analysis _ => .isTrue trivial
  | .deliver (.detail _) _ => .isTrue trivial
  | .tick => .isTrue trivial
  | .act .quit => .isTrue trivial
  | .act .nextTab => .isTrue trivial
  | .act .prevTab => .isTrue trivial
  | .act (.selectScreen _) => .isTrue trivial
  | .act .up => .isTrue trivial
  | .act .down => .isTrue trivial
  | .act .enter => .isTrue trivial
  | .act .back => .isTrue trivial
  | .act .cycleCategory => .isTrue trivial
  | .act .cycleWindow => .isTrue trivial
  | .act .prevPage => .isTrue trivial
  | .act .refreshNow => .isTrue trivial
  | .act .toggleAutoPoll => .isTrue trivial
  | .act .toggleHelp => .isTrue trivial
  | .act .none => .isTrue trivial

/-! ## What an action asks for -/

theorem lists_append (a b : List Request) : lists (a ++ b) = lists a ++ lists b :=
  List.filterMap_append

theorem spawn_lists (now : Int) (app : App) : lists (app.spawnFetchActive now).2 =
    if app.screen = .failedTx then [(app.filter, now)] else [] := by
  unfold App.spawnFetchActive
  cases app.screen with
  | overview | failedTx => rfl
  | detail => cases app.selectedHash <;> rfl

/-- The list on screen stays, and what is asked for is the list of the filter that is left;
it is asked for whenever the filter changes. -/
def AsksFor (now : Int) (app : App) (sent : Sent) : Prop :=
  sent.1.failed.loaded? = app.failed.loaded? ∧
    ((lists sent.2 = [] ∧ sent.1.filter = app.filter) ∨ lists sent.2 = [(sent.1.filter, now)])

theorem Sends.asksFor {now : Int} {app : App} {sent : Sent} (h : Sends now app sent) :
    AsksFor now app sent := by
  obtain ⟨app', hmoved, ⟨rfl, hfilter⟩ | ⟨rfl, hfilter⟩⟩ := h
  · exact ⟨congrArg Loadable.loaded? hmoved.failed, .inl ⟨rfl, hfilter⟩⟩
  · refine ⟨by simp [hmoved.failed], ?_⟩
    simp only [spawn_lists, spawn_frame]
    by_cases hscreen : app'.screen = .failedTx
    · exact .inr (if_pos hscreen)
    · exact .inl ⟨if_neg hscreen, hfilter.resolve_right hscreen⟩

/-- The next page is taken where the page on screen says there is one. -/
def App.takesNext (app : App) : Prop :=
  app.screen = .failedTx ∧ ∃ p ∈ app.failed.loaded?,
    app.filter.offset + app.filter.limit < p.pagination.total

/-- An action keeps the filter, starts another one at its first page, or turns a page. -/
theorem apply_filter (now : Int) (app : App) (a : Action) :
    (app.apply now a).1.filter = app.filter ∨
    (∃ category window, (app.apply now a).1.filter = ⟨category, window, app.filter.limit, 0⟩) ∨
    (0 < app.filter.offset ∧ (app.apply now a).1.filter =
      { app.filter with offset := max (app.filter.offset - app.filter.limit) 0 }) ∨
    (a = .nextPage ∧ app.takesNext ∧ (app.apply now a).1.filter =
      { app.filter with offset := app.filter.offset + app.filter.limit }) := by
  cases a with
  | quit | toggleHelp | toggleAutoPoll | none => exact .inl rfl
  | refreshNow | selectScreen s => simp [App.apply]
  | nextTab => simp [App.apply, cycleScreen_next]
  | prevTab => simp [App.apply, cycleScreen_prev]
  | up => exact .inl (moved_up app).2
  | down => exact .inl (moved_down app).2
  | enter =>
    left
    simp only [App.apply, App.onEnter]
    split
    · rfl
    · split
      · simp
      · rfl
  | back =>
    left
    simp only [App.apply, App.onBack]
    split
    · simp
    · rfl
  | cycleCategory =>
    simp only [App.apply, App.cycleCategory]
    split
    · exact .inr (.inl ⟨nextCategory app.filter.category, app.filter.window, by simp⟩)
    · exact .inl rfl
  | cycleWindow =>
    simp only [App.apply, App.cycleWindow]
    split
    · exact .inr (.inl ⟨app.filter.category, app.filter.window.next, by simp⟩)
    · exact .inl rfl
  | nextPage =>
    simp only [App.apply, App.nextPage]
    split
    · rename_i hscreen
      split
      · rename_i p hp
        split
        · rename_i htotal
          refine .inr (.inr (.inr ⟨trivial, ⟨hscreen, p, ?_, htotal⟩, by simp⟩))
          rw [hp]
          rfl
        · exact .inl rfl
      · exact .inl rfl
    · exact .inl rfl
  | prevPage =>
    simp only [App.apply, App.prevPage]
    split
    · split
      · rename_i hoffset
        exact .inr (.inr (.inl ⟨hoffset, by simp⟩))
      · exact .inl rfl
    · exact .inl rfl

/-! ## One step -/

/-- Every list request asks for an offset its filter had when it was sent, as the current
filter does now; and when none is out, the page on screen answers the current filter. -/
structure Paged (server : Server) (s : Sys) : Prop where
  limit : 0 ≤ s.app.filter.limit
  range : InRange server s.now s.app.filter
  asked : ∀ r ∈ lists s.flight, r.2 ≤ s.now ∧ InRange server r.2 r.1
  shown : lists s.flight = [] → ∀ p ∈ s.app.failed.loaded?, ∃ t ≤ s.now,
    p = server.answer (s.app.filter.queryPairs t) ∧ InRange server t s.app.filter

/-- A page further back is one the filter has. -/
theorem inRange_prev {server : Server} {now : Int} {f : FailedTxFilter} (hlimit : 0 ≤ f.limit)
    (h : InRange server now f) :
    InRange server now { f with offset := max (f.offset - f.limit) 0 } := by
  rcases h with h | h
  · left
    simp only [h]
    omega
  · by_cases hoffset : f.offset - f.limit ≤ 0
    · exact .inl (by simp only; omega)
    · right
      have htotal : f.offset < f.total server now := h
      change max (f.offset - f.limit) 0 < f.total server now
      omega

/-- The filter an orderly action leaves is in range. -/
theorem inRange_apply {server : Server} {s : Sys} (h : Paged server s) {a : Action}
    (hg : Orderly server s (.act a)) : 0 ≤ (s.app.apply s.now a).1.filter.limit ∧
      InRange server s.now (s.app.apply s.now a).1.filter := by
  rcases apply_filter s.now s.app a with hf | ⟨c, w, hf⟩ | ⟨-, hf⟩ | ⟨rfl, ⟨hscreen, p, hp, htotal⟩, hf⟩
  · rw [hf]
    exact ⟨h.limit, h.range⟩
  · rw [hf]
    exact ⟨h.limit, .inl rfl⟩
  · rw [hf]
    exact ⟨h.limit, inRange_prev h.limit h.range⟩
  · rw [hf]
    exact ⟨h.limit, .inr (hg hscreen p hp htotal)⟩

/-- Sending what an action or the poll asks for keeps the invariant. -/
theorem paged_send {server : Server} {s : Sys} (h : Paged server s) {sent : Sent}
    (hasks : AsksFor s.now s.app sent) (hlimit : 0 ≤ sent.1.filter.limit)
    (hrange : InRange server s.now sent.1.filter) : Paged server (s.send sent) := by
  obtain ⟨hfailed, hasks⟩ := hasks
  refine ⟨hlimit, hrange, ?_, ?_⟩
  · intro r hr
    simp only [Sys.send, lists_append, List.mem_append] at hr
    rcases hr with hr | hr
    · exact h.asked r hr
    · rcases hasks with ⟨hnone, -⟩ | hone
      · rw [hnone] at hr
        cases hr
      · rw [hone, List.mem_singleton] at hr
        subst hr
        exact ⟨le_refl _, hrange⟩
  · intro hquiet p hp
    simp only [Sys.send, lists_append, List.append_eq_nil_iff] at hquiet
    rcases hasks with ⟨-, hfilter⟩ | hone
    · obtain ⟨t, ht, hanswer⟩ := h.shown hquiet.1 p (hfailed ▸ hp)
      exact ⟨t, ht, by simpa only [Sys.send, hfilter] using hanswer⟩
    · rw [hone] at hquiet
      cases hquiet.2

theorem lists_erase_of_not_list {r : Request} (h : r.list? = none) (rs : List Request) :
    lists (rs.erase r) = lists rs := by
  induction rs with
  | nil => rfl
  | cons x rs ih =>
    by_cases hx : x = r
    · subst hx
      simp [lists, h]
    · rw [List.erase_cons_tail (by simpa using hx)]
      simp only [lists, List.filterMap_cons] at ih ⊢
      rw [ih]

theorem ingest_list (now : Int) (app : App) (msg : DataMsg) :
    (app.ingest now msg).filter = app.filter ∧
    (app.ingest now msg).failed.loaded? =
      match msg with
      | .failedList r => r.toOption
      | _ => app.failed.loaded? := by
  cases msg with
  | latestBlock r | analysis r | detail r => exact ⟨rfl, rfl⟩
  | failedList r => exact ⟨rfl, loaded?_settle r⟩

theorem paged_deliver {server : Server} {s : Sys} (h : Paged server s) {r : Request} {msg : DataMsg}
    (hr : r ∈ s.flight) (hans : answers server.list r msg = true)
    (hg : Orderly server s (.deliver r msg)) :
    Paged server { s with app := s.app.ingest s.now msg, flight := s.flight.erase r } := by
  obtain ⟨hfilter, hfailed⟩ := ingest_list s.now s.app msg
  refine ⟨by rw [hfilter]; exact h.limit, by rw [hfilter]; exact h.range, ?_, ?_⟩
  · intro x hx
    exact h.asked x ((List.erase_sublist.filterMap _).subset hx)
  · intro hquiet p hp
    rw [hfailed] at hp
    rw [hfilter]
    cases r with
    | latestBlock | analysis | detail hash =>
      cases msg with
      | failedList m => cases hans
      | latestBlock m | analysis m | detail m =>
        rw [lists_erase_of_not_list rfl] at hquiet
        exact h.shown hquiet p hp
    | failedList f t =>
      cases msg with
      | latestBlock m | analysis m | detail m => cases hans
      | failedList m =>
        cases m with
        | error e => cases hp
        | ok page =>
          -- the last list answer: it is the current filter's
          obtain rfl : page = p := Option.some.inj hp
          have hcurrent : f = s.app.filter := hg hquiet
          subst hcurrent
          obtain ⟨ht, hrange⟩ := h.asked (s.app.filter, t)
            (List.mem_filterMap.mpr ⟨_, hr, rfl⟩)
          exact ⟨t, ht, of_decide_eq_true hans, hrange⟩

theorem paged_step {server : Server} {s s' : Sys} {e : Event} (h : Paged server s)
    (hstep : s.step server.list e = some s') (hg : Orderly server s e) : Paged server s' := by
  rcases step_cases hstep with ⟨a, rfl, rfl⟩ | ⟨rfl, rfl⟩ | ⟨r, msg, rfl, hr, hans, rfl⟩ |
    ⟨now, rfl, hle, rfl⟩
  · obtain ⟨hlimit, hrange⟩ := inRange_apply h hg
    exact paged_send h (apply_sends s.now s.app a).asksFor hlimit hrange
  · refine paged_send h (poll_sends s.now s.app).asksFor ?_ ?_
    · simpa only [poll_frame] using h.limit
    · simpa only [poll_frame] using h.range
  · exact paged_deliver h hr hans hg
  · refine ⟨h.limit, hg, ?_, ?_⟩
    · intro r hr
      obtain ⟨ht, hrange⟩ := h.asked r hr
      exact ⟨ht.trans hle, hrange⟩
    · intro hquiet p hp
      obtain ⟨t, ht, hanswer⟩ := h.shown hquiet p hp
      exact ⟨t, ht.trans hle, hanswer⟩

/-! ## Runs -/

theorem paged_start (server : Server) (now : Int) : Paged server (Sys.start now) := by
  refine ⟨?_, .inl rfl, ?_, ?_⟩
  · change (0 : Int) ≤ 20
    decide
  · intro r hr
    cases hr
  · intro _ p hp
    cases hp

/-- **Paging.** In every run whose steps are all orderly, once nothing is in flight and the
last list answer was one, the page on screen is the server's answer to the current filter
and offset, and the offset is 0 or below the filter's total. -/
theorem paging_inside_filter (server : Server) {s : Sys}
    (h : ((tui server.list).restrict (Orderly server)).Reachable s) : InsideFilter server s := by
  have key : ((tui server.list).restrict (Orderly server)).Inductive (Paged server) := by
    constructor
    · rintro _ ⟨now, rfl⟩
      exact paged_start server now
    · rintro s e s' hs ⟨hstep, hg⟩
      exact paged_step hs hstep hg
  have hpaged := key.reachable s h
  intro hflight p hp
  exact ⟨hpaged.shown (by rw [hflight]; rfl) p hp, hpaged.range⟩

/-! ## A server with 45 failures, 5 of each category -/

def demoServer : Server where
  rows q := [⟨q.category.getD "all", "Unknown", none, none, 21000, "2023-09-01T12:00:00Z"⟩]
  total category _ := if category = none then 45 else 5

/-- The filter of one category, or of all of them. -/
def demoFilter (category : Option String) (offset : Int) : FailedTxFilter :=
  ⟨category, .all, 20, offset⟩

def pageArrives (f : FailedTxFilter) : Event :=
  .deliver (.failedList f 0) (.failedList (.ok (demoServer.answer (f.queryPairs 0))))

/-- The first page of the list, with nothing left in flight. -/
def firstPage : List Event :=
  [.deliver .latestBlock (.latestBlock (.ok none)), .deliver .analysis (.analysis (.ok [])),
    .act (.selectScreen .failedTx), pageArrives (demoFilter none 0)]

/-- The next page is asked for while the old filter's page is on screen. -/
def pastEnd : List Event :=
  firstPage ++ [.act .cycleCategory, .act .nextPage,
    pageArrives (demoFilter (some "INSUFFICIENT_BALANCE") 0),
    pageArrives (demoFilter (some "INSUFFICIENT_BALANCE") 20)]

/-- Two changes of category, whose answers come the other way round. -/
def overtakenPage : List Event :=
  firstPage ++ [.act .cycleCategory, .act .cycleCategory,
    pageArrives (demoFilter (some "INSUFFICIENT_ALLOWANCE") 0),
    pageArrives (demoFilter (some "INSUFFICIENT_BALANCE") 0)]

/-- The second page of the whole list is the server's. -/
theorem second_page : ∃ s : Sys, s.flight = [] ∧ s.app.filter = demoFilter none 20 ∧
    s.app.failed.loaded?.isSome = true ∧ InsideFilter demoServer s := by
  obtain ⟨s, hs, hquiet⟩ : ∃ s, LTS.exec (LTS.guarded (Sys.step demoServer.list) (Orderly demoServer))
      (Sys.start 0) (firstPage ++ [.act .nextPage, pageArrives (demoFilter none 20)]) = some s ∧
      decide (s.flight = [] ∧ s.app.filter = demoFilter none 20 ∧
        s.app.failed.loaded?.isSome = true) = true := by
    rw [← Option.any_eq_true]
    decide +kernel
  obtain ⟨hflight, hfilter, hloaded⟩ := of_decide_eq_true hquiet
  exact ⟨s, hflight, hfilter, hloaded,
    paging_inside_filter demoServer (LTS.reachable_of_guarded ⟨0, rfl⟩ hs)⟩

/-- An empty page past the end of the new filter, and a page of another category's. -/
theorem page_outside_filter :
    (∃ s, (tui demoServer.list).Run (Sys.start 0) pastEnd s ∧ ¬InsideFilter demoServer s) ∧
      ∃ s, (tui demoServer.list).Run (Sys.start 0) overtakenPage s ∧ ¬InsideFilter demoServer s := by
  have key : (LTS.exec (Sys.step demoServer.list) (Sys.start 0) pastEnd).any
        (fun s => decide (s.flight = [] ∧ s.app.failed.loaded?.isSome = true ∧
          ¬InRange demoServer s.now s.app.filter)) = true ∧
      (LTS.exec (Sys.step demoServer.list) (Sys.start 0) overtakenPage).any
        (fun s => decide (s.flight = [] ∧ s.app.filter = demoFilter (some "INSUFFICIENT_ALLOWANCE") 0 ∧
          s.app.failed.loaded? = some (demoServer.answer
            ((demoFilter (some "INSUFFICIENT_BALANCE") 0).queryPairs 0)))) = true := by
    decide +kernel
  constructor
  · obtain ⟨s, hrun, hs⟩ := LTS.exists_run_of_exec key.1
    obtain ⟨hflight, hloaded, hrange⟩ := of_decide_eq_true hs
    obtain ⟨p, hp⟩ := Option.isSome_iff_exists.mp hloaded
    exact ⟨s, hrun, fun h => hrange (h hflight p hp).2⟩
  · obtain ⟨s, hrun, hs⟩ := LTS.exists_run_of_exec key.2
    obtain ⟨hflight, hfilter, hloaded⟩ := of_decide_eq_true hs
    refine ⟨s, hrun, fun h => ?_⟩
    obtain ⟨⟨t, -, hpage, -⟩, -⟩ := h hflight _ hloaded
    rw [hfilter] at hpage
    have hrows := congrArg (fun p => p.data.map (·.txHash)) hpage
    simp [demoServer, demoFilter, Server.answer, FailedTxFilter.queryPairs] at hrows

end Amarillo.L6
