import Amarillo.Core.LTS

/-!
# Where a run's facts come from

Facts about the past of a state, read off the run that led to it.

* `Run.origin`: what does not hold where a run starts and holds where it ends became
  true at one of its steps.
* `Traced`: steps the run took one after the other, with what held when each was taken.
* `logged`: the system with a log that each step may add to. The log is a ghost: it
  neither enables nor stops a step (`logged_reachable_iff`).
* `Simulates`, `Run.map`: runs of one system as runs of another.
-/
namespace Amarillo.Core.LTS

universe u v w
variable {S : Type u} {L : Type v}

theorem Reachable.run {T : LTS S L} {s s' : S} {ls : List L} (h : T.Reachable s)
    (hrun : T.Run s ls s') : T.Reachable s' := by
  obtain ⟨s₀, ls₀, h0, hrun₀⟩ := h
  exact ⟨s₀, ls₀ ++ ls, h0, hrun₀.append hrun⟩

/-- The step of a run from `s` at which `P` became true: the labels before it, the step
and the state it was taken in. -/
structure Origin (T : LTS S L) (P : S → Prop) (s : S) (ls : List L) (before : List L) (l : L)
    (m m' : S) : Prop where
  labels : before ++ [l] <+: ls
  run : T.Run s before m
  step : T.step m l m'
  fresh : ¬P m
  holds : P m'

/-- What became true in a run became true at one of its steps. -/
theorem Run.origin {T : LTS S L} {P : S → Prop} {s s' : S} {ls : List L} (h : T.Run s ls s')
    (h0 : ¬P s) (h1 : P s') : ∃ before l m m', Origin T P s ls before l m m' := by
  induction h with
  | nil _ => exact absurd h1 h0
  | @cons s m s' l ls hs _ ih =>
    by_cases hm : P m
    · exact ⟨[], l, s, m, List.prefix_append [l] ls, .nil s, hs, h0, hm⟩
    · obtain ⟨before, k, n, n', ho⟩ := ih hm h1
      exact ⟨l :: before, k, n, n', List.cons_prefix_cons.mpr ⟨rfl, ho.labels⟩,
        .cons hs ho.run, ho.step, ho.fresh, ho.holds⟩

/-- Going back from the end of the run, the steps `ks` were taken, the latest first, each
in a state that met its condition. -/
def Traced (T : LTS S L) (s : S) : List (L × (S → Prop)) → List L → Prop
  | [], _ => True
  | (l, P) :: ks, ls => ∃ before m, before ++ [l] <+: ls ∧ T.Run s before m ∧ P m ∧ T.Traced s ks before

section Traced
variable {T : LTS S L} {s : S} {ks : List (L × (S → Prop))}

theorem Traced.cons {P : S → Prop} {ls before : List L} {l : L} {m : S}
    (hl : before ++ [l] <+: ls) (hrun : T.Run s before m) (hP : P m) (h : T.Traced s ks before) :
    T.Traced s ((l, P) :: ks) ls :=
  ⟨before, m, hl, hrun, hP, h⟩

end Traced

/-! ## Logs -/

/-- `T` with a log: each step adds what `report` says of it. -/
def logged {E : Type w} (T : LTS S L) (report : S → L → List E) : LTS (S × List E) L where
  init x := T.init x.1 ∧ x.2 = []
  step x l x' := T.step x.1 l x'.1 ∧ x'.2 = x.2 ++ report x.1 l

section Logged
variable {E : Type w} {T : LTS S L} {report : S → L → List E}

theorem run_of_logged {x x' : S × List E} {ls : List L} (h : (logged T report).Run x ls x') :
    T.Run x.1 ls x'.1 := by
  induction h with
  | nil x => exact .nil x.1
  | cons hs _ ih => exact .cons hs.1 ih

theorem logged_run {s s' : S} {ls : List L} (h : T.Run s ls s') (log : List E) :
    ∃ log', (logged T report).Run (s, log) ls (s', log') := by
  induction h generalizing log with
  | nil s => exact ⟨log, .nil _⟩
  | @cons s m s' l ls hs _ ih =>
    obtain ⟨log', hrun⟩ := ih (log ++ report s l)
    have hstep : (logged T report).step (s, log) l (m, log ++ report s l) := ⟨hs, rfl⟩
    exact ⟨log', .cons hstep hrun⟩

theorem logged_reachable_iff {s : S} :
    (∃ log, (logged T report).Reachable (s, log)) ↔ T.Reachable s := by
  constructor
  · rintro ⟨log, x₀, ls, ⟨h0, -⟩, hrun⟩
    exact ⟨x₀.1, ls, h0, run_of_logged hrun⟩
  · rintro ⟨s₀, ls, h0, hrun⟩
    obtain ⟨log, hlogged⟩ := logged_run hrun []
    exact ⟨log, (s₀, []), ls, ⟨h0, rfl⟩, hlogged⟩

end Logged

/-! ## Refinement -/

section Refinement
variable {S' : Type u} {L' : Type v} {T : LTS S L}

/-- `R` relates the states of `T` to those of `A` so that every step of `T` is matched by
some steps of `A`. -/
structure Simulates (T : LTS S L) (A : LTS S' L') (R : S → S' → Prop) : Prop where
  init : ∀ s, T.init s → ∃ a, A.init a ∧ R s a
  step : ∀ s l s' a, R s a → T.step s l s' → ∃ ks a', A.Run a ks a' ∧ R s' a'

theorem Simulates.run {A : LTS S' L'} {R : S → S' → Prop} (h : T.Simulates A R) {s s' : S}
    {ls : List L} (hrun : T.Run s ls s') :
    ∀ {a : S'}, R s a → ∃ ks a', A.Run a ks a' ∧ R s' a' := by
  induction hrun with
  | nil s => exact fun {a} hR => ⟨[], a, .nil a, hR⟩
  | cons hs _ ih =>
    intro a hR
    obtain ⟨ks, a', hks, hR'⟩ := h.step _ _ _ _ hR hs
    obtain ⟨ks', a'', hks', hR''⟩ := ih hR'
    exact ⟨ks ++ ks', a'', hks.append hks', hR''⟩

theorem Simulates.reachable {A : LTS S' L'} {R : S → S' → Prop} (h : T.Simulates A R) {s : S}
    (hr : T.Reachable s) : ∃ a, A.Reachable a ∧ R s a := by
  obtain ⟨s₀, ls, h0, hrun⟩ := hr
  obtain ⟨a₀, ha₀, hR⟩ := h.init s₀ h0
  obtain ⟨ks, a, hks, hR'⟩ := h.run hrun hR
  exact ⟨a, ⟨a₀, ks, ha₀, hks⟩, hR'⟩

/-- A refinement mapping that keeps the labels. -/
theorem Run.map {A : LTS S' L} {I : S → Prop} {f : S → S'}
    (hstep : ∀ s l s', I s → T.step s l s' → I s' ∧ A.step (f s) l (f s')) {s s' : S} {ls : List L}
    (hrun : T.Run s ls s') : I s → A.Run (f s) ls (f s') := by
  induction hrun with
  | nil s => exact fun _ => .nil (f s)
  | cons hs _ ih =>
    intro hi
    obtain ⟨hi', ha⟩ := hstep _ _ _ hi hs
    exact .cons ha (ih hi')

end Refinement
end Amarillo.Core.LTS
