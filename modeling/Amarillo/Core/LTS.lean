import Mathlib

/-!
# Labelled transition systems

A system is a predicate on initial states and a labelled step relation. A
`Run` is a finite sequence of steps; `Reachable` states end a run that starts
in an initial state. `Inductive.reachable` is the only induction over runs a
safety proof needs: an invariant that holds initially and survives one step
holds in every reachable state.

`restrict` keeps the steps that meet a guard on the state before the step and
its label, for results of the form "in every run whose steps all meet `G`".
`ofFn` and `exec` are the executable side: a partial step function gives a
system, and a computed trace gives a run of it. For such a system `run_all_iff` says
more: if one step keeps a property exactly when it meets `G`, the runs that keep it
throughout are exactly those whose steps all meet `G`.
-/
namespace Amarillo.Core

universe u v

structure LTS (S : Type u) (L : Type v) where
  init : S → Prop
  step : S → L → S → Prop

namespace LTS
variable {S : Type u} {L : Type v}

inductive Run (T : LTS S L) : S → List L → S → Prop where
  | nil (s : S) : Run T s [] s
  | cons {s s' s'' : S} {l : L} {ls : List L} :
      T.step s l s' → Run T s' ls s'' → Run T s (l :: ls) s''

def Reachable (T : LTS S L) (s : S) : Prop := ∃ s₀ ls, T.init s₀ ∧ T.Run s₀ ls s

structure Inductive (T : LTS S L) (I : S → Prop) : Prop where
  init : ∀ s, T.init s → I s
  step : ∀ s l s', I s → T.step s l s' → I s'

theorem Run.append {T : LTS S L} {s s' s'' : S} {ls ls' : List L} (h : T.Run s ls s')
    (h' : T.Run s' ls' s'') : T.Run s (ls ++ ls') s'' := by
  induction h with
  | nil _ => exact h'
  | cons hs _ ih => exact .cons hs (ih h')

/-- A property kept by every step is kept by a run. -/
theorem Run.keeps {T : LTS S L} {I : S → Prop} (hI : ∀ s l s', I s → T.step s l s' → I s')
    {s s' : S} {ls : List L} (h : T.Run s ls s') : I s → I s' := by
  induction h with
  | nil _ => exact id
  | cons hs _ ih => exact fun h0 => ih (hI _ _ _ h0 hs)

theorem Inductive.reachable {T : LTS S L} {I : S → Prop} (h : T.Inductive I) (s : S)
    (hr : T.Reachable s) : I s := by
  obtain ⟨s₀, ls, h0, hrun⟩ := hr
  exact hrun.keeps h.step (h.init s₀ h0)

/-- The steps of `T` that meet the guard `G`. -/
def restrict (T : LTS S L) (G : S → L → Prop) : LTS S L where
  init := T.init
  step s l s' := T.step s l s' ∧ G s l

theorem restrict_mono {T : LTS S L} {G G' : S → L → Prop} (h : ∀ s l, G s l → G' s l) {s : S}
    (hr : (T.restrict G).Reachable s) : (T.restrict G').Reachable s := by
  obtain ⟨s₀, ls, h0, hrun⟩ := hr
  refine ⟨s₀, ls, h0, ?_⟩
  clear h0
  induction hrun with
  | nil s => exact .nil s
  | cons hs _ ih => exact .cons ⟨hs.1, h _ _ hs.2⟩ ih

/-! ## Systems given by a step function -/

def ofFn (init : S → Prop) (step : S → L → Option S) : LTS S L where
  init := init
  step s l s' := step s l = some s'

def exec (step : S → L → Option S) : S → List L → Option S
  | s, [] => some s
  | s, l :: ls => (step s l).bind fun s' => exec step s' ls

theorem run_of_exec {init : S → Prop} {step : S → L → Option S} :
    ∀ {ls : List L} {s s' : S}, exec step s ls = some s' → (ofFn init step).Run s ls s'
  | [], s, s', h => by
    simp only [exec, Option.some.injEq] at h
    subst h
    exact .nil s
  | l :: ls, s, s', h => by
    simp only [exec, Option.bind_eq_some_iff] at h
    obtain ⟨s₁, h₁, h₂⟩ := h
    exact .cons h₁ (run_of_exec h₂)

theorem reachable_of_exec {init : S → Prop} {step : S → L → Option S} {ls : List L} {s s' : S}
    (h0 : init s) (h : exec step s ls = some s') : (ofFn init step).Reachable s' :=
  ⟨s, ls, h0, run_of_exec h⟩

theorem exists_run_of_exec {init : S → Prop} {step : S → L → Option S} {s : S} {ls : List L}
    {p : S → Bool} (h : (exec step s ls).any p = true) :
    ∃ s', (ofFn init step).Run s ls s' ∧ p s' = true := by
  obtain ⟨s', hs', hp⟩ := (Option.any_eq_true _ _).mp h
  exact ⟨s', run_of_exec hs', hp⟩

theorem run_nil_iff {T : LTS S L} {s s' : S} : T.Run s [] s' ↔ s' = s := by
  constructor
  · intro h
    cases h
    rfl
  · rintro rfl
    exact .nil s'

theorem run_cons_iff {init : S → Prop} {step : S → L → Option S} {s s₁ s' : S} {l : L} {ls : List L}
    (hs : step s l = some s₁) :
    (ofFn init step).Run s (l :: ls) s' ↔ (ofFn init step).Run s₁ ls s' := by
  constructor
  · intro h
    cases h with
    | cons hs' hrun =>
      have hs' : step s l = some _ := hs'
      rw [hs, Option.some.injEq] at hs'
      exact hs' ▸ hrun
  · exact .cons hs

/-- Where one step keeps `P` exactly if it meets `G`, a run keeps `P` throughout exactly if
all its steps meet `G`. -/
theorem run_all_iff {init : S → Prop} {step : S → L → Option S} {P : S → Prop} {G : S → L → Prop}
    (hstep : ∀ s l s', P s → step s l = some s' → (P s' ↔ G s l)) {s s' : S} {ls : List L}
    (h : (ofFn init step).Run s ls s') (h0 : P s) :
    (∀ pre mid, pre <+: ls → (ofFn init step).Run s pre mid → P mid) ↔
      ∀ pre l mid, pre ++ [l] <+: ls → (ofFn init step).Run s pre mid → G mid l := by
  induction h with
  | nil s =>
    constructor
    · intro _ pre l mid hpre
      simp at hpre
    · intro _ pre mid hpre hrun
      rw [List.prefix_nil.mp hpre, run_nil_iff] at hrun
      exact hrun ▸ h0
  | @cons s s₁ s' l ls hs _ ih =>
    have hs : step s l = some s₁ := hs
    constructor
    · intro hall
      have h1 : P s₁ := hall [l] s₁ (by simp) ((run_cons_iff hs).mpr (.nil s₁))
      intro pre k mid hpre hrun
      cases pre with
      | nil =>
        obtain rfl : k = l := by simpa using hpre
        rw [run_nil_iff.mp hrun]
        exact (hstep s k s₁ h0 hs).mp h1
      | cons x pre =>
        obtain ⟨rfl, hpre'⟩ := List.cons_prefix_cons.mp hpre
        refine (ih h1).mp (fun p m hp hm => ?_) pre k mid hpre' ((run_cons_iff hs).mp hrun)
        exact hall (x :: p) m (List.cons_prefix_cons.mpr ⟨rfl, hp⟩) ((run_cons_iff hs).mpr hm)
    · intro hall
      have h1 : P s₁ := (hstep s l s₁ h0 hs).mpr (hall [] l s (by simp) (.nil s))
      intro pre mid hpre hrun
      cases pre with
      | nil => exact run_nil_iff.mp hrun ▸ h0
      | cons x pre =>
        obtain ⟨rfl, hpre'⟩ := List.cons_prefix_cons.mp hpre
        refine (ih h1).mpr (fun p k m hp hm => ?_) pre mid hpre' ((run_cons_iff hs).mp hrun)
        exact hall (x :: p) k m (List.cons_prefix_cons.mpr ⟨rfl, hp⟩) ((run_cons_iff hs).mpr hm)

/-- The steps that meet the guard, as a step function. -/
def guarded (step : S → L → Option S) (G : S → L → Prop) [∀ s l, Decidable (G s l)] (s : S) (l : L) :
    Option S :=
  if G s l then step s l else none

theorem run_of_guarded {init : S → Prop} {step : S → L → Option S} {G : S → L → Prop}
    [∀ s l, Decidable (G s l)] :
    ∀ {ls : List L} {s s' : S}, exec (guarded step G) s ls = some s' →
      ((ofFn init step).restrict G).Run s ls s'
  | [], s, s', h => by
    simp only [exec, Option.some.injEq] at h
    subst h
    exact .nil s
  | l :: ls, s, s', h => by
    simp only [exec, Option.bind_eq_some_iff] at h
    obtain ⟨s₁, h₁, h₂⟩ := h
    unfold guarded at h₁
    split at h₁
    · rename_i hg
      exact .cons ⟨h₁, hg⟩ (run_of_guarded h₂)
    · cases h₁

theorem reachable_of_guarded {init : S → Prop} {step : S → L → Option S} {G : S → L → Prop}
    [∀ s l, Decidable (G s l)] {ls : List L} {s s' : S} (h0 : init s)
    (h : exec (guarded step G) s ls = some s') : ((ofFn init step).restrict G).Reachable s' :=
  ⟨s, ls, h0, run_of_guarded h⟩

end LTS
end Amarillo.Core
