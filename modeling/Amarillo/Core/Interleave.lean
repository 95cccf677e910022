import Mathlib

/-!
# Interleavings of sequential tasks

`Interleaving ts ss ts'` runs the tasks `ts` (each a list of actions) in some
interleaving: the actions `ss` happened, in that order, and `ts'` is what each
task has left. A run that stops early leaves rests; a complete run leaves none
and is a permutation of all actions (`Interleaving.complete`).

`findSome?_of_agree` is what order independence comes down to when each action
may write a value under a key and the first write counts: if the actions agree
on what they write, any two lists that hold all of them write the same.
-/
namespace Amarillo.Core

variable {α β : Type*}

inductive Interleaving : List (List α) → List α → List (List α) → Prop where
  | stop (ts : List (List α)) : Interleaving ts [] ts
  | step (pre post : List (List α)) (a : α) (rest ss : List α) (ts' : List (List α)) :
      Interleaving (pre ++ rest :: post) ss ts' →
      Interleaving (pre ++ (a :: rest) :: post) (a :: ss) ts'

namespace Interleaving
variable {ts ts' : List (List α)} {ss : List α}

/-- Nothing is lost and nothing is added. -/
theorem perm (h : Interleaving ts ss ts') : (ss ++ ts'.flatten).Perm ts.flatten := by
  induction h with
  | stop ts => exact .refl _
  | step pre post a rest ss ts' _ ih =>
    rw [List.cons_append]
    refine (ih.cons a).trans ?_
    simp only [List.flatten_append, List.flatten_cons, List.cons_append]
    exact List.perm_middle.symm

theorem mem (h : Interleaving ts ss ts') {a : α} (ha : a ∈ ss) : a ∈ ts.flatten :=
  h.perm.subset (List.mem_append_left _ ha)

/-- A single task stopped after `ss`. -/
theorem single (ss rest : List α) : Interleaving [ss ++ rest] ss [rest] := by
  induction ss with
  | nil => exact .stop _
  | cons a ss ih => exact .step [] [] a (ss ++ rest) ss [rest] ih

/-- One task runs on its own first. -/
theorem task (pre post : List (List α)) (t rest : List α) (h : Interleaving (pre ++ rest :: post) ss ts') :
    Interleaving (pre ++ (t ++ rest) :: post) (t ++ ss) ts' := by
  induction t with
  | nil => exact h
  | cons a t ih => exact .step pre post a (t ++ rest) (t ++ ss) ts' ih

/-- Two tasks, one after the other. -/
theorem firstThenSecond (a b : List α) : Interleaving [a, b] (a ++ b) [[], []] := by
  have hb := task [[]] [] b [] (.stop [[], []])
  have ha := task [] [b] a [] (by simpa using hb)
  simpa using ha

theorem secondThenFirst (a b : List α) : Interleaving [a, b] (b ++ a) [[], []] := by
  have ha := task [] [[]] a [] (.stop [[], []])
  have hb := task [a] [] b [] (by simpa using ha)
  simpa using hb

theorem complete (h : Interleaving ts ss ts') (hdone : ts'.flatten = []) : ss.Perm ts.flatten := by
  have := h.perm
  rwa [hdone, List.append_nil] at this

end Interleaving

/-! ## Writers that agree -/

/-- No two actions of the list write different values. -/
def Agree (f : β → Option α) (l : List β) : Prop :=
  ∀ s ∈ l, ∀ s' ∈ l, ∀ a b, f s = some a → f s' = some b → a = b

theorem findSome?_of_agree {f : β → Option α} {l xs : List β} (h : Agree f l) (hx : xs ⊆ l)
    {s : β} (hs : s ∈ xs) {a : α} (ha : f s = some a) : xs.findSome? f = some a := by
  cases hf : xs.findSome? f with
  | none =>
    have := List.findSome?_eq_none_iff.mp hf s hs
    rw [ha] at this
    cases this
  | some b =>
    obtain ⟨s', hs', hb⟩ := List.exists_of_findSome?_eq_some hf
    rw [h s (hx hs) s' (hx hs') a b ha hb]

/-- Two lists with all of the actions write the same. -/
theorem findSome?_eq_of_agree {f : β → Option α} {l xs ys : List β} (h : Agree f l) (hx : xs ⊆ l)
    (hxl : l ⊆ xs) (hy : ys ⊆ l) (hyl : l ⊆ ys) : xs.findSome? f = ys.findSome? f := by
  cases hf : xs.findSome? f with
  | none =>
    symm
    rw [List.findSome?_eq_none_iff] at hf ⊢
    exact fun s hs => hf s (hxl (hy hs))
  | some a =>
    obtain ⟨s, hs, ha⟩ := List.exists_of_findSome?_eq_some hf
    exact (findSome?_of_agree h hy (hyl (hx hs)) ha).symm

end Amarillo.Core
