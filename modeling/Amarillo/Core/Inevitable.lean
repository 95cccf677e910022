import Mathlib
import Amarillo.Core.LTS

/-!
# What a system comes to

`Inevitable T P s`: whichever steps are taken from `s` on, a state with `P` is reached, and
until then there is always a step to take. A system that can idle for ever, or that gets
stuck, comes to nothing.

* `Inevitable.trans`: one thing after another.
* `Inevitable.of_only`: where there is one step to take.
* `inevitable_of_rank`: where any step brings `P` or lowers a rank.
-/
namespace Amarillo.Core.LTS

universe u v
variable {S : Type u} {L : Type v} {T : LTS S L} {P Q : S → Prop}

inductive Inevitable (T : LTS S L) (P : S → Prop) : S → Prop where
  | now {s : S} (h : P s) : Inevitable T P s
  | later {s : S} (hon : ∃ l s', T.step s l s') (h : ∀ l s', T.step s l s' → Inevitable T P s') :
      Inevitable T P s

theorem Inevitable.trans {s : S} (h : T.Inevitable P s) (hPQ : ∀ s, P s → T.Inevitable Q s) :
    T.Inevitable Q s := by
  induction h with
  | now h => exact hPQ _ h
  | later hon _ ih => exact .later hon ih

theorem Inevitable.mono {s : S} (h : T.Inevitable P s) (hPQ : ∀ s, P s → Q s) : T.Inevitable Q s :=
  h.trans fun s hs => .now (hPQ s hs)

theorem Inevitable.of_only {s s₁ : S} {l : L} (hs : T.step s l s₁)
    (honly : ∀ k s', T.step s k s' → s' = s₁) (h : T.Inevitable P s₁) : T.Inevitable P s :=
  .later ⟨l, s₁, hs⟩ fun k s' hk => honly k s' hk ▸ h

/-- `rank` falls with every step that keeps `I` and does not bring `P`. -/
theorem inevitable_of_rank {I : S → Prop} {rank : S → Nat}
    (hon : ∀ s, I s → ∃ l s', T.step s l s')
    (hstep : ∀ s l s', I s → T.step s l s' → P s' ∨ I s' ∧ rank s' < rank s) {s : S} (h : I s) :
    T.Inevitable P s := by
  induction hr : rank s using Nat.strong_induction_on generalizing s with
  | _ n ih =>
    refine .later (hon s h) fun l s' hs => ?_
    rcases hstep s l s' h hs with hP | ⟨hI, hlt⟩
    · exact .now hP
    · exact ih (rank s') (hr ▸ hlt) hI rfl

/-- A rank that is a sum falls when one of its summands does. -/
theorem sum_map_set_lt {α : Type*} {l : List α} {i : Nat} {a b : α} (f : α → Nat) (h : l[i]? = some a)
    (hlt : f b < f a) : ((l.set i b).map f).sum < (l.map f).sum := by
  induction l generalizing i with
  | nil => cases h
  | cons x l ih =>
    cases i with
    | zero =>
      cases h
      simpa using hlt
    | succ i => simpa using ih h

end Amarillo.Core.LTS
