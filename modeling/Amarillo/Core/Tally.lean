import Amarillo.Core.LTS

/-!
# Counting along a run

`tally f` adds up `f` over the steps of a run of a system given by a step
function: how often something happened, where the state does not tell. A
quantity of the state that every step changes by what `f` says has changed over a
run by the tally (`tally_eq`), and `tally_le` is the same for bounds.

A run on which `f` counts nothing is a run of the system without the steps it
counts (`tally_eq_zero_iff`).
-/
namespace Amarillo.Core.LTS

universe u v
variable {S : Type u} {L : Type v} {init : S → Prop} {step : S → L → Option S}

def tally (step : S → L → Option S) (f : S → L → Nat) : S → List L → Nat
  | _, [] => 0
  | s, l :: ls => f s l + (step s l).elim 0 fun s' => tally step f s' ls

theorem tally_cons {f : S → L → Nat} {s s' : S} {l : L} {ls : List L} (h : step s l = some s') :
    tally step f s (l :: ls) = f s l + tally step f s' ls := by
  simp only [tally, h, Option.elim_some]

theorem tally_le {m : S → Nat} {f g : S → L → Nat}
    (hstep : ∀ s l s', step s l = some s' → m s' + g s l ≤ m s + f s l) {s s' : S} {ls : List L}
    (h : (ofFn init step).Run s ls s') :
    m s' + tally step g s ls ≤ m s + tally step f s ls := by
  induction h with
  | nil s => exact Nat.le_refl _
  | @cons s s₁ s' l ls hs _ ih =>
    have hs : step s l = some s₁ := hs
    have h1 := hstep s l s₁ hs
    rw [tally_cons hs, tally_cons hs]
    omega

theorem tally_eq {m : S → Int} {f : S → L → Nat}
    (hstep : ∀ s l s', step s l = some s' → m s' = m s + f s l) {s s' : S} {ls : List L}
    (h : (ofFn init step).Run s ls s') : m s' = m s + tally step f s ls := by
  induction h with
  | nil s => simp [tally]
  | @cons s s₁ s' l ls hs _ ih =>
    have hs : step s l = some s₁ := hs
    have h1 := hstep s l s₁ hs
    rw [tally_cons hs]
    omega

theorem tally_add {f g : S → L → Nat} {s s' : S} {ls : List L} (h : (ofFn init step).Run s ls s') :
    tally step (fun s l => f s l + g s l) s ls = tally step f s ls + tally step g s ls := by
  induction h with
  | nil s => rfl
  | @cons s s₁ s' l ls hs _ ih =>
    have hs : step s l = some s₁ := hs
    rw [tally_cons hs, tally_cons hs, tally_cons hs]
    omega

theorem tally_eq_zero_iff {f : S → L → Nat} {s s' : S} {ls : List L}
    (h : (ofFn init step).Run s ls s') :
    tally step f s ls = 0 ↔ ((ofFn init step).restrict fun s l => f s l = 0).Run s ls s' := by
  induction h with
  | nil s => exact ⟨fun _ => .nil s, fun _ => rfl⟩
  | @cons s s₁ s' l ls hs _ ih =>
    have hs' : step s l = some s₁ := hs
    rw [tally_cons hs', Nat.add_eq_zero_iff, ih]
    constructor
    · exact fun ⟨h0, hrun⟩ => .cons ⟨hs, h0⟩ hrun
    · intro hrun
      cases hrun with
      | cons hg hrun =>
        obtain ⟨hg, h0⟩ := hg
        have hg : step s l = some _ := hg
        rw [hs', Option.some.injEq] at hg
        exact ⟨h0, hg ▸ hrun⟩

/-- Where each step pays for what `g` says of its label out of `m`, a run pays no more than
it had. -/
theorem Run.spends {T : LTS S L} {I : S → Prop} {m : S → Nat} {g : L → Nat}
    (hstep : ∀ s l s', I s → T.step s l s' → I s' ∧ m s' + g l ≤ m s) {s s' : S} {ls : List L}
    (h : T.Run s ls s') : I s → m s' + (ls.map g).sum ≤ m s := by
  induction h with
  | nil s => exact fun _ => Nat.le_refl _
  | cons hs _ ih =>
    intro hi
    obtain ⟨hi', hpaid⟩ := hstep _ _ _ hi hs
    have hrest := ih hi'
    simp only [List.map_cons, List.sum_cons]
    omega

end Amarillo.Core.LTS
