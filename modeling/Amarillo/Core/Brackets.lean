import Mathlib

/-!
# Cutting a text outside its brackets

`Brackets.cut` counts open brackets and cuts a text at the separators it meets at depth 0.
A word is `Balanced` when its brackets match; with `top` it has no separator outside of them.

* `cut_balanced`: scanning a balanced word only adds it to the current piece.
* `cut_word`, `cut_cons`: so joined words are cut apart again.
-/
namespace Amarillo.Core

structure Brackets (α : Type*) where
  opening : α
  closing : α
  sep : α
  closing_ne : closing ≠ opening
  sep_ne_opening : sep ≠ opening
  sep_ne_closing : sep ≠ closing

variable {α : Type*} (B : Brackets α)

/-- Neither a bracket nor the separator. -/
structure Brackets.Plain (c : α) : Prop where
  opening : c ≠ B.opening
  closing : c ≠ B.closing
  sep : c ≠ B.sep

inductive Brackets.Balanced : Bool → List α → Prop
  | nil (top : Bool) : Balanced top []
  | plain {top : Bool} {c : α} {s : List α} (hc : B.Plain c) (hs : Balanced top s) :
    Balanced top (c :: s)
  | sep {s : List α} (hs : Balanced false s) : Balanced false (B.sep :: s)
  | nest {top : Bool} {inner s : List α} (hi : Balanced false inner) (hs : Balanced top s) :
    Balanced top (B.opening :: (inner ++ B.closing :: s))

variable {B}

theorem Brackets.Balanced.append {top : Bool} {s t : List α} (hs : B.Balanced top s)
    (ht : B.Balanced top t) : B.Balanced top (s ++ t) := by
  induction hs with
  | nil => exact ht
  | plain hc _ ih => exact .plain hc (ih ht)
  | sep _ ih => exact .sep (ih ht)
  | nest hi _ _ ih =>
    rw [List.cons_append, List.append_assoc]
    exact .nest hi (ih ht)

theorem Brackets.balanced_of_plain (top : Bool) {s : List α} (h : ∀ c ∈ s, B.Plain c) :
    B.Balanced top s := by
  induction s with
  | nil => exact .nil top
  | cons c s ih =>
    obtain ⟨hc, hs⟩ := List.forall_mem_cons.mp h
    exact .plain hc (ih hs)

/-- Inside a bracket a word without separators is one of the others. -/
theorem Brackets.Balanced.inside {top : Bool} {s : List α} (h : B.Balanced top s) :
    B.Balanced false s := by
  induction h with
  | nil => exact .nil false
  | plain hc _ ih => exact .plain hc ih
  | sep _ ih => exact .sep ih
  | nest hi _ _ ih => exact .nest hi ih

/-- A bracketed word. -/
theorem Brackets.Balanced.bracket {inner : List α} (top : Bool) (h : B.Balanced false inner) :
    B.Balanced top (B.opening :: (inner ++ [B.closing])) := .nest h (.nil top)

variable [DecidableEq α]

/-- The pieces between the separators at depth 0, `piece` being the current one. -/
def Brackets.cut (B : Brackets α) : Int → List α → List α → List (List α)
  | _, piece, [] => [piece]
  | depth, piece, c :: s =>
    if c = B.opening then B.cut (depth + 1) (piece ++ [c]) s
    else if c = B.closing then B.cut (depth - 1) (piece ++ [c]) s
    else if c = B.sep ∧ depth = 0 then piece :: B.cut depth [] s
    else B.cut depth (piece ++ [c]) s

section Steps
variable {depth : Int} {piece s : List α}

theorem cut_opening : B.cut depth piece (B.opening :: s) = B.cut (depth + 1) (piece ++ [B.opening]) s := by
  rw [Brackets.cut, if_pos rfl]

theorem cut_closing : B.cut depth piece (B.closing :: s) = B.cut (depth - 1) (piece ++ [B.closing]) s := by
  rw [Brackets.cut, if_neg B.closing_ne, if_pos rfl]

theorem cut_sep : B.cut 0 piece (B.sep :: s) = piece :: B.cut 0 [] s := by
  rw [Brackets.cut, if_neg B.sep_ne_opening, if_neg B.sep_ne_closing, if_pos ⟨rfl, rfl⟩]

theorem cut_sep_inside (h : 0 < depth) :
    B.cut depth piece (B.sep :: s) = B.cut depth (piece ++ [B.sep]) s := by
  rw [Brackets.cut, if_neg B.sep_ne_opening, if_neg B.sep_ne_closing, if_neg (by omega)]

theorem cut_plain {c : α} (hc : B.Plain c) :
    B.cut depth piece (c :: s) = B.cut depth (piece ++ [c]) s := by
  rw [Brackets.cut, if_neg hc.opening, if_neg hc.closing, if_neg fun h => hc.sep h.1]

end Steps

/-- A balanced word is added to the piece, and the depth is what it was. -/
theorem cut_balanced {top : Bool} {s : List α} (h : B.Balanced top s) (t : List α) {depth : Int}
    (hdepth : 0 ≤ depth) (htop : top = true ∨ 0 < depth) (piece : List α) :
    B.cut depth piece (s ++ t) = B.cut depth (piece ++ s) t := by
  induction h generalizing depth piece t with
  | nil => rw [List.nil_append, List.append_nil]
  | plain hc _ ih =>
    rw [List.cons_append, cut_plain hc, ih t hdepth htop, List.append_assoc, List.singleton_append]
  | sep _ ih =>
    have hpos : 0 < depth := htop.resolve_left (by decide)
    rw [List.cons_append, cut_sep_inside hpos, ih t hdepth htop, List.append_assoc,
      List.singleton_append]
  | nest _ _ ihi ihs =>
    have hback : depth + 1 - 1 = depth := by omega
    rw [List.cons_append, cut_opening, List.append_assoc, ihi _ (by omega) (.inr (by omega)),
      List.cons_append, cut_closing, hback, ihs t hdepth htop]
    simp only [List.append_assoc, List.nil_append, List.cons_append]

/-- The last word. -/
theorem cut_word {s : List α} (h : B.Balanced true s) : B.cut 0 [] s = [s] := by
  have := cut_balanced h [] (Int.le_refl 0) (.inl rfl) []
  rwa [List.append_nil, List.nil_append, Brackets.cut] at this

/-- A word and the separator behind it. -/
theorem cut_cons {s : List α} (h : B.Balanced true s) (t : List α) :
    B.cut 0 [] (s ++ B.sep :: t) = s :: B.cut 0 [] t := by
  rw [cut_balanced h _ (Int.le_refl 0) (.inl rfl), List.nil_append, cut_sep]

end Amarillo.Core
