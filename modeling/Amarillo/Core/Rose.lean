import Mathlib

/-!
# Trees and their pre-order lists

`Rose α` is a tree with any number of children. `preorder` lists the labels
in pre-order, each with its depth, and `rebuild` reads such a list from the
right: a label takes the deeper trees standing next to it for its children.
`rebuild_preorder` gives the tree back: the depths are all that the list needs.

`mapDepth` relabels a tree with a function that also sees the depth; the list
is relabelled in the same way (`preorder_mapDepth`).
-/
namespace Amarillo.Core

inductive Rose (α : Type) where
  | node (label : α) (children : List (Rose α))

namespace Rose
variable {α β : Type}

mutual
/-- The labels with their depths, the root at `depth`. -/
def preorder : Rose α → Nat → List (Nat × α)
  | .node a ts, depth => (depth, a) :: preorderAll ts (depth + 1)

def preorderAll : List (Rose α) → Nat → List (Nat × α)
  | [], _ => []
  | t :: ts, depth => preorder t depth ++ preorderAll ts depth
end

mutual
def mapDepth (f : Nat → α → β) : Rose α → Nat → Rose β
  | .node a ts, depth => .node (f depth a) (mapDepthAll f ts (depth + 1))

def mapDepthAll (f : Nat → α → β) : List (Rose α) → Nat → List (Rose β)
  | [], _ => []
  | t :: ts, depth => mapDepth f t depth :: mapDepthAll f ts depth
end

/-! ## Reading a list back -/

/-- One label from the right: it becomes the parent of the deeper trees. -/
def adopt (p : Nat × α) (trees : List (Nat × Rose α)) : List (Nat × Rose α) :=
  (p.1, .node p.2 ((trees.takeWhile (p.1 < ·.1)).map Prod.snd)) :: trees.dropWhile (p.1 < ·.1)

def rebuild (xs : List (Nat × α)) : List (Rose α) := (xs.foldr adopt []).map Prod.snd

/-- The trees from `depth` on stop before `trees`. -/
def StopsAt (depth : Nat) (trees : List (Nat × Rose α)) : Prop :=
  ∀ p ∈ trees.head?, p.1 ≤ depth

theorem stopsAt_succ {depth : Nat} {trees : List (Nat × Rose α)} (h : StopsAt depth trees) :
    StopsAt (depth + 1) trees :=
  fun p hp => Nat.le_succ_of_le (h p hp)

theorem stopsAt_cons (depth : Nat) (t : Rose α) (trees : List (Nat × Rose α)) :
    StopsAt depth ((depth, t) :: trees) := by
  rintro p hp
  cases hp
  exact Nat.le_refl _

theorem adopt_children (a : α) {depth : Nat} (ts : List (Rose α)) {trees : List (Nat × Rose α)}
    (h : StopsAt depth trees) :
    adopt (depth, a) (ts.map (depth + 1, ·) ++ trees) = (depth, .node a ts) :: trees := by
  have hdeep : ∀ p ∈ ts.map (depth + 1, ·), decide (depth < p.1) = true := by
    intro p hp
    obtain ⟨t, -, rfl⟩ := List.mem_map.mp hp
    exact decide_eq_true (Nat.lt_succ_self depth)
  have hstop : trees.takeWhile (depth < ·.1) = [] ∧ trees.dropWhile (depth < ·.1) = trees := by
    cases trees with
    | nil => exact ⟨rfl, rfl⟩
    | cons p rest =>
      have hp := h p rfl
      have : decide (depth < p.1) = false := decide_eq_false (by omega)
      exact ⟨by rw [List.takeWhile_cons, this]; rfl, by rw [List.dropWhile_cons, this]; rfl⟩
  unfold adopt
  rw [List.takeWhile_append_of_pos hdeep, List.dropWhile_append_of_pos hdeep, hstop.1, hstop.2,
    List.append_nil, List.map_map]
  congr
  exact List.map_id ts

mutual
theorem foldr_preorder : ∀ (t : Rose α) {depth : Nat} {trees : List (Nat × Rose α)},
    StopsAt depth trees → (preorder t depth).foldr adopt trees = (depth, t) :: trees
  | .node a ts, depth, trees, h => by
    rw [preorder, List.foldr_cons, foldr_preorderAll ts (stopsAt_succ h), adopt_children a ts h]

theorem foldr_preorderAll : ∀ (ts : List (Rose α)) {depth : Nat} {trees : List (Nat × Rose α)},
    StopsAt depth trees →
      (preorderAll ts depth).foldr adopt trees = ts.map (depth, ·) ++ trees
  | [], _, _, _ => rfl
  | t :: ts, depth, trees, h => by
    have hnext : StopsAt depth (ts.map (depth, ·) ++ trees) := by
      cases ts with
      | nil => exact h
      | cons u us => exact stopsAt_cons depth u _
    rw [preorderAll, List.foldr_append, foldr_preorderAll ts h, foldr_preorder t hnext]
    rfl
end

/-- The list determines the tree it came from. -/
theorem rebuild_preorder (t : Rose α) (depth : Nat) : rebuild (preorder t depth) = [t] := by
  have hstop : StopsAt depth ([] : List (Nat × Rose α)) := fun p hp => by cases hp
  rw [rebuild, foldr_preorder t hstop]
  rfl

mutual
theorem preorder_mapDepth (f : Nat → α → β) : ∀ (t : Rose α) (depth : Nat),
    preorder (mapDepth f t depth) depth = (preorder t depth).map fun p => (p.1, f p.1 p.2)
  | .node a ts, depth => by
    rw [mapDepth, preorder, preorder, List.map_cons, preorderAll_mapDepthAll f ts (depth + 1)]

theorem preorderAll_mapDepthAll (f : Nat → α → β) : ∀ (ts : List (Rose α)) (depth : Nat),
    preorderAll (mapDepthAll f ts depth) depth =
      (preorderAll ts depth).map fun p => (p.1, f p.1 p.2)
  | [], _ => rfl
  | t :: ts, depth => by
    rw [mapDepthAll, preorderAll, preorderAll, List.map_append, preorder_mapDepth f t depth,
      preorderAll_mapDepthAll f ts depth]
end

end Rose
end Amarillo.Core
