import Mathlib

/-!
# Joins and aggregates with NULL

`NULL` is `none`. A left join keeps a row without a match and pairs it with `NULL`;
`COUNT` and `SUM` pass over `NULL`s, and the `SUM` of nothing is `NULL`, not zero.
-/
namespace Amarillo.Core.Sql

variable {α β κ : Type*}

/-- `l LEFT JOIN r ON …` -/
def leftJoin (l : List α) (r : List β) (on : α → β → Bool) : List (α × Option β) :=
  l.flatMap fun a =>
    if r.filter (on a) = [] then [(a, none)] else (r.filter (on a)).map fun b => (a, some b)

/-- `l JOIN r ON …` -/
def innerJoin (l : List α) (r : List β) (on : α → β → Bool) : List (α × β) :=
  l.flatMap fun a => (r.filter (on a)).map fun b => (a, b)

/-- `GROUP BY` -/
def groupBy [DecidableEq κ] (key : α → κ) (rows : List α) : List (κ × List α) :=
  (rows.map key).dedup.map fun k => (k, rows.filter fun r => decide (key r = k))

/-- `COUNT(x)` -/
def count (xs : List (Option α)) : Nat := xs.reduceOption.length

/-- `COUNT(DISTINCT x)` -/
def countDistinct [DecidableEq α] (xs : List (Option α)) : Nat := xs.reduceOption.dedup.length

/-- `SUM(x)` -/
def sum (xs : List (Option Int)) : Option Int :=
  if xs.reduceOption = [] then none else some xs.reduceOption.sum

/-! ## One row on the left -/

theorem leftJoin_of_none {a : α} {r : List β} {on : α → β → Bool} (h : r.filter (on a) = []) :
    leftJoin [a] r on = [(a, none)] := by
  rw [leftJoin, List.flatMap_singleton, if_pos h]

theorem leftJoin_of_some {a : α} {r : List β} {on : α → β → Bool} (h : r.filter (on a) ≠ []) :
    leftJoin [a] r on = (r.filter (on a)).map fun b => (a, some b) := by
  rw [leftJoin, List.flatMap_singleton, if_neg h]

/-- A left row is in the join, whatever there is on the right. -/
theorem leftJoin_ne_nil (a : α) (r : List β) (on : α → β → Bool) : leftJoin [a] r on ≠ [] := by
  by_cases h : r.filter (on a) = []
  · simp [leftJoin_of_none h]
  · rw [leftJoin_of_some h]
    exact fun e => h (List.map_eq_nil_iff.mp e)

theorem leftJoin_perm {a : α} {r r' : List β} {on : α → β → Bool}
    (h : (r'.filter (on a)).Perm (r.filter (on a))) :
    (leftJoin [a] r' on).Perm (leftJoin [a] r on) := by
  by_cases hr : r.filter (on a) = []
  · rw [hr, List.perm_nil] at h
    rw [leftJoin_of_none hr, leftJoin_of_none h]
  · have hr' : r'.filter (on a) ≠ [] := fun e => hr (List.nil_perm.mp (e ▸ h))
    rw [leftJoin_of_some hr, leftJoin_of_some hr']
    exact h.map _

theorem fst_of_mem_leftJoin {l : List α} {r : List β} {on : α → β → Bool} {x : α × Option β}
    (h : x ∈ leftJoin l r on) : x.1 ∈ l := by
  obtain ⟨a, ha, hx⟩ := List.mem_flatMap.mp h
  split at hx
  · rw [List.mem_singleton.mp hx]
    exact ha
  · obtain ⟨b, -, rfl⟩ := List.mem_map.mp hx
    exact ha

theorem mem_innerJoin {l : List α} {r : List β} {on : α → β → Bool} {x : α × β} :
    x ∈ innerJoin l r on ↔ x.1 ∈ l ∧ x.2 ∈ r ∧ on x.1 x.2 = true := by
  obtain ⟨a, b⟩ := x
  simp [innerJoin]

/-- A join on which every left row has one match at most, restricted to one that has. -/
theorem filter_innerJoin {l : List α} {r : List β} {on : α → β → Bool} {p : α → Bool} {b : β}
    {keep : α × β → Bool} (hone : ∀ a ∈ l, p a = true → r.filter (on a) = [b] ∧ keep (a, b) = true)
    (hother : ∀ a ∈ l, p a = false → ∀ b' ∈ r, on a b' = true → keep (a, b') = false) :
    (innerJoin l r on).filter keep = (l.filter p).map fun a => (a, b) := by
  induction l with
  | nil => rfl
  | cons a l ih =>
    have hrest := ih (fun x hx => hone x (List.mem_cons_of_mem a hx))
      fun x hx => hother x (List.mem_cons_of_mem a hx)
    rw [innerJoin, List.flatMap_cons, List.filter_append]
    cases hp : p a with
    | true =>
      obtain ⟨hmatch, hkeep⟩ := hone a List.mem_cons_self hp
      rw [hmatch, List.filter_cons_of_pos hp, List.map_singleton, List.filter_singleton, hkeep]
      exact congrArg ((a, b) :: ·) hrest
    | false =>
      have hnone : ((r.filter (on a)).map fun b' => (a, b')).filter keep = [] := by
        refine List.filter_eq_nil_iff.mpr fun x hx => ?_
        obtain ⟨b', hb', rfl⟩ := List.mem_map.mp hx
        obtain ⟨hb', hon⟩ := List.mem_filter.mp hb'
        simp [hother a List.mem_cons_self hp b' hb' hon]
      rw [hnone, List.filter_cons_of_neg (by simp [hp]), List.nil_append]
      exact hrest

/-! ## One group -/

@[simp] theorem groupBy_nil [DecidableEq κ] (key : α → κ) : groupBy key [] = [] := rfl

theorem groupBy_const [DecidableEq κ] {key : α → κ} {rows : List α} {k : κ} (hne : rows ≠ [])
    (h : ∀ r ∈ rows, key r = k) : groupBy key rows = [(k, rows)] := by
  have hkeys : (rows.map key).dedup = [k] := by
    rw [List.map_congr_left h, List.map_const', List.replicate_dedup]
    exact fun e => hne (List.length_eq_zero_iff.mp e)
  have hall : rows.filter (fun r => decide (key r = k)) = rows :=
    List.filter_eq_self.mpr fun r hr => decide_eq_true (h r hr)
  rw [groupBy, hkeys, List.map_singleton, hall]

/-! ## The order of the rows -/

section Perm
variable {xs ys : List (Option α)}

theorem reduceOption_perm (h : xs.Perm ys) : xs.reduceOption.Perm ys.reduceOption :=
  h.filterMap id

theorem count_perm (h : xs.Perm ys) : count xs = count ys := (reduceOption_perm h).length_eq

theorem countDistinct_perm [DecidableEq α] (h : xs.Perm ys) :
    countDistinct xs = countDistinct ys := (reduceOption_perm h).dedup.length_eq

theorem sum_perm {xs ys : List (Option Int)} (h : xs.Perm ys) : sum xs = sum ys := by
  have hr := reduceOption_perm h
  simp only [sum, hr.sum_eq, ← List.length_eq_zero_iff, hr.length_eq]

end Perm

/-! ## Columns without NULL -/

@[simp] theorem count_map_some (f : β → α) (xs : List β) :
    count (xs.map fun x => some (f x)) = xs.length := by
  simp [count, List.reduceOption]

@[simp] theorem countDistinct_map_some [DecidableEq α] (f : β → α) (xs : List β) :
    countDistinct (xs.map fun x => some (f x)) = (xs.map f).dedup.length := by
  simp [countDistinct, List.reduceOption]

theorem sum_map_some {f : β → Int} {xs : List β} (h : xs ≠ []) :
    sum (xs.map fun x => some (f x)) = some (xs.map f).sum := by
  simp [sum, List.reduceOption, h]

end Amarillo.Core.Sql
