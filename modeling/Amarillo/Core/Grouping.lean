import Mathlib
import Amarillo.Core.Sql

/-!
# Groups in the order of their keys

`GROUP BY key ORDER BY key` over linearly ordered keys, one value for each group. The keys
of the result ascend strictly, so it is decided by its rows (`ascending_ext`); sums
over groups are sums over rows (`sum_orderedGroups`), and groups may be grouped again
(`orderedGroups_rollup`).

`floorTo` cuts the integers into buckets of one width; buckets of a width that divides
another, and whose origins fit, lie inside those of the other (`floorTo_floorTo`).
-/
namespace Amarillo.Core.Sql

variable {α β κ μ M : Type*}

/-- `SELECT key, agg … GROUP BY key ORDER BY key` -/
def orderedGroups [LinearOrder κ] (key : α → κ) (agg : List α → β) (xs : List α) : List (κ × β) :=
  ((groupBy key xs).map fun g => (g.1, agg g.2)).insertionSort fun a b => a.1 ≤ b.1

/-! ## Groups -/

section Groups
variable [DecidableEq κ] (key : α → κ)

theorem mem_groupBy {xs : List α} {g : κ × List α} :
    g ∈ groupBy key xs ↔ (∃ x ∈ xs, key x = g.1) ∧ g.2 = xs.filter fun x => decide (key x = g.1) := by
  obtain ⟨k, ys⟩ := g
  simp only [groupBy, List.mem_map, List.mem_dedup, Prod.mk.injEq]
  constructor
  · rintro ⟨k', hk', rfl, hys⟩
    exact ⟨hk', hys.symm⟩
  · rintro ⟨hk, hys⟩
    exact ⟨k, hk, rfl, hys.symm⟩

theorem nodup_groupBy (xs : List α) : ((groupBy key xs).map Prod.fst).Nodup := by
  rw [groupBy, List.map_map]
  exact (List.map_id _).symm ▸ List.nodup_dedup _

/-- A sum over rows of either of two kinds that exclude each other. -/
theorem sum_filter_or [AddCommMonoid M] (w : α → M) {p q : α → Bool} (xs : List α)
    (h : ∀ x ∈ xs, ¬(p x = true ∧ q x = true)) :
    ((xs.filter fun x => p x || q x).map w).sum =
      ((xs.filter p).map w).sum + ((xs.filter q).map w).sum := by
  induction xs with
  | nil => simp
  | cons x xs ih =>
    have hrest := ih fun y hy => h y (List.mem_cons_of_mem x hy)
    have hx := h x List.mem_cons_self
    cases hp : p x with
    | true =>
      have hq : q x = false := by simpa [hp] using hx
      simp only [List.filter_cons, hp, hq, Bool.or_false, if_true, Bool.false_eq_true, if_false,
        List.map_cons, List.sum_cons, hrest, add_assoc]
    | false =>
      cases hq : q x with
      | true =>
        simp only [List.filter_cons, hp, hq, Bool.or_true, if_true, Bool.false_eq_true, if_false,
          List.map_cons, List.sum_cons, hrest]
        exact add_left_comm _ _ _
      | false =>
        simp only [List.filter_cons, hp, hq, Bool.or_self, Bool.false_eq_true, if_false, hrest]

/-- The sums over the groups of some keys add up to the sum over their rows. -/
theorem sum_groups [AddCommMonoid M] (w : α → M) (xs : List α) {ks : List κ} (h : ks.Nodup) :
    (ks.map fun k => ((xs.filter fun x => decide (key x = k)).map w).sum).sum =
      ((xs.filter fun x => decide (key x ∈ ks)).map w).sum := by
  induction ks with
  | nil => simp
  | cons k ks ih =>
    obtain ⟨hk, hks⟩ := List.nodup_cons.mp h
    have hsplit := sum_filter_or w (p := fun x => decide (key x = k))
      (q := fun x => decide (key x ∈ ks)) xs fun x _ hx => hk (by
        obtain ⟨hxk, hxks⟩ := hx
        exact of_decide_eq_true hxk ▸ of_decide_eq_true hxks)
    rw [List.map_cons, List.sum_cons, ih hks, ← hsplit]
    simp only [List.mem_cons, Bool.decide_or]

theorem sum_groupBy [AddCommMonoid M] (w : α → M) (p : κ → Bool) (xs : List α) :
    (((groupBy key xs).filter fun g => p g.1).map fun g => (g.2.map w).sum).sum =
      ((xs.filter fun x => p (key x)).map w).sum := by
  rw [groupBy, List.filter_map, List.map_map]
  refine (sum_groups key w xs ((List.nodup_dedup (xs.map key)).filter p)).trans ?_
  congr 2
  refine List.filter_congr fun x hx => ?_
  have hkey : key x ∈ (xs.map key).dedup := List.mem_dedup.mpr (List.mem_map_of_mem hx)
  rw [Bool.eq_iff_iff, decide_eq_true_eq]
  exact List.mem_filter.trans (and_iff_right hkey)

end Groups

/-! ## In order -/

section Ordered
variable [LinearOrder κ] (key : α → κ) (agg : List α → β)

theorem orderedGroups_perm (xs : List α) :
    (orderedGroups key agg xs).Perm ((groupBy key xs).map fun g => (g.1, agg g.2)) :=
  List.perm_insertionSort _ _

theorem mem_orderedGroups {xs : List α} {g : κ × β} :
    g ∈ orderedGroups key agg xs ↔
      (∃ x ∈ xs, key x = g.1) ∧ g.2 = agg (xs.filter fun x => decide (key x = g.1)) := by
  rw [(orderedGroups_perm key agg xs).mem_iff, List.mem_map]
  constructor
  · rintro ⟨⟨k, ys⟩, hg, rfl⟩
    obtain ⟨hk, hys⟩ := (mem_groupBy key).mp hg
    exact ⟨hk, congrArg agg hys⟩
  · rintro ⟨hk, hagg⟩
    exact ⟨(g.1, xs.filter fun x => decide (key x = g.1)), (mem_groupBy key).mpr ⟨hk, rfl⟩,
      Prod.ext rfl hagg.symm⟩

theorem orderedGroups_ascending (xs : List α) :
    (orderedGroups key agg xs).Pairwise fun a b => a.1 < b.1 := by
  have hsorted : (orderedGroups key agg xs).Pairwise fun a b => a.1 ≤ b.1 := by
    have : Std.Total fun a b : κ × β => a.1 ≤ b.1 := ⟨fun a b => le_total a.1 b.1⟩
    have : IsTrans (κ × β) fun a b => a.1 ≤ b.1 := ⟨fun _ _ _ => le_trans⟩
    exact List.pairwise_insertionSort _ _
  have hnodup : (orderedGroups key agg xs).Pairwise fun a b => a.1 ≠ b.1 := by
    have h : ((orderedGroups key agg xs).map Prod.fst).Nodup := by
      rw [((orderedGroups_perm key agg xs).map Prod.fst).nodup_iff, List.map_map]
      exact nodup_groupBy key xs
    exact List.pairwise_map.mp h
  exact hsorted.imp₂ (fun a b hle hne => lt_of_le_of_ne hle hne) hnodup

/-- Rows in strictly ascending order are decided by their members. -/
theorem ascending_ext {l l' : List (κ × β)} (h : l.Pairwise fun a b => a.1 < b.1)
    (h' : l'.Pairwise fun a b => a.1 < b.1) (hmem : ∀ g, g ∈ l ↔ g ∈ l') : l = l' := by
  have hne {a b : κ × β} (hab : a.1 < b.1) : a ≠ b := fun e => hab.ne (congrArg Prod.fst e)
  have hperm : l.Perm l' :=
    (List.perm_ext_iff_of_nodup (h.imp hne) (h'.imp hne)).mpr hmem
  refine hperm.eq_of_pairwise ?_ h h'
  exact fun a b _ _ hab hba => absurd hba hab.not_gt

/-- Grouping rows that were computed from others. -/
theorem orderedGroups_map {ρ : Type*} (h : ρ → α) (xs : List ρ) :
    orderedGroups key agg (xs.map h) =
      orderedGroups (fun x => key (h x)) (fun ys => agg (ys.map h)) xs := by
  refine ascending_ext (orderedGroups_ascending _ _ _) (orderedGroups_ascending _ _ _) ?_
  intro g
  simp only [mem_orderedGroups, List.mem_map, exists_exists_and_eq_and, List.filter_map]
  rfl

/-- Rows are grouped apart when the keys of the first come before those of the others. -/
theorem orderedGroups_append {xs ys : List α} (h : ∀ x ∈ xs, ∀ y ∈ ys, key x < key y) :
    orderedGroups key agg (xs ++ ys) = orderedGroups key agg xs ++ orderedGroups key agg ys := by
  have hleft {k : κ} {x : α} (hx : x ∈ xs) (hk : key x = k) :
      ys.filter (fun y => decide (key y = k)) = [] :=
    List.filter_eq_nil_iff.mpr fun y hy => by
      rw [decide_eq_true_eq, ← hk]
      exact (h x hx y hy).ne'
  have hright {k : κ} {y : α} (hy : y ∈ ys) (hk : key y = k) :
      xs.filter (fun x => decide (key x = k)) = [] :=
    List.filter_eq_nil_iff.mpr fun x hx => by
      rw [decide_eq_true_eq, ← hk]
      exact (h x hx y hy).ne
  refine ascending_ext (orderedGroups_ascending _ _ _) ?_ ?_
  · refine List.pairwise_append.mpr
      ⟨orderedGroups_ascending _ _ _, orderedGroups_ascending _ _ _, ?_⟩
    intro a ha b hb
    obtain ⟨⟨x, hx, hxa⟩, -⟩ := (mem_orderedGroups key agg).mp ha
    obtain ⟨⟨y, hy, hyb⟩, -⟩ := (mem_orderedGroups key agg).mp hb
    exact hxa ▸ hyb ▸ h x hx y hy
  · intro g
    simp only [List.mem_append, mem_orderedGroups, List.filter_append]
    constructor
    · rintro ⟨⟨x, hx | hx, hk⟩, hagg⟩
      · rw [hleft hx hk, List.append_nil] at hagg
        exact .inl ⟨⟨x, hx, hk⟩, hagg⟩
      · rw [hright hx hk, List.nil_append] at hagg
        exact .inr ⟨⟨x, hx, hk⟩, hagg⟩
    · rintro (⟨⟨x, hx, hk⟩, hagg⟩ | ⟨⟨x, hx, hk⟩, hagg⟩)
      · exact ⟨⟨x, .inl hx, hk⟩, by rw [hleft hx hk, List.append_nil, hagg]⟩
      · exact ⟨⟨x, .inr hx, hk⟩, by rw [hright hx hk, List.nil_append, hagg]⟩

theorem orderedGroups_of_perm {xs ys : List α} (h : xs.Perm ys)
    (hagg : ∀ {zs zs' : List α}, zs.Perm zs' → agg zs = agg zs') :
    orderedGroups key agg xs = orderedGroups key agg ys := by
  refine ascending_ext (orderedGroups_ascending _ _ _) (orderedGroups_ascending _ _ _) fun g => ?_
  rw [mem_orderedGroups, mem_orderedGroups, hagg (h.filter _)]
  simp only [h.mem_iff]

theorem sum_orderedGroups [AddCommMonoid M] (w : α → M) (p : κ → Bool) (xs : List α) :
    (((orderedGroups key (fun ys => (ys.map w).sum) xs).filter fun g => p g.1).map Prod.snd).sum =
      ((xs.filter fun x => p (key x)).map w).sum := by
  have hperm := ((orderedGroups_perm key (fun ys => (ys.map w).sum) xs).filter fun g => p g.1).map Prod.snd
  rw [hperm.sum_eq, List.filter_map, List.map_map]
  exact sum_groupBy key w p xs

/-- Groups that are grouped again, by a key that the first key decides. -/
theorem orderedGroups_rollup [AddCommMonoid M] [LinearOrder μ] (w : α → M) (f : κ → μ) (xs : List α) :
    orderedGroups (fun g => f g.1) (fun gs => (gs.map Prod.snd).sum)
        (orderedGroups key (fun ys => (ys.map w).sum) xs) =
      orderedGroups (fun x => f (key x)) (fun ys => (ys.map w).sum) xs := by
  refine ascending_ext (orderedGroups_ascending _ _ _) (orderedGroups_ascending _ _ _) ?_
  rintro ⟨b, n⟩
  simp only [mem_orderedGroups]
  rw [sum_orderedGroups key w (fun k => decide (f k = b)) xs]
  refine and_congr_left fun _ => ⟨?_, ?_⟩
  · rintro ⟨g, ⟨⟨x, hx, hg⟩, -⟩, hb⟩
    exact ⟨x, hx, by rw [hg, hb]⟩
  · rintro ⟨x, hx, hb⟩
    exact ⟨(key x, ((xs.filter fun y => decide (key y = key x)).map w).sum), ⟨⟨x, hx, rfl⟩, rfl⟩, hb⟩

end Ordered

/-! ## Buckets of one width -/

/-- The start of the bucket that `t` lies in. -/
def floorTo (origin width t : Int) : Int := t - (t - origin) % width

section Floor
variable {origin width t b : Int}

theorem floorTo_eq_iff (hw : 0 < width) :
    floorTo origin width t = b ↔ width ∣ b - origin ∧ b ≤ t ∧ t < b + width := by
  have hlo := Int.emod_nonneg (t - origin) hw.ne'
  have hhi := Int.emod_lt_of_pos (t - origin) hw
  have hdvd : width ∣ t - (t - origin) % width - origin := by
    have h : width ∣ t - origin - (t - origin) % width := Int.dvd_self_sub_emod
    rwa [show t - origin - (t - origin) % width = t - (t - origin) % width - origin by ring] at h
  unfold floorTo
  constructor
  · rintro rfl
    exact ⟨hdvd, by omega, by omega⟩
  · rintro ⟨hb, hle, hlt⟩
    obtain ⟨m, hm⟩ := hdvd
    obtain ⟨n, hn⟩ := hb
    have hmn : m = n := by nlinarith
    subst hmn
    omega

theorem floorTo_floorTo {origin' width' : Int} (hw : 0 < width) (hw' : 0 < width')
    (hdvd : width ∣ width') (horigin : width ∣ origin' - origin) (t : Int) :
    floorTo origin' width' (floorTo origin width t) = floorTo origin' width' t := by
  obtain ⟨hb, hble, hblt⟩ := (floorTo_eq_iff hw).mp (rfl : floorTo origin width t = _)
  obtain ⟨hc, hcle, hclt⟩ := (floorTo_eq_iff hw').mp (rfl : floorTo origin' width' t = _)
  generalize floorTo origin width t = b at *
  generalize floorTo origin' width' t = c at *
  refine (floorTo_eq_iff hw').mpr ⟨hc, ?_, by omega⟩
  -- `c` is the start of a narrow bucket as well, so `t` is not in an earlier one
  have hnarrow : width ∣ c - origin := by
    have h := dvd_add (hdvd.trans hc) horigin
    rwa [show c - origin' + (origin' - origin) = c - origin by ring] at h
  obtain ⟨m, hm⟩ := hnarrow
  obtain ⟨n, hn⟩ := hb
  have hmn : m ≤ n := by nlinarith
  nlinarith

end Floor
end Amarillo.Core.Sql
