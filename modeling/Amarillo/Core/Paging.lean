import Mathlib

/-!
# `ORDER BY`, `LIMIT`, `OFFSET`

`OrderBy key` is what a database may do with `ORDER BY key`: the rows come sorted,
and rows with equal keys in any order. Two requests need not agree on it.

`InTie rows n` says that position `n` lies inside a run of equal keys. Elsewhere
the first `n` rows are the same in every order (`take_of_not_inTie`), so pages that
each request sorts anew fit together (`pages_perm`); inside a tie two orders exist
whose pages do not (`exists_pages_not_perm`). `pages_perm_iff` puts both together.
-/
namespace Amarillo.Core
open scoped List

variable {α κ : Type*} [LinearOrder κ]

structure OrderBy (key : α → κ) where
  sort : List α → List α
  perm : ∀ rows, (sort rows).Perm rows
  sorted : ∀ rows, (sort rows).Pairwise fun a b => key a ≤ key b

/-- A stable sort. -/
def OrderBy.stable (key : α → κ) : OrderBy key where
  sort rows := rows.insertionSort fun a b => key a ≤ key b
  perm := List.perm_insertionSort _
  sorted rows :=
    have : Std.Total fun a b : α => key a ≤ key b := ⟨fun a b => le_total (key a) (key b)⟩
    have : IsTrans α fun a b : α => key a ≤ key b := ⟨fun _ _ _ => le_trans⟩
    List.pairwise_insertionSort _ rows

/-- The order that gives `rows` as `sorted`. -/
def OrderBy.update [DecidableEq α] {key : α → κ} (o : OrderBy key) {rows sorted : List α}
    (hperm : sorted.Perm rows) (hsorted : sorted.Pairwise fun a b => key a ≤ key b) :
    OrderBy key where
  sort l := if l = rows then sorted else o.sort l
  perm l := by
    split
    · rename_i h
      exact h ▸ hperm
    · exact o.perm l
  sorted l := by
    split
    · exact hsorted
    · exact o.sorted l

theorem OrderBy.update_sort [DecidableEq α] {key : α → κ} (o : OrderBy key) {rows sorted : List α}
    (hperm : sorted.Perm rows) (hsorted : sorted.Pairwise fun a b => key a ≤ key b) :
    (o.update hperm hsorted).sort rows = sorted := if_pos rfl

variable (key : α → κ)

/-- The number of rows that sort before `k`. -/
def below (rows : List α) (k : κ) : Nat := rows.countP fun r => decide (key r < k)

/-- The number of rows that sort before or with `k`. -/
def upTo (rows : List α) (k : κ) : Nat := rows.countP fun r => decide (key r ≤ k)

/-- Rows with equal keys stand on both sides of position `n`. -/
def InTie (rows : List α) (n : Nat) : Prop :=
  ∃ r ∈ rows, below key rows (key r) < n ∧ n < upTo key rows (key r)

instance (rows : List α) (n : Nat) : Decidable (InTie key rows n) :=
  inferInstanceAs (Decidable (∃ r ∈ rows, _))

section Cut
variable {key} {rows : List α} {n : Nat}

theorem below_perm {a b : List α} (h : a.Perm b) (k : κ) : below key a k = below key b k :=
  h.countP_eq _

theorem upTo_perm {a b : List α} (h : a.Perm b) (k : κ) : upTo key a k = upTo key b k :=
  h.countP_eq _

theorem below_append (a b : List α) (k : κ) : below key (a ++ b) k = below key a k + below key b k :=
  List.countP_append

theorem upTo_append (a b : List α) (k : κ) : upTo key (a ++ b) k = upTo key a k + upTo key b k :=
  List.countP_append

theorem below_eq_zero {l : List α} {k : κ} (h : ∀ r ∈ l, k ≤ key r) : below key l k = 0 :=
  List.countP_eq_zero.mpr fun r hr => by simpa using h r hr

theorem upTo_eq_zero {l : List α} {k : κ} (h : ∀ r ∈ l, k < key r) : upTo key l k = 0 :=
  List.countP_eq_zero.mpr fun r hr => by simpa using h r hr

theorem below_eq_length {l : List α} {k : κ} (h : ∀ r ∈ l, key r < k) : below key l k = l.length :=
  List.countP_eq_length.mpr fun r hr => by simpa using h r hr

theorem upTo_eq_length {l : List α} {k : κ} (h : ∀ r ∈ l, key r ≤ k) : upTo key l k = l.length :=
  List.countP_eq_length.mpr fun r hr => by simpa using h r hr

theorem le_of_mem_take_drop (o : OrderBy key) {x y : α} (hx : x ∈ (o.sort rows).take n)
    (hy : y ∈ (o.sort rows).drop n) : key x ≤ key y := by
  have h := o.sorted rows
  rw [← List.take_append_drop n (o.sort rows), List.pairwise_append] at h
  exact h.2.2 x hx y hy

/-- Outside a tie the first `n` rows do not depend on the order. -/
theorem take_of_not_inTie (o : OrderBy key) (h : ¬InTie key rows n) :
    (o.sort rows).take n = (o.sort rows).filter fun r => decide (upTo key rows (key r) ≤ n) := by
  have hsplit := List.take_append_drop n (o.sort rows)
  have hbelow (k : κ) : below key rows k =
      below key ((o.sort rows).take n) k + below key ((o.sort rows).drop n) k := by
    rw [← below_append, hsplit, below_perm (o.perm rows)]
  have hupTo (k : κ) : upTo key rows k =
      upTo key ((o.sort rows).take n) k + upTo key ((o.sort rows).drop n) k := by
    rw [← upTo_append, hsplit, upTo_perm (o.perm rows)]
  have hfirst : ∀ x ∈ (o.sort rows).take n, upTo key rows (key x) ≤ n := by
    intro x hx
    by_contra hlt
    have hmem : x ∈ rows := (o.perm rows).mem_iff.mp (List.mem_of_mem_take hx)
    have hge : n ≤ below key rows (key x) := not_lt.mp fun hb => h ⟨x, hmem, hb, not_le.mp hlt⟩
    rw [hbelow, below_eq_zero fun y hy => le_of_mem_take_drop o hx hy, Nat.add_zero] at hge
    -- so all of the first rows sort before `x`, which is one of them
    have hall : below key ((o.sort rows).take n) (key x) = ((o.sort rows).take n).length :=
      Nat.le_antisymm List.countP_le_length ((List.length_take_le _ _).trans hge)
    have := List.countP_eq_length.mp hall x hx
    simp at this
  have hlast : ∀ y ∈ (o.sort rows).drop n, ¬upTo key rows (key y) ≤ n := by
    intro y hy
    have hlen : ((o.sort rows).take n).length = n := by
      have := List.length_pos_of_mem hy
      rw [List.length_drop] at this
      rw [List.length_take]
      omega
    have hpos : 0 < upTo key ((o.sort rows).drop n) (key y) :=
      List.countP_pos_iff.mpr ⟨y, hy, by simp⟩
    rw [hupTo, upTo_eq_length fun x hx => le_of_mem_take_drop o hx hy, hlen]
    omega
  conv_rhs => rw [← hsplit]
  rw [List.filter_append, List.filter_eq_self.mpr fun x hx => decide_eq_true (hfirst x hx),
    List.filter_eq_nil_iff.mpr fun y hy => by simpa using hlast y hy, List.append_nil]

theorem not_inTie_of_length_le (h : rows.length ≤ n) : ¬InTie key rows n := by
  rintro ⟨r, -, -, hhi⟩
  have := hhi.trans_le List.countP_le_length
  omega

theorem take_perm (o o' : OrderBy key) (h : ¬InTie key rows n) :
    ((o.sort rows).take n).Perm ((o'.sort rows).take n) := by
  rw [take_of_not_inTie o h, take_of_not_inTie o' h]
  exact ((o.perm rows).trans (o'.perm rows).symm).filter _

/-- Inside a tie the rows on both sides have equal keys. -/
theorem exists_split_of_inTie (o : OrderBy key) (h : InTie key rows n) :
    ∃ x y l l', o.sort rows = l ++ x :: y :: l' ∧ l.length + 1 = n ∧ key x = key y := by
  obtain ⟨r, -, hlo, hhi⟩ := h
  rw [← below_perm (o.perm rows)] at hlo
  rw [← upTo_perm (o.perm rows)] at hhi
  have hlen : n < (o.sort rows).length := hhi.trans_le List.countP_le_length
  obtain ⟨m, rfl⟩ : ∃ m, n = m + 1 := ⟨n - 1, by omega⟩
  have hsplit : o.sort rows = (o.sort rows).take m ++
      (o.sort rows)[m] :: (o.sort rows)[m + 1] :: (o.sort rows).drop (m + 2) := by
    rw [← List.drop_eq_getElem_cons hlen, ← List.drop_eq_getElem_cons (by omega),
      List.take_append_drop]
  have hsorted := o.sorted rows
  generalize (o.sort rows)[m] = x, (o.sort rows)[m + 1] = y at hsplit
  have hlength : ((o.sort rows).take m).length = m := by
    rw [List.length_take]
    omega
  generalize (o.sort rows).take m = l, (o.sort rows).drop (m + 2) = l' at hsplit hlength
  rw [hsplit] at hlo hhi hsorted ⊢
  refine ⟨x, y, l, l', rfl, by omega, ?_⟩
  obtain ⟨-, htail, hcross⟩ := List.pairwise_append.mp hsorted
  have hxy : key x ≤ key y := (List.pairwise_cons.mp htail).1 y (by simp)
  have hrx : key r ≤ key x := by
    by_contra hlt
    have hl : ∀ a ∈ l, key a < key r := fun a ha =>
      (hcross a ha x (by simp)).trans_lt (not_le.mp hlt)
    rw [below_append, below_eq_length hl, below, List.countP_cons,
      if_pos (decide_eq_true (not_le.mp hlt))] at hlo
    omega
  have hyr : key y ≤ key r := by
    by_contra hlt
    have hl' : ∀ a ∈ y :: l', key r < key a := by
      intro a ha
      rcases List.mem_cons.mp ha with rfl | ha
      · exact not_le.mp hlt
      · exact (not_le.mp hlt).trans_le
          ((List.pairwise_cons.mp (List.pairwise_cons.mp htail).2).1 a ha)
    have : upTo key (l ++ [x]) (key r) ≤ (l ++ [x]).length := List.countP_le_length
    rw [show l ++ x :: y :: l' = (l ++ [x]) ++ y :: l' by simp, upTo_append,
      upTo_eq_zero hl'] at hhi
    rw [List.length_append, List.length_singleton] at this
    omega
  exact le_antisymm hxy (hyr.trans hrx)

/-- Inside a tie two orders differ in the rows at the cut, and nowhere else. -/
theorem exists_swap_of_inTie [DecidableEq α] (h : InTie key rows n) :
    ∃ (o o' : OrderBy key) (x y : α) (l l' : List α), o.sort rows = l ++ x :: y :: l' ∧
      o'.sort rows = l ++ y :: x :: l' ∧ l.length + 1 = n := by
  obtain ⟨x, y, l, l', hsort, hlen, hxy⟩ := exists_split_of_inTie (OrderBy.stable key) h
  have hperm : (l ++ y :: x :: l').Perm rows := by
    refine .trans ?_ ((OrderBy.stable key).perm rows)
    rw [hsort]
    exact (List.Perm.swap x y l').append_left l
  have hsorted : (l ++ y :: x :: l').Pairwise fun a b => key a ≤ key b := by
    have hs := (OrderBy.stable key).sorted rows
    rw [hsort] at hs
    rw [← List.pairwise_map (f := key) (R := (· ≤ ·))] at hs ⊢
    simpa [hxy] using hs
  exact ⟨OrderBy.stable key, (OrderBy.stable key).update hperm hsorted, x, y, l, l', hsort,
    OrderBy.update_sort _ hperm hsorted, hlen⟩

/-- Different keys leave one order. -/
theorem sort_eq_of_inj (o o' : OrderBy key)
    (hinj : ∀ a ∈ rows, ∀ b ∈ rows, key a = key b → a = b) : o.sort rows = o'.sort rows := by
  refine ((o.perm rows).trans (o'.perm rows).symm).eq_of_pairwise ?_ (o.sorted rows) (o'.sorted rows)
  intro a b ha hb hab hba
  exact hinj a ((o.perm rows).mem_iff.mp ha) b ((o'.perm rows).mem_iff.mp hb) (le_antisymm hab hba)

theorem below_map {β : Type*} (f : β → α) (rows : List β) (k : κ) :
    below key (rows.map f) k = below (key ∘ f) rows k := List.countP_map

theorem upTo_map {β : Type*} (f : β → α) (rows : List β) (k : κ) :
    upTo key (rows.map f) k = upTo (key ∘ f) rows k := List.countP_map

theorem below_congr {key' : α → κ} (h : ∀ r ∈ rows, key r = key' r) (k : κ) :
    below key rows k = below key' rows k := List.countP_congr fun r hr => by rw [h r hr]

theorem upTo_congr {key' : α → κ} (h : ∀ r ∈ rows, key r = key' r) (k : κ) :
    upTo key rows k = upTo key' rows k := List.countP_congr fun r hr => by rw [h r hr]

theorem inTie_perm {rows' : List α} (h : rows.Perm rows') : InTie key rows n ↔ InTie key rows' n := by
  simp only [InTie, below_perm h, upTo_perm h, h.mem_iff]

theorem inTie_map {β : Type*} (f : β → α) (rows : List β) :
    InTie key (rows.map f) n ↔ InTie (key ∘ f) rows n := by
  simp [InTie, below_map, upTo_map]

theorem inTie_congr {key' : α → κ} (h : ∀ r ∈ rows, key r = key' r) :
    InTie key rows n ↔ InTie key' rows n := by
  unfold InTie
  refine exists_congr fun r => and_congr_right fun hr => ?_
  rw [below_congr h, upTo_congr h, h r hr]

end Cut

/-! ## Pages -/

/-- `LIMIT limit OFFSET offset` -/
def limitOffset (limit offset : Nat) (rows : List α) : List α := (rows.drop offset).take limit

theorem limitOffset_sublist (limit offset : Nat) (rows : List α) :
    (limitOffset limit offset rows).Sublist rows :=
  (List.take_sublist _ _).trans (List.drop_sublist _ _)

theorem mem_of_mem_limitOffset {limit offset : Nat} {rows : List α} {a : α}
    (h : a ∈ limitOffset limit offset rows) : a ∈ rows :=
  (limitOffset_sublist limit offset rows).subset h

/-- A row that misses the first page has a full page before it. -/
theorem length_firstPage_of_notMem {key : α → κ} (o : OrderBy key) {rows : List α} {limit : Nat}
    {a : α} (ha : a ∈ rows) (hnot : a ∉ limitOffset limit 0 (o.sort rows)) :
    (limitOffset limit 0 (o.sort rows)).length = limit := by
  have hmem : a ∈ o.sort rows := (o.perm rows).mem_iff.mpr ha
  rw [limitOffset, List.drop_zero] at hnot ⊢
  rw [List.length_take, min_eq_left]
  by_contra hlt
  rw [List.take_of_length_le (by omega)] at hnot
  exact hnot hmem

/-- Where keys differ, a row of the first page stays on it when other rows go. -/
theorem mem_firstPage_of_subset {key : α → κ} (o o' : OrderBy key) {rows rows' : List α} {limit : Nat}
    (hnodup : rows'.Nodup) (hsub : rows' ⊆ rows)
    (hinj : ∀ a ∈ rows, ∀ b ∈ rows, key a = key b → a = b) {a : α}
    (ha : a ∈ limitOffset limit 0 (o.sort rows)) (ha' : a ∈ rows') :
    a ∈ limitOffset limit 0 (o'.sort rows') := by
  by_contra hnot
  have hlen := length_firstPage_of_notMem o' ha' hnot
  have harows := mem_of_mem_limitOffset ha
  rw [limitOffset, List.drop_zero] at ha hnot hlen
  have hdrop : a ∈ (o'.sort rows').drop limit := by
    have hmem : a ∈ o'.sort rows' := (o'.perm rows').mem_iff.mpr ha'
    rw [← List.take_append_drop limit (o'.sort rows')] at hmem
    exact (List.mem_append.mp hmem).resolve_left hnot
  -- the full page stood before `a`, and with `a` it is too long
  have hbefore : (o'.sort rows').take limit ⊆ (o.sort rows).take limit := by
    intro x hx
    have hxrows : x ∈ rows := hsub ((o'.perm rows').mem_iff.mp (List.mem_of_mem_take hx))
    have hne : x ≠ a := fun e => hnot (e ▸ hx)
    by_contra hout
    have hlast : x ∈ (o.sort rows).drop limit := by
      have hmem : x ∈ o.sort rows := (o.perm rows).mem_iff.mpr hxrows
      rw [← List.take_append_drop limit (o.sort rows)] at hmem
      exact (List.mem_append.mp hmem).resolve_left hout
    have hle := le_of_mem_take_drop o' hx hdrop
    have hge := le_of_mem_take_drop o ha hlast
    exact hne (hinj x hxrows a ((o.perm rows).mem_iff.mp harows) (le_antisymm hle hge))
  have hpage : (a :: (o'.sort rows').take limit).Nodup :=
    List.nodup_cons.mpr ⟨hnot, ((o'.perm rows').nodup_iff.mpr hnodup).sublist (List.take_sublist _ _)⟩
  have hlong := (hpage.subperm (List.cons_subset.mpr ⟨ha, hbefore⟩)).length_le
  rw [List.length_cons, hlen, List.length_take] at hlong
  omega

/-- Number of pages of length `L`. -/
def pageCount (L total : Nat) : Nat := (total + L - 1) / L

/-- The first `m` pages, each of its own request. -/
def pages (orders : Nat → OrderBy key) (L : Nat) (rows : List α) (m : Nat) : List α :=
  (List.range m).flatMap fun k => limitOffset L (k * L) ((orders k).sort rows)

section Pages
variable {key} {rows : List α} {orders : Nat → OrderBy key} {L : Nat}

@[simp] theorem pages_zero : pages key orders L rows 0 = [] := rfl

theorem pages_succ (m : Nat) : pages key orders L rows (m + 1) =
    pages key orders L rows m ++ limitOffset L (m * L) ((orders m).sort rows) := by
  simp [pages, List.range_succ]

theorem length_le_pageCount_mul (hL : 0 < L) (n : Nat) : n ≤ pageCount L n * L := by
  have h := Nat.lt_div_mul_add (a := n + L - 1) hL
  unfold pageCount
  omega

theorem lt_pageCount {k n : Nat} (hL : 0 < L) (h : k * L < n) : k < pageCount L n := by
  rw [pageCount, Nat.lt_div_iff_mul_lt hL]
  omega

theorem take_add_limitOffset (l : List α) (m : Nat) :
    l.take (m * L) ++ limitOffset L (m * L) l = l.take ((m + 1) * L) := by
  rw [limitOffset, Nat.succ_mul, List.take_add]

/-- No boundary inside a tie: every page continues what the earlier ones gave. -/
theorem pages_perm_take (orders : Nat → OrderBy key) (h : ∀ k, ¬InTie key rows (k * L)) (m : Nat)
    (o : OrderBy key) :
    (pages key orders L rows m).Perm ((o.sort rows).take (m * L)) := by
  induction m generalizing o with
  | zero => simp
  | succ m ih =>
    rw [pages_succ]
    calc pages key orders L rows m ++ limitOffset L (m * L) ((orders m).sort rows)
        ~ ((orders m).sort rows).take (m * L) ++ limitOffset L (m * L) ((orders m).sort rows) :=
          (ih (orders m)).append_right _
      _ = ((orders m).sort rows).take ((m + 1) * L) := take_add_limitOffset _ m
      _ ~ (o.sort rows).take ((m + 1) * L) := take_perm _ _ (h (m + 1))

theorem pages_perm (hL : 0 < L) (h : ∀ k, ¬InTie key rows (k * L)) :
    (pages key orders L rows (pageCount L rows.length)).Perm rows := by
  have hp := pages_perm_take orders h (pageCount L rows.length) (orders 0)
  rw [List.take_of_length_le] at hp
  · exact hp.trans ((orders 0).perm rows)
  · rw [((orders 0).perm rows).length_eq]
    exact length_le_pageCount_mul hL _

/-- Requests that agree on the order. -/
theorem pages_of_agree (orders : Nat → OrderBy key) {o : OrderBy key} {k : Nat} (m : Nat)
    (h : ∀ j, k ≤ j → j < k + m → orders j = o) : pages key orders L rows (k + m) =
      pages key orders L rows k ++ ((o.sort rows).drop (k * L)).take (m * L) := by
  induction m with
  | zero => simp
  | succ m ih =>
    rw [← Nat.add_assoc, pages_succ, ih fun j hj hj' => h j hj (by omega), h (k + m) (by omega)
      (by omega), List.append_assoc, Nat.succ_mul, List.take_add, limitOffset, List.drop_drop,
      Nat.add_mul]

/-- With different keys the pages are the rows in order. -/
theorem pages_of_inj (hL : 0 < L) (o : OrderBy key)
    (hinj : ∀ a ∈ rows, ∀ b ∈ rows, key a = key b → a = b) :
    pages key orders L rows (pageCount L rows.length) = o.sort rows := by
  have hsame : pages key orders L rows (pageCount L rows.length) =
      pages key (fun _ => o) L rows (pageCount L rows.length) := by
    unfold pages
    simp only [sort_eq_of_inj _ o hinj]
  have hall : pages key (fun _ => o) L rows (0 + pageCount L rows.length) = _ :=
    pages_of_agree _ _ fun _ _ _ => rfl
  rw [Nat.zero_add, Nat.zero_mul, List.drop_zero, pages_zero, List.nil_append] at hall
  rw [hsame, hall]
  refine List.take_of_length_le ?_
  rw [(o.perm rows).length_eq]
  exact length_le_pageCount_mul hL _

/-- A boundary inside a tie: the database may swap the two rows at it between the
requests, and the first of them comes twice. -/
theorem exists_pages_not_perm [DecidableEq α] (hL : 0 < L) (hnodup : rows.Nodup) {k : Nat}
    (h : InTie key rows (k * L)) :
    ∃ orders : Nat → OrderBy key,
      ¬(pages key orders L rows (pageCount L rows.length)).Perm rows := by
  obtain ⟨o, swapped, x, y, l, l', hsort, hswap, hlen⟩ := exists_swap_of_inTie h
  refine ⟨fun j => if j < k then o else swapped, fun hp => ?_⟩
  have hlt : k * L < rows.length := by
    obtain ⟨r, -, -, hhi⟩ := h
    exact hhi.trans_le List.countP_le_length
  have hk := lt_pageCount hL hlt
  generalize horders : (fun j => if j < k then o else swapped) = orders at hp
  have hfirst : pages key orders L rows (0 + k) = pages key orders L rows 0 ++
      ((o.sort rows).drop (0 * L)).take (k * L) := by
    refine pages_of_agree orders k fun j _ hj => ?_
    rw [← horders]
    exact if_pos (by omega)
  have hrest : pages key orders L rows (k + (pageCount L rows.length - k)) =
      pages key orders L rows k ++
        ((swapped.sort rows).drop (k * L)).take ((pageCount L rows.length - k) * L) := by
    refine pages_of_agree orders _ fun j hj _ => ?_
    rw [← horders]
    exact if_neg (by omega)
  rw [Nat.zero_add, pages_zero, List.nil_append, Nat.zero_mul, List.drop_zero, hsort] at hfirst
  rw [Nat.add_sub_cancel' hk.le, hfirst, hswap] at hrest
  have hx : x ∈ (l ++ x :: y :: l').take (k * L) := by
    rw [← hlen, show l ++ x :: y :: l' = (l ++ [x]) ++ y :: l' by simp,
      List.take_left' (by simp)]
    simp
  have hx' : x ∈ ((l ++ y :: x :: l').drop (k * L)).take ((pageCount L rows.length - k) * L) := by
    rw [← hlen, show l ++ y :: x :: l' = (l ++ [y]) ++ x :: l' by simp,
      List.drop_left' (by simp)]
    have : 0 < (pageCount L rows.length - k) * L := Nat.mul_pos (by omega) hL
    obtain ⟨c, hc⟩ := Nat.exists_eq_add_one_of_ne_zero this.ne'
    rw [hc, List.take_succ_cons]
    exact List.mem_cons_self
  have hnd := hp.nodup_iff.mpr hnodup
  rw [hrest, List.nodup_append] at hnd
  exact hnd.2.2 x hx x hx' rfl

theorem pages_perm_iff [DecidableEq α] (hL : 0 < L) (hnodup : rows.Nodup) :
    (∀ orders : Nat → OrderBy key, (pages key orders L rows (pageCount L rows.length)).Perm rows) ↔
      ∀ k, ¬InTie key rows (k * L) := by
  constructor
  · intro hall k htie
    obtain ⟨orders, hnot⟩ := exists_pages_not_perm hL hnodup htie
    exact hnot (hall orders)
  · exact fun h orders => pages_perm hL h

end Pages

end Amarillo.Core
