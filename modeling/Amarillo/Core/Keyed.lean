import Mathlib

/-!
# Tables with a unique key

A table is a list of rows, in insertion order, with a key. `insertRow` is one
row of `INSERT … ON CONFLICT (key) DO NOTHING` and `insertNew` a whole
statement: a row whose key is taken is skipped, also when an earlier row of
the same statement took it.

Read through `lookup`, a table is a partial function from keys to rows, and
`insertNew` is the left-biased union (`lookup_insertNew`): what was there
first stays. Replaying a statement and swapping two statements that share no
key are then facts about `Option.or`. `perm_of_lookup` goes back: two tables
with unique keys that agree under `lookup` hold the same rows.

`Table` is the list with its uniqueness, so a table with a repeated key cannot
be built; `Table.get` and the operations on it are what a model uses. A
`Serial` table numbers its rows itself, as an identity column does: ids ascend
in insertion order and stay below the next one.
-/
namespace Amarillo.Core

variable {α κ : Type*} [DecidableEq κ] (key : α → κ)

/-- The row with key `k`. -/
def lookup (k : κ) (t : List α) : Option α := t.find? fun r => decide (key r = k)

/-- No two rows share a key. -/
def UniqueKeys (t : List α) : Prop := (t.map key).Nodup

def insertRow (t : List α) (r : α) : List α := if (lookup key (key r) t).isSome then t else t ++ [r]

def insertNew (t rows : List α) : List α := rows.foldl (insertRow key) t

@[simp] theorem insertNew_nil (t : List α) : insertNew key t [] = t := rfl

@[simp] theorem insertNew_cons (t : List α) (r : α) (rs : List α) :
    insertNew key t (r :: rs) = insertNew key (insertRow key t r) rs := rfl

theorem insertNew_append (t a b : List α) :
    insertNew key t (a ++ b) = insertNew key (insertNew key t a) b := by
  simp [insertNew, List.foldl_append]

/-! ## `lookup` -/

theorem lookup_append (k : κ) (a b : List α) :
    lookup key k (a ++ b) = (lookup key k a).or (lookup key k b) := by
  simp [lookup, List.find?_append]

theorem lookup_cons (k : κ) (r : α) (t : List α) :
    lookup key k (r :: t) = if key r = k then some r else lookup key k t := by
  by_cases h : key r = k <;> simp [lookup, h]

theorem lookup_key {k : κ} {t : List α} {r : α} (h : lookup key k t = some r) : key r = k := by
  simpa using List.find?_some h

theorem lookup_mem {k : κ} {t : List α} {r : α} (h : lookup key k t = some r) : r ∈ t :=
  List.mem_of_find?_eq_some h

theorem lookup_eq_none {k : κ} {t : List α} : lookup key k t = none ↔ ∀ r ∈ t, key r ≠ k := by
  simp [lookup]

theorem lookup_isSome {k : κ} {t : List α} : (lookup key k t).isSome ↔ ∃ r ∈ t, key r = k := by
  simp [lookup]

theorem lookup_of_mem {t : List α} (hu : UniqueKeys key t) {r : α} (h : r ∈ t) :
    lookup key (key r) t = some r := by
  induction t with
  | nil => cases h
  | cons x t ih =>
    simp only [UniqueKeys, List.map_cons, List.nodup_cons, List.mem_map, not_exists, not_and] at hu
    rw [lookup_cons]
    rcases List.mem_cons.mp h with rfl | h
    · simp
    · rw [if_neg fun e => hu.1 r h e.symm]
      exact ih hu.2 h

theorem mem_iff_lookup {t : List α} (hu : UniqueKeys key t) (r : α) :
    r ∈ t ↔ lookup key (key r) t = some r :=
  ⟨lookup_of_mem key hu, lookup_mem key⟩

/-! ## `insertNew` as left-biased union -/

theorem lookup_insertRow (k : κ) (t : List α) (r : α) :
    lookup key k (insertRow key t r) = (lookup key k t).or (lookup key k [r]) := by
  unfold insertRow
  split
  · rename_i h
    by_cases hk : key r = k
    · subst hk
      obtain ⟨x, hx⟩ := Option.isSome_iff_exists.mp h
      simp [hx]
    · simp [lookup, hk]
  · rw [lookup_append]

theorem lookup_insertNew (k : κ) (t rows : List α) :
    lookup key k (insertNew key t rows) = (lookup key k t).or (lookup key k rows) := by
  induction rows generalizing t with
  | nil => simp [lookup]
  | cons r rs ih =>
    rw [insertNew_cons, ih, lookup_insertRow, Option.or_assoc]
    congr 1
    rw [← lookup_append]
    rfl

theorem mem_insertNew {t rows : List α} {x : α} (h : x ∈ insertNew key t rows) :
    x ∈ t ∨ x ∈ rows := by
  induction rows generalizing t with
  | nil => exact .inl h
  | cons r rs ih =>
    rcases ih h with h | h
    · unfold insertRow at h
      split at h
      · exact .inl h
      · simp only [List.mem_append, List.mem_singleton] at h
        rcases h with h | rfl
        · exact .inl h
        · exact .inr List.mem_cons_self
    · exact .inr (List.mem_cons_of_mem _ h)

theorem insertRow_extends (t : List α) (r : α) : t <+: insertRow key t r := by
  unfold insertRow
  split
  · exact List.prefix_rfl
  · exact List.prefix_append t [r]

theorem insertNew_extends (t rows : List α) : t <+: insertNew key t rows := by
  induction rows generalizing t with
  | nil => exact List.prefix_rfl
  | cons r rs ih => exact (insertRow_extends key t r).trans (ih _)

/-- Every key of the statement is present afterwards. -/
theorem key_mem_insertNew (t : List α) {rows : List α} {r : α} (h : r ∈ rows) :
    ∃ x ∈ insertNew key t rows, key x = key r := by
  rw [← lookup_isSome, lookup_insertNew, Option.isSome_or, Bool.or_eq_true, lookup_isSome,
    lookup_isSome]
  exact .inr ⟨r, h, rfl⟩

theorem uniqueKeys_insertRow {t : List α} (h : UniqueKeys key t) (r : α) :
    UniqueKeys key (insertRow key t r) := by
  unfold insertRow
  split
  · exact h
  · rename_i hn
    rw [lookup_isSome] at hn
    simp only [UniqueKeys, List.map_append, List.map_cons, List.map_nil, List.nodup_append,
      List.nodup_cons, List.not_mem_nil, not_false_eq_true, List.nodup_nil, and_true, true_and,
      List.mem_map, List.mem_singleton]
    refine ⟨h, ?_⟩
    rintro _ ⟨x, hx, rfl⟩ _ rfl e
    exact hn ⟨x, hx, e⟩

theorem uniqueKeys_insertNew {t : List α} (h : UniqueKeys key t) (rows : List α) :
    UniqueKeys key (insertNew key t rows) := by
  induction rows generalizing t with
  | nil => exact h
  | cons r rs ih => exact ih (uniqueKeys_insertRow key h r)

omit [DecidableEq κ] in
theorem uniqueKeys_filter {t : List α} (h : UniqueKeys key t) (p : α → Bool) :
    UniqueKeys key (t.filter p) :=
  (List.Sublist.map key List.filter_sublist).nodup h

omit [DecidableEq κ] in
/-- A partial map that keeps the key. -/
theorem uniqueKeys_filterMap {β : Type*} {key' : β → κ} {f : α → Option β}
    (hf : ∀ a b, f a = some b → key' b = key a) {t : List α} (h : UniqueKeys key t) :
    UniqueKeys key' (t.filterMap f) := by
  refine List.Sublist.nodup ?_ h
  clear h
  induction t with
  | nil => exact .slnil
  | cons a t ih =>
    rw [List.filterMap_cons, List.map_cons]
    cases hb : f a with
    | none => exact ih.cons _
    | some b =>
      rw [← hf a b hb]
      exact ih.cons_cons _

/-- Tables with unique keys that agree under `lookup` hold the same rows. -/
theorem perm_of_lookup {t t' : List α} (h : UniqueKeys key t) (h' : UniqueKeys key t')
    (he : ∀ k, lookup key k t = lookup key k t') : t.Perm t' := by
  refine (List.perm_ext_iff_of_nodup (List.Nodup.of_map key h) (List.Nodup.of_map key h')).mpr ?_
  intro r
  rw [mem_iff_lookup key h, mem_iff_lookup key h', he]

theorem lookup_filter {t : List α} (h : UniqueKeys key t) (p : α → Bool) (k : κ) :
    lookup key k (t.filter p) = (lookup key k t).filter p := by
  induction t with
  | nil => rfl
  | cons r t ih =>
    have ht : UniqueKeys key t := (List.nodup_cons.mp h).2
    have hr : ∀ x ∈ t, key x ≠ key r := fun x hx e =>
      (List.nodup_cons.mp h).1 (List.mem_map.mpr ⟨x, hx, e⟩)
    rw [lookup_cons]
    by_cases hp : p r = true
    · rw [List.filter_cons_of_pos hp, lookup_cons, ih ht]
      split
      · rw [Option.filter_some, if_pos hp]
      · rfl
    · rw [List.filter_cons_of_neg hp, ih ht]
      split
      · rename_i hk
        subst hk
        rw [(lookup_eq_none key).mpr hr, Option.filter_some, if_neg hp]
        rfl
      · rfl

theorem lookup_map (k : κ) {f : α → α} (hf : ∀ a, key (f a) = key a) (t : List α) :
    lookup key k (t.map f) = (lookup key k t).map f := by
  induction t with
  | nil => rfl
  | cons a t ih =>
    rw [List.map_cons, lookup_cons, lookup_cons, hf, ih]
    split <;> rfl

/-- A partial map that keeps the key. -/
theorem lookup_filterMap {β : Type*} (key' : β → κ) {f : α → Option β}
    (hf : ∀ a b, f a = some b → key' b = key a) {t : List α} (h : UniqueKeys key t) (k : κ) :
    lookup key' k (t.filterMap f) = (lookup key k t).bind f := by
  induction t with
  | nil => rfl
  | cons r t ih =>
    have ht : UniqueKeys key t := (List.nodup_cons.mp h).2
    have hr : ∀ x ∈ t, key x ≠ key r := fun x hx e =>
      (List.nodup_cons.mp h).1 (List.mem_map.mpr ⟨x, hx, e⟩)
    rw [lookup_cons, List.filterMap_cons]
    cases hfr : f r with
    | none =>
      simp only
      rw [ih ht]
      split
      · rename_i hk
        subst hk
        rw [(lookup_eq_none key).mpr hr]
        simp [hfr]
      · rfl
    | some b =>
      simp only
      rw [lookup_cons, ih ht, hf r b hfr]
      split <;> simp [hfr]

/-! ## Tables -/

structure Table {α κ : Type*} (key : α → κ) where
  rows : List α
  unique : UniqueKeys key rows

namespace Table
variable {key : α → κ}

instance [DecidableEq α] : DecidableEq (Table key) := fun a b =>
  decidable_of_iff (a.rows = b.rows) ⟨fun h => by cases a; cases b; cases h; rfl, congrArg rows⟩

omit [DecidableEq κ] in
@[ext] theorem ext {a b : Table key} (h : a.rows = b.rows) : a = b := by
  cases a
  cases b
  cases h
  rfl

def empty : Table key := ⟨[], List.nodup_nil⟩

def get (t : Table key) (k : κ) : Option α := lookup key k t.rows

def insertNew (t : Table key) (rows : List α) : Table key :=
  ⟨Core.insertNew key t.rows rows, uniqueKeys_insertNew key t.unique rows⟩

/-- The rows of a statement that `insertNew` puts in. -/
def news (t : Table key) (rows : List α) : List α := (t.insertNew rows).rows.drop t.rows.length

def filter (t : Table key) (p : α → Bool) : Table key := ⟨t.rows.filter p, uniqueKeys_filter key t.unique p⟩

@[simp] theorem get_empty (k : κ) : (empty : Table key).get k = none := rfl

theorem get_key {t : Table key} {k : κ} {r : α} (h : t.get k = some r) : key r = k := lookup_key key h

theorem get_mem {t : Table key} {k : κ} {r : α} (h : t.get k = some r) : r ∈ t.rows := lookup_mem key h

theorem mem_iff_get {t : Table key} {r : α} : r ∈ t.rows ↔ t.get (key r) = some r :=
  mem_iff_lookup key t.unique r

omit [DecidableEq κ] in
theorem nodup_filter (t : Table key) (p : α → Bool) : (t.rows.filter p).Nodup :=
  List.Nodup.of_map _ (t.filter p).unique

omit [DecidableEq κ] in
/-- Where two tables agree on the rows that count, so do their selections. -/
theorem filter_perm {a b : Table key} {p : α → Bool}
    (h : ∀ r, p r = true → (r ∈ a.rows ↔ r ∈ b.rows)) : (a.rows.filter p).Perm (b.rows.filter p) := by
  refine (List.perm_ext_iff_of_nodup (a.nodup_filter p) (b.nodup_filter p)).mpr fun r => ?_
  simp only [List.mem_filter]
  exact and_congr_left (h r)

/-- The rows of one key. -/
theorem filter_key {t : Table key} {k : κ} {r : α} (h : t.get k = some r) :
    t.rows.filter (fun a => decide (key a = k)) = [r] := by
  refine List.perm_singleton.mp
    ((List.perm_ext_iff_of_nodup (t.nodup_filter _) (List.nodup_singleton r)).mpr fun a => ?_)
  simp only [List.mem_filter, decide_eq_true_eq, List.mem_singleton]
  constructor
  · rintro ⟨ha, rfl⟩
    rw [mem_iff_get, h] at ha
    exact (Option.some.inj ha).symm
  · rintro rfl
    exact ⟨get_mem h, get_key h⟩

theorem get_isSome {t : Table key} {k : κ} : (t.get k).isSome ↔ ∃ r ∈ t.rows, key r = k :=
  lookup_isSome key

theorem get_eq_none {t : Table key} {k : κ} : t.get k = none ↔ ∀ r ∈ t.rows, key r ≠ k :=
  lookup_eq_none key

@[simp] theorem get_insertNew (t : Table key) (rows : List α) (k : κ) :
    (t.insertNew rows).get k = (t.get k).or (lookup key k rows) := lookup_insertNew key k t.rows rows

@[simp] theorem get_filter (t : Table key) (p : α → Bool) (k : κ) :
    (t.filter p).get k = (t.get k).filter p := lookup_filter key t.unique p k

theorem mem_insertNew {t : Table key} {rows : List α} {r : α} (h : r ∈ (t.insertNew rows).rows) :
    r ∈ t.rows ∨ r ∈ rows := Core.mem_insertNew key h

@[simp] theorem insertNew_nil (t : Table key) : t.insertNew [] = t := rfl

@[simp] theorem news_nil (t : Table key) : t.news [] = [] := by
  simp [news]

theorem rows_insertNew (t : Table key) (rows : List α) :
    (t.insertNew rows).rows = t.rows ++ t.news rows :=
  List.prefix_iff_eq_append.mp (insertNew_extends key t.rows rows) |>.symm

theorem insertNew_append (t : Table key) (a b : List α) :
    t.insertNew (a ++ b) = (t.insertNew a).insertNew b :=
  ext (Core.insertNew_append key t.rows a b)

/-- Two statements put in what one with the rows of both does. -/
theorem news_append (t : Table key) (a b : List α) :
    t.news (a ++ b) = t.news a ++ (t.insertNew a).news b := by
  have h := rows_insertNew t (a ++ b)
  rw [insertNew_append, rows_insertNew, rows_insertNew t a, List.append_assoc] at h
  exact (List.append_cancel_left h).symm

theorem unique_news (t : Table key) (rows : List α) : UniqueKeys key (t.news rows) := by
  have h := (t.insertNew rows).unique
  rw [rows_insertNew] at h
  rw [UniqueKeys, List.map_append] at h
  exact (List.nodup_append.mp h).2.1

/-- Only a free key gets a new row, and it gets the statement's first row with that key. -/
theorem lookup_news (t : Table key) (rows : List α) (k : κ) :
    lookup key k (t.news rows) = if (t.get k).isSome then none else lookup key k rows := by
  have hget : (t.get k).or (lookup key k (t.news rows)) = (t.get k).or (lookup key k rows) := by
    rw [← get_insertNew t rows, get, get, rows_insertNew t rows, lookup_append]
  split
  · rename_i h
    obtain ⟨r, hr, hk⟩ := get_isSome.mp h
    refine (lookup_eq_none key).mpr fun x hx e => ?_
    have hu := (t.insertNew rows).unique
    rw [rows_insertNew, UniqueKeys, List.map_append] at hu
    exact (List.nodup_append.mp hu).2.2 _ (List.mem_map_of_mem hr) _ (List.mem_map_of_mem hx)
      (hk.trans e.symm)
  · rename_i h
    simpa [Option.not_isSome_iff_eq_none.mp h] using hget

theorem mem_news {t : Table key} {rows : List α} {r : α} (h : r ∈ t.news rows) :
    t.get (key r) = none ∧ lookup key (key r) rows = some r := by
  have hl := lookup_of_mem key (t.unique_news rows) h
  rw [lookup_news] at hl
  split at hl
  · cases hl
  · rename_i hn
    exact ⟨Option.not_isSome_iff_eq_none.mp hn, hl⟩

theorem perm_of_get {a b : Table key} (h : ∀ k, a.get k = b.get k) : a.rows.Perm b.rows :=
  perm_of_lookup key a.unique b.unique h

theorem get_of_perm {a b : Table key} (h : a.rows.Perm b.rows) (k : κ) : a.get k = b.get k := by
  cases ha : a.get k with
  | none =>
    symm
    rw [get_eq_none] at ha ⊢
    exact fun r hr => ha r (h.mem_iff.mpr hr)
  | some r =>
    have hr := h.mem_iff.mp (get_mem ha)
    rw [mem_iff_get, get_key ha] at hr
    exact hr.symm

/-- What two statements put into a table that ends up with the same rows. -/
theorem news_perm {t : Table key} {rows rows' : List α}
    (h : (t.insertNew rows).rows.Perm (t.insertNew rows').rows) :
    (t.news rows).Perm (t.news rows') := by
  rw [rows_insertNew, rows_insertNew] at h
  exact (List.perm_append_left_iff _).mp h

/-- `UPDATE`: `f` changes each row in its place. -/
def map (t : Table key) (f : α → α) (hf : ∀ a, key (f a) = key a) : Table key :=
  ⟨t.rows.map f, by
    rw [UniqueKeys, List.map_map, show key ∘ f = key from funext hf]
    exact t.unique⟩

@[simp] theorem get_map (t : Table key) (f : α → α) (hf : ∀ a, key (f a) = key a) (k : κ) :
    (t.map f hf).get k = (t.get k).map f := lookup_map key k hf t.rows

/-- `INSERT … ON CONFLICT (key) DO UPDATE`: `f` changes the row that is there. -/
def upsert (t : Table key) (r : α) (f : α → α) (hf : ∀ a, key (f a) = key a) : Table key :=
  if h : (t.get (key r)).isSome then
    ⟨t.rows.map fun a => if key a = key r then f a else a, by
      have : (fun a => key (if key a = key r then f a else a)) = key := by
        funext a
        split
        · exact hf a
        · rfl
      simpa [UniqueKeys, Function.comp_def, this] using t.unique⟩
  else
    ⟨t.rows ++ [r], by
      have := uniqueKeys_insertRow key t.unique r
      rwa [insertRow, if_neg (show ¬(lookup key (key r) t.rows).isSome from h)] at this⟩

/-- An upsert sets the row of its own key and no other. -/
theorem get_upsert (t : Table key) (r : α) (f : α → α) (hf : ∀ a, key (f a) = key a) (k : κ) :
    (t.upsert r f hf).get k = if key r = k then some ((t.get k).elim r f) else t.get k := by
  have hkey : ∀ a, key (if key a = key r then f a else a) = key a := by
    intro a
    split
    · exact hf a
    · rfl
  unfold upsert
  split
  · rename_i h
    rw [get, lookup_map key k hkey, ← get]
    split
    · rename_i hk
      subst hk
      obtain ⟨a, ha⟩ := Option.isSome_iff_exists.mp h
      simp [ha, get_key ha]
    · rename_i hk
      cases ha : t.get k with
      | none => rfl
      | some a => simp [get_key ha, Ne.symm hk]
  · rename_i h
    rw [get, lookup_append, ← get]
    split
    · rename_i hk
      subst hk
      rw [Option.not_isSome_iff_eq_none.mp h]
      simp [lookup]
    · rename_i hk
      simp [lookup, hk]

/-- An upsert leaves a row as it was, changes one, or puts its own in. -/
theorem mem_upsert {t : Table key} {r : α} {f : α → α} {hf : ∀ a, key (f a) = key a} {x : α}
    (h : x ∈ (t.upsert r f hf).rows) : x = r ∨ x ∈ t.rows ∨ ∃ a ∈ t.rows, x = f a := by
  unfold upsert at h
  split at h
  · obtain ⟨a, ha, rfl⟩ := List.mem_map.mp h
    split
    · exact .inr (.inr ⟨a, ha, rfl⟩)
    · exact .inr (.inl ha)
  · rcases List.mem_append.mp h with h | h
    · exact .inr (.inl h)
    · exact .inl (List.mem_singleton.mp h)

/-- An upsert of what a filter never selects takes the row of its key out of it. -/
theorem filter_upsert (t : Table key) {r : α} {f : α → α} (hf : ∀ a, key (f a) = key a)
    {p : α → Bool} (hr : p r = false) (hp : ∀ a, p (f a) = false) :
    (t.upsert r f hf).rows.filter p =
      (t.rows.filter p).filter fun a => decide (key a ≠ key r) := by
  rw [List.filter_filter]
  unfold upsert
  split
  · simp only
    induction t.rows with
    | nil => rfl
    | cons a rows ih =>
      rw [List.map_cons, List.filter_cons, List.filter_cons, ih]
      by_cases hk : key a = key r
      · simp [hk, hp]
      · simp [hk]
  · rename_i h
    have hfree := get_eq_none.mp (Option.not_isSome_iff_eq_none.mp h)
    rw [List.filter_append, List.filter_cons_of_neg (by simp [hr]), List.filter_nil,
      List.append_nil]
    refine List.filter_congr fun a ha => ?_
    simp [hfree a ha]

end Table

/-! ## Identity columns -/

/-- A table whose rows are numbered by an identity sequence. -/
structure Serial {α : Type*} (id : α → Nat) where
  rows : List α
  next : Nat
  ascending : rows.Pairwise fun a b => id a < id b
  below : ∀ r ∈ rows, id r < next

namespace Serial
variable {id : α → Nat}

instance [DecidableEq α] : DecidableEq (Serial id) := fun a b =>
  decidable_of_iff (a.rows = b.rows ∧ a.next = b.next)
    ⟨fun ⟨h, h'⟩ => by cases a; cases b; cases h; cases h'; rfl, fun h => by cases h; exact ⟨rfl, rfl⟩⟩

def empty : Serial id := ⟨[], 1, .nil, fun _ h => nomatch h⟩

/-- Rows numbered from `n`. -/
def number (setId : Nat → α → α) (n : Nat) : List α → List α
  | [] => []
  | r :: rs => setId n r :: number setId (n + 1) rs

variable {setId : Nat → α → α}

theorem mem_number (hset : ∀ n r, id (setId n r) = n) {n : Nat} {rs : List α} {r : α}
    (h : r ∈ number setId n rs) : n ≤ id r ∧ id r < n + rs.length := by
  induction rs generalizing n with
  | nil => cases h
  | cons x xs ih =>
    rw [List.length_cons]
    rcases List.mem_cons.mp h with rfl | h
    · rw [hset]
      omega
    · have := ih h
      omega

theorem number_ascending (hset : ∀ n r, id (setId n r) = n) (n : Nat) (rs : List α) :
    (number setId n rs).Pairwise fun a b => id a < id b := by
  induction rs generalizing n with
  | nil => exact .nil
  | cons x xs ih =>
    refine .cons (fun r hr => ?_) (ih (n + 1))
    have := mem_number hset hr
    rw [hset]
    omega

@[simp] theorem number_append (n : Nat) (a b : List α) :
    number setId n (a ++ b) = number setId n a ++ number setId (n + a.length) b := by
  induction a generalizing n with
  | nil => simp [number]
  | cons x xs ih =>
    have : n + 1 + xs.length = n + (xs.length + 1) := by omega
    simp [number, ih, this]

/-- A numbered row, without its number, is the row at its place. -/
theorem number_eq_map {β : Type*} (setId : Nat → α → α) (f : α → β)
    (hf : ∀ n r, f (setId n r) = f r) (n : Nat) (rs : List α) :
    (number setId n rs).map f = rs.map f := by
  induction rs generalizing n with
  | nil => rfl
  | cons x xs ih => simp [number, hf, ih]

def append (setId : Nat → α → α) (hset : ∀ n r, id (setId n r) = n) (t : Serial id)
    (rs : List α) : Serial id where
  rows := t.rows ++ number setId t.next rs
  next := t.next + rs.length
  ascending := by
    refine List.pairwise_append.mpr ⟨t.ascending, number_ascending hset _ _, fun a ha b hb => ?_⟩
    have := t.below a ha
    have := mem_number hset hb
    omega
  below r hr := by
    rcases List.mem_append.mp hr with hr | hr
    · have := t.below r hr
      omega
    · exact (mem_number hset hr).2

theorem exists_of_mem_number {n : Nat} {rs : List α} {x : α} (h : x ∈ number setId n rs) :
    ∃ m, ∃ r ∈ rs, x = setId m r := by
  induction rs generalizing n with
  | nil => cases h
  | cons y ys ih =>
    rcases List.mem_cons.mp h with rfl | h
    · exact ⟨n, y, List.mem_cons_self, rfl⟩
    · obtain ⟨m, r, hr, hx⟩ := ih h
      exact ⟨m, r, List.mem_cons_of_mem _ hr, hx⟩

theorem mem_append {hset : ∀ n r, id (setId n r) = n} {t : Serial id} {rs : List α} {x : α}
    (h : x ∈ (t.append setId hset rs).rows) : x ∈ t.rows ∨ ∃ n, ∃ r ∈ rs, x = setId n r :=
  (List.mem_append.mp h).imp_right exists_of_mem_number

@[simp] theorem append_nil (hset : ∀ n r, id (setId n r) = n) (t : Serial id) :
    t.append setId hset [] = t := by
  cases t
  simp [append, number]

def filter (t : Serial id) (p : α → Bool) : Serial id where
  rows := t.rows.filter p
  next := t.next
  ascending := t.ascending.sublist List.filter_sublist
  below r hr := t.below r (List.mem_filter.mp hr).1

end Serial

end Amarillo.Core
