import Mathlib.Data.List.Nodup
import Mathlib.Data.List.Sort

/-!
# Keyed tables

A table is a list of rows in physical order in which no two rows share a key, so
a table that breaks its primary key cannot be built. The operations are the ones
an SQL program performs on such a table: look a key up, insert or ignore, insert
under a fresh row id, update the rows a predicate selects.

Everything here is about arbitrary rows and keys. The lemmas say what each
operation does to membership and to `find`; a client never unfolds the lists.
-/

namespace Relational

/-- Rows in physical order, no two of them with the same key. -/
@[ext]
structure Table {ρ κ : Type} (key : ρ → κ) where
  /-- The rows, in the order they were inserted. -/
  rows : List ρ
  /-- The primary key. -/
  nodup : (rows.map key).Nodup

namespace Table

variable {ρ κ : Type} {key : ρ → κ}

instance : Membership ρ (Table key) := ⟨fun t r => r ∈ t.rows⟩

theorem mem_rows {t : Table key} {r : ρ} : r ∈ t.rows ↔ r ∈ t := Iff.rfl

/-- The table with no rows. -/
def empty : Table key := ⟨[], List.nodup_nil⟩

@[simp] theorem rows_empty : (empty : Table key).rows = [] := rfl

@[simp] theorem not_mem_empty (r : ρ) : r ∉ (empty : Table key) := List.not_mem_nil

/-- Two rows of one table with the same key are the same row. -/
theorem eq_of_key {t : Table key} {r s : ρ} (hr : r ∈ t) (hs : s ∈ t) (h : key r = key s) :
    r = s :=
  List.inj_on_of_nodup_map t.nodup hr hs h

/-! ## Looking a key up -/

section Find

variable [DecidableEq κ]

/-- `SELECT .. WHERE key = k`: at most one row. -/
def find (t : Table key) (k : κ) : Option ρ := t.rows.find? fun r => decide (key r = k)

theorem find_eq_some_iff {t : Table key} {k : κ} {r : ρ} :
    t.find k = some r ↔ r ∈ t ∧ key r = k := by
  constructor
  · intro h
    exact ⟨List.mem_of_find?_eq_some h, by simpa using List.find?_some h⟩
  · rintro ⟨hr, rfl⟩
    cases h : t.find (key r) with
    | none =>
        rw [find, List.find?_eq_none] at h
        exact absurd (decide_eq_true rfl) (h r hr)
    | some s =>
        have hs : s ∈ t := List.mem_of_find?_eq_some h
        have hk : key s = key r := by simpa using List.find?_some h
        rw [eq_of_key hs hr hk]

theorem find_eq_none_iff {t : Table key} {k : κ} : t.find k = none ↔ ∀ r ∈ t, key r ≠ k := by
  simp only [find, List.find?_eq_none, decide_eq_true_eq]
  exact Iff.rfl

theorem find_of_mem {t : Table key} {r : ρ} (h : r ∈ t) : t.find (key r) = some r :=
  find_eq_some_iff.mpr ⟨h, rfl⟩

theorem mem_of_find {t : Table key} {k : κ} {r : ρ} (h : t.find k = some r) : r ∈ t :=
  (find_eq_some_iff.mp h).1

theorem key_of_find {t : Table key} {k : κ} {r : ρ} (h : t.find k = some r) : key r = k :=
  (find_eq_some_iff.mp h).2

@[simp] theorem find_empty (k : κ) : (empty : Table key).find k = none := rfl

end Find

/-! ## Inserting -/

/-- Insert a row whose key is not there yet. -/
def insert (t : Table key) (r : ρ) (h : ∀ s ∈ t, key s ≠ key r) : Table key where
  rows := t.rows ++ [r]
  nodup := by
    rw [List.map_append, List.map_singleton, List.nodup_append]
    refine ⟨t.nodup, List.nodup_singleton _, ?_⟩
    intro k hk k' hk' heq
    obtain ⟨s, hs, rfl⟩ := List.mem_map.mp hk
    rw [List.mem_singleton] at hk'
    exact h s hs (heq.trans hk')

@[simp] theorem rows_insert {t : Table key} {r : ρ} {h} : (t.insert r h).rows = t.rows ++ [r] := rfl

@[simp] theorem mem_insert {t : Table key} {r s : ρ} {h} : s ∈ t.insert r h ↔ s ∈ t ∨ s = r := by
  rw [← mem_rows, rows_insert, List.mem_append, List.mem_singleton, mem_rows]

theorem find_insert [DecidableEq κ] {t : Table key} {r : ρ} {h} (k : κ) :
    (t.insert r h).find k = if key r = k then some r else t.find k := by
  split
  · rename_i hk
    exact find_eq_some_iff.mpr ⟨mem_insert.mpr (Or.inr rfl), hk⟩
  · rename_i hk
    simp only [find, rows_insert, List.find?_append, List.find?_singleton, decide_eq_true_eq,
      if_neg hk, Option.or_none]

section InsertOrIgnore

variable [DecidableEq κ]

/-- `INSERT`: nothing when the key is taken. -/
def tryInsert (t : Table key) (r : ρ) : Option (Table key) :=
  if h : t.find (key r) = none then some (t.insert r (find_eq_none_iff.mp h)) else none

theorem tryInsert_of_none {t : Table key} {r : ρ} (h : t.find (key r) = none) :
    t.tryInsert r = some (t.insert r (find_eq_none_iff.mp h)) := dif_pos h

theorem tryInsert_of_some {t : Table key} {r s : ρ} (h : t.find (key r) = some s) :
    t.tryInsert r = none := dif_neg (by simp [h])

/-- What a successful insertion found and what it left. -/
theorem of_tryInsert {t t' : Table key} {r : ρ} (h : t.tryInsert r = some t') :
    t.find (key r) = none ∧ (∀ s, s ∈ t' ↔ s ∈ t ∨ s = r)
      ∧ ∀ k, t'.find k = if key r = k then some r else t.find k := by
  cases hf : t.find (key r) with
  | none =>
      rw [tryInsert_of_none hf, Option.some.injEq] at h
      subst h
      exact ⟨rfl, fun _ => mem_insert, fun k => find_insert k⟩
  | some s =>
      rw [tryInsert_of_some hf] at h
      exact absurd h (by simp)

/-- A table that answers like another one with a row added has that row and the other's. -/
theorem mem_iff_of_find {t t' : Table key} {r : ρ} (hnone : t.find (key r) = none)
    (h : ∀ k, t'.find k = if key r = k then some r else t.find k) (s : ρ) :
    s ∈ t' ↔ s ∈ t ∨ s = r := by
  constructor
  · intro hs
    have hfind := find_of_mem hs
    rw [h] at hfind
    split at hfind
    · exact Or.inr (Option.some.inj hfind).symm
    · exact Or.inl (mem_of_find hfind)
  · rintro (hs | rfl)
    · have hne : key r ≠ key s := fun heq => by
        rw [heq, find_of_mem hs] at hnone
        exact absurd hnone (by simp)
      exact mem_of_find ((h (key s)).trans ((if_neg hne).trans (find_of_mem hs)))
    · exact mem_of_find ((h (key s)).trans (if_pos rfl))

/-- `INSERT OR IGNORE`: a row whose key is taken is dropped. -/
def insertOrIgnore (t : Table key) (r : ρ) : Table key :=
  if h : t.find (key r) = none then t.insert r (find_eq_none_iff.mp h) else t

theorem insertOrIgnore_of_none {t : Table key} {r : ρ} (h : t.find (key r) = none) :
    t.insertOrIgnore r = t.insert r (find_eq_none_iff.mp h) := dif_pos h

theorem insertOrIgnore_of_some {t : Table key} {r s : ρ} (h : t.find (key r) = some s) :
    t.insertOrIgnore r = t := dif_neg (by simp [h])

theorem mem_insertOrIgnore_of_mem {t : Table key} {r s : ρ} (h : s ∈ t) :
    s ∈ t.insertOrIgnore r := by
  unfold insertOrIgnore
  split
  · exact mem_insert.mpr (Or.inl h)
  · exact h

theorem mem_insertOrIgnore {t : Table key} {r s : ρ} (h : s ∈ t.insertOrIgnore r) :
    s ∈ t ∨ s = r := by
  unfold insertOrIgnore at h
  split at h
  · exact mem_insert.mp h
  · exact Or.inl h

/-- What a key holds after `INSERT OR IGNORE`. -/
theorem find_insertOrIgnore {t : Table key} {r : ρ} (k : κ) :
    (t.insertOrIgnore r).find k = (t.find k).or (if key r = k then some r else none) := by
  by_cases hk : key r = k
  · subst hk
    cases h : t.find (key r) with
    | none => simp [insertOrIgnore_of_none h, find_insert]
    | some s => simp [insertOrIgnore_of_some h, h]
  · cases h : t.find (key r) with
    | none => simp [insertOrIgnore_of_none h, find_insert, hk]
    | some s => simp [insertOrIgnore_of_some h, hk]

theorem find_insertOrIgnore_of_some {t : Table key} {r s : ρ} {k : κ} (h : t.find k = some s) :
    (t.insertOrIgnore r).find k = some s := by
  simp [find_insertOrIgnore, h]

end InsertOrIgnore

/-! ## Updating -/

/-- `UPDATE .. SET .. WHERE p`: rewrite the selected rows, keeping their keys. -/
def update (t : Table key) (p : ρ → Bool) (f : ρ → ρ) (hf : ∀ r, key (f r) = key r) :
    Table key where
  rows := t.rows.map fun r => if p r then f r else r
  nodup := by
    have hk : (t.rows.map fun r => if p r then f r else r).map key = t.rows.map key := by
      rw [List.map_map]
      refine List.map_congr_left fun r _ => ?_
      simp only [Function.comp_apply]
      split
      · exact hf r
      · rfl
    rw [hk]
    exact t.nodup

theorem mem_update {t : Table key} {p : ρ → Bool} {f : ρ → ρ} {hf} {s : ρ} :
    s ∈ t.update p f hf ↔ ∃ r ∈ t, s = if p r then f r else r := by
  rw [← mem_rows, update, List.mem_map]
  constructor
  · rintro ⟨r, hr, rfl⟩; exact ⟨r, hr, rfl⟩
  · rintro ⟨r, hr, rfl⟩; exact ⟨r, hr, rfl⟩

/-- How many rows an update selects. -/
def count (t : Table key) (p : ρ → Bool) : Nat := t.rows.countP p

theorem count_eq_zero_of_none [DecidableEq κ] {t : Table key} {k : κ} (h : t.find k = none) :
    (t.count fun r => decide (key r = k)) = 0 := by
  rw [count, List.countP_eq_zero]
  intro r hr
  simpa using find_eq_none_iff.mp h r hr

/-- A key counts once. -/
theorem count_eq_one_of_some [DecidableEq κ] {t : Table key} {k : κ} {r : ρ}
    (h : t.find k = some r) : (t.count fun r => decide (key r = k)) = 1 := by
  have hmap : (t.count fun r => decide (key r = k)) = (t.rows.map key).count k := by
    rw [count, List.count, List.countP_map]
    rfl
  rw [hmap]
  exact List.count_eq_one_of_mem t.nodup
    (List.mem_map.mpr ⟨r, mem_of_find h, key_of_find h⟩)

theorem find_update [DecidableEq κ] {t : Table key} {p : ρ → Bool} {f : ρ → ρ} {hf} (k : κ) :
    (t.update p f hf).find k = (t.find k).map fun r => if p r then f r else r := by
  cases h : t.find k with
  | none =>
      rw [find_eq_none_iff] at h
      rw [Option.map_none, find_eq_none_iff]
      intro s hs
      obtain ⟨r, hr, rfl⟩ := mem_update.mp hs
      split
      · rw [hf]; exact h r hr
      · exact h r hr
  | some r =>
      rw [Option.map_some, find_eq_some_iff]
      obtain ⟨hr, hk⟩ := find_eq_some_iff.mp h
      refine ⟨mem_update.mpr ⟨r, hr, rfl⟩, ?_⟩
      split
      · rw [hf, hk]
      · exact hk

/-- An update that selects no row changes nothing. -/
theorem update_eq_self {t : Table key} {p : ρ → Bool} {f : ρ → ρ} {hf}
    (h : ∀ r ∈ t, p r = false) : t.update p f hf = t := by
  ext1
  have hid : ∀ r ∈ t.rows, (if p r then f r else r) = r := fun r hr => by simp [h r hr]
  show t.rows.map (fun r => if p r then f r else r) = t.rows
  rw [List.map_congr_left hid, List.map_id']

/-- Updates that select the same rows are the same. -/
theorem update_congr {t : Table key} {p q : ρ → Bool} {f : ρ → ρ} {hf hf'}
    (h : ∀ r ∈ t, p r = q r) : t.update p f hf = t.update q f hf' := by
  ext1
  exact List.map_congr_left fun r hr => by rw [h r hr]

/-- A key selects its row and no other. -/
theorem filter_key_of_mem [DecidableEq κ] {t : Table key} {r : ρ} (h : r ∈ t) :
    t.rows.filter (fun s => decide (key s = key r)) = [r] := by
  have hcount : (t.rows.filter fun s => decide (key s = key r)).length = 1 := by
    rw [← List.countP_eq_length_filter]
    exact count_eq_one_of_some (find_of_mem h)
  obtain ⟨s, hs⟩ := List.length_eq_one_iff.mp hcount
  have hr : r ∈ t.rows.filter fun s => decide (key s = key r) :=
    List.mem_filter.mpr ⟨h, decide_eq_true rfl⟩
  rw [hs, List.mem_singleton] at hr
  rw [hs, hr]

/-! ## What changed -/

section Changed

variable [DecidableEq κ] {τ : Type} [DecidableEq τ] (status : ρ → τ)

/-- How many rows of the second table are not in the first, or are there with another status. -/
def changed (t t' : Table key) : Nat :=
  t'.rows.countP fun r => decide ((t.find (key r)).map status ≠ some (status r))

theorem changed_self (t : Table key) : changed status t t = 0 := by
  rw [changed, List.countP_eq_zero]
  intro r hr
  rw [find_of_mem hr]
  simp

/-- An update that gives every row it selects another status changes the rows it selects. -/
theorem changed_update {t : Table key} {p : ρ → Bool} {f : ρ → ρ} {hf}
    (h : ∀ r ∈ t, p r = true → status (f r) ≠ status r) :
    changed status t (t.update p f hf) = t.count p := by
  have hrows : (t.update p f hf).rows = t.rows.map fun r => if p r then f r else r := rfl
  rw [changed, count, hrows, List.countP_map]
  refine List.countP_congr fun r hr => ?_
  have hfind : t.find (key r) = some r := find_of_mem hr
  by_cases hp : p r = true
  · have hne := h r hr hp
    simp only [Function.comp_apply, hp, if_true, hf, hfind, Option.map_some, ne_eq,
      Option.some.injEq, decide_not, Bool.not_eq_true', decide_eq_false_iff_not, iff_true]
    exact fun heq => hne heq.symm
  · simp [hp, hfind]

end Changed

/-! ## Deleting -/

/-- `DELETE`: the rows a predicate selects stay. -/
def keep (t : Table key) (p : ρ → Bool) : Table key where
  rows := t.rows.filter p
  nodup := t.nodup.sublist (List.filter_sublist.map key)

@[simp] theorem mem_keep {t : Table key} {p : ρ → Bool} {r : ρ} :
    r ∈ t.keep p ↔ r ∈ t ∧ p r = true := List.mem_filter

/-! ## Row ids -/

section RowId

variable {key : ρ → Int}

/-- The id SQLite gives the next row: one above the largest in the table. -/
def nextId (t : Table key) : Int := (t.rows.map key).foldl max 0 + 1

private theorem le_foldl_max (ks : List Int) (a : Int) :
    a ≤ ks.foldl max a ∧ ∀ k ∈ ks, k ≤ ks.foldl max a := by
  induction ks generalizing a with
  | nil => simp
  | cons k ks ih =>
      obtain ⟨h1, h2⟩ := ih (max a k)
      refine ⟨Int.le_trans (Int.le_max_left a k) h1, ?_⟩
      intro k' hk'
      rcases List.mem_cons.mp hk' with rfl | hk'
      · exact Int.le_trans (Int.le_max_right a _) h1
      · exact h2 k' hk'

theorem nextId_pos (t : Table key) : 0 < t.nextId := by
  have := (le_foldl_max (t.rows.map key) 0).1
  unfold nextId
  omega

/-- Every id in the table is below the next one. -/
theorem lt_nextId {t : Table key} {r : ρ} (h : r ∈ t) : key r < t.nextId := by
  have := (le_foldl_max (t.rows.map key) 0).2 (key r) (List.mem_map_of_mem h)
  unfold nextId
  omega

/-- `INSERT` without an id: the row is made for the id the table hands out. -/
def append (t : Table key) (mk : Int → ρ) (hmk : ∀ i, key (mk i) = i) : Table key :=
  t.insert (mk t.nextId) fun _ hs => by rw [hmk]; exact Int.ne_of_lt (lt_nextId hs)

@[simp] theorem rows_append {t : Table key} {mk : Int → ρ} {hmk} :
    (t.append mk hmk).rows = t.rows ++ [mk t.nextId] := rfl

@[simp] theorem mem_append {t : Table key} {mk : Int → ρ} {hmk} {s : ρ} :
    s ∈ t.append mk hmk ↔ s ∈ t ∨ s = mk t.nextId := mem_insert

/-- The ids a table gives out are positive. -/
theorem pos_of_mem_append {t : Table key} (h : ∀ r ∈ t, 0 < key r) {mk : Int → ρ} {hmk} {s : ρ}
    (hs : s ∈ t.append mk hmk) : 0 < key s := by
  rcases mem_append.mp hs with hold | rfl
  · exact h s hold
  · rw [hmk]
    exact nextId_pos t

theorem find_append {t : Table key} {mk : Int → ρ} {hmk} (k : Int) :
    (t.append mk hmk).find k = if t.nextId = k then some (mk t.nextId) else t.find k := by
  rw [append, find_insert, hmk]

theorem changed_append {τ : Type} [DecidableEq τ] (status : ρ → τ) {t : Table key} {mk : Int → ρ}
    {hmk} : changed status t (t.append mk hmk) = 1 := by
  have hold : t.rows.countP (fun r => decide ((t.find (key r)).map status ≠ some (status r))) = 0 :=
    changed_self status t
  have hnew : t.find (key (mk t.nextId)) = none := by
    rw [hmk, find_eq_none_iff]
    exact fun r hr => Int.ne_of_lt (lt_nextId hr)
  rw [changed, rows_append, List.countP_append, hold, List.countP_singleton, hnew]
  simp

theorem find_append_of_some {t : Table key} {mk : Int → ρ} {hmk} {k : Int} {r : ρ}
    (h : t.find k = some r) : (t.append mk hmk).find k = some r := by
  have hlt := lt_nextId (mem_of_find h)
  rw [key_of_find h] at hlt
  rw [find_append, if_neg (by omega), h]

/-- The rows stand in the order of their ids. -/
def Ascending (t : Table key) : Prop := t.rows.Pairwise fun a b => key a < key b

theorem ascending_empty : Ascending (empty : Table key) := List.Pairwise.nil

/-- A row under a fresh id comes last. -/
theorem Ascending.append {t : Table key} (h : Ascending t) {mk : Int → ρ}
    {hmk : ∀ i, key (mk i) = i} : Ascending (t.append mk hmk) := by
  unfold Ascending
  rw [rows_append, List.pairwise_append]
  refine ⟨h, List.pairwise_singleton _ _, fun a ha b hb => ?_⟩
  rw [List.mem_singleton] at hb
  rw [hb, hmk]
  exact lt_nextId ha

theorem Ascending.update {t : Table key} (h : Ascending t) {p : ρ → Bool} {f : ρ → ρ}
    {hf : ∀ r, key (f r) = key r} : Ascending (t.update p f hf) := by
  unfold Ascending Table.update
  rw [List.pairwise_map]
  have hkey : ∀ r, key (if p r then f r else r) = key r := by
    intro r
    split
    · exact hf r
    · rfl
  exact h.imp fun hab => by rw [hkey, hkey]; exact hab

end RowId

end Table

/-! ## Ordered results -/

/-- `ORDER BY`: the selected rows, those that compare equal in table order. -/
def orderBy {ρ : Type} (le : ρ → ρ → Prop) [DecidableRel le] (rows : List ρ) : List ρ :=
  rows.insertionSort le

theorem orderBy_congr {ρ : Type} {le le' : ρ → ρ → Prop} [DecidableRel le] [DecidableRel le']
    (h : ∀ a b, le a b ↔ le' a b) (rows : List ρ) : orderBy le rows = orderBy le' rows := by
  obtain rfl : le = le' := funext₂ fun a b => propext (h a b)
  congr!

/-- Selected rows of a table that stands in the order of its ids need no sorting. -/
theorem orderBy_filter_of_ascending {ρ : Type} {key : ρ → Int} {t : Table key}
    (h : t.Ascending) (p : ρ → Bool) :
    orderBy (fun a b : ρ => key a ≤ key b) (t.rows.filter p) = t.rows.filter p := by
  refine List.Pairwise.insertionSort_eq ((h.filter p).imp ?_)
  intro a b hab
  exact Int.le_of_lt hab

@[simp] theorem mem_orderBy {ρ : Type} {le : ρ → ρ → Prop} [DecidableRel le] {rows : List ρ}
    {r : ρ} : r ∈ orderBy le rows ↔ r ∈ rows := List.mem_insertionSort le

@[simp] theorem orderBy_eq_nil {ρ : Type} {le : ρ → ρ → Prop} [DecidableRel le] {rows : List ρ} :
    orderBy le rows = [] ↔ rows = [] := by
  simp only [List.eq_nil_iff_forall_not_mem, mem_orderBy]

/-- Sorted or not, and selected or not, the rows of a table are different rows. -/
theorem nodup_orderBy {ρ κ : Type} {key : ρ → κ} (t : Table key) (le : ρ → ρ → Prop)
    [DecidableRel le] (p : ρ → Bool) : (orderBy le (t.rows.filter p)).Nodup :=
  (List.perm_insertionSort le _).nodup_iff.mpr ((List.Nodup.of_map key t.nodup).filter p)

section SameRows

variable {ρ κ : Type} {key : ρ → κ} {t t' : Table key} {p p' : ρ → Bool}

/-- Selections of the same rows, from tables that may keep them in another order. -/
theorem filter_perm (h : ∀ r, r ∈ t ∧ p r = true ↔ r ∈ t' ∧ p' r = true) :
    (t.rows.filter p).Perm (t'.rows.filter p') := by
  have hnodup : ∀ (t : Table key) (p : ρ → Bool), (t.rows.filter p).Nodup :=
    fun t p => (List.Nodup.of_map key t.nodup).filter p
  rw [List.perm_ext_iff_of_nodup (hnodup t p) (hnodup t' p')]
  intro r
  rw [List.mem_filter, List.mem_filter]
  exact h r

/-- An order that tells keys apart leaves no choice how to sort the selected rows. -/
theorem orderBy_filter_eq {le : ρ → ρ → Prop} [DecidableRel le] (htotal : ∀ a b, le a b ∨ le b a)
    (htrans : ∀ a b c, le a b → le b c → le a c) (hkey : ∀ a b, le a b → le b a → key a = key b)
    (h : ∀ r, r ∈ t ∧ p r = true ↔ r ∈ t' ∧ p' r = true) :
    orderBy le (t.rows.filter p) = orderBy le (t'.rows.filter p') := by
  have : Std.Total le := ⟨htotal⟩
  have : IsTrans ρ le := ⟨htrans⟩
  have hperm : (orderBy le (t.rows.filter p)).Perm (orderBy le (t'.rows.filter p')) :=
    (List.perm_insertionSort le _).trans
      ((filter_perm h).trans (List.perm_insertionSort le _).symm)
  refine List.Perm.eq_of_pairwise ?_ (List.pairwise_insertionSort le _)
    (List.pairwise_insertionSort le _) hperm
  intro a b ha hb hab hba
  have hmem : ∀ {r}, r ∈ orderBy le (t'.rows.filter p') → r ∈ t' := fun hr =>
    (List.mem_filter.mp (mem_orderBy.mp hr)).1
  exact Table.eq_of_key (hmem (hperm.mem_iff.mp ha)) (hmem hb) (hkey a b hab hba)

/-- Two tables with the same members have the same rows, perhaps in another order. -/
theorem rows_perm (h : ∀ r, r ∈ t ↔ r ∈ t') : t.rows.Perm t'.rows := by
  rw [List.perm_ext_iff_of_nodup (List.Nodup.of_map key t.nodup) (List.Nodup.of_map key t'.nodup)]
  exact h

/-- Tables with the same members answer every look-up alike. -/
theorem find_congr [DecidableEq κ] (h : ∀ r, r ∈ t ↔ r ∈ t') (k : κ) : t.find k = t'.find k := by
  cases hk : t'.find k with
  | none =>
      rw [Table.find_eq_none_iff] at hk ⊢
      intro r hr
      exact hk r ((h r).mp hr)
  | some r =>
      rw [Table.find_eq_some_iff] at hk ⊢
      exact ⟨(h r).mpr hk.1, hk.2⟩

end SameRows

section Sorted

variable {ρ κ : Type} [LinearOrder κ] {le : ρ → ρ → Prop} [DecidableRel le] {key : ρ → κ}

/-- A key into a linear order that tells the rows apart leaves one way to sort them. -/
theorem orderBy_perm (hle : ∀ a b, le a b ↔ key a ≤ key b) {rows rows' : List ρ}
    (hinj : ∀ a ∈ rows, ∀ b ∈ rows, key a = key b → a = b) (h : rows.Perm rows') :
    orderBy le rows = orderBy le rows' := by
  have : Std.Total le := ⟨fun a b => by rw [hle, hle]; exact le_total _ _⟩
  have : IsTrans ρ le := ⟨fun a b c hab hbc => (hle a c).mpr
    (((hle a b).mp hab).trans ((hle b c).mp hbc))⟩
  have hperm : (orderBy le rows).Perm (orderBy le rows') :=
    (List.perm_insertionSort le _).trans (h.trans (List.perm_insertionSort le _).symm)
  refine List.Perm.eq_of_pairwise ?_ (List.pairwise_insertionSort le _)
    (List.pairwise_insertionSort le _) hperm
  intro a b ha hb hab hba
  have hb' : b ∈ rows := h.mem_iff.mpr (mem_orderBy.mp hb)
  exact hinj a (mem_orderBy.mp ha) b hb' (le_antisymm ((hle a b).mp hab) ((hle b a).mp hba))

end Sorted

/-- The largest of some numbers does not depend on their order. -/
theorem max?_of_perm {ks ks' : List Int} (h : ks.Perm ks') : ks.max? = ks'.max? := by
  cases hk : ks'.max? with
  | none =>
      rw [List.max?_eq_none_iff] at hk ⊢
      rw [hk] at h
      exact h.eq_nil
  | some k =>
      rw [List.max?_eq_some_iff] at hk ⊢
      obtain ⟨hmem, hmax⟩ := hk
      exact ⟨h.mem_iff.mpr hmem, fun b hb => hmax b (h.mem_iff.mp hb)⟩

/-! ## Transactions -/

section Transaction

variable {σ α ε : Type}

/-- How the body of a transaction ends when it does not fail: it commits a new state, or it
returns without committing and everything it did is undone. -/
inductive TxEnd (σ α : Type) where
  | commit (value : α) (state : σ)
  | rollback (value : α)

/-- Run a body as one transaction: a failure undoes it as well. -/
def transaction (body : σ → Except ε (TxEnd σ α)) (s : σ) : Except ε α × σ :=
  match body s with
  | .ok (.commit value state) => (.ok value, state)
  | .ok (.rollback value) => (.ok value, s)
  | .error error => (.error error, s)

theorem transaction_of_commit {body : σ → Except ε (TxEnd σ α)} {s s' : σ} {a : α}
    (h : body s = .ok (.commit a s')) : transaction body s = (.ok a, s') := by
  rw [transaction, h]

theorem transaction_of_rollback {body : σ → Except ε (TxEnd σ α)} {s : σ} {a : α}
    (h : body s = .ok (.rollback a)) : transaction body s = (.ok a, s) := by
  rw [transaction, h]

theorem transaction_of_error {body : σ → Except ε (TxEnd σ α)} {s : σ} {e : ε}
    (h : body s = .error e) : transaction body s = (.error e, s) := by
  rw [transaction, h]

/-- **Transaction rule.** What holds of the state before, and of whatever state the body commits,
holds after the transaction. -/
theorem transaction_rule {body : σ → Except ε (TxEnd σ α)} {s : σ} {P : σ → Prop} (h₀ : P s)
    (h : ∀ a s', body s = .ok (.commit a s') → P s') : P (transaction body s).2 := by
  cases hb : body s with
  | error e => rw [transaction_of_error hb]; exact h₀
  | ok ending =>
      cases ending with
      | commit a s' => rw [transaction_of_commit hb]; exact h a s' hb
      | rollback a => rw [transaction_of_rollback hb]; exact h₀

/-- What a transaction that answered came from. -/
theorem of_transaction_eq {body : σ → Except ε (TxEnd σ α)} {s s' : σ} {a : α}
    (h : transaction body s = (.ok a, s')) :
    body s = .ok (.commit a s') ∨ body s = .ok (.rollback a) ∧ s' = s := by
  cases hb : body s with
  | error e =>
      rw [transaction_of_error hb, Prod.mk.injEq] at h
      exact absurd h.1 (by simp)
  | ok ending =>
      cases ending with
      | commit b s'' =>
          rw [transaction_of_commit hb, Prod.mk.injEq, Except.ok.injEq] at h
          exact Or.inl (by rw [h.1, h.2])
      | rollback b =>
          rw [transaction_of_rollback hb, Prod.mk.injEq, Except.ok.injEq] at h
          exact Or.inr ⟨by rw [h.1], h.2.symm⟩

/-- A transaction that fails leaves the state as it was. -/
theorem transaction_of_fails {body : σ → Except ε (TxEnd σ α)} {s : σ} {e : ε}
    (h : (transaction body s).1 = .error e) : (transaction body s).2 = s := by
  cases hb : body s with
  | error e => rw [transaction_of_error hb]
  | ok ending =>
      cases ending with
      | commit a s' =>
          rw [transaction_of_commit hb] at h
          exact absurd h (by simp)
      | rollback a => rw [transaction_of_rollback hb]

/-- What a transaction that went through came from. -/
theorem transaction_of_ok {body : σ → Except ε (TxEnd σ α)} {s : σ}
    (h : (transaction body s).1.isOk = true) : ∃ ending, body s = .ok ending := by
  cases hb : body s with
  | error e =>
      rw [transaction_of_error hb] at h
      exact absurd h (by simp [Except.isOk, Except.toBool])
  | ok ending => exact ⟨ending, rfl⟩

theorem transaction_of_not_ok {body : σ → Except ε (TxEnd σ α)} {s : σ}
    (h : (transaction body s).1.isOk = false) : (transaction body s).2 = s := by
  cases hr : (transaction body s).1 with
  | error e => exact transaction_of_fails hr
  | ok a =>
      rw [hr] at h
      exact absurd h (by simp [Except.isOk, Except.toBool])

end Transaction

end Relational
