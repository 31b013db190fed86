import Mathlib.Data.List.Induction
import Mathlib.Data.List.Nodup

/-!
# Rows collected under their keys

A map from keys to the values collected under them, filled row by row: the first value of a
key opens its entry, a later one goes behind those already there. What an entry holds does
not depend on the other keys (`mem_collect_iff`), and every key has one entry
(`nodup_keys_collect`). An enumeration of the map is a permutation of its entries.
-/

namespace Grouping

variable {ρ κ ν : Type} [DecidableEq κ]

/-- `entry(key).or_default().push(value)`. -/
def push (key : κ) (value : ν) : List (κ × List ν) → List (κ × List ν)
  | [] => [(key, [value])]
  | (k, values) :: rest =>
      if k = key then (k, values ++ [value]) :: rest else (k, values) :: push key value rest

/-- The map after all the rows. -/
def collect (key : ρ → κ) (value : ρ → ν) (rows : List ρ) : List (κ × List ν) :=
  rows.foldl (fun groups r => push (key r) (value r) groups) []

/-- The values of the rows with this key, in their order. -/
def valuesOf (key : ρ → κ) (value : ρ → ν) (rows : List ρ) (k : κ) : List ν :=
  (rows.filter fun r => decide (key r = k)).map value

/-- What a key has collected. -/
def held (groups : List (κ × List ν)) (k : κ) : List ν := (groups.lookup k).getD []

theorem held_cons_self (k : κ) (values : List ν) (rest : List (κ × List ν)) :
    held ((k, values) :: rest) k = values := by
  simp [held]

theorem held_cons_of_ne {k k' : κ} (h : k ≠ k') (values : List ν) (rest : List (κ × List ν)) :
    held ((k', values) :: rest) k = held rest k := by
  simp [held, List.lookup_cons, beq_eq_false_iff_ne.mpr h]

theorem held_push_self (key : κ) (value : ν) (groups : List (κ × List ν)) :
    held (push key value groups) key = held groups key ++ [value] := by
  induction groups with
  | nil => exact held_cons_self key [value] []
  | cons entry rest ih =>
      obtain ⟨k, values⟩ := entry
      unfold push
      by_cases h : k = key
      · rw [if_pos h, h, held_cons_self, held_cons_self]
      · have hne : key ≠ k := fun heq => h heq.symm
        rw [if_neg h, held_cons_of_ne hne, held_cons_of_ne hne, ih]

/-- The other keys are left alone. -/
theorem held_push_of_ne {k key : κ} (h : k ≠ key) (value : ν) (groups : List (κ × List ν)) :
    held (push key value groups) k = held groups k := by
  induction groups with
  | nil => exact held_cons_of_ne h [value] []
  | cons entry rest ih =>
      obtain ⟨k', values⟩ := entry
      unfold push
      by_cases hkey : k' = key
      · have hne : k ≠ k' := by rw [hkey]; exact h
        rw [if_pos hkey, held_cons_of_ne hne, held_cons_of_ne hne]
      · rw [if_neg hkey]
        by_cases hself : k = k'
        · rw [hself, held_cons_self, held_cons_self]
        · rw [held_cons_of_ne hself, held_cons_of_ne hself, ih]

theorem keys_push (key : κ) (value : ν) (groups : List (κ × List ν)) :
    (push key value groups).map Prod.fst
      = if key ∈ groups.map Prod.fst then groups.map Prod.fst
        else groups.map Prod.fst ++ [key] := by
  induction groups with
  | nil => simp [push]
  | cons entry rest ih =>
      obtain ⟨k', values⟩ := entry
      unfold push
      by_cases hkey : k' = key
      · simp [hkey]
      · have hne : ¬ key = k' := fun h => hkey h.symm
        rw [if_neg hkey, List.map_cons, ih, List.map_cons]
        by_cases hmem : key ∈ rest.map Prod.fst
        · rw [if_pos hmem, if_pos (List.mem_cons_of_mem _ hmem)]
        · rw [if_neg hmem, if_neg (by rw [List.mem_cons]; rintro (h | h); exacts [hne h, hmem h])]
          rfl

theorem nodup_keys_push {groups : List (κ × List ν)} (h : (groups.map Prod.fst).Nodup) (key : κ)
    (value : ν) : ((push key value groups).map Prod.fst).Nodup := by
  rw [keys_push]
  by_cases hmem : key ∈ groups.map Prod.fst
  · rw [if_pos hmem]
    exact h
  · rw [if_neg hmem, List.nodup_append]
    refine ⟨h, List.nodup_singleton key, ?_⟩
    intro k hk k' hk' heq
    rw [List.mem_singleton.mp hk'] at heq
    rw [heq] at hk
    exact hmem hk

/-- An entry of a map with one entry for each key. -/
theorem held_of_mem {groups : List (κ × List ν)} (h : (groups.map Prod.fst).Nodup) {k : κ}
    {values : List ν} (hmem : (k, values) ∈ groups) : held groups k = values := by
  induction groups with
  | nil => exact absurd hmem List.not_mem_nil
  | cons entry rest ih =>
      rw [List.map_cons, List.nodup_cons] at h
      rcases List.mem_cons.mp hmem with rfl | hrest
      · exact held_cons_self k values rest
      · have hne : k ≠ entry.1 := by
          intro heq
          rw [← heq] at h
          exact h.1 (List.mem_map.mpr ⟨(k, values), hrest, rfl⟩)
        have hcons := held_cons_of_ne hne entry.2 rest
        exact hcons.trans (ih h.2 hrest)

/-! ## The map of all the rows -/

section Collect

variable (key : ρ → κ) (value : ρ → ν)

theorem collect_concat (rows : List ρ) (r : ρ) :
    collect key value (rows ++ [r]) = push (key r) (value r) (collect key value rows) := by
  simp [collect, List.foldl_append]

theorem valuesOf_concat (rows : List ρ) (r : ρ) (k : κ) :
    valuesOf key value (rows ++ [r]) k
      = valuesOf key value rows k ++ if key r = k then [value r] else [] := by
  by_cases h : key r = k
  · simp [valuesOf, List.filter_append, h]
  · simp [valuesOf, List.filter_append, h]

theorem nodup_keys_collect (rows : List ρ) :
    ((collect key value rows).map Prod.fst).Nodup := by
  induction rows using List.reverseRecOn with
  | nil => exact List.nodup_nil
  | append_singleton rows r ih =>
      rw [collect_concat]
      exact nodup_keys_push ih _ _

theorem held_collect (rows : List ρ) (k : κ) :
    held (collect key value rows) k = valuesOf key value rows k := by
  induction rows using List.reverseRecOn with
  | nil => rfl
  | append_singleton rows r ih =>
      rw [collect_concat, valuesOf_concat]
      by_cases h : key r = k
      · subst h
        rw [held_push_self, ih, if_pos rfl]
      · rw [held_push_of_ne (fun heq => h heq.symm), ih, if_neg h, List.append_nil]

theorem mem_keys_collect (rows : List ρ) (k : κ) :
    k ∈ (collect key value rows).map Prod.fst ↔ ∃ r ∈ rows, key r = k := by
  induction rows using List.reverseRecOn with
  | nil => simp [collect]
  | append_singleton rows r ih =>
      rw [collect_concat, keys_push]
      by_cases hmem : key r ∈ (collect key value rows).map Prod.fst
      · rw [if_pos hmem, ih]
        constructor
        · rintro ⟨r', hr', hk⟩
          exact ⟨r', List.mem_append_left _ hr', hk⟩
        · rintro ⟨r', hr', hk⟩
          rcases List.mem_append.mp hr' with hold | hnew
          · exact ⟨r', hold, hk⟩
          · -- the key was there before the last row
            rw [List.mem_singleton.mp hnew] at hk
            rw [hk] at hmem
            exact ih.mp hmem
      · rw [if_neg hmem, List.mem_append, ih, List.mem_singleton]
        constructor
        · rintro (⟨r', hr', hk⟩ | hk)
          · exact ⟨r', List.mem_append_left _ hr', hk⟩
          · exact ⟨r, by simp, hk.symm⟩
        · rintro ⟨r', hr', hk⟩
          rcases List.mem_append.mp hr' with hold | hnew
          · exact Or.inl ⟨r', hold, hk⟩
          · rw [List.mem_singleton.mp hnew] at hk
            exact Or.inr hk.symm

/-- **An entry of the map** is a key some row has, with the values of its rows. -/
theorem mem_collect_iff (rows : List ρ) (k : κ) (values : List ν) :
    (k, values) ∈ collect key value rows ↔
      (∃ r ∈ rows, key r = k) ∧ values = valuesOf key value rows k := by
  have hnodup := nodup_keys_collect key value rows
  rw [← mem_keys_collect key value rows k, ← held_collect]
  constructor
  · intro h
    exact ⟨List.mem_map.mpr ⟨_, h, rfl⟩, (held_of_mem hnodup h).symm⟩
  · rintro ⟨hkey, rfl⟩
    obtain ⟨⟨k', values⟩, hmem, rfl⟩ := List.mem_map.mp hkey
    rw [held_of_mem hnodup hmem]
    exact hmem

end Collect

end Grouping
