import Mathlib.Data.List.Basic
import Blackboard.Lib.Text

/-!
# Texts joined by a mark

Two texts with a mark between them, cut at every mark, are the parts of the one and then the
parts of the other (`split_join`). So what is lost by joining is where the one ends and the
other begins, unless one of them has no mark in it.
-/

namespace Text

/-- Two texts with a mark between them. -/
def join (mark : Char) (s t : String) : String := s ++ String.singleton mark ++ t

theorem toList_join (mark : Char) (s t : String) :
    (join mark s t).toList = s.toList ++ mark :: t.toList := by
  simp [join]

theorem split_join (mark : Char) (s t : String) :
    split mark (join mark s t) = split mark s ++ split mark t := by
  unfold split
  rw [toList_join, List.splitOn_append_cons_self, List.map_append]

/-- Cutting loses nothing. -/
theorem split_inj {mark : Char} {s t : String} : split mark s = split mark t ↔ s = t := by
  constructor
  · intro h
    unfold split at h
    have hparts : s.toList.splitOn mark = t.toList.splitOn mark :=
      List.map_injective_iff.mpr (fun a b hab => String.ofList_injective hab) h
    have hlist := congrArg ([mark].intercalate) hparts
    rw [List.intercalate_splitOn, List.intercalate_splitOn] at hlist
    exact String.toList_inj.mp hlist
  · rintro rfl
    rfl

/-- A text without the mark is one part. -/
theorem split_of_not_mem {mark : Char} {s : String} (h : mark ∉ s.toList) :
    split mark s = [s] := by
  unfold split
  rw [List.splitOn_eq_singleton h, List.map_singleton, String.ofList_toList]

/-- Joined texts are the same when they have the same parts. -/
theorem join_eq_iff {mark : Char} {s t s' t' : String} :
    join mark s t = join mark s' t'
      ↔ split mark s ++ split mark t = split mark s' ++ split mark t' := by
  rw [← @split_inj mark, split_join, split_join]

/-- The first text is known when it has no mark in it. -/
theorem join_inj_left {mark : Char} {s t s' t' : String} (hs : mark ∉ s.toList)
    (hs' : mark ∉ s'.toList) : join mark s t = join mark s' t' ↔ s = s' ∧ t = t' := by
  rw [join_eq_iff, split_of_not_mem hs, split_of_not_mem hs', List.singleton_append,
    List.singleton_append, List.cons.injEq, split_inj]

/-- The second text is known when it has no mark in it. -/
theorem join_inj_right {mark : Char} {s t s' t' : String} (ht : mark ∉ t.toList)
    (ht' : mark ∉ t'.toList) : join mark s t = join mark s' t' ↔ s = s' ∧ t = t' := by
  rw [join_eq_iff, split_of_not_mem ht, split_of_not_mem ht']
  constructor
  · intro h
    obtain ⟨hs, ht⟩ := List.append_inj' h rfl
    exact ⟨split_inj.mp hs, (List.cons.inj ht).1⟩
  · rintro ⟨rfl, rfl⟩
    rfl

end Text
