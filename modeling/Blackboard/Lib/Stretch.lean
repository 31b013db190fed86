import Blackboard.Lib.Paging
import Mathlib.Data.Set.Basic

/-!
# Stretches of a ranked set

A client that shows a part of a growing set shows a stretch of it when nothing is missing
between two things it shows. A page is a stretch. What is added to the set later comes in
behind, so a stretch stays one. Two stretches put together are a stretch unless something
lies between them that neither has, and that is the only thing that can go wrong
(`Stretch.union_iff`).
-/

namespace Relational

section Stretch

variable {ρ κ : Type} [LinearOrder κ] {rank : ρ → κ} {all all' s t : Set ρ}

/-- A part of the set without holes. -/
structure Stretch (rank : ρ → κ) (all s : Set ρ) : Prop where
  subset : ∀ r ∈ s, r ∈ all
  whole : ∀ a ∈ s, ∀ b ∈ s, ∀ r ∈ all, rank a ≤ rank r → rank r ≤ rank b → r ∈ s

/-- The second part lies ahead of the first, and something of the set lies between them. -/
def Parted (rank : ρ → κ) (all s t : Set ρ) : Prop :=
  ∃ r ∈ all, (∀ a ∈ s, rank a < rank r) ∧ ∀ b ∈ t, rank r < rank b

theorem stretch_empty (all : Set ρ) : Stretch rank all ∅ :=
  ⟨fun _ h => absurd h (Set.notMem_empty _), fun _ h => absurd h (Set.notMem_empty _)⟩

/-- A stretch of a set is one of whatever the set grows into behind it. -/
theorem Stretch.grow (h : Stretch rank all s) (hkept : ∀ r ∈ all, r ∈ all')
    (hlarger : ∀ r ∈ all', r ∈ all ∨ ∀ a ∈ all, rank a < rank r) : Stretch rank all' s := by
  refine ⟨fun r hr => hkept r (h.subset r hr), fun a ha b hb r hr har hrb => ?_⟩
  rcases hlarger r hr with hold | hnew
  · exact h.whole a ha b hb r hold har hrb
  · exact absurd (hnew b (h.subset b hb)) (not_lt.mpr hrb)

/-- A stretch is one in either direction. -/
theorem Stretch.reverse {κ' : Type} [LinearOrder κ'] {rank' : ρ → κ'}
    (hrank : ∀ a b, rank' a ≤ rank' b ↔ rank b ≤ rank a) (h : Stretch rank' all s) :
    Stretch rank all s := by
  refine ⟨h.subset, fun a ha b hb r hr har hrb => ?_⟩
  exact h.whole b hb a ha r hr ((hrank b r).mpr hrb) ((hrank r a).mpr har)

/-- One direction of putting two stretches together. -/
theorem Stretch.between (hs : Stretch rank all s) (ht : Stretch rank all t)
    (hparted : ¬ Parted rank all s t) {a b r : ρ} (ha : a ∈ s) (hb : b ∈ t) (hr : r ∈ all)
    (har : rank a ≤ rank r) (hrb : rank r ≤ rank b) : r ∈ s ∪ t := by
  by_cases hin : ∃ a' ∈ s, rank r ≤ rank a'
  · obtain ⟨a', ha', hra'⟩ := hin
    exact Or.inl (hs.whole a ha a' ha' r hr har hra')
  · by_cases hin' : ∃ b' ∈ t, rank b' ≤ rank r
    · obtain ⟨b', hb', hbr'⟩ := hin'
      exact Or.inr (ht.whole b' hb' b hb r hr hbr' hrb)
    · -- beyond all of the one and before all of the other
      push Not at hin hin'
      exact absurd ⟨r, hr, hin, hin'⟩ hparted

/-- **Two stretches are one** unless something lies between them. -/
theorem Stretch.union_iff (hs : Stretch rank all s) (ht : Stretch rank all t)
    (hns : s.Nonempty) (hnt : t.Nonempty) :
    Stretch rank all (s ∪ t) ↔ ¬ Parted rank all s t ∧ ¬ Parted rank all t s := by
  constructor
  · intro h
    obtain ⟨a, ha⟩ := hns
    obtain ⟨b, hb⟩ := hnt
    constructor
    · rintro ⟨r, hr, hleft, hright⟩
      rcases h.whole a (Or.inl ha) b (Or.inr hb) r hr (hleft a ha).le (hright b hb).le with hin | hin
      · exact lt_irrefl _ (hleft r hin)
      · exact lt_irrefl _ (hright r hin)
    · rintro ⟨r, hr, hleft, hright⟩
      rcases h.whole b (Or.inr hb) a (Or.inl ha) r hr (hleft b hb).le (hright a ha).le with hin | hin
      · exact lt_irrefl _ (hright r hin)
      · exact lt_irrefl _ (hleft r hin)
  · rintro ⟨hst, hts⟩
    refine ⟨?_, fun a ha b hb r hr har hrb => ?_⟩
    · rintro r (hr | hr)
      · exact hs.subset r hr
      · exact ht.subset r hr
    · rcases ha with ha | ha
      · rcases hb with hb | hb
        · exact Or.inl (hs.whole a ha b hb r hr har hrb)
        · exact hs.between ht hst ha hb hr har hrb
      · rcases hb with hb | hb
        · rw [Set.union_comm]
          exact ht.between hs hts ha hb hr har hrb
        · exact Or.inr (ht.whole a ha b hb r hr har hrb)

end Stretch

/-! ## Pages -/

section Page

variable {ρ κ : Type} [LinearOrder κ] {rank : ρ → κ} {rows : List ρ} {p : ρ → Bool}
  {cursor : Option κ} {limit : Nat}

/-- The rows a page is taken from. -/
def selected (rows : List ρ) (p : ρ → Bool) : Set ρ := {r | r ∈ rows ∧ p r = true}

/-- **A page is a stretch** of what it is taken from. -/
theorem stretch_page (hn : (rows.map rank).Nodup) :
    Stretch rank (selected rows p) {r | r ∈ page rank rows p cursor limit} := by
  refine ⟨fun r hr => ?_, fun a ha b hb r hr har hrb => ?_⟩
  · have hahead := ahead_of_mem_page hr
    exact ⟨hahead.mem, hahead.selected⟩
  · have hahead := ahead_of_mem_page ha
    exact mem_page_of_le hn ⟨hr.1, hr.2, fun c hc => lt_of_lt_of_le (hahead.beyond c hc) har⟩ hb hrb

end Page

end Relational
