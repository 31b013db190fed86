import Blackboard.Lib.Crypto

/-!
# Slices of a text

A text is cut by byte offsets. A cut has to be between two characters, and the offsets have
to be in order and in range; otherwise the program that asks for it panics. So a slice is
what stands between two parts of these lengths, and there is one exactly if the text can be
written that way (`slice_eq_some_iff`).
-/

namespace Text

/-- `str::starts_with`. -/
def startsWith (pre s : String) : Bool := pre.toList.isPrefixOf s.toList

/-- `str::ends_with`. -/
def endsWith (suf s : String) : Bool := suf.toList.isSuffixOf s.toList

theorem startsWith_iff {pre s : String} :
    Text.startsWith pre s = true ↔ ∃ cs, s.toList = pre.toList ++ cs := by
  unfold Text.startsWith
  rw [List.isPrefixOf_iff_prefix]
  constructor
  · rintro ⟨cs, h⟩
    exact ⟨cs, h.symm⟩
  · rintro ⟨cs, h⟩
    exact ⟨cs, h.symm⟩

theorem endsWith_iff {suf s : String} :
    Text.endsWith suf s = true ↔ ∃ cs, s.toList = cs ++ suf.toList := by
  unfold Text.endsWith
  rw [List.isSuffixOf_iff_suffix]
  constructor
  · rintro ⟨cs, h⟩
    exact ⟨cs, h.symm⟩
  · rintro ⟨cs, h⟩
    exact ⟨cs, h.symm⟩

/-- The number of bytes of some characters. -/
def byteLength (cs : List Char) : Nat := (cs.map Char.utf8Size).sum

/-- The characters before and after a byte offset, if it is between two characters. -/
def splitAtByte : Nat → List Char → Option (List Char × List Char)
  | 0, cs => some ([], cs)
  | _ + 1, [] => none
  | n + 1, c :: cs =>
      if c.utf8Size ≤ n + 1 then
        (splitAtByte (n + 1 - c.utf8Size) cs).map fun parts => (c :: parts.1, parts.2)
      else none

/-- `&s[start..stop]`. There is none where the program panics. -/
def slice (start stop : Nat) (s : String) : Option String :=
  (splitAtByte stop s.toList).bind fun parts =>
    (splitAtByte start parts.1).map fun parts => String.ofList parts.2

theorem splitAtByte_eq_some_iff {n : Nat} {cs a b : List Char} :
    splitAtByte n cs = some (a, b) ↔ cs = a ++ b ∧ byteLength a = n := by
  induction cs generalizing n a with
  | nil =>
      cases n with
      | zero =>
          constructor
          · intro h
            obtain ⟨rfl, rfl⟩ := Prod.mk.inj (Option.some.inj h)
            exact ⟨rfl, rfl⟩
          · rintro ⟨h, -⟩
            obtain ⟨rfl, rfl⟩ := List.append_eq_nil_iff.mp h.symm
            rfl
      | succ n =>
          constructor
          · intro h
            exact absurd h (by simp [splitAtByte])
          · rintro ⟨h, hn⟩
            obtain ⟨rfl, -⟩ := List.append_eq_nil_iff.mp h.symm
            exact absurd hn (by simp [byteLength])
  | cons c cs ih =>
      have hc : 0 < c.utf8Size := c.utf8Size_pos
      cases n with
      | zero =>
          constructor
          · intro h
            obtain ⟨rfl, rfl⟩ := Prod.mk.inj (Option.some.inj h)
            exact ⟨rfl, rfl⟩
          · rintro ⟨h, hn⟩
            cases a with
            | nil =>
                have hb : c :: cs = b := h
                rw [hb]
                cases b <;> rfl
            | cons d a =>
                obtain ⟨rfl, -⟩ := List.cons.inj h
                simp only [byteLength, List.map_cons, List.sum_cons] at hn
                omega
      | succ n =>
          rw [splitAtByte]
          constructor
          · intro h
            split at h
            · obtain ⟨⟨a', b'⟩, hparts, heq⟩ := Option.map_eq_some_iff.mp h
              obtain ⟨rfl, rfl⟩ := Prod.mk.inj heq
              obtain ⟨rfl, hn⟩ := ih.mp hparts
              refine ⟨rfl, ?_⟩
              simp only [byteLength, List.map_cons, List.sum_cons] at hn ⊢
              omega
            · exact absurd h (by simp)
          · rintro ⟨h, hn⟩
            cases a with
            | nil => exact absurd hn (by simp [byteLength])
            | cons d a =>
                obtain ⟨rfl, rfl⟩ := List.cons.inj h
                simp only [byteLength, List.map_cons, List.sum_cons] at hn
                have hrest : byteLength a = n + 1 - c.utf8Size := by
                  simp only [byteLength]
                  omega
                rw [if_pos (by omega), ih.mpr ⟨rfl, hrest⟩]
                rfl

/-- **Slices.** -/
theorem slice_eq_some_iff {start stop : Nat} {s t : String} :
    slice start stop s = some t ↔ ∃ a b, s.toList = a ++ t.toList ++ b
      ∧ byteLength a = start ∧ byteLength (a ++ t.toList) = stop := by
  unfold slice
  rw [Option.bind_eq_some_iff]
  constructor
  · rintro ⟨⟨front, b⟩, hstop, h⟩
    obtain ⟨⟨a, m⟩, hstart, rfl⟩ := Option.map_eq_some_iff.mp h
    obtain ⟨hs, hstop⟩ := splitAtByte_eq_some_iff.mp hstop
    obtain ⟨hfront, hlength⟩ := splitAtByte_eq_some_iff.mp hstart
    have hfront : front = a ++ m := hfront
    rw [String.toList_ofList]
    rw [hfront] at hs hstop
    exact ⟨a, b, hs, hlength, hstop⟩
  · rintro ⟨a, b, hs, hstart, hstop⟩
    refine ⟨(a ++ t.toList, b), splitAtByte_eq_some_iff.mpr ⟨hs, hstop⟩, ?_⟩
    refine Option.map_eq_some_iff.mpr ⟨(a, t.toList), ?_, String.ofList_toList⟩
    exact splitAtByte_eq_some_iff.mpr ⟨rfl, hstart⟩

theorem byteLength_append (a b : List Char) :
    byteLength (a ++ b) = byteLength a + byteLength b := by
  simp [byteLength]

theorem byteLength_toList (s : String) : byteLength s.toList = s.utf8ByteSize := by
  have hsize : (utf8 s).length = s.utf8ByteSize := rfl
  rw [← hsize, utf8_eq_flatMap, List.length_flatMap]
  simp [byteLength]

/-- Offsets out of order cut nothing. -/
theorem slice_of_lt {start stop : Nat} {s : String} (h : stop < start) : slice start stop s = none := by
  cases hs : slice start stop s with
  | none => rfl
  | some t =>
      obtain ⟨a, b, -, hstart, hstop⟩ := slice_eq_some_iff.mp hs
      rw [byteLength_append] at hstop
      omega

end Text
