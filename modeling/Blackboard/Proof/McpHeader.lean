import Blackboard.Model.McpTransport

/-!
# The name in a header

A name between the marks is decoded, any other is taken as it stands or refused. Behind the
first mark and before the second there has to be something, if only nothing at all: the one
header in which the two marks overlap makes the slice run backwards, and the thread panics.
-/

namespace Blackboard

namespace Mcp

/-- The header in which the marks share a character. -/
def overlap : String := "=?base64?="

/-- A header between the marks. -/
def wrapped (text : String) : String := headerPrefix ++ text ++ headerSuffix

/-- **A header with both marks** is a text between them, or the one in which they overlap. -/
theorem marks_cases {value : String} (hpre : Text.startsWith headerPrefix value = true)
    (hsuf : Text.endsWith headerSuffix value = true) :
    (∃ text, value = wrapped text) ∨ value = overlap := by
  obtain ⟨rest, hrest⟩ := Text.startsWith_iff.mp hpre
  obtain ⟨front, hfront⟩ := Text.endsWith_iff.mp hsuf
  rw [hrest] at hfront
  by_cases hlong : 2 ≤ rest.length
  · -- the end of the header is the end of what follows the first mark
    have hsuffix : headerSuffix.toList <:+ rest := by
      refine List.suffix_of_suffix_length_le ⟨front, hfront.symm⟩
        ⟨headerPrefix.toList, rfl⟩ ?_
      exact hlong
    obtain ⟨middle, hmiddle⟩ := hsuffix
    refine Or.inl ⟨String.ofList middle, String.toList_inj.mp ?_⟩
    rw [hrest, ← hmiddle]
    simp [wrapped]
  · refine Or.inr (String.toList_inj.mp ?_)
    have hlast := congrArg List.reverse hfront
    rw [List.reverse_append, List.reverse_append] at hlast
    rw [hrest]
    cases rest with
    | nil => exact absurd hlast (by simp [headerPrefix, headerSuffix])
    | cons c cs =>
        cases cs with
        | nil =>
            have hc : c = '=' := by
              simp [headerSuffix] at hlast
              exact hlast.1
            rw [hc]
            rfl
        | cons d ds => exact absurd hlong (by simp)

theorem startsWith_wrapped (text : String) :
    Text.startsWith headerPrefix (wrapped text) = true := by
  refine Text.startsWith_iff.mpr ⟨text.toList ++ headerSuffix.toList, ?_⟩
  simp [wrapped]

theorem endsWith_wrapped (text : String) : Text.endsWith headerSuffix (wrapped text) = true := by
  refine Text.endsWith_iff.mpr ⟨headerPrefix.toList ++ text.toList, ?_⟩
  simp [wrapped]

/-- The slice between the marks. -/
theorem slice_wrapped (text : String) :
    Text.slice headerPrefix.utf8ByteSize
      ((wrapped text).utf8ByteSize - headerSuffix.utf8ByteSize) (wrapped text) = some text := by
  refine Text.slice_eq_some_iff.mpr ⟨headerPrefix.toList, headerSuffix.toList, ?_, ?_, ?_⟩
  · simp [wrapped]
  · exact Text.byteLength_toList headerPrefix
  · have hsize : (wrapped text).utf8ByteSize
        = headerPrefix.utf8ByteSize + text.utf8ByteSize + headerSuffix.utf8ByteSize := by
      simp [wrapped]
    rw [Text.byteLength_append, Text.byteLength_toList, Text.byteLength_toList, hsize]
    omega

section Decode

variable [Base64Standard]

/-- What is between the marks is decoded. -/
theorem decode_wrapped (text : String) :
    decodeMcpHeaderValue (wrapped text)
      = .ok ((Base64Standard.decode text).bind fun bytes => String.fromUTF8? ⟨bytes.toArray⟩) := by
  unfold decodeMcpHeaderValue
  rw [startsWith_wrapped, endsWith_wrapped, slice_wrapped]
  rfl

theorem decode_overlap : decodeMcpHeaderValue overlap = .error .slice := by
  unfold decodeMcpHeaderValue
  have hpre : Text.startsWith headerPrefix overlap = true := by decide
  have hsuf : Text.endsWith headerSuffix overlap = true := by decide
  rw [hpre, hsuf, Text.slice_of_lt (by decide)]
  rfl

/-- Without both marks a header is taken as it stands, or refused. -/
theorem decode_plain {value : String}
    (h : (Text.startsWith headerPrefix value && Text.endsWith headerSuffix value) = false) :
    decodeMcpHeaderValue value = .ok none ∨ decodeMcpHeaderValue value = .ok (some value) := by
  unfold decodeMcpHeaderValue
  rw [h]
  by_cases hbad : value = "" ∨ Text.trim value ≠ value ∨ (Text.utf8 value).all headerByte = false
  · exact Or.inl (if_pos hbad)
  · exact Or.inr (if_neg hbad)

/-- **The ways to read a header.** -/
theorem decode_cases (value : String) :
    value = overlap
    ∨ (∃ text, value = wrapped text)
    ∨ decodeMcpHeaderValue value = .ok none ∨ decodeMcpHeaderValue value = .ok (some value) := by
  by_cases hmarks : (Text.startsWith headerPrefix value && Text.endsWith headerSuffix value) = true
  · rw [Bool.and_eq_true] at hmarks
    rcases marks_cases hmarks.1 hmarks.2 with htext | hover
    · exact Or.inr (Or.inl htext)
    · exact Or.inl hover
  · rw [Bool.not_eq_true] at hmarks
    exact Or.inr (Or.inr (decode_plain hmarks))

theorem decode_total {value : String} (h : value ≠ overlap) :
    ∃ name, decodeMcpHeaderValue value = .ok name := by
  rcases decode_cases value with hover | ⟨text, rfl⟩ | hnone | hsome
  · exact absurd hover h
  · exact ⟨_, decode_wrapped text⟩
  · exact ⟨_, hnone⟩
  · exact ⟨_, hsome⟩

/-- A call is checked unless its name is that header. -/
theorem validateModernHttpMetadata_total {headers : Headers}
    (h : headers.toStr "mcp-name" ≠ some overlap) (object : Json.Object) (method : String) :
    ∃ result, validateModernHttpMetadata headers object method = .ok result := by
  unfold validateModernHttpMetadata mismatch
  split
  · exact ⟨_, rfl⟩
  · split
    · exact ⟨_, rfl⟩
    · split
      · exact ⟨_, rfl⟩
      · split
        · split
          · rename_i bodyName value hbody hvalue
            have hover : value ≠ overlap := fun heq => h (heq ▸ hvalue)
            obtain ⟨name, hname⟩ := decode_total hover
            rw [hname]
            dsimp only
            split
            · exact ⟨_, rfl⟩
            · exact ⟨_, rfl⟩
          · exact ⟨_, rfl⟩
        · exact ⟨_, rfl⟩

variable [Base64Standard.Strict]

/-- **The name in a header.** A header is read, without a panic, exactly if it is not the one in
which the marks overlap. What was encoded is decoded, and any other header is taken as it stands or
refused. -/
theorem decodeMcpHeaderValue_total :
    (∀ value, (∃ name, decodeMcpHeaderValue value = .ok name) ↔ value ≠ overlap)
    ∧ (∀ s, decodeMcpHeaderValue (wrapped (Base64Standard.encode (Text.utf8 s))) = .ok (some s))
    ∧ ∀ value, value ≠ overlap →
        (∀ s, value ≠ wrapped (Base64Standard.encode (Text.utf8 s))) →
          decodeMcpHeaderValue value = .ok none ∨ decodeMcpHeaderValue value = .ok (some value) := by
  refine ⟨fun value => ⟨?_, ?_⟩, fun s => ?_, fun value hover hother => ?_⟩
  · rintro ⟨name, hname⟩ rfl
    rw [decode_overlap] at hname
    exact absurd hname (by simp)
  · exact decode_total
  · rw [decode_wrapped, Base64Standard.Strict.decode_encode]
    exact congrArg Except.ok (Text.fromUTF8?_utf8 s)
  · rcases decode_cases value with h | ⟨text, rfl⟩ | h
    · exact absurd h hover
    · -- what decodes to a text is the encoding of that text
      rw [decode_wrapped]
      cases hdecode : Base64Standard.decode text with
      | none => exact Or.inl rfl
      | some bytes =>
          dsimp only [Option.bind_some]
          cases hs : String.fromUTF8? ⟨bytes.toArray⟩ with
          | none => exact Or.inl rfl
          | some s =>
              have hbytes : Text.utf8 s = bytes := Text.utf8_of_fromUTF8? hs
              have htext := Base64Standard.Strict.encode_of_decode hdecode
              exact absurd (congrArg wrapped (htext.symm.trans (by rw [hbytes]))) (hother s)
    · exact h

end Decode

theorem read_name_of_tool :
    @decodeMcpHeaderValue Base64Standard.padded
      (wrapped (@Base64Standard.encode Base64Standard.padded (Text.utf8 "blackboard_read")))
      = .ok (some "blackboard_read") :=
  (@decodeMcpHeaderValue_total Base64Standard.padded Base64Standard.padded_strict).2.1 _

/-- One header is not read. -/
theorem overlap_panics :
    ¬ ∀ value, ∃ name, @decodeMcpHeaderValue Base64Standard.padded value = .ok name := by
  intro h
  obtain ⟨name, hname⟩ := h overlap
  rw [@decode_overlap Base64Standard.padded] at hname
  exact absurd hname (by simp)

end Mcp

end Blackboard
