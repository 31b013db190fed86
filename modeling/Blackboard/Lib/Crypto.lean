import Blackboard.Lib.Json

/-!
# Primitives taken from libraries

The digest, the message authentication codes, the text encoding and the JSON parser a
service takes from elsewhere, as parameters. Nothing is assumed of them here; a theorem
that needs one to behave, say a digest without collisions on the texts of a run, says so
in its statement.
-/

/-- Bytes. -/
abbrev Bytes := List UInt8

namespace Text

/-- `str::as_bytes`. -/
def utf8 (s : String) : Bytes := s.toUTF8.data.toList

theorem utf8_inj {s t : String} (h : utf8 s = utf8 t) : s = t := by
  apply String.toByteArray_inj.mp
  exact ByteArray.ext (Array.toList_inj.mp h)

theorem utf8_eq_flatMap (s : String) : utf8 s = s.toList.flatMap String.utf8EncodeChar := by
  show s.toByteArray.data.toList = _
  rw [← String.utf8Encode_toList, List.utf8Encode, List.toList_data_toByteArray]

/-- One byte a character, when the characters are ASCII. -/
theorem utf8_of_ascii {s : String} (h : ∀ c ∈ s.toList, c.toNat < 128) :
    utf8 s = s.toList.map fun c => UInt8.ofNat c.toNat := by
  rw [utf8_eq_flatMap]
  generalize s.toList = l at h ⊢
  induction l with
  | nil => rfl
  | cons c cs ih =>
      have hc : String.utf8EncodeChar c = [UInt8.ofNat c.toNat] := by
        have hlt : c.val.toNat ≤ 127 := Nat.le_of_lt_succ (h c List.mem_cons_self)
        rw [String.utf8EncodeChar, if_pos hlt]
        rfl
      rw [List.flatMap_cons, hc, ih fun d hd => h d (List.mem_cons_of_mem c hd)]
      rfl

/-- Any other character has a byte that is not ASCII. -/
theorem ascii_of_utf8 {s : String} (h : ∀ b ∈ utf8 s, b.toNat < 128) :
    ∀ c ∈ s.toList, c.toNat < 128 := by
  intro c hc
  rw [utf8_eq_flatMap] at h
  by_contra hge
  have hgt : 127 < c.val.toNat := Nat.lt_of_not_le fun hle => hge (Nat.lt_succ_of_le hle)
  -- the first byte of a longer encoding is marked by its high bits
  obtain ⟨b, hb, hbig⟩ : ∃ b ∈ String.utf8EncodeChar c, 128 ≤ b.toNat := by
    rw [String.utf8EncodeChar, if_neg (by omega)]
    split
    · refine ⟨_, List.mem_cons_self, ?_⟩
      rw [UInt8.toNat_ofNat']
      omega
    · split
      · refine ⟨_, List.mem_cons_self, ?_⟩
        rw [UInt8.toNat_ofNat']
        omega
      · refine ⟨_, List.mem_cons_self, ?_⟩
        rw [UInt8.toNat_ofNat']
        omega
  have := h b (List.mem_flatMap.mpr ⟨c, hc, hb⟩)
  omega

theorem fromUTF8?_utf8 (s : String) : String.fromUTF8? ⟨(utf8 s).toArray⟩ = some s := by
  have hbytes : (⟨(utf8 s).toArray⟩ : ByteArray) = s.toByteArray := by
    apply ByteArray.ext
    simp [utf8]
  rw [hbytes, String.fromUTF8?, dif_pos s.isValidUTF8]
  rfl

theorem utf8_of_fromUTF8? {bytes : Bytes} {s : String}
    (h : String.fromUTF8? ⟨bytes.toArray⟩ = some s) : utf8 s = bytes := by
  unfold String.fromUTF8? at h
  split at h
  · rw [← Option.some.inj h]
    simp [utf8, String.fromUTF8]
  · exact absurd h (by simp)

/-- `{byte:02x}` for every byte. -/
def hex (bytes : Bytes) : String :=
  String.ofList (bytes.flatMap fun b => [hexDigit (b.toNat / 16), hexDigit (b.toNat % 16)])

end Text

/-- SHA-256. -/
class Sha256 where
  digest : Bytes → Bytes

/-- The digest of the inputs a table lists, for runs that hash nothing else. -/
@[reducible] def Sha256.ofTable (table : List (Bytes × Bytes)) : Sha256 where
  digest input := (table.lookup input).getD []

/-- HMAC over a key and a message. -/
class Hmac where
  sha256 : Bytes → Bytes → Bytes
  sha1 : Bytes → Bytes → Bytes

/-- The codes under SHA-256 of the keys and messages a table lists. -/
@[reducible] def Hmac.ofTable (table : List ((Bytes × Bytes) × Bytes)) : Hmac where
  sha256 key message := (table.lookup (key, message)).getD []
  sha1 _ _ := []

/-- URL-safe base 64 without padding. -/
class Base64Url where
  encode : Bytes → String
  decode : String → Option Bytes

/-- The encoding of the inputs a table lists. -/
@[reducible] def Base64Url.ofTable (table : List (Bytes × String)) : Base64Url where
  encode input := (table.lookup input).getD ""
  decode text := (table.find? fun row => decide (row.2 = text)).map Prod.fst

/-- A JSON parser. -/
class JsonParser where
  parse : Bytes → Option Json.Value

/-- JSON web tokens. -/
class Jwt where
  /-- The algorithm and the key id a token's header names. -/
  decodeHeader : String → Option (String × Option String)
  /-- The claims of a token this key has signed for this issuer and audience, unexpired at this
  clock. -/
  decode : (token : String) → (key : Bytes) → (issuer audience : String) → (now : Nat) →
    Option Json.Value

/-- `hmac::verify`: the tag is the one the key gives the message. -/
def Hmac.verify [Hmac] (key message tag : Bytes) : Bool := decide (Hmac.sha256 key message = tag)
