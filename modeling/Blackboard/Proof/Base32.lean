import Blackboard.Lib.ShiftBuffer
import Blackboard.Model.WebAuth

/-!
# Base 32, the text of a TOTP secret

Both loops push digits through a shift buffer that is never cleared: the encoder takes
eight bits in and gives five out, the decoder the other way round. At each turn of either
loop the low `bits` bits of the buffer are the bits read and not yet written (`Holds`), so
what falls off the high end has been written before.
-/

namespace Blackboard

open ShiftBuffer

namespace WebAuth

/-! ## The alphabet -/

/-- A letter or a digit from 2 to 7. -/
def IsBase32 (byte : UInt8) : Prop :=
  65 ≤ byte ∧ byte ≤ 90 ∨ 97 ≤ byte ∧ byte ≤ 122 ∨ 50 ≤ byte ∧ byte ≤ 55

instance (byte : UInt8) : Decidable (IsBase32 byte) :=
  inferInstanceAs (Decidable (_ ∨ _ ∨ _))

theorem isBase32_lt {byte : UInt8} (h : IsBase32 byte) : byte.toNat < 128 := by
  simp only [IsBase32, UInt8.le_iff_toNat_le] at h
  change 65 ≤ byte.toNat ∧ byte.toNat ≤ 90 ∨ 97 ≤ byte.toNat ∧ byte.toNat ≤ 122
    ∨ 50 ≤ byte.toNat ∧ byte.toNat ≤ 55 at h
  omega

/-- The character that stands for a digit of five bits. -/
def digitChar (d : Nat) : Char := base32Char (UInt32.ofNat d)

/-- The five bits of a character, as a number. -/
def charDigit (byte : UInt8) : Nat := ((base32Index byte).getD 0).toNat

theorem base32Index_eq_none : ∀ byte : UInt8, base32Index byte = none ↔ ¬ IsBase32 byte := by
  have h : ∀ n : Fin 256, base32Index (UInt8.ofFin n) = none ↔ ¬ IsBase32 (UInt8.ofFin n) := by
    decide +kernel
  intro byte
  exact h byte.toFin

theorem charDigit_lt : ∀ byte : UInt8, charDigit byte < 32 := by
  have h : ∀ n : Fin 256, charDigit (UInt8.ofFin n) < 32 := by decide +kernel
  intro byte
  exact h byte.toFin

theorem digitChar_spec : ∀ d : Fin 32,
    (digitChar d.val).toNat < 128 ∧ IsBase32 (UInt8.ofNat (digitChar d.val).toNat)
      ∧ charDigit (UInt8.ofNat (digitChar d.val).toNat) = d.val := by decide +kernel

theorem base32Index_of_isBase32 {byte : UInt8} (h : IsBase32 byte) :
    ∃ index, base32Index byte = some index ∧ index.toNat = charDigit byte := by
  cases hindex : base32Index byte with
  | none => exact absurd h ((base32Index_eq_none byte).mp hindex)
  | some index =>
      refine ⟨index, rfl, ?_⟩
      unfold charDigit
      rw [hindex]
      rfl

/-! ## The encoder -/

/-- The inner loop gives out all it can. -/
theorem base32Emit_holds {ds : List Nat} {buffer : UInt32} (bits : Nat) {out : List Nat}
    (h : Holds 8 5 ds out buffer.toNat bits) (hbits : bits ≤ 32) :
    ∃ out' bits', base32Emit (out.map digitChar) buffer bits = (out'.map digitChar, bits')
      ∧ bits' < 5 ∧ Holds 8 5 ds out' buffer.toNat bits' := by
  induction bits using Nat.strongRecOn generalizing out with
  | ind bits ih =>
      unfold base32Emit
      by_cases hfive : 5 ≤ bits
      · have hdigit := toNat_digit buffer 0x1f (k := bits - 5) (v := 5) (by omega) rfl
        have hemit := h.emit hfive
        rw [← hdigit] at hemit
        obtain ⟨out', bits', heq, hlt, hholds⟩ := ih (bits - 5) (by omega) hemit (by omega)
        refine ⟨out', bits', ?_, hlt, hholds⟩
        rw [if_pos hfive, ← heq, List.map_append]
        rw [List.map_singleton, digitChar, UInt32.ofNat_toNat]
      · exact ⟨out, bits, if_neg hfive, by omega, h⟩

/-- A byte comes in and the digits it completes go out. -/
theorem base32Encode_step {ds : List Nat} {out : List Nat} {buffer : UInt32} {bits : Nat}
    (h : Holds 8 5 ds out buffer.toNat bits) (hbits : bits < 5) (byte : UInt8) :
    ∃ out' bits',
      base32Emit (out.map digitChar) ((buffer <<< 8) ||| byte.toUInt32) (bits + 8)
          = (out'.map digitChar, bits')
        ∧ bits' < 5
        ∧ Holds 8 5 (ds ++ [byte.toNat]) out' ((buffer <<< 8) ||| byte.toUInt32).toNat bits' := by
  have hlt : byte.toUInt32.toNat < 2 ^ 8 := by
    rw [UInt8.toNat_toUInt32]
    exact byte.toNat_lt
  have hpush := @toNat_push buffer byte.toUInt32 bits 8 (by omega) (by omega) hlt
  rw [UInt8.toNat_toUInt32] at hpush
  exact base32Emit_holds (bits + 8) (h.take hpush) (by omega)

/-- Wherever the outer loop stands, the pending bits are in the buffer. -/
theorem base32EncodeLoop_holds (xs ys : Bytes) {ds : List Nat} {out : List Nat} {buffer : UInt32}
    {bits : Nat} (h : Holds 8 5 ds out buffer.toNat bits) (hbits : bits < 5) :
    ∃ out' buffer' bits',
      base32EncodeLoop (xs ++ ys) (out.map digitChar) buffer bits
          = base32EncodeLoop ys (out'.map digitChar) buffer' bits'
        ∧ bits' < 5 ∧ Holds 8 5 (ds ++ xs.map UInt8.toNat) out' buffer'.toNat bits' := by
  induction xs generalizing ds out buffer bits with
  | nil =>
      refine ⟨out, buffer, bits, rfl, hbits, ?_⟩
      rw [List.map_nil, List.append_nil]
      exact h
  | cons byte xs ih =>
      obtain ⟨out₁, bits₁, heq₁, hlt₁, hholds₁⟩ := base32Encode_step h hbits byte
      obtain ⟨out₂, buffer₂, bits₂, heq₂, hlt₂, hholds₂⟩ := ih hholds₁ hlt₁
      refine ⟨out₂, buffer₂, bits₂, ?_, hlt₂, ?_⟩
      · rw [List.cons_append, base32EncodeLoop]
        simp only [heq₁]
        exact heq₂
      · rw [List.append_assoc, List.singleton_append] at hholds₂
        exact hholds₂

/-- The text is the digits written and the pending bits, filled up. -/
theorem base32Encode_holds (b : Bytes) :
    ∃ out buffer bits, base32Encode b = String.ofList ((padded 5 out buffer bits).map digitChar)
      ∧ bits < 5 ∧ Holds 8 5 (b.map UInt8.toNat) out buffer bits := by
  obtain ⟨out, buffer, bits, heq, hlt, hholds⟩ :=
    @base32EncodeLoop_holds b [] _ _ 0 _ (Holds.start (w := 8) (v := 5)) (by omega)
  rw [List.append_nil, List.map_nil] at heq
  refine ⟨out, buffer.toNat, bits, ?_, hlt, hholds⟩
  unfold base32Encode padded
  simp only [heq, base32EncodeLoop]
  by_cases hpos : 0 < bits
  · have hlast := toNat_padded buffer 0x1f (v := 5) (by omega) hpos (by omega) rfl
    rw [if_pos hpos, if_pos hpos, ← hlast, List.map_append, List.map_singleton, digitChar,
      UInt32.ofNat_toNat]
  · rw [if_neg hpos, if_neg hpos]

/-! ## The decoder -/

/-- A digit comes in, and a byte goes out if eight bits are there. -/
theorem base32Decode_step {ds : List Nat} {out : Bytes} {buffer : UInt32} {bits : Nat}
    (h : Holds 5 8 ds (out.map UInt8.toNat) buffer.toNat bits) (hbits : bits < 8) {byte : UInt8}
    (hbyte : IsBase32 byte) :
    ∃ out' buffer' bits',
      (∀ rest, base32DecodeLoop (byte :: rest) out buffer bits
          = base32DecodeLoop rest out' buffer' bits')
        ∧ bits' < 8
        ∧ Holds 5 8 (ds ++ [charDigit byte]) (out'.map UInt8.toNat) buffer'.toNat bits' := by
  obtain ⟨index, hindex, hdigit⟩ := base32Index_of_isBase32 hbyte
  have hlt : index.toNat < 2 ^ 5 := by
    rw [hdigit]
    exact charDigit_lt byte
  have hpush := @toNat_push buffer index bits 5 (by omega) (by omega) hlt
  have htake := h.take hpush
  rw [hdigit] at htake
  by_cases height : bits + 5 ≥ 8
  · have hdigit' := toNat_digit ((buffer <<< UInt32.ofNat 5) ||| index) 0xff (k := bits + 5 - 8)
      (v := 8) (by omega) rfl
    have hemit := htake.emit height
    have hfit := hemit.fits _ (List.mem_append_right _ List.mem_cons_self)
    rw [← hdigit'] at hemit hfit
    -- the digit is below 256, so nothing is lost when it becomes a byte
    have hout := congrArg (fun d => out.map UInt8.toNat ++ [d]) (Nat.mod_eq_of_lt hfit)
    rw [← UInt32.toNat_toUInt8, ← List.map_singleton, ← List.map_append] at hout
    refine ⟨_, _, bits + 5 - 8, ?_, by omega,
      Eq.subst (motive := fun l => Holds 5 8 _ l _ _) hout.symm hemit⟩
    intro rest
    rw [base32DecodeLoop, hindex]
    simp only [if_pos height]
    rfl
  · refine ⟨out, _, bits + 5, ?_, by omega, htake⟩
    intro rest
    rw [base32DecodeLoop, hindex]
    simp only [if_neg height]
    rfl

/-- Wherever the loop stands, the pending bits are in the buffer. -/
theorem base32DecodeLoop_holds (xs ys : Bytes) {ds : List Nat} {out : Bytes} {buffer : UInt32}
    {bits : Nat} (h : Holds 5 8 ds (out.map UInt8.toNat) buffer.toNat bits) (hbits : bits < 8)
    (hxs : ∀ byte ∈ xs, IsBase32 byte) :
    ∃ out' buffer' bits',
      base32DecodeLoop (xs ++ ys) out buffer bits = base32DecodeLoop ys out' buffer' bits'
        ∧ bits' < 8
        ∧ Holds 5 8 (ds ++ xs.map charDigit) (out'.map UInt8.toNat) buffer'.toNat bits' := by
  induction xs generalizing ds out buffer bits with
  | nil =>
      refine ⟨out, buffer, bits, rfl, hbits, ?_⟩
      rw [List.map_nil, List.append_nil]
      exact h
  | cons byte xs ih =>
      obtain ⟨out₁, buffer₁, bits₁, heq₁, hlt₁, hholds₁⟩ :=
        base32Decode_step h hbits (hxs byte List.mem_cons_self)
      obtain ⟨out₂, buffer₂, bits₂, heq₂, hlt₂, hholds₂⟩ :=
        ih hholds₁ hlt₁ fun b hb => hxs b (List.mem_cons_of_mem byte hb)
      refine ⟨out₂, buffer₂, bits₂, ?_, hlt₂, ?_⟩
      · rw [List.cons_append, heq₁, heq₂]
      · rw [List.append_assoc, List.singleton_append] at hholds₂
        exact hholds₂

theorem base32DecodeLoop_isSome {xs : Bytes} {out : Bytes} {buffer : UInt32} {bits : Nat}
    (h : (base32DecodeLoop xs out buffer bits).isSome) : ∀ byte ∈ xs, IsBase32 byte := by
  induction xs generalizing out buffer bits with
  | nil =>
      intro byte hbyte
      exact absurd hbyte List.not_mem_nil
  | cons byte xs ih =>
      rw [base32DecodeLoop] at h
      have hbyte : IsBase32 byte := by
        by_contra hno
        rw [(base32Index_eq_none byte).mpr hno] at h
        exact absurd h (by simp)
      obtain ⟨index, hindex, -⟩ := base32Index_of_isBase32 hbyte
      rw [hindex] at h
      intro b hb
      rcases List.mem_cons.mp hb with rfl | hb
      · exact hbyte
      · by_cases height : bits + 5 ≥ 8
        · simp only [if_pos height] at h
          exact ih h b hb
        · simp only [if_neg height] at h
          exact ih h b hb

/-- What a text that is not empty, all of base 32 characters, decodes to. -/
theorem base32Decode_holds {value : String} (hne : value ≠ "")
    (hall : ∀ byte ∈ Text.utf8 value, IsBase32 byte) :
    ∃ out buffer bits, base32Decode value = some out ∧ bits < 8
      ∧ Holds 5 8 ((Text.utf8 value).map charDigit) (out.map UInt8.toNat) buffer bits := by
  have hguard : ¬ (value = "" ∨ (Text.utf8 value).contains 61) := by
    rintro (h | h)
    · exact hne h
    · exact absurd (hall 61 (List.contains_iff_mem.mp h)) (by decide)
  obtain ⟨out, buffer, bits, heq, hlt, hholds⟩ :=
    @base32DecodeLoop_holds (Text.utf8 value) [] _ [] 0 _
      (Holds.start (w := 5) (v := 8)) (by omega) hall
  rw [List.append_nil] at heq
  refine ⟨out, buffer.toNat, bits, ?_, hlt, hholds⟩
  rw [base32Decode, if_neg hguard, heq]
  rfl

theorem base32Decode_isSome (value : String) :
    (base32Decode value).isSome ↔ value ≠ "" ∧ ∀ byte ∈ Text.utf8 value, IsBase32 byte := by
  constructor
  · intro h
    unfold base32Decode at h
    split at h
    · exact absurd h (by simp)
    · rename_i hok
      push Not at hok
      exact ⟨hok.1, base32DecodeLoop_isSome h⟩
  · rintro ⟨hne, hall⟩
    obtain ⟨out, buffer, bits, heq, -, -⟩ := base32Decode_holds hne hall
    rw [heq]
    rfl

/-! ## Both ways -/

/-- `str::to_ascii_uppercase`. -/
def toAsciiUppercase (s : String) : String :=
  String.ofList (s.toList.map fun c =>
    if 97 ≤ c.toNat ∧ c.toNat ≤ 122 then Char.ofNat (c.toNat - 32) else c)

theorem utf8_digitChars {ds : List Nat} (h : Fits 5 ds) :
    Text.utf8 (String.ofList (ds.map digitChar))
      = ds.map fun d => UInt8.ofNat (digitChar d).toNat := by
  rw [Text.utf8_of_ascii, String.toList_ofList, List.map_map]
  · rfl
  · intro c hc
    rw [String.toList_ofList] at hc
    obtain ⟨d, hd, rfl⟩ := List.mem_map.mp hc
    exact (digitChar_spec ⟨d, h d hd⟩).1

/-- The bytes of the text the encoder writes are the digits, as characters. -/
theorem base32Encode_digits (b : Bytes) :
    ∃ out buffer bits, base32Encode b = String.ofList ((padded 5 out buffer bits).map digitChar)
      ∧ bits < 5 ∧ Holds 8 5 (b.map UInt8.toNat) out buffer bits
      ∧ (∀ byte ∈ Text.utf8 (base32Encode b), IsBase32 byte)
      ∧ (Text.utf8 (base32Encode b)).map charDigit = padded 5 out buffer bits := by
  obtain ⟨out, buffer, bits, heq, hlt, hholds⟩ := base32Encode_holds b
  have hfits := hholds.padded_fits hlt
  refine ⟨out, buffer, bits, heq, hlt, hholds, ?_, ?_⟩
  · intro byte hbyte
    rw [heq, utf8_digitChars hfits] at hbyte
    obtain ⟨d, hd, rfl⟩ := List.mem_map.mp hbyte
    exact (digitChar_spec ⟨d, hfits d hd⟩).2.1
  · rw [heq, utf8_digitChars hfits, List.map_map]
    calc (padded 5 out buffer bits).map _ = (padded 5 out buffer bits).map id := by
          refine List.map_congr_left ?_
          intro d hd
          exact (digitChar_spec ⟨d, hfits d hd⟩).2.2
      _ = padded 5 out buffer bits := List.map_id _

/-- A text with the digits of an encoding decodes to what was encoded. -/
theorem base32Decode_of_digits {b : Bytes} {value : String} (hne : value ≠ "")
    (hall : ∀ byte ∈ Text.utf8 value, IsBase32 byte)
    (hdigits : (Text.utf8 value).map charDigit = (Text.utf8 (base32Encode b)).map charDigit) :
    base32Decode value = some b := by
  obtain ⟨out, buffer, bits, -, hlt, hholds, -, hpadded⟩ := base32Encode_digits b
  obtain ⟨back, buffer', bits', hdecode, hlt', hholds'⟩ := base32Decode_holds hne hall
  rw [hdigits, hpadded] at hholds'
  have hbytes : Fits 8 (b.map UInt8.toNat) := by
    intro d hd
    obtain ⟨byte, -, rfl⟩ := List.mem_map.mp hd
    exact byte.toNat_lt
  have hback := hholds.roundTrip hholds' hlt hlt' (by omega) hbytes
  rw [hdecode]
  exact congrArg some (List.map_injective_iff.mpr (fun x y => UInt8.toNat_inj.mp) hback)

theorem base32Encode_ne_empty {b : Bytes} (hb : b ≠ []) : base32Encode b ≠ "" := by
  intro h
  obtain ⟨out, buffer, bits, -, hlt, hholds, -, hpadded⟩ := base32Encode_digits b
  have hlen := hholds.padded_length hlt
  rw [← hpadded, h] at hlen
  have hzero : (b.map UInt8.toNat).length = 0 := by
    have hnil : ((Text.utf8 "").map charDigit).length = 0 := rfl
    omega
  rw [List.length_map] at hzero
  exact hb (List.length_eq_zero_iff.mp hzero)

/-- A character and its upper case stand for the same digit. -/
theorem upper_spec {c : Char} (h : (if 97 ≤ c.toNat ∧ c.toNat ≤ 122 then Char.ofNat (c.toNat - 32)
      else c).toNat < 128) :
    c.toNat < 128
      ∧ (IsBase32 (UInt8.ofNat (if 97 ≤ c.toNat ∧ c.toNat ≤ 122 then Char.ofNat (c.toNat - 32)
          else c).toNat) → IsBase32 (UInt8.ofNat c.toNat))
      ∧ charDigit (UInt8.ofNat c.toNat)
        = charDigit (UInt8.ofNat (if 97 ≤ c.toNat ∧ c.toNat ≤ 122 then Char.ofNat (c.toNat - 32)
          else c).toNat) := by
  have hlower : ∀ n : Fin 128, 97 ≤ n.val ∧ n.val ≤ 122 →
      IsBase32 (UInt8.ofNat n.val)
        ∧ charDigit (UInt8.ofNat n.val)
          = charDigit (UInt8.ofNat (Char.ofNat (n.val - 32)).toNat) := by decide +kernel
  by_cases hc : 97 ≤ c.toNat ∧ c.toNat ≤ 122
  · have hspec := hlower ⟨c.toNat, by omega⟩ hc
    rw [if_pos hc]
    exact ⟨by omega, fun _ => hspec.1, hspec.2⟩
  · rw [if_neg hc] at h ⊢
    exact ⟨h, id, rfl⟩

/-- What two texts that differ in letter case at most are decoded to. -/
theorem utf8_of_upper {t : String} (h : ∀ byte ∈ Text.utf8 (toAsciiUppercase t), IsBase32 byte) :
    (∀ byte ∈ Text.utf8 t, IsBase32 byte)
      ∧ (Text.utf8 t).map charDigit = (Text.utf8 (toAsciiUppercase t)).map charDigit := by
  have hupper := Text.ascii_of_utf8 fun byte hbyte => isBase32_lt (h byte hbyte)
  rw [Text.utf8_of_ascii hupper] at h ⊢
  rw [toAsciiUppercase, String.toList_ofList] at h hupper ⊢
  -- character by character
  have hchars := fun c hc => upper_spec (c := c) (hupper _ (List.mem_map_of_mem hc))
  rw [Text.utf8_of_ascii fun c hc => (hchars c hc).1]
  constructor
  · intro byte hbyte
    obtain ⟨c, hc, rfl⟩ := List.mem_map.mp hbyte
    exact (hchars c hc).2.1 (h _ (List.mem_map_of_mem (List.mem_map_of_mem hc)))
  · rw [List.map_map, List.map_map, List.map_map]
    exact List.map_congr_left fun c hc => (hchars c hc).2.2

/-! ## The codec -/

/-- What the two functions promise. -/
structure Base32Codec : Prop where
  /-- What is encoded is decoded again. -/
  roundTrip : ∀ b : Bytes, b ≠ [] → base32Decode (base32Encode b) = some b
  /-- Wherever the encoder stands, the digits written and the low bits of the buffer are the bytes
  read: the shifts have pushed out nothing that is still to be written. -/
  encoderKeeps : ∀ read rest : Bytes, ∃ out buffer bits,
    base32EncodeLoop (read ++ rest) [] 0 0 = base32EncodeLoop rest (out.map digitChar) buffer bits
      ∧ bits < 5 ∧ Holds 8 5 (read.map UInt8.toNat) out buffer.toNat bits
  /-- The same of the decoder, as long as it reads base 32 characters. -/
  decoderKeeps : ∀ read rest : Bytes, (∀ byte ∈ read, IsBase32 byte) → ∃ out buffer bits,
    base32DecodeLoop (read ++ rest) [] 0 0 = base32DecodeLoop rest out buffer bits
      ∧ bits < 8 ∧ Holds 5 8 (read.map charDigit) (out.map UInt8.toNat) buffer.toNat bits
  /-- Only texts of base 32 characters are decoded, and all of them but the empty one. -/
  accepts : ∀ value, (base32Decode value).isSome
    ↔ value ≠ "" ∧ ∀ byte ∈ Text.utf8 value, IsBase32 byte
  /-- Five bits a character, eight a byte. -/
  size : ∀ value out, base32Decode value = some out → out.length = 5 * value.length / 8
  /-- A text that is an encoding up to letter case is what its bytes are encoded to, in upper
  case. -/
  undone : ∀ b t, b ≠ [] → toAsciiUppercase t = base32Encode b →
    ∃ out, base32Decode t = some out ∧ base32Encode out = toAsciiUppercase t

/-- Base 32 as `web_auth.rs` writes and reads it. -/
theorem base32_codec : Base32Codec where
  roundTrip b hb := by
    obtain ⟨out, buffer, bits, -, -, -, hall, -⟩ := base32Encode_digits b
    exact base32Decode_of_digits (base32Encode_ne_empty hb) hall rfl
  encoderKeeps read rest :=
    @base32EncodeLoop_holds read rest _ _ 0 _ (Holds.start (w := 8) (v := 5)) (by omega)
  decoderKeeps read rest hread :=
    @base32DecodeLoop_holds read rest _ [] 0 _ (Holds.start (w := 5) (v := 8))
      (by omega) hread
  accepts := base32Decode_isSome
  size value out h := by
    obtain ⟨hne, hall⟩ := (base32Decode_isSome value).mp (by rw [h]; rfl)
    obtain ⟨out', buffer, bits, heq, hlt, hholds⟩ := base32Decode_holds hne hall
    rw [h] at heq
    have hlen := hholds.length
    have hchars : (Text.utf8 value).length = value.length := by
      rw [Text.utf8_of_ascii (Text.ascii_of_utf8 fun byte hbyte => isBase32_lt (hall byte hbyte)),
        List.length_map, String.length_toList]
    rw [List.length_map, List.length_map, ← Option.some.inj heq, hchars] at hlen
    omega
  undone b t hb ht := by
    obtain ⟨out, buffer, bits, -, -, -, hall, -⟩ := base32Encode_digits b
    rw [← ht] at hall
    obtain ⟨hbase, hdigits⟩ := utf8_of_upper hall
    rw [ht] at hdigits
    have hne : t ≠ "" := by
      rintro rfl
      exact base32Encode_ne_empty hb (ht.symm.trans rfl)
    refine ⟨b, base32Decode_of_digits hne hbase hdigits, ht.symm⟩

end WebAuth

end Blackboard
