import Blackboard.Lib.Crypto

/-!
# URL-safe base 64, strict and without padding

Three bytes are four sextets, and a sextet is a character of the alphabet. A text of two
or three characters more than a multiple of four ends in a group that is cut short; its
last character has bits that stand for nothing, and a strict decoder takes them only when
they are zero. So a text that decodes is the one its bytes encode to (`encode_of_decode`):
no two texts stand for the same bytes.
-/

namespace Base64Url

/-! ## The alphabet -/

/-- The character a sextet is written as. -/
def character (v : Fin 64) : Char :=
  if v.val < 26 then Char.ofNat (65 + v.val)
  else if v.val < 52 then Char.ofNat (71 + v.val)
  else if v.val < 62 then Char.ofNat (v.val - 4)
  else if v.val = 62 then '-'
  else '_'

/-- The sextet a character stands for. -/
def sextet (c : Char) : Option (Fin 64) :=
  (List.finRange 64).find? fun v => decide (character v = c)

theorem character_of_sextet {c : Char} {v : Fin 64} (h : sextet c = some v) : character v = c := by
  have := List.find?_some h
  exact of_decide_eq_true this

/-- What a character stands for, as a number: the alphabet written the other way. -/
def charIndex (c : Char) : Nat :=
  if c = '-' then 62
  else if c = '_' then 63
  else if c.toNat < 65 then c.toNat + 4
  else if c.toNat < 97 then c.toNat - 65
  else c.toNat - 71

theorem charIndex_character : ∀ v : Fin 64, charIndex (character v) = v.val := by decide

theorem character_inj {v w : Fin 64} (h : character v = character w) : v = w := by
  apply Fin.ext
  rw [← charIndex_character v, ← charIndex_character w, h]

theorem sextet_character (v : Fin 64) : sextet (character v) = some v := by
  cases hv : sextet (character v) with
  | none =>
      have hnone := List.find?_eq_none.mp hv v (List.mem_finRange v)
      simp at hnone
  | some w => rw [character_inj (character_of_sextet hv)]

theorem character_ne_dot : ∀ v : Fin 64, character v ≠ '.' := by decide

/-- The sextets a text stands for. -/
def sextets : List Char → Option (List (Fin 64))
  | [] => some []
  | c :: cs =>
      match sextet c, sextets cs with
      | some v, some vs => some (v :: vs)
      | _, _ => none

theorem sextets_map_character (vs : List (Fin 64)) : sextets (vs.map character) = some vs := by
  induction vs with
  | nil => rfl
  | cons v vs ih => simp only [List.map_cons, sextets, sextet_character, ih]

theorem map_character_of_sextets {cs : List Char} {vs : List (Fin 64)} (h : sextets cs = some vs) :
    vs.map character = cs := by
  induction cs generalizing vs with
  | nil =>
      have hvs : [] = vs := Option.some.inj h
      rw [← hvs]
      rfl
  | cons c cs ih =>
      simp only [sextets] at h
      split at h
      · rename_i v vs' hc hcs
        rw [← Option.some.inj h, List.map_cons, character_of_sextet hc, ih hcs]
      · exact absurd h (by simp)

/-! ## Bytes and sextets -/

/-- The sextets of a run of bytes, a short last group filled with zero bits. -/
def pack : Bytes → List (Fin 64)
  | [] => []
  | [a] => [Fin.ofNat 64 (a.toNat / 4), Fin.ofNat 64 (a.toNat % 4 * 16)]
  | [a, b] =>
      [Fin.ofNat 64 (a.toNat / 4), Fin.ofNat 64 (a.toNat % 4 * 16 + b.toNat / 16),
        Fin.ofNat 64 (b.toNat % 16 * 4)]
  | a :: b :: c :: rest =>
      Fin.ofNat 64 (a.toNat / 4) :: Fin.ofNat 64 (a.toNat % 4 * 16 + b.toNat / 16)
        :: Fin.ofNat 64 (b.toNat % 16 * 4 + c.toNat / 64) :: Fin.ofNat 64 (c.toNat % 64)
        :: pack rest

/-- The bytes of a run of sextets. -/
def unpack : List (Fin 64) → Option Bytes
  | [] => some []
  | [_] => none
  | [w, x] => if x.val % 16 = 0 then some [UInt8.ofNat (w.val * 4 + x.val / 16)] else none
  | [w, x, y] =>
      if y.val % 4 = 0 then
        some [UInt8.ofNat (w.val * 4 + x.val / 16), UInt8.ofNat (x.val % 16 * 16 + y.val / 4)]
      else none
  | w :: x :: y :: z :: rest =>
      (unpack rest).map fun bytes =>
        UInt8.ofNat (w.val * 4 + x.val / 16) :: UInt8.ofNat (x.val % 16 * 16 + y.val / 4)
          :: UInt8.ofNat (y.val % 4 * 64 + z.val) :: bytes

theorem ofNat_eq_byte {a : UInt8} {n : Nat} (h : n = a.toNat) : UInt8.ofNat n = a := by
  rw [h, UInt8.ofNat_toNat]

theorem ofNat_eq_sextet {v : Fin 64} {n : Nat} (h : n = v.val) : Fin.ofNat 64 n = v := by
  subst h
  apply Fin.ext
  show v.val % 64 = v.val
  omega

theorem toNat_ofNat_of_lt {n : Nat} (h : n < 256) : (UInt8.ofNat n).toNat = n := by
  rw [UInt8.toNat_ofNat']
  omega

theorem unpack_pack (bytes : Bytes) : unpack (pack bytes) = some bytes := by
  induction bytes using pack.induct with
  | case1 => rfl
  | case2 a =>
      have ha := a.toNat_lt
      have h1 : UInt8.ofNat (a.toNat / 4 % 64 * 4 + a.toNat % 4 * 16 % 64 / 16) = a :=
        ofNat_eq_byte (by omega)
      have h0 : a.toNat % 4 * 16 % 64 % 16 = 0 := by omega
      simp only [pack, unpack, Fin.val_ofNat, h1, h0, if_true]
  | case3 a b =>
      have ha := a.toNat_lt
      have hb := b.toNat_lt
      have h1 : UInt8.ofNat
          (a.toNat / 4 % 64 * 4 + (a.toNat % 4 * 16 + b.toNat / 16) % 64 / 16) = a :=
        ofNat_eq_byte (by omega)
      have h2 : UInt8.ofNat
          ((a.toNat % 4 * 16 + b.toNat / 16) % 64 % 16 * 16 + b.toNat % 16 * 4 % 64 / 4) = b :=
        ofNat_eq_byte (by omega)
      have h0 : b.toNat % 16 * 4 % 64 % 4 = 0 := by omega
      simp only [pack, unpack, Fin.val_ofNat, h1, h2, h0, if_true]
  | case4 a b c rest ih =>
      have ha := a.toNat_lt
      have hb := b.toNat_lt
      have hc := c.toNat_lt
      have h1 : UInt8.ofNat
          (a.toNat / 4 % 64 * 4 + (a.toNat % 4 * 16 + b.toNat / 16) % 64 / 16) = a :=
        ofNat_eq_byte (by omega)
      have h2 : UInt8.ofNat ((a.toNat % 4 * 16 + b.toNat / 16) % 64 % 16 * 16
          + (b.toNat % 16 * 4 + c.toNat / 64) % 64 / 4) = b := ofNat_eq_byte (by omega)
      have h3 : UInt8.ofNat
          ((b.toNat % 16 * 4 + c.toNat / 64) % 64 % 4 * 64 + c.toNat % 64 % 64) = c :=
        ofNat_eq_byte (by omega)
      simp only [pack, unpack, ih, Fin.val_ofNat, Option.map_some, h1, h2, h3]

/-- The check on the unused bits is what makes this hold. -/
theorem pack_of_unpack {vs : List (Fin 64)} {bytes : Bytes} (h : unpack vs = some bytes) :
    pack bytes = vs := by
  induction vs using unpack.induct generalizing bytes with
  | case1 =>
      have hb : [] = bytes := Option.some.inj h
      rw [← hb]
      rfl
  | case2 v => exact absurd h (by simp [unpack])
  | case3 w x hzero =>
      rw [unpack, if_pos hzero] at h
      rw [← Option.some.inj h]
      have hw := w.isLt
      have hx := x.isLt
      have h1 : (UInt8.ofNat (w.val * 4 + x.val / 16)).toNat = w.val * 4 + x.val / 16 :=
        toNat_ofNat_of_lt (by omega)
      simp only [pack, h1]
      rw [ofNat_eq_sextet (v := w) (by omega), ofNat_eq_sextet (v := x) (by omega)]
  | case4 w x hzero =>
      rw [unpack, if_neg hzero] at h
      exact absurd h (by simp)
  | case5 w x y hzero =>
      rw [unpack, if_pos hzero] at h
      rw [← Option.some.inj h]
      have hw := w.isLt
      have hx := x.isLt
      have hy := y.isLt
      have h1 : (UInt8.ofNat (w.val * 4 + x.val / 16)).toNat = w.val * 4 + x.val / 16 :=
        toNat_ofNat_of_lt (by omega)
      have h2 : (UInt8.ofNat (x.val % 16 * 16 + y.val / 4)).toNat = x.val % 16 * 16 + y.val / 4 :=
        toNat_ofNat_of_lt (by omega)
      simp only [pack, h1, h2]
      rw [ofNat_eq_sextet (v := w) (by omega), ofNat_eq_sextet (v := x) (by omega),
        ofNat_eq_sextet (v := y) (by omega)]
  | case6 w x y hzero =>
      rw [unpack, if_neg hzero] at h
      exact absurd h (by simp)
  | case7 w x y z rest ih =>
      rw [unpack] at h
      obtain ⟨tail, htail, hbytes⟩ := Option.map_eq_some_iff.mp h
      rw [← hbytes]
      have hw := w.isLt
      have hx := x.isLt
      have hy := y.isLt
      have hz := z.isLt
      have h1 : (UInt8.ofNat (w.val * 4 + x.val / 16)).toNat = w.val * 4 + x.val / 16 :=
        toNat_ofNat_of_lt (by omega)
      have h2 : (UInt8.ofNat (x.val % 16 * 16 + y.val / 4)).toNat = x.val % 16 * 16 + y.val / 4 :=
        toNat_ofNat_of_lt (by omega)
      have h3 : (UInt8.ofNat (y.val % 4 * 64 + z.val)).toNat = y.val % 4 * 64 + z.val :=
        toNat_ofNat_of_lt (by omega)
      simp only [pack, h1, h2, h3, ih htail]
      rw [ofNat_eq_sextet (v := w) (by omega), ofNat_eq_sextet (v := x) (by omega),
        ofNat_eq_sextet (v := y) (by omega), ofNat_eq_sextet (v := z) (by omega)]

/-! ## The encoding -/

/-- What a strict encoding keeps. -/
class Strict [Base64Url] : Prop where
  /-- Every run of bytes is read back. -/
  decode_encode : ∀ bytes : Bytes, Base64Url.decode (Base64Url.encode bytes) = some bytes
  /-- A text that decodes is the encoding of what it decodes to. -/
  encode_of_decode : ∀ {text : String} {bytes : Bytes},
    Base64Url.decode text = some bytes → Base64Url.encode bytes = text
  /-- No text of the encoding has a character outside the alphabet, such as a full stop. -/
  dot_not_mem_encode : ∀ bytes : Bytes, '.' ∉ (Base64Url.encode bytes).toList

/-- URL-safe base 64, as it is computed. -/
@[reducible] def noPad : Base64Url where
  encode bytes := String.ofList ((pack bytes).map character)
  decode text := (sextets text.toList).bind unpack

theorem noPad_strict : @Strict noPad :=
  let _ := noPad
  { decode_encode := by
      intro bytes
      show (sextets (String.ofList ((pack bytes).map character)).toList).bind unpack = some bytes
      rw [String.toList_ofList, sextets_map_character]
      exact unpack_pack bytes
    encode_of_decode := by
      intro text bytes h
      obtain ⟨vs, hvs, hunpack⟩ := Option.bind_eq_some_iff.mp h
      show String.ofList ((pack bytes).map character) = text
      rw [pack_of_unpack hunpack, map_character_of_sextets hvs, String.ofList_toList]
    dot_not_mem_encode := by
      intro bytes h
      rw [show Base64Url.encode bytes = String.ofList ((pack bytes).map character) from rfl,
        String.toList_ofList] at h
      obtain ⟨v, -, hv⟩ := List.mem_map.mp h
      exact character_ne_dot v hv }

end Base64Url
