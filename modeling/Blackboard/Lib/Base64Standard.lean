import Blackboard.Lib.Base64

/-!
# Standard base 64 with padding

The sextets of URL-safe base 64 under two other characters, filled up with equality signs to
a multiple of four. A strict decoder takes exactly as many signs as the group lacks, so here
too a text that decodes is the one its bytes encode to.
-/

/-- Standard base 64 with padding. -/
class Base64Standard where
  encode : Bytes → String
  decode : String → Option Bytes

namespace Base64Standard

/-- What a strict encoding keeps. -/
class Strict [Base64Standard] : Prop where
  /-- Every run of bytes is read back. -/
  decode_encode : ∀ bytes : Bytes, Base64Standard.decode (Base64Standard.encode bytes) = some bytes
  /-- A text that decodes is the encoding of what it decodes to. -/
  encode_of_decode : ∀ {text : String} {bytes : Bytes},
    Base64Standard.decode text = some bytes → Base64Standard.encode bytes = text

/-- The character a sextet is written as. -/
def character (v : Fin 64) : Char :=
  if v.val = 62 then '+' else if v.val = 63 then '/' else Base64Url.character v

/-- The sextet a character stands for. -/
def sextet (c : Char) : Option (Fin 64) :=
  (List.finRange 64).find? fun v => decide (character v = c)

/-- How many signs a run of sextets is filled up with. -/
def missing (n : Nat) : Nat := (4 - n % 4) % 4

/-- What a character stands for, as a number. -/
def charIndex (c : Char) : Nat :=
  if c = '+' then 62 else if c = '/' then 63 else Base64Url.charIndex c

theorem charIndex_character : ∀ v : Fin 64, charIndex (character v) = v.val := by decide

theorem character_ne_sign : ∀ v : Fin 64, character v ≠ '=' := by decide

theorem character_of_sextet {c : Char} {v : Fin 64} (h : sextet c = some v) : character v = c := by
  have := List.find?_some h
  exact of_decide_eq_true this

theorem sextet_character (v : Fin 64) : sextet (character v) = some v := by
  cases hv : sextet (character v) with
  | none =>
      have hnone := List.find?_eq_none.mp hv v (List.mem_finRange v)
      simp at hnone
  | some w =>
      have hindex := congrArg charIndex (character_of_sextet hv)
      rw [charIndex_character, charIndex_character] at hindex
      rw [Fin.ext hindex]

theorem mapM_sextet (vs : List (Fin 64)) : (vs.map character).mapM sextet = some vs := by
  induction vs with
  | nil => rfl
  | cons v vs ih =>
      rw [List.map_cons, List.mapM_cons, sextet_character, ih]
      rfl

theorem map_character_of_mapM {cs : List Char} {vs : List (Fin 64)}
    (h : cs.mapM sextet = some vs) : vs.map character = cs := by
  induction cs generalizing vs with
  | nil =>
      obtain rfl := Option.some.inj h
      rfl
  | cons c cs ih =>
      rw [List.mapM_cons] at h
      obtain ⟨v, hv, h⟩ := Option.bind_eq_some_iff.mp h
      obtain ⟨vs', hvs, h⟩ := Option.bind_eq_some_iff.mp h
      obtain rfl := Option.some.inj h
      rw [List.map_cons, character_of_sextet hv, ih hvs]

/-- A text without its signs, if it has as many as it lacks. -/
def strip (cs : List Char) : Option (List Char) :=
  let body := cs.takeWhile fun c => decide (c ≠ '=')
  if cs = body ++ List.replicate (missing body.length) '=' then some body else none

theorem strip_append {body : List Char} (h : '=' ∉ body) :
    strip (body ++ List.replicate (missing body.length) '=') = some body := by
  have hbody : ∀ cs : List Char, (∀ c ∈ cs, c = '=') →
      (body ++ cs).takeWhile (fun c => decide (c ≠ '=')) = body := by
    intro cs hcs
    rw [List.takeWhile_append_of_pos fun c hc => by simpa using ne_of_mem_of_not_mem hc h]
    cases cs with
    | nil => simp
    | cons c cs => simp [hcs c List.mem_cons_self]
  unfold strip
  simp only [hbody _ fun c hc => List.eq_of_mem_replicate hc, if_true]

theorem eq_of_strip {cs body : List Char} (h : strip cs = some body) :
    cs = body ++ List.replicate (missing body.length) '=' := by
  unfold strip at h
  dsimp only at h
  split at h
  · rename_i heq
    rw [← Option.some.inj h]
    exact heq
  · exact absurd h (by simp)

/-- Standard base 64, as it is computed. -/
@[reducible] def padded : Base64Standard where
  encode bytes :=
    let body := (Base64Url.pack bytes).map character
    String.ofList (body ++ List.replicate (missing body.length) '=')
  decode text := ((strip text.toList).bind fun body => body.mapM sextet).bind Base64Url.unpack

theorem padded_strict : @Strict padded :=
  let _ := padded
  { decode_encode := by
      intro bytes
      have hsign : '=' ∉ (Base64Url.pack bytes).map character := by
        intro h
        obtain ⟨v, -, hv⟩ := List.mem_map.mp h
        exact character_ne_sign v hv
      show ((strip (String.ofList _).toList).bind fun body => body.mapM sextet).bind
        Base64Url.unpack = some bytes
      rw [String.toList_ofList, strip_append hsign]
      dsimp only [Option.bind_some]
      rw [mapM_sextet]
      exact Base64Url.unpack_pack bytes
    encode_of_decode := by
      intro text bytes h
      obtain ⟨vs, hvs, hunpack⟩ := Option.bind_eq_some_iff.mp h
      obtain ⟨body, hstrip, hbody⟩ := Option.bind_eq_some_iff.mp hvs
      have hmap := map_character_of_mapM hbody
      show String.ofList ((Base64Url.pack bytes).map character
        ++ List.replicate (missing ((Base64Url.pack bytes).map character).length) '=') = text
      rw [Base64Url.pack_of_unpack hunpack, hmap, ← eq_of_strip hstrip, String.ofList_toList] }

end Base64Standard
