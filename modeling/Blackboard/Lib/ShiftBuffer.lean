import Mathlib.Data.Nat.Digits.Lemmas

/-!
# Regrouping digits through a shift buffer

A codec that turns digits of `w` bits into digits of `v` bits pushes each digit it reads
into the low end of a buffer and, while at least `v` bits are pending, writes the `v` that
have waited longest. The buffer is never cleared, so its high bits are rubbish: what
counts is its remainder modulo `2 ^ bits`.

The invariant (`Holds`) says the digits read and the digits written, with the pending bits
after them, are two writings of one number. From it a round trip through the padded
writing gives the digits back (`Holds.roundTrip`).
-/

namespace ShiftBuffer

/-- The number a run of digits of `w` bits writes, the most significant digit first. -/
def value (w : Nat) (ds : List Nat) : Nat := Nat.ofDigits (2 ^ w) ds.reverse

/-- Every digit has at most `w` bits. -/
def Fits (w : Nat) (ds : List Nat) : Prop := ∀ d ∈ ds, d < 2 ^ w

section Digits

variable {w : Nat}

theorem value_nil : value w [] = 0 := rfl

theorem value_concat (ds : List Nat) (d : Nat) :
    value w (ds ++ [d]) = value w ds * 2 ^ w + d := by
  unfold value
  rw [List.reverse_concat, Nat.ofDigits_cons, Nat.mul_comm]
  omega

theorem fits_nil : Fits w [] := by
  intro d hd
  exact absurd hd List.not_mem_nil

theorem Fits.concat {ds : List Nat} {d : Nat} (h : Fits w ds) (hd : d < 2 ^ w) :
    Fits w (ds ++ [d]) := by
  intro e he
  rcases List.mem_append.mp he with he | he
  · exact h e he
  · rw [List.mem_singleton.mp he]
    exact hd

theorem value_inj {ds es : List Nat} (hw : 0 < w) (hlen : ds.length = es.length) (hd : Fits w ds)
    (he : Fits w es) (h : value w ds = value w es) : ds = es := by
  have hbase : 1 < 2 ^ w := Nat.one_lt_two_pow (by omega)
  have hrev : ds.reverse = es.reverse :=
    Nat.ofDigits_inj_of_len_eq hbase (by simpa using hlen)
      (fun d hmem => hd d (List.mem_reverse.mp hmem))
      (fun e hmem => he e (List.mem_reverse.mp hmem)) h
  exact List.reverse_injective hrev

end Digits

/-! ## The invariant -/

/-- The digits read are the digits written and then the pending bits. -/
structure Holds (w v : Nat) (ds out : List Nat) (buffer bits : Nat) : Prop where
  length : ds.length * w = out.length * v + bits
  number : value w ds = value v out * 2 ^ bits + buffer % 2 ^ bits
  fits : Fits v out

namespace Holds

variable {w v : Nat} {ds out : List Nat} {buffer bits : Nat}

theorem start : Holds w v [] [] 0 0 where
  length := by simp
  number := rfl
  fits := fits_nil

/-- A digit goes in at the low end. -/
theorem take (h : Holds w v ds out buffer bits) {d buffer' : Nat}
    (hpush : buffer' % 2 ^ (bits + w) = buffer % 2 ^ bits * 2 ^ w + d) :
    Holds w v (ds ++ [d]) out buffer' (bits + w) where
  length := by
    have := h.length
    rw [List.length_append, Nat.add_mul, List.length_singleton]
    omega
  number := by
    rw [value_concat, h.number, hpush, Nat.pow_add]
    ring
  fits := h.fits

/-- The `v` bits that have waited longest go out; the buffer stays as it is. -/
theorem emit (h : Holds w v ds out buffer bits) (hbits : v ≤ bits) :
    Holds w v ds (out ++ [buffer / 2 ^ (bits - v) % 2 ^ v]) buffer (bits - v) where
  length := by
    have := h.length
    rw [List.length_append, Nat.add_mul, List.length_singleton]
    omega
  number := by
    -- the pending bits are the ones that go out and the ones that stay
    have hsplit : buffer % 2 ^ bits
        = buffer / 2 ^ (bits - v) % 2 ^ v * 2 ^ (bits - v) + buffer % 2 ^ (bits - v) := by
      have hpow : 2 ^ bits = 2 ^ (bits - v) * 2 ^ v := by
        rw [← Nat.pow_add]
        congr 1
        omega
      rw [hpow, Nat.mod_mul]
      ring
    have hpow : 2 ^ bits = 2 ^ v * 2 ^ (bits - v) := by
      rw [← Nat.pow_add]
      congr 1
      omega
    rw [value_concat, h.number, hsplit, hpow]
    ring
  fits := h.fits.concat (Nat.mod_lt _ (Nat.two_pow_pos v))

end Holds

/-- The pending bits as a last digit, filled up with zeros. -/
def padded (v : Nat) (out : List Nat) (buffer bits : Nat) : List Nat :=
  if 0 < bits then out ++ [buffer % 2 ^ bits * 2 ^ (v - bits)] else out

/-- The number of zeros the padding adds. -/
def padding (v bits : Nat) : Nat := if 0 < bits then v - bits else 0

section RoundTrip

variable {w v : Nat} {ds out : List Nat} {buffer bits : Nat}

theorem Holds.padded_length (h : Holds w v ds out buffer bits) (hbits : bits < v) :
    (padded v out buffer bits).length * v = ds.length * w + padding v bits := by
  have hlen := h.length
  unfold padded padding
  split
  · rw [List.length_append, Nat.add_mul, List.length_singleton]
    omega
  · omega

theorem Holds.padded_value (h : Holds w v ds out buffer bits) (hbits : bits < v) :
    value v (padded v out buffer bits) = value w ds * 2 ^ padding v bits := by
  have hnumber := h.number
  unfold padded padding
  split
  · have hpow : 2 ^ v = 2 ^ bits * 2 ^ (v - bits) := by
      rw [← Nat.pow_add]
      congr 1
      omega
    rw [value_concat, hnumber, hpow]
    ring
  · have hzero : bits = 0 := by omega
    rw [hnumber, hzero]
    simp [Nat.mod_one]

theorem Holds.padded_fits (h : Holds w v ds out buffer bits) (hbits : bits < v) :
    Fits v (padded v out buffer bits) := by
  unfold padded
  split
  · refine h.fits.concat ?_
    have hpow : 2 ^ v = 2 ^ bits * 2 ^ (v - bits) := by
      rw [← Nat.pow_add]
      congr 1
      omega
    rw [hpow]
    exact Nat.mul_lt_mul_of_pos_right (Nat.mod_lt _ (Nat.two_pow_pos _)) (Nat.two_pow_pos _)
  · exact h.fits

/-- Writing digits of `w` bits as digits of `v` bits, padding the last, and writing those as
digits of `w` bits again gives the digits back: the padding is what stays pending. -/
theorem Holds.roundTrip {back : List Nat} {buffer' bits' : Nat} (h : Holds w v ds out buffer bits)
    (h' : Holds v w (padded v out buffer bits) back buffer' bits') (hbits : bits < v)
    (hbits' : bits' < w) (hvw : v ≤ w) (hds : Fits w ds) : back = ds := by
  have hlen := h.padded_length hbits
  have hlen' := h'.length
  have hpad : padding v bits < w := by
    unfold padding
    split <;> omega
  -- the lengths agree, so the bits left pending are the padding
  have hback : back.length = ds.length := by
    rw [hlen] at hlen'
    rcases Nat.lt_trichotomy back.length ds.length with hlt | heq | hgt
    · have := Nat.mul_le_mul_right w (Nat.succ_le_of_lt hlt)
      rw [Nat.succ_mul] at this
      omega
    · exact heq
    · have := Nat.mul_le_mul_right w (Nat.succ_le_of_lt hgt)
      rw [Nat.succ_mul] at this
      omega
  have hleft : bits' = padding v bits := by
    rw [hlen, hback] at hlen'
    omega
  -- and the numbers agree up to what is less than the padding's weight
  have hnumber := h'.number
  rw [h.padded_value hbits, hleft] at hnumber
  have hsame : value w back = value w ds := by
    have hpos := Nat.two_pow_pos (padding v bits)
    have hrest := Nat.mod_lt buffer' hpos
    have hdiv : (value w back * 2 ^ padding v bits + buffer' % 2 ^ padding v bits)
        / 2 ^ padding v bits = value w back := by
      rw [Nat.mul_comm, Nat.mul_add_div hpos, Nat.div_eq_of_lt hrest, Nat.add_zero]
    rw [← hdiv, ← hnumber, Nat.mul_div_cancel _ hpos]
  exact value_inj (by omega) hback h'.fits hds hsame

end RoundTrip

/-! ## Buffers of 32 bits -/

/-- A shift and an or push a digit in, as long as the pending bits still fit. -/
theorem toNat_push (buffer digit : UInt32) {bits w : Nat} (hw : w < 32) (hfit : bits + w ≤ 32)
    (hdigit : digit.toNat < 2 ^ w) :
    ((buffer <<< UInt32.ofNat w) ||| digit).toNat % 2 ^ (bits + w)
      = buffer.toNat % 2 ^ bits * 2 ^ w + digit.toNat := by
  have hshift : (UInt32.ofNat w).toNat % 32 = w := by
    rw [UInt32.toNat_ofNat']
    omega
  have hdvd : 2 ^ (bits + w) ∣ 2 ^ 32 := Nat.pow_dvd_pow 2 hfit
  rw [UInt32.toNat_or, UInt32.toNat_shiftLeft, hshift, Nat.or_mod_two_pow,
    Nat.mod_mod_of_dvd _ hdvd, Nat.shiftLeft_eq, Nat.pow_add, Nat.mul_mod_mul_right,
    Nat.mod_eq_of_lt (a := digit.toNat)]
  · rw [Nat.mul_comm, Nat.two_pow_add_eq_or_of_lt hdigit]
  · calc digit.toNat < 2 ^ w := hdigit
      _ ≤ 2 ^ bits * 2 ^ w := Nat.le_mul_of_pos_left _ (Nat.two_pow_pos bits)

/-- A shift and a mask read the digit that goes out. -/
theorem toNat_digit (buffer mask : UInt32) {k v : Nat} (hk : k < 32)
    (hmask : mask.toNat = 2 ^ v - 1) :
    ((buffer >>> UInt32.ofNat k) &&& mask).toNat = buffer.toNat / 2 ^ k % 2 ^ v := by
  have hshift : (UInt32.ofNat k).toNat % 32 = k := by
    rw [UInt32.toNat_ofNat']
    omega
  rw [UInt32.toNat_and, UInt32.toNat_shiftRight, hshift, hmask, Nat.and_two_pow_sub_one_eq_mod,
    Nat.shiftRight_eq_div_pow]

/-- A shift to the left and a mask read the last digit, padded. -/
theorem toNat_padded (buffer mask : UInt32) {bits v : Nat} (hv : v ≤ 32) (hpos : 0 < bits)
    (hbits : bits ≤ v) (hmask : mask.toNat = 2 ^ v - 1) :
    ((buffer <<< UInt32.ofNat (v - bits)) &&& mask).toNat
      = buffer.toNat % 2 ^ bits * 2 ^ (v - bits) := by
  have hshift : (UInt32.ofNat (v - bits)).toNat % 32 = v - bits := by
    rw [UInt32.toNat_ofNat']
    omega
  have hdvd : 2 ^ v ∣ 2 ^ 32 := Nat.pow_dvd_pow 2 hv
  have hpow : 2 ^ v = 2 ^ bits * 2 ^ (v - bits) := by
    rw [← Nat.pow_add]
    congr 1
    omega
  rw [UInt32.toNat_and, UInt32.toNat_shiftLeft, hshift, hmask, Nat.and_two_pow_sub_one_eq_mod,
    Nat.mod_mod_of_dvd _ hdvd, Nat.shiftLeft_eq, hpow, Nat.mul_mod_mul_right]

end ShiftBuffer
