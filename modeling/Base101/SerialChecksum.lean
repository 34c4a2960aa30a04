/-
What the checksum of the serial link detects (`_z_crc32`, `lib/zenoh-pico/src/utils/checksum.c`).

The code shifts to the right, with a polynomial whose five highest bits are zero.  So it
divides by a polynomial of degree 27, and not of degree 32.

* `foldl_crcBit` — a run of bits, as one number shifted through;
* `crc_bursts` — every burst of up to 27 bits is detected, and one of 28 bits never is.
-/
import Base101.SerialFrame

namespace SerialFrame

/-! ### One bit -/

theorem crcShift_eq (crc : UInt32) :
    crcShift crc =
      if crc.toNat % 2 = 1 then (crc >>> 1) ^^^ crcPolynomial else crc >>> 1 := by
  have hbit : (crc &&& 1).toNat = crc.toNat % 2 := by
    rw [UInt32.toNat_and, UInt32.toNat_one]
    exact Nat.and_two_pow_sub_one_eq_mod crc.toNat 1
  rw [crcShift]
  by_cases hodd : crc.toNat % 2 = 1
  · have hone : crc &&& 1 = 1 := UInt32.toNat_inj.mp (hbit.trans hodd)
    rw [if_pos hodd, hone]
    rfl
  · have hzero : crc &&& 1 = 0 := UInt32.toNat_inj.mp (hbit.trans (by simpa using hodd))
    rw [if_neg hodd, hzero]
    simp

theorem toNat_shift (crc : UInt32) : (crc >>> 1).toNat = crc.toNat / 2 := by
  rw [UInt32.toNat_shiftRight]
  exact Nat.shiftRight_eq_div_pow crc.toNat 1

/-- Shifting is linear. -/
theorem crcShift_xor (c d : UInt32) : crcShift (c ^^^ d) = crcShift c ^^^ crcShift d := by
  have hparity : (c ^^^ d).toNat % 2 = (c.toNat + d.toNat) % 2 := by
    rw [UInt32.toNat_xor, Nat.xor_mod_two_eq]
  rw [crcShift_eq, crcShift_eq, crcShift_eq, hparity, UInt32.shiftRight_xor]
  by_cases hc : c.toNat % 2 = 1
  · by_cases hd : d.toNat % 2 = 1
    · rw [if_neg (by omega), if_pos hc, if_pos hd]
      ac_nf
      simp
    · rw [if_pos (by omega), if_pos hc, if_neg hd]
      ac_rfl
  · by_cases hd : d.toNat % 2 = 1
    · rw [if_pos (by omega), if_neg hc, if_pos hd]
      ac_rfl
    · rw [if_neg (by omega), if_neg hc, if_neg hd]

theorem iterate_crcShift_xor (n : ℕ) (c d : UInt32) :
    crcShift^[n] (c ^^^ d) = crcShift^[n] c ^^^ crcShift^[n] d := by
  induction n generalizing c d with
  | zero => rfl
  | succ n ih => rw [Function.iterate_succ_apply, Function.iterate_succ_apply,
      Function.iterate_succ_apply, crcShift_xor, ih]

/-- What is below the degree stays there, and does not vanish. -/
theorem crcShift_small {d : UInt32} (hsmall : d.toNat < 2 ^ 27) (hne : d ≠ 0) :
    (crcShift d).toNat < 2 ^ 27 ∧ crcShift d ≠ 0 := by
  have hpositive : d.toNat ≠ 0 := fun h => hne (UInt32.toNat_inj.mp h)
  have hshift := toNat_shift d
  have hpolynomial : crcPolynomial.toNat = 0x04C11DB7 := rfl
  rw [crcShift_eq]
  by_cases hodd : d.toNat % 2 = 1
  · rw [if_pos hodd]
    constructor
    · rw [UInt32.toNat_xor, hpolynomial]
      exact Nat.xor_lt_two_pow (by omega) (by norm_num)
    · intro hzero
      -- the highest bit of the polynomial is above the shifted number
      have heq := congrArg UInt32.toNat (UInt32.xor_eq_zero_iff.mp hzero)
      omega
  · rw [if_neg hodd]
    refine ⟨by omega, fun hzero => ?_⟩
    have heq := congrArg UInt32.toNat hzero
    rw [hshift, UInt32.toNat_zero] at heq
    omega

theorem iterate_crcShift_small (n : ℕ) {d : UInt32} (hsmall : d.toNat < 2 ^ 27) (hne : d ≠ 0) :
    crcShift^[n] d ≠ 0 := by
  induction n generalizing d with
  | zero => exact hne
  | succ n ih =>
    obtain ⟨hsmall', hne'⟩ := crcShift_small hsmall hne
    rw [Function.iterate_succ_apply]
    exact ih hsmall' hne'

/-! ### Runs of bits -/

def bitNumber (b : Bool) : UInt32 := if b then 1 else 0

/-- The first bit is the lowest. -/
def bitsNumber : List Bool → UInt32
  | [] => 0
  | b :: bits => bitNumber b ^^^ bitsNumber bits <<< 1

def crcBit (crc : UInt32) (b : Bool) : UInt32 := crcShift (crc ^^^ bitNumber b)

def byteBits (byte : UInt8) : List Bool := (List.range 8).map byte.toNat.testBit

/-- The bits of a message in the order in which the port sends them. -/
def wireBits (message : List UInt8) : List Bool := message.flatMap byteBits

theorem toNat_bitsNumber_cons (b : Bool) {bits : List Bool}
    (h : (bitsNumber bits).toNat < 2 ^ 31) :
    (bitsNumber (b :: bits)).toNat = b.toNat + 2 * (bitsNumber bits).toNat := by
  have hdouble : (bitsNumber bits <<< 1).toNat = 2 * (bitsNumber bits).toNat := by
    rw [UInt32.toNat_shiftLeft]
    show (bitsNumber bits).toNat <<< 1 % 2 ^ 32 = _
    rw [Nat.shiftLeft_eq]
    omega
  rw [bitsNumber, UInt32.toNat_xor, hdouble]
  cases b with
  | false =>
    show 0 ^^^ _ = _
    rw [Nat.zero_xor, Bool.toNat_false, Nat.zero_add]
  | true =>
    show 1 ^^^ _ = _
    rw [Nat.xor_comm, Bool.toNat_true, Nat.add_comm]
    exact Nat.xor_one_of_even (even_two_mul _)

theorem bitsNumber_lt {bits : List Bool} (h : bits.length ≤ 31) :
    (bitsNumber bits).toNat < 2 ^ bits.length := by
  induction bits with
  | nil => simp [bitsNumber]
  | cons b bits ih =>
    rw [List.length_cons] at h
    have hrest := ih (by omega)
    have hpow : 2 ^ bits.length ≤ 2 ^ 31 := Nat.pow_le_pow_right (by norm_num) (by omega)
    have hb : b.toNat ≤ 1 := b.toNat_le
    rw [toNat_bitsNumber_cons b (by omega), List.length_cons, pow_succ]
    omega

/-- A number below the highest bit, moved up, is what remains after the shift. -/
theorem crcShift_xor_shiftLeft (c : UInt32) {d : UInt32} (h : d.toNat < 2 ^ 31) :
    crcShift (c ^^^ d <<< 1) = crcShift c ^^^ d := by
  have hdouble : (d <<< 1).toNat = 2 * d.toNat := by
    rw [UInt32.toNat_shiftLeft]
    show d.toNat <<< 1 % 2 ^ 32 = _
    rw [Nat.shiftLeft_eq]
    omega
  have hshift : crcShift (d <<< 1) = d := by
    rw [crcShift_eq, if_neg (by omega)]
    apply UInt32.toNat_inj.mp
    rw [toNat_shift, hdouble]
    omega
  rw [crcShift_xor, hshift]

/-- A run of bits, as one number shifted through. -/
theorem foldl_crcBit (crc : UInt32) {bits : List Bool} (h : bits.length ≤ 32) :
    bits.foldl crcBit crc = crcShift^[bits.length] (crc ^^^ bitsNumber bits) := by
  induction bits generalizing crc with
  | nil => simp [bitsNumber]
  | cons b bits ih =>
    rw [List.length_cons] at h
    have hbits := @bitsNumber_lt bits (by omega)
    have hpow : 2 ^ bits.length ≤ 2 ^ 31 := Nat.pow_le_pow_right (by norm_num) (by omega)
    rw [List.foldl_cons, ih _ (by omega), List.length_cons, Function.iterate_succ_apply, bitsNumber,
      ← UInt32.xor_assoc, crcShift_xor_shiftLeft _ (by omega), crcBit]

/-- What differs before a run of bits, after it. -/
theorem foldl_crcBit_xor (c d : UInt32) (bits : List Bool) :
    bits.foldl crcBit (c ^^^ d) = bits.foldl crcBit c ^^^ crcShift^[bits.length] d := by
  induction bits generalizing c d with
  | nil => rfl
  | cons b bits ih =>
    have hfirst : crcBit (c ^^^ d) b = crcBit c b ^^^ crcShift d := by
      rw [crcBit, crcBit, ← crcShift_xor]
      congr 1
      ac_rfl
    rw [List.foldl_cons, List.foldl_cons, hfirst, ih, List.length_cons,
      Function.iterate_succ_apply]

theorem bitsNumber_byteBits (byte : UInt8) : bitsNumber (byteBits byte) = byte.toUInt32 := by
  have hall : ∀ n : Fin 256, bitsNumber (byteBits (UInt8.ofNat n)) = (UInt8.ofNat n).toUInt32 := by
    decide +kernel
  have hbyte := hall ⟨byte.toNat, byte.toNat_lt⟩
  rwa [UInt8.ofNat_toNat] at hbyte

theorem crcByte_eq (crc : UInt32) (byte : UInt8) :
    crcByte crc byte = (byteBits byte).foldl crcBit crc := by
  have hlength : (byteBits byte).length = 8 := by simp [byteBits]
  rw [foldl_crcBit crc (by omega), bitsNumber_byteBits, hlength, crcByte]

theorem crc32_eq (message : List UInt8) :
    crc32 message = ~~~(wireBits message).foldl crcBit 0xFFFFFFFF := by
  have hfold : ∀ crc, message.foldl crcByte crc = (wireBits message).foldl crcBit crc := by
    induction message with
    | nil => exact fun crc => rfl
    | cons byte message ih =>
      intro crc
      have hbits : wireBits (byte :: message) = byteBits byte ++ wireBits message := rfl
      rw [List.foldl_cons, ih, crcByte_eq, hbits, List.foldl_append]
  rw [crc32, hfold]

/-! ### Bursts -/

/-- Messages that differ in a run of bits, after it. -/
theorem crc32_xor {x y : List UInt8} {before window window' after : List Bool}
    (hx : wireBits x = before ++ window ++ after) (hy : wireBits y = before ++ window' ++ after)
    (hlength : window'.length = window.length) (hshort : window.length ≤ 32) :
    crc32 x = crc32 y ↔
      crcShift^[after.length] (crcShift^[window.length]
        (bitsNumber window ^^^ bitsNumber window')) = 0 := by
  set crc := before.foldl crcBit 0xFFFFFFFF with hcrc
  have hboth : window'.foldl crcBit crc = window.foldl crcBit crc ^^^
      crcShift^[window.length] (bitsNumber window ^^^ bitsNumber window') := by
    rw [foldl_crcBit crc (by omega), foldl_crcBit crc hshort, hlength, ← iterate_crcShift_xor]
    congr 1
    rw [UInt32.xor_assoc, ← UInt32.xor_assoc (bitsNumber window), UInt32.xor_self,
      UInt32.zero_xor]
  rw [crc32_eq, crc32_eq, hx, hy, List.foldl_append, List.foldl_append, List.foldl_append,
    List.foldl_append, ← hcrc, hboth, foldl_crcBit_xor, UInt32.not_inj]
  generalize after.foldl crcBit (window.foldl crcBit crc) = c
  generalize crcShift^[after.length] _ = d
  constructor
  · intro h
    have hcancel : c ^^^ c = c ^^^ (c ^^^ d) := congrArg (c ^^^ ·) h
    rw [← UInt32.xor_assoc, UInt32.xor_self, UInt32.zero_xor] at hcancel
    exact hcancel.symm
  · intro h
    rw [h, UInt32.xor_zero]

theorem bitsNumber_injective {bits bits' : List Bool} (hlength : bits'.length = bits.length)
    (hshort : bits.length ≤ 31) (h : bitsNumber bits = bitsNumber bits') : bits = bits' := by
  induction bits generalizing bits' with
  | nil => exact (List.eq_nil_of_length_eq_zero hlength).symm
  | cons b bits ih =>
    obtain ⟨b', bits', rfl⟩ := List.exists_cons_of_length_eq_add_one hlength
    rw [List.length_cons, List.length_cons] at hlength
    rw [List.length_cons] at hshort
    have hlt := @bitsNumber_lt bits (by omega)
    have hlt' := @bitsNumber_lt bits' (by omega)
    have hpow : 2 ^ bits.length ≤ 2 ^ 31 := Nat.pow_le_pow_right (by norm_num) (by omega)
    have hpow' : 2 ^ bits'.length ≤ 2 ^ 31 := Nat.pow_le_pow_right (by norm_num) (by omega)
    have hnat := congrArg UInt32.toNat h
    rw [toNat_bitsNumber_cons b (by omega), toNat_bitsNumber_cons b' (by omega)] at hnat
    have hb := b.toNat_le
    have hb' := b'.toNat_le
    have hfirst : b = b' := by
      cases b <;> cases b' <;> simp at hnat ⊢ <;> omega
    have hrest : bits = bits' :=
      ih (by omega) (by omega) (UInt32.toNat_inj.mp (by omega))
    rw [hfirst, hrest]

/-- An error of 28 bits. -/
def blindBurst : List Bool := (List.range 28).map (Nat.testBit 0x09823B6F)

theorem bitsNumber_zipWith (bits errors : List Bool) (h : errors.length = bits.length) :
    bitsNumber (List.zipWith xor bits errors) = bitsNumber bits ^^^ bitsNumber errors := by
  induction bits generalizing errors with
  | nil =>
    rw [List.eq_nil_of_length_eq_zero h]
    rfl
  | cons b bits ih =>
    obtain ⟨e, errors, rfl⟩ := List.exists_cons_of_length_eq_add_one h
    have hbit : bitNumber (xor b e) = bitNumber b ^^^ bitNumber e := by
      cases b <;> cases e <;> rfl
    rw [List.length_cons, List.length_cons] at h
    rw [List.zipWith_cons_cons, bitsNumber, bitsNumber, bitsNumber, ih errors (by omega), hbit,
      UInt32.shiftLeft_xor]
    ac_rfl

/-- **Which bursts the checksum detects.**  Messages whose bits differ, and only in a run of at
most 27, have different checksums.  A run of 28 is too long: one error of 28 bits, which is not
zero, goes undetected in every message, wherever it strikes. -/
theorem crc_bursts {x y : List UInt8} {before window window' after : List Bool}
    (hx : wireBits x = before ++ window ++ after) (hy : wireBits y = before ++ window' ++ after)
    (hlength : window'.length = window.length) :
    (window.length ≤ 27 → window ≠ window' → crc32 x ≠ crc32 y) ∧
      (window.length = 28 → window' = List.zipWith xor window blindBurst →
        window ≠ window' ∧ crc32 x = crc32 y) := by
  constructor
  · intro hshort hne heq
    have hlt := @bitsNumber_lt window (by omega)
    have hlt' := @bitsNumber_lt window' (by omega)
    have hpow : 2 ^ window.length ≤ 2 ^ 27 := Nat.pow_le_pow_right (by norm_num) hshort
    have hsmall : (bitsNumber window ^^^ bitsNumber window').toNat < 2 ^ 27 := by
      rw [UInt32.toNat_xor]
      rw [hlength] at hlt'
      exact Nat.xor_lt_two_pow (by omega) (by omega)
    have hdiffer : bitsNumber window ^^^ bitsNumber window' ≠ 0 := by
      intro hzero
      exact hne (bitsNumber_injective hlength (by omega) (UInt32.xor_eq_zero_iff.mp hzero))
    have hzero := (crc32_xor hx hy hlength (by omega)).mp heq
    rw [← Function.iterate_add_apply] at hzero
    exact iterate_crcShift_small _ hsmall hdiffer hzero
  · intro hlong hburst
    have herrors : blindBurst.length = window.length := by
      rw [hlong]
      rfl
    -- the first shift takes the whole error away
    have hshift : crcShift (bitsNumber blindBurst) = 0 := by decide +kernel
    have hall : ∀ n, crcShift^[n] 0 = 0 := fun n => Function.iterate_fixed (by decide +kernel) n
    have hdiffer : bitsNumber window ^^^ bitsNumber window' = bitsNumber blindBurst := by
      rw [hburst, bitsNumber_zipWith window blindBurst herrors, ← UInt32.xor_assoc,
        UInt32.xor_self, UInt32.zero_xor]
    constructor
    · intro heq
      rw [← heq, UInt32.xor_self] at hdiffer
      exact absurd hdiffer (by decide +kernel)
    · rw [crc32_xor hx hy hlength (by omega), hdiffer, hlong, Function.iterate_succ_apply, hshift,
        hall, hall]

/-- Two messages that differ in their last byte. -/
theorem crc_bursts_byte : crc32 [1, 2] ≠ crc32 [1, 7] :=
  (@crc_bursts [1, 2] [1, 7] (byteBits 1) (byteBits 2) (byteBits 7) [] (by decide) (by decide)
    (by decide)).1 (by decide) (by decide)

end SerialFrame
