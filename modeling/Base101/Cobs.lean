/-
Consistent overhead byte stuffing.

A run of bytes is cut into blocks, each of them without a zero: a block ends at a zero, which
it stands for, or when it has 254 bytes.  Before each block stands its length plus one, so
that no zero is left, and zeros can end frames.

* `zero_notMem_encode` — no zero is left;
* `length_encode_le` — one byte more for the first block, and one for every 254 bytes.
-/
import Mathlib

namespace Cobs

/-- A block after its code. -/
def block (bytes : List UInt8) : List UInt8 := UInt8.ofNat (bytes.length + 1) :: bytes

/-- The blocks of the bytes, the first of which has begun. -/
def encodeFrom (begun : List UInt8) : List UInt8 → List UInt8
  | [] => block begun
  | byte :: bytes =>
    if byte = 0 then block begun ++ encodeFrom [] bytes
    else if begun.length + 1 = 254 then block (begun ++ [byte]) ++ encodeFrom [] bytes
    else encodeFrom (begun ++ [byte]) bytes

def encode (bytes : List UInt8) : List UInt8 := encodeFrom [] bytes

variable {begun bytes : List UInt8}

@[simp] theorem length_block (bytes : List UInt8) : (block bytes).length = bytes.length + 1 := rfl

theorem zero_notMem_block (h : bytes.length ≤ 254) (hzero : 0 ∉ bytes) : 0 ∉ block bytes := by
  rw [block, List.mem_cons, not_or]
  refine ⟨?_, hzero⟩
  intro hcode
  have hnat := congrArg UInt8.toNat hcode
  rw [UInt8.toNat_ofNat', UInt8.toNat_zero] at hnat
  omega

theorem zero_notMem_encodeFrom (h : begun.length < 254) (hzero : 0 ∉ begun) :
    0 ∉ encodeFrom begun bytes := by
  induction bytes generalizing begun with
  | nil => exact zero_notMem_block h.le hzero
  | cons byte bytes ih =>
    rw [encodeFrom]
    by_cases hbyte : byte = 0
    · rw [if_pos hbyte, List.mem_append, not_or]
      exact ⟨zero_notMem_block h.le hzero, ih (by simp) List.not_mem_nil⟩
    · have hnext : 0 ∉ begun ++ [byte] := by simpa [hzero] using Ne.symm hbyte
      rw [if_neg hbyte]
      by_cases hfull : begun.length + 1 = 254
      · rw [if_pos hfull, List.mem_append, not_or]
        refine ⟨zero_notMem_block ?_ hnext, ih (by simp) List.not_mem_nil⟩
        simp [hfull]
      · rw [if_neg hfull]
        refine ih ?_ hnext
        rw [List.length_append, List.length_singleton]
        omega

theorem zero_notMem_encode (bytes : List UInt8) : 0 ∉ encode bytes :=
  zero_notMem_encodeFrom (by simp) List.not_mem_nil

theorem length_encodeFrom_le (begun bytes : List UInt8) (h : begun.length < 254) :
    (encodeFrom begun bytes).length ≤
      begun.length + bytes.length + 1 + (begun.length + bytes.length) / 254 := by
  induction bytes generalizing begun with
  | nil =>
    rw [encodeFrom, length_block, List.length_nil]
    omega
  | cons byte bytes ih =>
    rw [encodeFrom, List.length_cons]
    by_cases hbyte : byte = 0
    · have hrest := ih [] (by simp)
      rw [List.length_nil] at hrest
      rw [if_pos hbyte, List.length_append, length_block]
      omega
    · rw [if_neg hbyte]
      by_cases hfull : begun.length + 1 = 254
      · have hrest := ih [] (by simp)
        rw [List.length_nil] at hrest
        rw [if_pos hfull, List.length_append, length_block, List.length_append,
          List.length_singleton]
        omega
      · have hlength : (begun ++ [byte]).length = begun.length + 1 := by simp
        have hrest := ih (begun ++ [byte]) (by omega)
        rw [if_neg hfull]
        rw [hlength] at hrest
        omega

theorem length_encode_le (bytes : List UInt8) :
    (encode bytes).length ≤ bytes.length + 1 + bytes.length / 254 := by
  have h := length_encodeFrom_le [] bytes (by simp)
  rw [List.length_nil] at h
  rw [encode]
  omega

theorem lt_length_encodeFrom (begun bytes : List UInt8) :
    begun.length + bytes.length < (encodeFrom begun bytes).length := by
  induction bytes generalizing begun with
  | nil => simp [encodeFrom]
  | cons byte bytes ih =>
    have hrest := ih []
    have hnext := ih (begun ++ [byte])
    rw [List.length_nil] at hrest
    rw [List.length_append, List.length_singleton] at hnext
    rw [encodeFrom]
    split_ifs
    · rw [List.length_append, length_block, List.length_cons]
      omega
    · rw [List.length_append, length_block, List.length_append, List.length_singleton,
        List.length_cons]
      omega
    · rw [List.length_cons]
      omega

theorem lt_length_encode (bytes : List UInt8) : bytes.length < (encode bytes).length := by
  simpa [encode] using lt_length_encodeFrom [] bytes

end Cobs
