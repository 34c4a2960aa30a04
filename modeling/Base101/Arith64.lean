/-
64-bit arithmetic of C, wrapping or checked.

A C function over `uint64_t` and `int64_t` is written once, over the operations
of an `Arith64`.  `wrapping` computes what the machine computes; `checked`
computes the same and gives no result where the machine's differs from the exact
integer, so a program that returns in `checked` has met no signed overflow, no
unsigned wrap and no conversion that changes a value.

* `Sound` — on the ranges where the machine's results are exact, an arithmetic returns them;
* `wrapping_sound`, `checked_sound` — both do, so what is proved of a program over any sound
  arithmetic holds of the program that runs and of its checked version.
-/
import Mathlib

/-- The 64-bit operations of a C program, with their results in `m`. -/
structure Arith64 (m : Type → Type) where
  sub : UInt64 → UInt64 → m UInt64
  mul : UInt64 → UInt64 → m UInt64
  /-- `(int64_t)x` and `(uint64_t)x`. -/
  signed : UInt64 → m Int64
  unsigned : Int64 → m UInt64
  /-- `(int32_t)x` and `(uint32_t)x`. -/
  signed32 : Int64 → m Int32
  unsigned32 : Int64 → m UInt32
  addS : Int64 → Int64 → m Int64
  subS : Int64 → Int64 → m Int64

namespace Arith64

/-- Results modulo 2⁶⁴. -/
def wrapping : Arith64 Id where
  sub a b := a - b
  mul a b := a * b
  signed a := a.toInt64
  unsigned a := a.toUInt64
  signed32 a := a.toInt32
  unsigned32 a := a.toUInt64.toUInt32
  addS a b := a + b
  subS a b := a - b

/-- `r` where its value `v` is the exact result `z`. -/
def whenExact {α : Type} (r : α) (v z : ℤ) : Option α := if v = z then some r else none

/-- The exact results, and none of the others. -/
def checked : Arith64 Option where
  sub a b := whenExact (a - b) (a - b).toNat (a.toNat - b.toNat)
  mul a b := whenExact (a * b) (a * b).toNat (a.toNat * b.toNat)
  signed a := whenExact a.toInt64 a.toInt64.toInt a.toNat
  unsigned a := whenExact a.toUInt64 a.toUInt64.toNat a.toInt
  signed32 a := whenExact a.toInt32 a.toInt32.toInt a.toInt
  unsigned32 a := whenExact a.toUInt64.toUInt32 a.toUInt64.toUInt32.toNat a.toInt
  addS a b := whenExact (a + b) (a + b).toInt (a.toInt + b.toInt)
  subS a b := whenExact (a - b) (a - b).toInt (a.toInt - b.toInt)

theorem whenExact_of_eq {α : Type} {r : α} {v z : ℤ} (h : v = z) : whenExact r v z = some r :=
  if_pos h

/-! ### Values of the machine's results -/

section Values

variable {a b : UInt64} {x y : Int64}

theorem toNat_sub_of_le (h : b ≤ a) : ((a - b).toNat : ℤ) = a.toNat - b.toNat := by
  rw [UInt64.toNat_sub_of_le _ _ h]
  have hle := UInt64.le_iff_toNat_le.mp h
  omega

theorem toNat_mul_of_lt (h : a.toNat * b.toNat < 2 ^ 64) :
    ((a * b).toNat : ℤ) = a.toNat * b.toNat := by
  rw [UInt64.toNat_mul, Nat.mod_eq_of_lt h]
  push_cast
  rfl

theorem toInt_toInt64 (a : UInt64) : a.toInt64.toInt = (a.toNat : ℤ).bmod (2 ^ 64) :=
  BitVec.toInt_eq_toNat_bmod a.toBitVec

theorem toInt_toInt64_of_lt (h : a.toNat < 2 ^ 63) : a.toInt64.toInt = a.toNat := by
  rw [toInt_toInt64]
  exact Int.bmod_eq_of_le (by omega) (by omega)

theorem toNat_toUInt64_of_nonneg (h : 0 ≤ x.toInt) : (x.toUInt64.toNat : ℤ) = x.toInt := by
  have hback : x.toInt = (x.toUInt64.toNat : ℤ).bmod (2 ^ 64) := by
    rw [← toInt_toInt64, Int64.toInt64_toUInt64]
  have hlt := x.toUInt64.toNat_lt
  -- an unsigned value from 2⁶³ on would read back as a negative one
  rw [hback] at h ⊢
  rw [Int.bmod_def] at h ⊢
  split_ifs at h ⊢ <;> omega

theorem toInt_add_of_bounds (h : -2 ^ 63 ≤ x.toInt + y.toInt) (h' : x.toInt + y.toInt < 2 ^ 63) :
    (x + y).toInt = x.toInt + y.toInt := by
  rw [Int64.toInt_add]
  exact Int.bmod_eq_of_le (by omega) (by omega)

theorem toInt_sub_of_bounds (h : -2 ^ 63 ≤ x.toInt - y.toInt) (h' : x.toInt - y.toInt < 2 ^ 63) :
    (x - y).toInt = x.toInt - y.toInt := by
  rw [Int64.toInt_sub]
  exact Int.bmod_eq_of_le (by omega) (by omega)

theorem toInt_toInt32_of_bounds (h : -2 ^ 31 ≤ x.toInt) (h' : x.toInt < 2 ^ 31) :
    x.toInt32.toInt = x.toInt := by
  rw [Int64.toInt_toInt32]
  exact Int.bmod_eq_of_le (by omega) (by omega)

theorem toNat_toUInt32_of_bounds (h : 0 ≤ x.toInt) (h' : x.toInt < 2 ^ 32) :
    (x.toUInt64.toUInt32.toNat : ℤ) = x.toInt := by
  have hval := toNat_toUInt64_of_nonneg h
  rw [UInt64.toNat_toUInt32, Nat.mod_eq_of_lt (by omega)]
  exact hval

end Values

/-! ### Exactness on the ranges -/

/-- On the ranges where they are exact, `A` returns the machine's results. -/
structure Sound {m : Type → Type} [Monad m] (A : Arith64 m) : Prop where
  sub {a b : UInt64} : b ≤ a → A.sub a b = pure (a - b)
  mul {a b : UInt64} : a.toNat * b.toNat < 2 ^ 64 → A.mul a b = pure (a * b)
  signed {a : UInt64} : a.toNat < 2 ^ 63 → A.signed a = pure a.toInt64
  unsigned {x : Int64} : 0 ≤ x.toInt → A.unsigned x = pure x.toUInt64
  signed32 {x : Int64} : -2 ^ 31 ≤ x.toInt → x.toInt < 2 ^ 31 → A.signed32 x = pure x.toInt32
  unsigned32 {x : Int64} : 0 ≤ x.toInt → x.toInt < 2 ^ 32 →
    A.unsigned32 x = pure x.toUInt64.toUInt32
  addS {x y : Int64} : -2 ^ 63 ≤ x.toInt + y.toInt → x.toInt + y.toInt < 2 ^ 63 →
    A.addS x y = pure (x + y)
  subS {x y : Int64} : -2 ^ 63 ≤ x.toInt - y.toInt → x.toInt - y.toInt < 2 ^ 63 →
    A.subS x y = pure (x - y)

theorem wrapping_sound : wrapping.Sound where
  sub _ := rfl
  mul _ := rfl
  signed _ := rfl
  unsigned _ := rfl
  signed32 _ _ := rfl
  unsigned32 _ _ := rfl
  addS _ _ := rfl
  subS _ _ := rfl

theorem checked_sound : checked.Sound where
  sub h := whenExact_of_eq (toNat_sub_of_le h)
  mul h := whenExact_of_eq (toNat_mul_of_lt h)
  signed h := whenExact_of_eq (toInt_toInt64_of_lt h)
  unsigned h := whenExact_of_eq (toNat_toUInt64_of_nonneg h)
  signed32 h h' := whenExact_of_eq (toInt_toInt32_of_bounds h h')
  unsigned32 h h' := whenExact_of_eq (toNat_toUInt32_of_bounds h h')
  addS h h' := whenExact_of_eq (toInt_add_of_bounds h h')
  subS h h' := whenExact_of_eq (toInt_sub_of_bounds h h')

end Arith64
