/-
C `double` arithmetic.

`Double F` lists the operations a C program applies to a `double`: the field
operations, the comparisons, `isfinite`, the conversions and the part of
`math.h` in use.  No law is assumed, so a theorem stated for every `Double F`
holds of IEEE arithmetic, rounding and NaN included.

The exact reading is the instance `exactDouble`: over an ordered field with a
floor every operation is the mathematical one, and every value is finite.
`sqrt`, `sin`, `cos` and `expm1` come from `Libm`, which `ℝ` instantiates with
the real functions and `ℚ` with rational stand-ins used only to evaluate runs.
-/
import Mathlib

/-- The operations of C on `double`, without any law. -/
class Double (F : Type) where
  toZero : Zero F
  toOne : One F
  toAdd : Add F
  toSub : Sub F
  toMul : Mul F
  toDiv : Div F
  toNeg : Neg F
  toNatCast : NatCast F
  toIntCast : IntCast F
  /-- Decimal text to the nearest `double`. -/
  toRatCast : RatCast F
  toOfScientific : OfScientific F
  toLT : LT F
  toLE : LE F
  toBEq : BEq F
  decLt : DecidableLT F
  decLe : DecidableLE F
  isfinite : F → Bool
  fabs : F → F
  fmin : F → F → F
  fmax : F → F → F
  copysign : F → F → F
  floor : F → F
  ceil : F → F
  /-- `round`: to the nearest integer, halves away from zero. -/
  round : F → F
  lround : F → ℤ
  /-- A conversion to an integer type: truncation toward zero. -/
  toInt : F → ℤ
  remainder : F → F → F
  sqrt : F → F
  sin : F → F
  cos : F → F
  expm1 : F → F
  pi : F

namespace Double

variable {F : Type} [Double F]

instance (priority := low) : Zero F := toZero
instance (priority := low) : One F := toOne
instance (priority := low) : Add F := toAdd
instance (priority := low) : Sub F := toSub
instance (priority := low) : Mul F := toMul
instance (priority := low) : Div F := toDiv
instance (priority := low) : Neg F := toNeg
instance (priority := low) : NatCast F := toNatCast
instance (priority := low) : IntCast F := toIntCast
instance (priority := low) : RatCast F := toRatCast
instance (priority := low) : OfScientific F := toOfScientific
instance (priority := low) : LT F := toLT
instance (priority := low) : LE F := toLE
instance (priority := low) : BEq F := toBEq
instance (priority := low) : DecidableLT F := decLt
instance (priority := low) : DecidableLE F := decLe

/-! ### Numerals

Each fact a numeral rests on has a name here, which definitions refer to. -/

instance atLeastTwo_two : Nat.AtLeastTwo 2 := inferInstance
instance atLeastTwo_five : Nat.AtLeastTwo 5 := inferInstance
instance atLeastTwo_ten : Nat.AtLeastTwo 10 := inferInstance
instance atLeastTwo_twenty : Nat.AtLeastTwo 20 := inferInstance
instance atLeastTwo_fifty : Nat.AtLeastTwo 50 := inferInstance
instance atLeastTwo_sixty : Nat.AtLeastTwo 60 := inferInstance
instance atLeastTwo_eighty : Nat.AtLeastTwo 80 := inferInstance
instance atLeastTwo_twoHundred : Nat.AtLeastTwo 200 := inferInstance
instance atLeastTwo_byte : Nat.AtLeastTwo 255 := inferInstance
instance atLeastTwo_sixHundred : Nat.AtLeastTwo 600 := inferInstance
/-- The axes of a sample are numbered from 0 to 2. -/
instance neZero_axes : NeZero 3 := inferInstance

end Double

/-- The functions of `math.h` that an ordered field does not determine. -/
class Libm (K : Type) where
  sqrt : K → K
  sin : K → K
  cos : K → K
  expm1 : K → K
  pi : K

noncomputable instance : Libm ℝ where
  sqrt := Real.sqrt
  sin := Real.sin
  cos := Real.cos
  expm1 x := Real.exp x - 1
  pi := Real.pi

/-- Rational stand-ins: a root to twelve decimals, Taylor polynomials, and an
increasing `expm1` with `expm1 0 = 0` and values above `-1`. -/
instance : Libm ℚ where
  sqrt x := (Nat.sqrt ⌊x * 10 ^ 24⌋.toNat : ℚ) / 10 ^ 12
  sin x := x - x ^ 3 / 6 + x ^ 5 / 120
  cos x := 1 - x ^ 2 / 2 + x ^ 4 / 24
  expm1 x := if x < 0 then x / (1 - x) else x + x ^ 2 / 2
  pi := 355 / 113

section Exact

variable {K : Type} [Field K] [LinearOrder K] [FloorRing K]

/-- The integer nearest to `x`, halves away from zero. -/
def roundHalfAway (x : K) : ℤ := if x < 0 then -⌊1 / 2 - x⌋ else ⌊x + 1 / 2⌋

/-- `x - n * y` for the integer `n` nearest to `x / y`, ties to even. -/
def ieeeRemainder (x y : K) : K :=
  let q := x / y
  let n := ⌊q + 1 / 2⌋
  let n := if q + 1 / 2 = n ∧ n % 2 ≠ 0 then n - 1 else n
  x - n * y

/-- Exact arithmetic: every operation is the one of the ordered field. -/
instance exactDouble [Libm K] : Double K where
  toZero := inferInstance
  toOne := inferInstance
  toAdd := inferInstance
  toSub := inferInstance
  toMul := inferInstance
  toDiv := inferInstance
  toNeg := inferInstance
  toNatCast := inferInstance
  toIntCast := inferInstance
  toRatCast := inferInstance
  toOfScientific := inferInstance
  toLT := inferInstance
  toLE := inferInstance
  toBEq := inferInstance
  decLt := inferInstance
  decLe := inferInstance
  isfinite _ := true
  fabs x := |x|
  fmin := min
  fmax := max
  copysign x y := if y < 0 then -|x| else |x|
  floor x := (⌊x⌋ : ℤ)
  ceil x := (⌈x⌉ : ℤ)
  round x := (roundHalfAway x : ℤ)
  lround := roundHalfAway
  toInt x := if x < 0 then ⌈x⌉ else ⌊x⌋
  remainder := ieeeRemainder
  sqrt := Libm.sqrt
  sin := Libm.sin
  cos := Libm.cos
  expm1 := Libm.expm1
  pi := Libm.pi

end Exact

@[simp] theorem roundHalfAway_intCast {K : Type} [Field K] [LinearOrder K] [FloorRing K]
    [IsStrictOrderedRing K] (n : ℤ) : roundHalfAway (n : K) = n := by
  rw [roundHalfAway]
  -- an integer moves out of the floor, and half a unit rounds to zero
  split
  · have h : (1 / 2 - n : K) = 1 / 2 + ((-n : ℤ) : K) := by push_cast; ring
    rw [h, Int.floor_add_intCast]
    norm_num
  · rw [add_comm, Int.floor_add_intCast]
    norm_num

namespace Double

variable {K : Type} [Field K] [LinearOrder K] [FloorRing K] [Libm K]

@[simp] theorem isfinite_exact (x : K) : isfinite x = true := rfl

@[simp] theorem fabs_exact (x : K) : fabs x = |x| := rfl

@[simp] theorem fmin_exact (x y : K) : fmin x y = min x y := rfl

@[simp] theorem fmax_exact (x y : K) : fmax x y = max x y := rfl

@[simp] theorem floor_exact (x : K) : floor x = (⌊x⌋ : K) := rfl

@[simp] theorem ceil_exact (x : K) : ceil x = (⌈x⌉ : K) := rfl

@[simp] theorem round_exact (x : K) : round x = (roundHalfAway x : K) := rfl

@[simp] theorem sqrt_real (x : ℝ) : sqrt x = √x := rfl

theorem toInt_of_nonneg {x : K} (h : 0 ≤ x) : toInt x = ⌊x⌋ := by
  change (if x < 0 then ⌈x⌉ else ⌊x⌋) = ⌊x⌋
  rw [if_neg (not_lt.mpr h)]

variable [IsStrictOrderedRing K]

/-- A conversion to an integer type leaves an integer alone. -/
@[simp] theorem toInt_intCast (n : ℤ) : toInt (n : K) = n := by
  change (if (n : K) < 0 then ⌈(n : K)⌉ else ⌊(n : K)⌋) = n
  split <;> simp

theorem copysign_of_nonneg {x y : K} (hx : 0 ≤ x) (hy : 0 ≤ y) : copysign x y = x := by
  change (if y < 0 then -|x| else |x|) = x
  rw [if_neg (not_lt.mpr hy), abs_of_nonneg hx]

theorem copysign_of_neg {x y : K} (hx : 0 ≤ x) (hy : y < 0) : copysign x y = -x := by
  change (if y < 0 then -|x| else |x|) = -x
  rw [if_pos hy, abs_of_nonneg hx]

end Double
