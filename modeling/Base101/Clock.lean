/-
Deadlines on a 64-bit microsecond counter.

C code tests the age of a reading as `now - since < timeout` and a deadline as
`now ≥ until`, on `uint64_t`, where both the subtraction and the computation of
a deadline wrap.  For readings that do not run backwards these tests mean what
they say on natural numbers; the lemmas here are that translation.
-/
import Mathlib

namespace Clock

variable {since now timeout : UInt64}

theorem le_iff : since ≤ now ↔ since.toNat ≤ now.toNat := UInt64.le_iff_toNat_le

theorem lt_iff : since < now ↔ since.toNat < now.toNat := UInt64.lt_iff_toNat_lt

theorem sub_lt_iff (h : since ≤ now) :
    now - since < timeout ↔ now.toNat < since.toNat + timeout.toNat := by
  -- the subtraction does not wrap, and the sum on the right is one of naturals
  rw [lt_iff, UInt64.toNat_sub_of_le _ _ h]
  have hle := le_iff.mp h
  omega

theorem le_sub_iff (h : since ≤ now) :
    timeout ≤ now - since ↔ since.toNat + timeout.toNat ≤ now.toNat := by
  rw [← UInt64.not_lt, sub_lt_iff h]
  omega

@[simp] theorem sub_self (now : UInt64) : now - now = 0 := UInt64.sub_self now

theorem toNat_add_le (a b : UInt64) : (a + b).toNat ≤ a.toNat + b.toNat := by
  rw [UInt64.toNat_add]
  exact Nat.mod_le _ _

/-- A deadline computed with wrap-around has passed once the sum has. -/
theorem add_le_of_toNat_add_le (h : since.toNat + timeout.toNat ≤ now.toNat) :
    since + timeout ≤ now := by
  have hwrap := toNat_add_le since timeout
  rw [le_iff]
  omega

end Clock
