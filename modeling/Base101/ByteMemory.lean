/-
Memory as a function from addresses to bytes, and numbers in it.

* `load`, `store` — a range of addresses read and written;
* `load_store` — what has been written is read back;
* `load_congr`, `load_append` — ranges that agree, and ranges one after the other;
* `ofLittleEndian_littleEndian` — a number from its bytes.
-/
import Mathlib

/-- A byte at every address. -/
abbrev ByteMemory := ℕ → UInt8

namespace ByteMemory

variable {m m' : ByteMemory} {address i n k : ℕ} {bytes : List UInt8}

/-- The bytes from an address on. -/
def load (m : ByteMemory) (address : ℕ) : ℕ → List UInt8
  | 0 => []
  | n + 1 => m address :: load m (address + 1) n

/-- `memcpy` to an address. -/
def store (m : ByteMemory) (address : ℕ) : List UInt8 → ByteMemory
  | [] => m
  | b :: bytes => store (Function.update m address b) (address + 1) bytes

@[simp] theorem length_load (m : ByteMemory) (address n : ℕ) : (m.load address n).length = n := by
  induction n generalizing address with
  | zero => rfl
  | succ n ih => simp [load, ih]

theorem store_of_lt (h : i < address) : m.store address bytes i = m i := by
  induction bytes generalizing m address with
  | nil => rfl
  | cons b bytes ih =>
    rw [store, ih (by omega), Function.update_of_ne (by omega)]

theorem store_of_ge (h : address + bytes.length ≤ i) : m.store address bytes i = m i := by
  induction bytes generalizing m address with
  | nil => rfl
  | cons b bytes ih =>
    rw [List.length_cons] at h
    rw [store, ih (by omega), Function.update_of_ne (by omega)]

theorem load_congr (h : ∀ i, address ≤ i → i < address + n → m i = m' i) :
    m.load address n = m'.load address n := by
  induction n generalizing address with
  | zero => rfl
  | succ n ih =>
    rw [load, load, h address (by omega) (by omega)]
    rw [ih fun i hi hi' => h i (by omega) (by omega)]

theorem load_append (m : ByteMemory) (address n k : ℕ) :
    m.load address (n + k) = m.load address n ++ m.load (address + n) k := by
  induction n generalizing address with
  | zero => simp [load]
  | succ n ih =>
    rw [Nat.add_right_comm, load, load, ih, List.cons_append, Nat.add_assoc, Nat.add_comm 1 n]

theorem load_concat (m : ByteMemory) (address n : ℕ) :
    m.load address (n + 1) = m.load address n ++ [m (address + n)] := load_append m address n 1

theorem load_store (m : ByteMemory) (address : ℕ) (bytes : List UInt8) :
    (m.store address bytes).load address bytes.length = bytes := by
  induction bytes generalizing m address with
  | nil => rfl
  | cons b bytes ih =>
    have hfirst : store (Function.update m address b) (address + 1) bytes address = b := by
      rw [store_of_lt (by omega), Function.update_self]
    rw [List.length_cons, load, store, hfirst, ih]

/-- A range below what is written. -/
theorem load_store_of_le (h : i + n ≤ address) :
    (m.store address bytes).load i n = m.load i n :=
  load_congr fun _ _ hj => store_of_lt (by omega)

theorem load_update_of_le {b : UInt8} (h : i + n ≤ address) :
    load (Function.update m address b) i n = m.load i n :=
  load_congr fun _ _ hj => Function.update_of_ne (by omega) _ _

/-- Two parts of a range. -/
theorem load_eq_append {xs ys : List UInt8} (h : m.load address (xs.length + k) = xs ++ ys) :
    m.load address xs.length = xs ∧ m.load (address + xs.length) k = ys := by
  rw [load_append] at h
  exact List.append_inj h (length_load m address xs.length)

/-! ### Numbers -/

/-- The low bytes of a number, the lowest first. -/
def littleEndian : ℕ → ℕ → List UInt8
  | 0, _ => []
  | k + 1, n => UInt8.ofNat n :: littleEndian k (n / 256)

def ofLittleEndian : List UInt8 → ℕ
  | [] => 0
  | b :: bytes => b.toNat + 256 * ofLittleEndian bytes

@[simp] theorem length_littleEndian (k n : ℕ) : (littleEndian k n).length = k := by
  induction k generalizing n with
  | zero => rfl
  | succ k ih => simp [littleEndian, ih]

theorem ofLittleEndian_littleEndian (h : n < 256 ^ k) :
    ofLittleEndian (littleEndian k n) = n := by
  induction k generalizing n with
  | zero =>
    have hn : n = 0 := by simpa using h
    rw [littleEndian, ofLittleEndian, hn]
  | succ k ih =>
    have hrest : n / 256 < 256 ^ k := by
      rw [Nat.div_lt_iff_lt_mul (by norm_num), ← pow_succ]
      exact h
    rw [littleEndian, ofLittleEndian, ih hrest, UInt8.toNat_ofNat']
    omega

end ByteMemory
