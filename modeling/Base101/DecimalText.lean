/-
Decimal texts: what `%g` and `%f` print of a rational, and what `strtod` reads back.

`formatG` and `formatF` print the exact value, rounded once to the places the
format asks for, halves to even.  A value with no more significant digits than
the format prints is printed exactly.

* `strtod_formatG`, `strtod_formatF` — such a value is read back unchanged;
* `literal_formatG` — by a C compiler too;
* `strtok_intercalate` — the tokens of joined words.
-/
import Base101.CString

namespace CString

/-! ### Printing -/

/-- The nearest integer, halves to even. -/
def roundHalfEven (x : ℚ) : ℤ :=
  let n := ⌊x⌋
  if x - n < 1 / 2 then n
  else if 1 / 2 < x - n then n + 1
  else if n % 2 = 0 then n else n + 1

/-- `-` before a negative number. -/
def minus (v : ℚ) : List Char := if v < 0 then ['-'] else []

/-- `%.<places>f`, for at least one place. -/
def formatF (places : ℕ) (v : ℚ) : List Char :=
  let n := (roundHalfEven (|v| * 10 ^ places)).toNat
  let fraction := Nat.toDigits 10 (n % 10 ^ places)
  minus v ++ Nat.toDigits 10 (n / 10 ^ places) ++
    '.' :: (List.replicate (places - fraction.length) '0' ++ fraction)

/-- Significant digits `ds` with the first at `10 ^ e`, in positional notation. -/
def positional (ds : List Char) (e : ℤ) : List Char :=
  if 0 ≤ e then
    if ds.length ≤ e.toNat + 1 then ds ++ List.replicate (e.toNat + 1 - ds.length) '0'
    else ds.take (e.toNat + 1) ++ '.' :: ds.drop (e.toNat + 1)
  else '0' :: '.' :: (List.replicate ((-e).toNat - 1) '0' ++ ds)

/-- The same in scientific notation: two digits of exponent at least. -/
def scientific (ds : List Char) (e : ℤ) : List Char :=
  let mantissa := match ds with
    | d :: d' :: rest => d :: '.' :: d' :: rest
    | ds => ds
  let digits := Nat.toDigits 10 e.natAbs
  mantissa ++ 'e' :: (if e < 0 then '-' else '+') ::
    (List.replicate (2 - digits.length) '0' ++ digits)

/-- `%.<precision>g`: trailing zeros are removed, and the exponent chooses the notation. -/
def formatG (precision : ℕ) (v : ℚ) : List Char :=
  minus v ++
    if v = 0 then ['0']
    else
      let e := Int.log 10 |v|
      let n := (roundHalfEven (|v| * 10 ^ ((precision : ℤ) - 1 - e))).toNat
      -- a carry into the next power of ten
      let (n, e) := if n = 10 ^ precision then (10 ^ (precision - 1), e + 1) else (n, e)
      let ds := (Nat.toDigits 10 n).rdropWhile (· = '0')
      if -4 ≤ e ∧ e < precision then positional ds e else scientific ds e

example : formatG 9 (1234567 / 1000000) = "1.234567".toList := by decide +kernel

example : formatG 9 (12 / 1000000) = "1.2e-05".toList := by decide +kernel

/-! ### Reading -/

/-- The ten digits. -/
theorem mem_digits {c : Char} (h : c.isDigit = true) :
    c ∈ ['0', '1', '2', '3', '4', '5', '6', '7', '8', '9'] := by
  have hlow : 48 ≤ c.toNat := by
    simp only [Char.isDigit, Bool.and_eq_true, decide_eq_true_eq] at h
    exact UInt32.le_iff_toNat_le.mp h.1
  have hhigh : c.toNat ≤ 57 := by
    simp only [Char.isDigit, Bool.and_eq_true, decide_eq_true_eq] at h
    exact UInt32.le_iff_toNat_le.mp h.2
  have hc : c = Char.ofNat c.toNat := (Char.ofNat_toNat c).symm
  generalize c.toNat = n at hlow hhigh hc
  subst hc
  interval_cases n <;> decide

/-- A digit is no blank, sign or mark of another kind of number. -/
theorem digit_facts {c : Char} (h : c.isDigit = true) :
    isSpace c = false ∧ c ≠ '-' ∧ c ≠ '+' ∧ c.toLower ≠ 'i' ∧ c.toLower ≠ 'n' ∧
      c.toLower ≠ 'x' := by
  have hmem := mem_digits h
  simp only [List.mem_cons, List.not_mem_nil, or_false] at hmem
  rcases hmem with rfl | rfl | rfl | rfl | rfl | rfl | rfl | rfl | rfl | rfl
  all_goals decide

/-- The digits in front of something that does not start with a digit. -/
theorem takeWhile_digits {ds : List Char} (hds : ∀ c ∈ ds, c.isDigit = true)
    (rest : List Char) (hrest : ∀ c ∈ rest.head?, c.isDigit = false) :
    (ds ++ rest).takeWhile Char.isDigit = ds ∧ (ds ++ rest).dropWhile Char.isDigit = rest := by
  rw [List.takeWhile_append_of_pos hds, List.dropWhile_append_of_pos hds]
  rcases rest with _ | ⟨c, rest⟩
  · simp
  · have hc : c.isDigit = false := hrest c rfl
    simp [hc]

/-- Digits, a point and digits. -/
theorem mantissa_pointed {whole fraction rest : List Char}
    (hwhole : ∀ c ∈ whole, c.isDigit = true) (hfraction : ∀ c ∈ fraction, c.isDigit = true)
    (hne : whole ≠ []) (hrest : ∀ c ∈ rest.head?, c.isDigit = false) :
    mantissa Char.isDigit (whole ++ '.' :: (fraction ++ rest)) =
      some (whole ++ fraction, fraction.length, rest) := by
  obtain ⟨htake, hdrop⟩ := takeWhile_digits hwhole ('.' :: (fraction ++ rest))
    (by intro c hc; obtain rfl : '.' = c := by simpa using hc
        rfl)
  obtain ⟨htake', hdrop'⟩ := takeWhile_digits hfraction rest hrest
  rw [mantissa]
  simp only [htake, hdrop, htake', hdrop']
  rw [if_neg (by simp [hne])]

/-- Digits only. -/
theorem mantissa_whole {whole rest : List Char} (hwhole : ∀ c ∈ whole, c.isDigit = true)
    (hne : whole ≠ []) (hrest : ∀ c ∈ rest.head?, c.isDigit = false ∧ c ≠ '.') :
    mantissa Char.isDigit (whole ++ rest) = some (whole, 0, rest) := by
  obtain ⟨htake, hdrop⟩ := takeWhile_digits hwhole rest (fun c hc => (hrest c hc).1)
  rw [mantissa]
  simp only [htake, hdrop]
  rcases rest with _ | ⟨c, rest⟩
  · simp [hne]
  · have hpoint : c ≠ '.' := (hrest c rfl).2
    split
    · next heq =>
      obtain ⟨rfl, -⟩ := List.cons.inj heq
      exact absurd rfl hpoint
    · simp [hne]

/-- The characters of a decimal number. -/
def Numeral (text : List Char) : Prop :=
  ∀ c ∈ text, c.isDigit = true ∨ c = '.' ∨ c = 'e' ∨ c = '+' ∨ c = '-'

theorem numeral_of_digits {ds : List Char} (h : ∀ c ∈ ds, c.isDigit = true) : Numeral ds :=
  fun c hc => .inl (h c hc)

theorem Numeral.append {s t : List Char} (hs : Numeral s) (ht : Numeral t) :
    Numeral (s ++ t) := by
  intro c hc
  rcases List.mem_append.mp hc with hc | hc
  · exact hs c hc
  · exact ht c hc

theorem Numeral.cons {c : Char} {t : List Char}
    (hc : c.isDigit = true ∨ c = '.' ∨ c = 'e' ∨ c = '+' ∨ c = '-') (ht : Numeral t) :
    Numeral (c :: t) := by
  intro d hd
  rcases List.mem_cons.mp hd with rfl | hd
  · exact hc
  · exact ht d hd

/-- None of them marks a hexadecimal number. -/
theorem Numeral.toLower_ne {text : List Char} (h : Numeral text) {c : Char} (hc : c ∈ text) :
    c.toLower ≠ 'x' := by
  rcases h c hc with hdigit | rfl | rfl | rfl | rfl
  · exact (digit_facts hdigit).2.2.2.2.2
  all_goals decide

/-- None of them is a blank, a comma or a newline. -/
theorem Numeral.not_mem {text : List Char} (h : Numeral text) {c : Char} (hc : c ∈ text) :
    c ∉ [' ', '\t', ',', '\n'] := by
  rcases h c hc with hdigit | rfl | rfl | rfl | rfl
  · rintro hmem
    simp only [List.mem_cons, List.not_mem_nil, or_false] at hmem
    rcases hmem with rfl | rfl | rfl | rfl <;> cases hdigit
  all_goals decide

theorem digits_replicate (n : ℕ) : ∀ c ∈ List.replicate n '0', c.isDigit = true := by
  intro c hc
  rw [List.eq_of_mem_replicate hc]
  decide

theorem digits_append {s t : List Char} (hs : ∀ c ∈ s, c.isDigit = true)
    (ht : ∀ c ∈ t, c.isDigit = true) : ∀ c ∈ s ++ t, c.isDigit = true := by
  intro c hc
  rcases List.mem_append.mp hc with hc | hc
  · exact hs c hc
  · exact ht c hc

theorem digits_toDigits (n : ℕ) : ∀ c ∈ Nat.toDigits 10 n, c.isDigit = true := fun _ hc =>
  Nat.isDigit_of_mem_toDigits (by norm_num) (by norm_num) hc

theorem ofDigitChars_zeros (n : ℕ) (ds : List Char) :
    Nat.ofDigitChars 10 (List.replicate n '0' ++ ds) 0 = Nat.ofDigitChars 10 ds 0 := by
  rw [Nat.ofDigitChars_append, Nat.ofDigitChars_replicate_zero, Nat.mul_zero]

theorem ofDigitChars_append_zeros (ds : List Char) (n : ℕ) :
    Nat.ofDigitChars 10 (ds ++ List.replicate n '0') 0 = 10 ^ n * Nat.ofDigitChars 10 ds 0 := by
  rw [Nat.ofDigitChars_append, Nat.ofDigitChars_replicate_zero]

section Reading

variable {F : Type} [Double F]

/-- A text that starts with a digit is read as a decimal, unless it starts with `0x`. -/
theorem strtod_of_digit {c : Char} {rest digits tail : List Char} {places : ℕ}
    (hc : c.isDigit = true) (hnumeral : Numeral (c :: rest))
    (hmantissa : mantissa Char.isDigit (c :: rest) = some (digits, places, tail)) :
    strtod (c :: rest) = some ((Strtod.number (((Nat.ofDigitChars 10 digits 0 : ℚ) *
      10 ^ ((exponent 'e' tail).1 - places) : ℚ) : F)), (exponent 'e' tail).2) := by
  obtain ⟨hspace, hminus, hplus, hi, hn, -⟩ := digit_facts hc
  have hdrop : (c :: rest).dropWhile isSpace = c :: rest := by simp [hspace]
  have hsign : sign (c :: rest) = (false, c :: rest) := by
    rw [sign]
    · intro s hs
      exact hminus (List.cons.inj hs).1
    · intro s hs
      exact hplus (List.cons.inj hs).1
  have hinf : dropWord ['i', 'n', 'f'] (c :: rest) = none := by
    rw [dropWord, if_neg hi]
  have hnan : dropWord ['n', 'a', 'n'] (c :: rest) = none := by
    rw [dropWord, if_neg hn]
  have hhex : dropWord ['0', 'x'] (c :: rest) = none := by
    rw [dropWord]
    split
    · rcases rest with _ | ⟨d, rest⟩
      · rfl
      · have hx : d.toLower ≠ 'x' := hnumeral.toLower_ne (by simp)
        rw [dropWord, if_neg hx]
    · rfl
  rw [strtod]
  simp only [hdrop, hsign, hinf, hnan, hhex, Option.bind_none, hmantissa]
  rfl

/-- The exponent that `%g` prints. -/
theorem exponent_printed (e : ℤ) (n : ℕ) :
    exponent 'e' ('e' :: (if e < 0 then '-' else '+') ::
      (List.replicate n '0' ++ Nat.toDigits 10 e.natAbs)) = (e, []) := by
  have hdigits := digits_append (digits_replicate n) (digits_toDigits e.natAbs)
  obtain ⟨htake, hdrop⟩ := takeWhile_digits hdigits [] (by simp)
  rw [List.append_nil] at htake hdrop
  have hne : List.replicate n '0' ++ Nat.toDigits 10 e.natAbs ≠ [] := by
    simp [Nat.toDigits_ne_nil]
  have hvalue : Nat.ofDigitChars 10 (List.replicate n '0' ++ Nat.toDigits 10 e.natAbs) 0 =
      e.natAbs := by
    rw [ofDigitChars_zeros, Nat.ofDigitChars_ten_toDigits]
  have hmark : 'e'.toLower = 'e' := by decide
  rw [exponent, if_pos hmark]
  by_cases he : e < 0
  · rw [if_pos he]
    simp only [sign, htake, hdrop, if_neg hne, hvalue, if_true]
    congr 1
    omega
  · rw [if_neg he]
    simp only [sign, htake, hdrop, if_neg hne, hvalue, Bool.false_eq_true, if_false]
    congr 1
    omega

/-- Digits, a point, digits and an exponent. -/
theorem strtod_pointed {whole fraction tail : List Char}
    (hwhole : ∀ c ∈ whole, c.isDigit = true) (hfraction : ∀ c ∈ fraction, c.isDigit = true)
    (hne : whole ≠ []) (htail : Numeral tail) (hrest : ∀ c ∈ tail.head?, c.isDigit = false) :
    strtod (whole ++ '.' :: (fraction ++ tail)) =
      some ((Strtod.number (((Nat.ofDigitChars 10 (whole ++ fraction) 0 : ℚ) *
        10 ^ ((exponent 'e' tail).1 - fraction.length) : ℚ) : F)), (exponent 'e' tail).2) := by
  have hnumeral : Numeral (whole ++ '.' :: (fraction ++ tail)) :=
    (numeral_of_digits hwhole).append
      (((numeral_of_digits hfraction).append htail).cons (.inr (.inl rfl)))
  have hmantissa := mantissa_pointed hwhole hfraction hne hrest
  rcases whole with _ | ⟨c, whole⟩
  · exact absurd rfl hne
  · exact strtod_of_digit (hwhole c List.mem_cons_self) hnumeral hmantissa

/-- Digits and an exponent. -/
theorem strtod_whole {whole tail : List Char} (hwhole : ∀ c ∈ whole, c.isDigit = true)
    (hne : whole ≠ []) (htail : Numeral tail)
    (hrest : ∀ c ∈ tail.head?, c.isDigit = false ∧ c ≠ '.') :
    strtod (whole ++ tail) =
      some ((Strtod.number (((Nat.ofDigitChars 10 whole 0 : ℚ) *
        10 ^ (exponent 'e' tail).1 : ℚ) : F)), (exponent 'e' tail).2) := by
  have hnumeral : Numeral (whole ++ tail) := (numeral_of_digits hwhole).append htail
  have hmantissa := mantissa_whole hwhole hne hrest
  rcases whole with _ | ⟨c, whole⟩
  · exact absurd rfl hne
  · have h := strtod_of_digit (F := F) (hwhole c List.mem_cons_self) hnumeral hmantissa
    rw [Nat.cast_zero, sub_zero] at h
    exact h

/-- Digits, a point and digits, and nothing more. -/
theorem strtod_fixed (whole fraction : List Char) (hwhole : ∀ c ∈ whole, c.isDigit = true)
    (hfraction : ∀ c ∈ fraction, c.isDigit = true) (hne : whole ≠ []) :
    strtod (whole ++ '.' :: fraction) =
      some ((Strtod.number (((Nat.ofDigitChars 10 (whole ++ fraction) 0 : ℚ) *
        10 ^ (-(fraction.length : ℤ)) : ℚ) : F)), []) := by
  have hnone : Numeral [] := fun c hc => absurd hc (by simp)
  have h := strtod_pointed (F := F) hwhole hfraction hne hnone (by simp)
  rw [List.append_nil] at h
  rw [h]
  simp [exponent]

/-- Digits, and nothing more. -/
theorem strtod_digits (whole : List Char) (hwhole : ∀ c ∈ whole, c.isDigit = true)
    (hne : whole ≠ []) :
    strtod whole = some ((Strtod.number ((Nat.ofDigitChars 10 whole 0 : ℚ) : F)), []) := by
  have hnone : Numeral [] := fun c hc => absurd hc (by simp)
  have h := strtod_whole (F := F) hwhole hne hnone (by simp)
  rw [List.append_nil] at h
  rw [h]
  simp [exponent]

end Reading

/-! ### Reading what was printed -/

section Printed

variable {F : Type} [Double F] {ds : List Char} {e : ℤ}

/-- Positional notation is made of digits and at most a point. -/
theorem numeral_positional (hds : ∀ c ∈ ds, c.isDigit = true) (e : ℤ) :
    Numeral (positional ds e) := by
  rw [positional]
  split
  · split
    · exact (numeral_of_digits hds).append (numeral_of_digits (digits_replicate _))
    · exact (numeral_of_digits fun c hc => hds c (List.mem_of_mem_take hc)).append
        ((numeral_of_digits fun c hc => hds c (List.mem_of_mem_drop hc)).cons (.inr (.inl rfl)))
  · exact (((numeral_of_digits (digits_replicate _)).append (numeral_of_digits hds)).cons
      (.inr (.inl rfl))).cons (.inl rfl)

/-- The digits and the exponent are what positional notation denotes. -/
theorem strtod_positional (hds : ∀ c ∈ ds, c.isDigit = true) (hne : ds ≠ []) :
    strtod (positional ds e) = some ((Strtod.number (((Nat.ofDigitChars 10 ds 0 : ℚ) *
      10 ^ (e + 1 - ds.length) : ℚ) : F)), []) := by
  have hlength : 0 < ds.length := List.length_pos_iff.mpr hne
  rw [positional]
  split
  · next he =>
    lift e to ℕ using he
    rw [Int.toNat_natCast]
    split
    · -- trailing zeros
      next hle =>
      rw [strtod_digits _ (digits_append hds (digits_replicate (e + 1 - ds.length)))
        (by simp [hne]), ofDigitChars_append_zeros]
      have hexp : ((e : ℤ) + 1 - ds.length) = ((e + 1 - ds.length : ℕ) : ℤ) := by omega
      rw [hexp, zpow_natCast]
      push_cast
      rw [mul_comm]
    · -- a point among the digits
      next hlt =>
      have hexp : -((ds.length - (e + 1) : ℕ) : ℤ) = e + 1 - ds.length := by omega
      rw [strtod_fixed _ _ (fun c hc => hds c (List.mem_of_mem_take hc))
        (fun c hc => hds c (List.mem_of_mem_drop hc)) (by simp [hne])]
      rw [List.take_append_drop, List.length_drop, hexp]
  · -- zeros after the point
    next he =>
    have hzero : Nat.ofDigitChars 10 (['0'] ++ (List.replicate ((-e).toNat - 1) '0' ++ ds)) 0 =
        Nat.ofDigitChars 10 ds 0 := by
      rw [← ofDigitChars_zeros (1 + ((-e).toNat - 1)) ds, List.replicate_add, List.append_assoc]
      rfl
    have hexp : -(((-e).toNat - 1 + ds.length : ℕ) : ℤ) = e + 1 - ds.length := by omega
    have h := strtod_fixed (F := F) ['0'] _ (by simp)
      (digits_append (digits_replicate ((-e).toNat - 1)) hds) (by simp)
    rw [hzero, List.length_append, List.length_replicate, hexp] at h
    exact h

/-- The exponent that `%g` prints is made of a numeral's characters. -/
theorem numeral_exponent (e : ℤ) (n : ℕ) :
    Numeral ('e' :: (if e < 0 then '-' else '+') ::
      (List.replicate n '0' ++ Nat.toDigits 10 e.natAbs)) := by
  have hdigits := digits_append (digits_replicate n) (digits_toDigits e.natAbs)
  refine ((numeral_of_digits hdigits).cons ?_).cons (.inr (.inr (.inl rfl)))
  split
  · exact .inr (.inr (.inr (.inr rfl)))
  · exact .inr (.inr (.inr (.inl rfl)))

/-- Scientific notation is a numeral too. -/
theorem numeral_scientific (hds : ∀ c ∈ ds, c.isDigit = true) (e : ℤ) :
    Numeral (scientific ds e) := by
  unfold scientific
  rcases ds with _ | ⟨d, _ | ⟨d', rest⟩⟩
  · exact (numeral_of_digits hds).append (numeral_exponent e _)
  · exact (numeral_of_digits hds).append (numeral_exponent e _)
  · refine Numeral.append ?_ (numeral_exponent e _)
    exact ((numeral_of_digits fun c hc => hds c (List.mem_cons_of_mem _ hc)).cons
      (.inr (.inl rfl))).cons (.inl (hds d List.mem_cons_self))

/-- The digits and the exponent are what scientific notation denotes. -/
theorem strtod_scientific (hds : ∀ c ∈ ds, c.isDigit = true) (hne : ds ≠ []) :
    strtod (scientific ds e) = some ((Strtod.number (((Nat.ofDigitChars 10 ds 0 : ℚ) *
      10 ^ (e + 1 - ds.length) : ℚ) : F)), []) := by
  have hexponent := exponent_printed e (2 - (Nat.toDigits 10 e.natAbs).length)
  have htail := numeral_exponent e (2 - (Nat.toDigits 10 e.natAbs).length)
  unfold scientific
  generalize hE : 'e' :: (if e < 0 then '-' else '+') ::
    (List.replicate (2 - (Nat.toDigits 10 e.natAbs).length) '0' ++
      Nat.toDigits 10 e.natAbs) = E at hexponent htail
  have hhead : ∀ c ∈ E.head?, c.isDigit = false ∧ c ≠ '.' := by
    rw [← hE]
    intro c hc
    obtain rfl : 'e' = c := by simpa using hc
    decide
  simp only [hE]
  rcases ds with _ | ⟨d, _ | ⟨d', rest⟩⟩
  · exact absurd rfl hne
  · have h := strtod_whole (F := F) hds hne htail hhead
    rw [hexponent] at h
    have hexp : e + 1 - (([d] : List Char).length : ℤ) = e := by simp
    rw [hexp]
    exact h
  · have hd : ∀ c ∈ [d], c.isDigit = true := fun c hc => hds c (by simp at hc; simp [hc])
    have h := strtod_pointed (F := F) hd (fun c hc => hds c (List.mem_cons_of_mem _ hc))
      (List.cons_ne_nil d []) htail (fun c hc => (hhead c hc).1)
    rw [hexponent] at h
    have hexp : e + 1 - ((d :: d' :: rest).length : ℤ) = e - ((d' :: rest).length : ℤ) := by
      simp only [List.length_cons]
      push_cast
      ring
    rw [hexp]
    exact h

end Printed

/-! ### Values that are printed exactly -/

/-- `v` has at most `p` significant digits. -/
def Significant (p : ℕ) (v : ℚ) : Prop := ∃ (n : ℕ) (k : ℤ), n < 10 ^ p ∧ v = n * 10 ^ k

/-- A value with a fixed number of places. -/
theorem significant_div {p n : ℕ} (h : n < 10 ^ p) (places : ℕ) :
    Significant p ((n : ℚ) / 10 ^ places) := by
  refine ⟨n, -places, h, ?_⟩
  rw [zpow_neg, zpow_natCast, div_eq_mul_inv]

@[simp] theorem roundHalfEven_natCast (n : ℕ) : roundHalfEven (n : ℚ) = n := by
  rw [roundHalfEven]
  simp

/-- The significand that `%g` prints is the value itself. -/
theorem Significant.significand {p : ℕ} {v : ℚ} (h : Significant p v) (hv : 0 < v) :
    ∃ n : ℕ, 10 ^ (p - 1) ≤ n ∧ n < 10 ^ p ∧ 0 < p ∧
      v * 10 ^ ((p : ℤ) - 1 - Int.log 10 v) = n := by
  obtain ⟨n, k, hn, rfl⟩ := h
  set v : ℚ := n * 10 ^ k with hvdef
  set e := Int.log 10 v with he
  have hlow : (10 : ℚ) ^ e ≤ v := by
    exact_mod_cast Int.zpow_log_le_self (b := 10) (by norm_num) hv
  have hhigh : v < (10 : ℚ) ^ (e + 1) := by
    exact_mod_cast Int.lt_zpow_succ_log_self (b := 10) (by norm_num) v
  have hbase : (1 : ℚ) < 10 := by norm_num
  have hpow : ∀ i : ℤ, (0 : ℚ) < 10 ^ i := fun i => zpow_pos (by norm_num) i
  -- the leading digit lies below the digits the value has
  have hexp : e < p + k := by
    refine (zpow_lt_zpow_iff_right₀ hbase).mp (hlow.trans_lt ?_)
    rw [zpow_add₀ (by norm_num), zpow_natCast]
    exact mul_lt_mul_of_pos_right (by exact_mod_cast hn) (hpow k)
  have hp : 0 < p := by
    rcases Nat.eq_zero_or_pos p with rfl | hp
    · have hzero : n = 0 := by simpa using hn
      rw [hvdef, hzero] at hv
      simp at hv
    · exact hp
  refine ⟨n * 10 ^ (k + p - 1 - e).toNat, ?_, ?_, hp, ?_⟩
  all_goals
    have hshift : v * 10 ^ ((p : ℤ) - 1 - e) = ((n * 10 ^ (k + p - 1 - e).toNat : ℕ) : ℚ) := by
      push_cast
      rw [hvdef, mul_assoc, ← zpow_add₀ (by norm_num), ← zpow_natCast]
      congr 2
      omega
  · have hle : ((10 ^ (p - 1) : ℕ) : ℚ) ≤ ((n * 10 ^ (k + p - 1 - e).toNat : ℕ) : ℚ) := by
      rw [← hshift]
      calc ((10 ^ (p - 1) : ℕ) : ℚ) = 10 ^ e * 10 ^ ((p : ℤ) - 1 - e) := by
            rw [← zpow_add₀ (by norm_num)]
            push_cast
            rw [← zpow_natCast]
            congr 1
            omega
        _ ≤ v * 10 ^ ((p : ℤ) - 1 - e) := mul_le_mul_of_nonneg_right hlow (hpow _).le
    exact_mod_cast hle
  · have hlt : ((n * 10 ^ (k + p - 1 - e).toNat : ℕ) : ℚ) < ((10 ^ p : ℕ) : ℚ) := by
      rw [← hshift]
      calc v * 10 ^ ((p : ℤ) - 1 - e) < 10 ^ (e + 1) * 10 ^ ((p : ℤ) - 1 - e) :=
            mul_lt_mul_of_pos_right hhigh (hpow _)
        _ = ((10 ^ p : ℕ) : ℚ) := by
            rw [← zpow_add₀ (by norm_num)]
            push_cast
            rw [← zpow_natCast]
            congr 1
            omega
    exact_mod_cast hlt
  · exact hshift

/-- Digits after `init` stay below the next power of ten. -/
theorem ofDigitChars_lt {ds : List Char} (hds : ∀ c ∈ ds, c.isDigit = true) (init : ℕ) :
    Nat.ofDigitChars 10 ds init < (init + 1) * 10 ^ ds.length := by
  induction ds generalizing init with
  | nil => simp
  | cons c ds ih =>
    have hc : c.toNat - '0'.toNat ≤ 9 := by
      have hmem := mem_digits (hds c List.mem_cons_self)
      simp only [List.mem_cons, List.not_mem_nil, or_false] at hmem
      rcases hmem with rfl | rfl | rfl | rfl | rfl | rfl | rfl | rfl | rfl | rfl
      all_goals decide
    rw [Nat.ofDigitChars_cons]
    refine (ih (fun d hd => hds d (List.mem_cons_of_mem _ hd)) _).trans_le ?_
    rw [List.length_cons, pow_succ', ← mul_assoc]
    exact Nat.mul_le_mul_right _ (by omega)

/-- The significant digits of `v`: none in front or behind is a zero. -/
structure Digits (p : ℕ) (v : ℚ) (ds : List Char) : Prop where
  digits : ∀ c ∈ ds, c.isDigit = true
  ne_nil : ds ≠ []
  head_ne : ∀ c ∈ ds.head?, c ≠ '0'
  length_le : ds.length ≤ p
  value : (Nat.ofDigitChars 10 ds 0 : ℚ) * 10 ^ (Int.log 10 v + 1 - ds.length) = v

/-- `%g` prints the significant digits of a value that has few enough of them. -/
theorem Significant.formatG {p : ℕ} {v : ℚ} (h : Significant p v) (hv : 0 < v) :
    ∃ ds, Digits p v ds ∧ formatG p v =
      if -4 ≤ Int.log 10 v ∧ Int.log 10 v < p then positional ds (Int.log 10 v)
      else scientific ds (Int.log 10 v) := by
  obtain ⟨n, hlow, hhigh, hp, hn⟩ := h.significand hv
  set ds := (Nat.toDigits 10 n).rdropWhile (· = '0') with hds
  -- the digits that are removed are zeros
  obtain ⟨z, hsplit⟩ : ∃ z, Nat.toDigits 10 n = ds ++ List.replicate z '0' := by
    refine ⟨((Nat.toDigits 10 n).rtakeWhile (· = '0')).length, ?_⟩
    have hzeros : (Nat.toDigits 10 n).rtakeWhile (· = '0') =
        List.replicate ((Nat.toDigits 10 n).rtakeWhile (· = '0')).length '0' := by
      refine List.eq_replicate_iff.mpr ⟨rfl, fun c hc => ?_⟩
      simpa using List.mem_rtakeWhile_imp hc
    rw [← hzeros, hds, List.rdropWhile_append_rtakeWhile]
  have hlength : ds.length + z = p := by
    have heq := congrArg List.length hsplit
    rw [List.length_append, List.length_replicate] at heq
    have hle := (Nat.length_toDigits_le_iff (b := 10) (by norm_num) hp).mpr hhigh
    have hge : ¬(Nat.toDigits 10 n).length ≤ p - 1 := by
      rcases Nat.eq_zero_or_pos (p - 1) with hzero | hpos
      · have hpositive := Nat.length_toDigits_pos (b := 10) (n := n)
        omega
      · rw [Nat.length_toDigits_le_iff (by norm_num) hpos]
        omega
    omega
  have hvalue : n = 10 ^ z * Nat.ofDigitChars 10 ds 0 := by
    rw [← ofDigitChars_append_zeros, ← hsplit, Nat.ofDigitChars_ten_toDigits]
  have hdigits : ∀ c ∈ ds, c.isDigit = true := by
    intro c hc
    refine digits_toDigits n c ?_
    rw [hsplit]
    exact List.mem_append_left _ hc
  have hpositive : 0 < n := lt_of_lt_of_le (by positivity) hlow
  have hne : ds ≠ [] := by
    intro hnil
    rw [hnil] at hvalue
    simp at hvalue
    omega
  have hhead : ∀ c ∈ ds.head?, c ≠ '0' := by
    rintro c hc rfl
    obtain ⟨rest, hrest⟩ : ∃ rest, ds = '0' :: rest := by
      rcases ds with _ | ⟨d, rest⟩
      · exact absurd rfl hne
      · obtain rfl : d = '0' := by simpa using hc
        exact ⟨rest, rfl⟩
    -- a leading zero would leave fewer digits than the significand has
    have hbound := ofDigitChars_lt (fun c hc => hdigits c (by rw [hrest]; simp [hc]) :
      ∀ c ∈ rest, c.isDigit = true) 0
    have hdrop : Nat.ofDigitChars 10 ds 0 = Nat.ofDigitChars 10 rest 0 := by
      rw [hrest]
      exact ofDigitChars_zeros 1 rest
    have hcount : ds.length = rest.length + 1 := by rw [hrest, List.length_cons]
    have hpow : 10 ^ z * 10 ^ rest.length = 10 ^ (p - 1) := by
      rw [← pow_add]
      congr 1
      omega
    have hlt : n < 10 ^ (p - 1) := by
      rw [hvalue, hdrop, ← hpow]
      exact Nat.mul_lt_mul_of_pos_left (by simpa using hbound) (by positivity)
    omega
  refine ⟨ds, ⟨hdigits, hne, hhead, by omega, ?_⟩, ?_⟩
  · have hscale : v = n * 10 ^ (Int.log 10 v + 1 - p) := by
      rw [← hn, mul_assoc, ← zpow_add₀ (by norm_num)]
      have hzero : (p : ℤ) - 1 - Int.log 10 v + (Int.log 10 v + 1 - p) = 0 := by ring
      rw [hzero, zpow_zero, mul_one]
    conv_rhs => rw [hscale, hvalue]
    push_cast
    rw [mul_comm ((10 : ℚ) ^ z), mul_assoc, ← zpow_natCast, ← zpow_add₀ (by norm_num)]
    congr 2
    omega
  · have hne10 : n ≠ 10 ^ p := by omega
    rw [CString.formatG, minus, if_neg (not_lt.mpr hv.le), if_neg hv.ne', abs_of_pos hv]
    simp only [hn, roundHalfEven_natCast, Int.toNat_natCast, if_neg hne10, List.nil_append]
    rw [← hds]

theorem length_positional {ds : List Char} {e : ℤ} {p : ℕ} (hlength : ds.length ≤ p)
    (hlow : -4 ≤ e) (hhigh : e < p) : (positional ds e).length ≤ p + 5 := by
  rw [positional]
  split
  · split
    · rw [List.length_append, List.length_replicate]
      omega
    · rw [List.length_append, List.length_cons, List.length_take, List.length_drop]
      omega
  · simp only [List.length_cons, List.length_append, List.length_replicate]
    omega

theorem length_scientific {ds : List Char} {e : ℤ} {p : ℕ} (hlength : ds.length ≤ p)
    (he : e.natAbs < 100) : (scientific ds e).length ≤ p + 5 := by
  have hexp : (Nat.toDigits 10 e.natAbs).length ≤ 2 :=
    (Nat.length_toDigits_le_iff (by norm_num) (by norm_num)).mpr he
  unfold scientific
  rcases ds with _ | ⟨d, _ | ⟨d', rest⟩⟩
  all_goals
    simp only [List.length_cons, List.length_append, List.length_replicate, List.length_nil]
      at hlength ⊢
    omega

section Exact

variable {F : Type} [Double F] {p : ℕ} {v : ℚ}

theorem formatG_zero (p : ℕ) : formatG p 0 = ['0'] := by
  rw [formatG, minus, if_neg (lt_irrefl 0), if_pos rfl]
  rfl

/-- `%g` and back. -/
theorem strtod_formatG (h : Significant p v) (hv : 0 ≤ v) :
    strtod (formatG p v) = some ((Strtod.number ((v : ℚ) : F)), []) := by
  rcases hv.eq_or_lt with rfl | hv
  · rw [formatG_zero]
    have hzero : Nat.ofDigitChars 10 ['0'] 0 = 0 := by decide
    rw [strtod_digits _ (by simp) (by simp), hzero]
    simp
  · obtain ⟨ds, hds, hformat⟩ := h.formatG hv
    rw [hformat]
    split
    · rw [strtod_positional hds.digits hds.ne_nil, hds.value]
    · rw [strtod_scientific hds.digits hds.ne_nil, hds.value]

theorem Significant.numeral_formatG (h : Significant p v) (hv : 0 ≤ v) :
    Numeral (CString.formatG p v) := by
  rcases hv.eq_or_lt with rfl | hv
  · rw [formatG_zero]
    exact numeral_of_digits (by simp)
  · obtain ⟨ds, hds, hformat⟩ := h.formatG hv
    rw [hformat]
    split
    · exact numeral_positional hds.digits _
    · exact numeral_scientific hds.digits _

theorem Significant.formatG_ne_nil (h : Significant p v) (hv : 0 ≤ v) :
    CString.formatG p v ≠ [] := by
  intro hnil
  have hread := strtod_formatG (F := ℚ) h hv
  rw [hnil] at hread
  have hnone : strtod [] = (none : Option (Strtod ℚ × List Char)) := by decide
  rw [hnone] at hread
  exact absurd hread (by simp)

/-- A value that is not tiny prints in `p + 5` characters: the sign, the point and an
exponent of two digits. -/
theorem Significant.length_formatG_le (h : Significant p v) (hv : 0 ≤ v)
    (hlow : v = 0 ∨ (10 : ℚ) ^ (-99 : ℤ) ≤ v) (hp : p ≤ 99) (hhigh : v < 10 ^ (99 : ℤ)) :
    (CString.formatG p v).length ≤ p + 5 := by
  rcases hv.eq_or_lt with rfl | hv
  · rw [formatG_zero, List.length_singleton]
    omega
  · have hmin : (-99 : ℤ) ≤ Int.log 10 v := by
      rcases hlow with hzero | hlow
      · exact absurd hzero hv.ne'
      · exact (Int.zpow_le_iff_le_log (by norm_num) hv).mp (by exact_mod_cast hlow)
    have hmax : Int.log 10 v < 99 :=
      (Int.lt_zpow_iff_log_lt (by norm_num) hv).mp (by exact_mod_cast hhigh)
    obtain ⟨ds, hds, hformat⟩ := h.formatG hv
    rw [hformat]
    split
    · next hnotation => exact length_positional hds.length_le hnotation.1 hnotation.2
    · exact length_scientific hds.length_le (by omega)

/-! #### Fixed notation -/

/-- `%f` of a multiple of the last place: the whole part, a point and the places. -/
theorem formatF_natCast_div (places : ℕ) (hplaces : 0 < places) (n : ℕ) :
    ∃ fraction : List Char, (∀ c ∈ fraction, c.isDigit = true) ∧ fraction.length = places ∧
      Nat.ofDigitChars 10 fraction 0 = n % 10 ^ places ∧
      formatF places ((n : ℚ) / 10 ^ places) =
        Nat.toDigits 10 (n / 10 ^ places) ++ '.' :: fraction := by
  have hpow : (0 : ℚ) < 10 ^ places := by positivity
  have hnonneg : (0 : ℚ) ≤ (n : ℚ) / 10 ^ places := by positivity
  have hround : roundHalfEven (|(n : ℚ) / 10 ^ places| * 10 ^ places) = n := by
    rw [abs_of_nonneg hnonneg, div_mul_cancel₀ _ hpow.ne', roundHalfEven_natCast]
  have hlength : (Nat.toDigits 10 (n % 10 ^ places)).length ≤ places :=
    (Nat.length_toDigits_le_iff (by norm_num) hplaces).mpr (Nat.mod_lt _ (by positivity))
  refine ⟨List.replicate (places - (Nat.toDigits 10 (n % 10 ^ places)).length) '0' ++
    Nat.toDigits 10 (n % 10 ^ places), ?_, ?_, ?_, ?_⟩
  · exact digits_append (digits_replicate _) (digits_toDigits _)
  · rw [List.length_append, List.length_replicate]
    omega
  · rw [ofDigitChars_zeros, Nat.ofDigitChars_ten_toDigits]
  · rw [formatF, minus, if_neg (not_lt.mpr hnonneg), hround]
    rfl

/-- `%f` and back. -/
theorem strtod_formatF (places : ℕ) (hplaces : 0 < places) (n : ℕ) :
    strtod (formatF places ((n : ℚ) / 10 ^ places)) =
      some ((Strtod.number (((n : ℚ) / 10 ^ places : ℚ) : F)), []) := by
  obtain ⟨fraction, hdigits, hlength, hvalue, hformat⟩ := formatF_natCast_div places hplaces n
  rw [hformat, strtod_fixed _ _ (digits_toDigits _) hdigits Nat.toDigits_ne_nil]
  have hdenotes : Nat.ofDigitChars 10 (Nat.toDigits 10 (n / 10 ^ places) ++ fraction) 0 = n := by
    rw [Nat.ofDigitChars_append, Nat.ofDigitChars_ten_toDigits,
      Nat.ofDigitChars_eq_ofDigitChars_zero, hlength, hvalue]
    exact Nat.div_add_mod n _
  rw [hdenotes, hlength]
  simp [div_eq_mul_inv]

end Exact

/-! ### Constants of a C source -/

/-- What a decimal, octal or floating constant denotes. -/
def literal (text : List Char) : Option ℚ :=
  if text.all Char.isDigit then
    match text with
    | [] => none
    -- a leading zero makes it octal
    | '0' :: octal => if octal.all (· < '8') then some (Nat.ofDigitChars 8 octal 0) else none
    | digits => some (Nat.ofDigitChars 10 digits 0)
  else
    match (strtod text : Option (Strtod ℚ × List Char)) with
    | some (.number v, []) => some v
    | _ => none

/-- A digit string does not hold the mark of another notation. -/
theorem not_all_digits {text : List Char} {c : Char} (hmem : c ∈ text)
    (hc : c.isDigit = false) : text.all Char.isDigit = false := by
  rw [List.all_eq_false]
  exact ⟨c, hmem, by simp [hc]⟩

/-- Without a point or an exponent a text starts with a significant digit. -/
theorem Significant.head_of_digits {p : ℕ} {v : ℚ} (h : Significant p v) (hv : 0 < v)
    (hdigits : (CString.formatG p v).all Char.isDigit = true) :
    ∃ d rest, CString.formatG p v = d :: rest ∧ d ≠ '0' := by
  obtain ⟨ds, hds, hformat⟩ := h.formatG hv
  obtain ⟨d, rest, hcons⟩ := List.exists_cons_of_ne_nil hds.ne_nil
  have hd : d ≠ '0' := hds.head_ne d (by rw [hcons]; rfl)
  rw [hformat] at hdigits ⊢
  split at hdigits
  · next hnotation =>
    rw [if_pos hnotation]
    rw [positional] at hdigits ⊢
    split at hdigits
    · next he =>
      rw [if_pos he]
      split at hdigits
      · next hle =>
        rw [if_pos hle, hcons]
        exact ⟨d, _, rfl, hd⟩
      · rw [not_all_digits (c := '.') (by simp) (by decide)] at hdigits
        cases hdigits
    · rw [not_all_digits (c := '.') (by simp) (by decide)] at hdigits
      cases hdigits
  · rw [not_all_digits (c := 'e') (by simp [scientific]) (by decide)] at hdigits
    cases hdigits

/-- `%g` prints a C constant of the same value. -/
theorem literal_formatG {p : ℕ} {v : ℚ} (h : Significant p v) (hv : 0 ≤ v) :
    literal (formatG p v) = some v := by
  have hread := strtod_formatG (F := ℚ) h hv
  rcases hv.eq_or_lt with rfl | hv
  · rw [formatG_zero]
    decide +kernel
  unfold literal
  by_cases hdigits : (formatG p v).all Char.isDigit = true
  · obtain ⟨d, rest, hformat, hd⟩ := h.head_of_digits hv hdigits
    rw [hformat] at hread hdigits
    rw [hformat, if_pos hdigits]
    -- decimal digits are what `strtod` reads them as
    have hwhole := strtod_digits (F := ℚ) (d :: rest) (List.all_eq_true.mp hdigits)
      (List.cons_ne_nil d rest)
    rw [hread] at hwhole
    have hvalue : v = Nat.ofDigitChars 10 (d :: rest) 0 := by
      simpa using hwhole
    split
    · next hnil => cases hnil
    · next hzero => exact absurd (List.cons.inj hzero).1 hd
    · rw [← hvalue]
  · rw [if_neg hdigits, hread]
    simp

/-! ### Words -/

section Words

variable {delims : List Char} {d : Char} (hd : d ∈ delims)

include hd in
/-- A delimiter in front is skipped. -/
theorem strtok_delim (line : List Char) : strtok delims (d :: line) = strtok delims line := by
  rw [strtok, strtokFrom, if_pos hd]
  rfl

include hd in
/-- A word and a delimiter are a token. -/
theorem strtok_word {w : List Char} (hne : w ≠ []) (hw : ∀ c ∈ w, c ∉ delims)
    (line : List Char) : strtok delims (w ++ d :: line) = w :: strtok delims line := by
  rw [strtok, strtokFrom_append hw, strtokFrom, if_pos hd]
  simp [hne, strtok]

/-- A word at the end is a token. -/
theorem strtok_last {w : List Char} (hne : w ≠ []) (hw : ∀ c ∈ w, c ∉ delims) :
    strtok delims w = [w] := by
  have h := strtokFrom_append hw [] []
  rw [List.append_nil] at h
  rw [strtok, h, strtokFrom]
  simp [hne]

include hd in
/-- The tokens of joined words are the words, without the empty ones. -/
theorem strtok_intercalate {words : List (List Char)} (hwords : ∀ w ∈ words, ∀ c ∈ w, c ∉ delims) :
    strtok delims ([d].intercalate words) = words.filter (· ≠ []) := by
  induction words with
  | nil => rfl
  | cons w words ih =>
    have hw := hwords w List.mem_cons_self
    have ih := ih fun v hv => hwords v (List.mem_cons_of_mem _ hv)
    rcases words with _ | ⟨v, words⟩
    · have hline : [d].intercalate [w] = w := by simp
      rw [hline]
      by_cases hne : w = []
      · rw [hne]
        rfl
      · rw [strtok_last hne hw]
        simp [hne]
    · have hline : [d].intercalate (w :: v :: words) = w ++ d :: [d].intercalate (v :: words) := by
        simp
      rw [hline]
      by_cases hne : w = []
      · rw [hne, List.nil_append, strtok_delim hd, ih]
        exact (List.filter_cons_of_neg (by simp)).symm
      · rw [strtok_word hd hne hw, ih]
        exact (List.filter_cons_of_pos (by simpa using hne)).symm

end Words

end CString
