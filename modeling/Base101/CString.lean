/-
C strings: tokens and numbers.

`strtok`, `strtoul` and `strtod` on text held as a list of characters, as far
as a line-oriented protocol uses them.  `strtod` reads decimal and hexadecimal
numbers exactly and then rounds once, by the cast from `ℚ`; infinities and NaN
are kept apart from numbers, since an exact `F` has neither.

* `strtoul_toDigits` — printing a number with `%lu` and reading it back.
-/
import Base101.Double

namespace CString

/-- The tokens `strtok` yields for the given delimiters, with the token being
read in `token`, last character first. -/
def strtokFrom (delims : List Char) : (token line : List Char) → List (List Char)
  | token, [] => if token.isEmpty then [] else [token.reverse]
  | token, c :: line =>
    if c ∈ delims then
      (if token.isEmpty then [] else [token.reverse]) ++ strtokFrom delims [] line
    else strtokFrom delims (c :: token) line

def strtok (delims line : List Char) : List (List Char) := strtokFrom delims [] line

/-- `ULONG_MAX` of the 32-bit target. -/
def ulongMax : ℕ := 4294967295

/-- `strtoul(word, &end, 10)` on decimal digits, saturating. -/
def strtoul (word : List Char) : ℕ := min (Nat.ofDigitChars 10 word 0) ulongMax

theorem strtoul_toDigits {n : ℕ} (h : n ≤ ulongMax) : strtoul (Nat.toDigits 10 n) = n := by
  rw [strtoul, Nat.ofDigitChars_ten_toDigits, min_eq_left h]

theorem isDigit_toDigits (n : ℕ) : (Nat.toDigits 10 n).all Char.isDigit = true :=
  List.all_eq_true.mpr fun _ hc =>
    Nat.isDigit_of_mem_toDigits (by norm_num) (by norm_num) hc

/-- Characters outside the delimiters extend the token being read. -/
theorem strtokFrom_append {delims word : List Char} (h : ∀ c ∈ word, c ∉ delims)
    (token line : List Char) :
    strtokFrom delims token (word ++ line) = strtokFrom delims (word.reverse ++ token) line := by
  -- each character moves from the line to the token, which is kept reversed
  induction word generalizing token with
  | nil => rfl
  | cons c word ih =>
    have hc : c ∉ delims := h c List.mem_cons_self
    rw [List.cons_append, strtokFrom, if_neg hc, ih fun d hd => h d (List.mem_cons_of_mem _ hd)]
    simp

/-- What `strtod` can read: a number, or one of the two non-finite values. -/
inductive Strtod (F : Type)
  | number (v : F)
  | infinity (negative : Bool)
  | nan
deriving DecidableEq

def isSpace (c : Char) : Bool :=
  c = ' ' || c = '\t' || c = '\n' || c = '\r' || c = '\x0b' || c = '\x0c'

/-- An optional sign. -/
def sign : List Char → Bool × List Char
  | '-' :: s => (true, s)
  | '+' :: s => (false, s)
  | s => (false, s)

/-- The rest of `s` after `word`, ignoring case. -/
def dropWord : (word s : List Char) → Option (List Char)
  | [], s => some s
  | c :: word, d :: s => if d.toLower = c then dropWord word s else none
  | _ :: _, [] => none

def hexDigit (c : Char) : Bool := c.isDigit || ('a' ≤ c.toLower && c.toLower ≤ 'f')

def hexDigitValue (c : Char) : ℕ :=
  if c.isDigit then c.toNat - '0'.toNat else c.toLower.toNat - 'a'.toNat + 10

/-- Digits, an optional point and more digits: the digits, how many stand after
the point, and the rest. -/
def mantissa (isDigit : Char → Bool) (s : List Char) : Option (List Char × ℕ × List Char) :=
  let whole := s.takeWhile isDigit
  let rest := s.dropWhile isDigit
  let (fraction, rest) := match rest with
    | '.' :: t => (t.takeWhile isDigit, t.dropWhile isDigit)
    | _ => ([], rest)
  -- a point without a digit on either side is not a number
  if whole ++ fraction = [] then none else some (whole ++ fraction, fraction.length, rest)

/-- An optional exponent: without a digit the mark is not consumed. -/
def exponent (mark : Char) (s : List Char) : ℤ × List Char :=
  match s with
  | c :: t =>
    if c.toLower = mark then
      let (negative, t) := sign t
      let digits := t.takeWhile Char.isDigit
      if digits = [] then (0, s)
      else
        let n : ℤ := Nat.ofDigitChars 10 digits 0
        (if negative then -n else n, t.dropWhile Char.isDigit)
    else (0, s)
  | [] => (0, s)

variable {F : Type} [Double F]

/-- `strtod(word, &end)`: the value and the text from `end` on, or `none` when
no conversion is made. -/
def strtod (word : List Char) : Option (Strtod F × List Char) :=
  let (negative, s) := sign (word.dropWhile isSpace)
  -- the sign is applied to the rational, so that the value is rounded once
  let signed (q : ℚ) : Strtod F := .number ((if negative then -q else q : ℚ) : F)
  match dropWord ['i', 'n', 'f'] s with
  | some rest =>
    some (.infinity negative, (dropWord ['i', 'n', 'i', 't', 'y'] rest).getD rest)
  | none =>
    match dropWord ['n', 'a', 'n'] s with
    | some rest => some (.nan, rest)
    | none =>
      -- a lone `0x` is the decimal zero with `x` left over
      match (dropWord ['0', 'x'] s).bind (mantissa hexDigit) with
      | some (digits, places, rest) =>
        let (e, rest) := exponent 'p' rest
        let n := digits.foldl (fun n c => 16 * n + hexDigitValue c) 0
        some (signed ((n : ℚ) * 2 ^ (e - 4 * places)), rest)
      | none =>
        match mantissa Char.isDigit s with
        | some (digits, places, rest) =>
          let (e, rest) := exponent 'e' rest
          some (signed ((Nat.ofDigitChars 10 digits 0 : ℚ) * 10 ^ (e - places)), rest)
        | none => none

example : strtok [' ', '\t'] "12  drive\t.1 -3e-1".toList =
    ["12".toList, "drive".toList, ".1".toList, "-3e-1".toList] := by decide +kernel

example : (strtod "-3e-1".toList : Option (Strtod ℚ × _)) = some (.number (-3 / 10), []) := by
  decide +kernel

end CString
