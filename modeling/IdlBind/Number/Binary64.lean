import IdlBind.Number.Integer

set_option autoImplicit false

/-! # Floating-point literals

A floating-point literal denotes the 64-bit binary number nearest to its decimal value, of two
equally near ones the one with the even significand. All arithmetic is exact, on `Nat`. -/

namespace IdlBind.Number

/-- A 64-bit binary floating-point number, by its bits: sign, 11 bits of exponent, 52 bits of
    significand. -/
structure Binary64 where
  bits : UInt64
  deriving DecidableEq, Repr, Inhabited

namespace Binary64

/-- Is the sign bit set? -/
def isNegative (x : Binary64) : Bool := Nat.pow 2 63 ≤ x.bits.toNat

/-- The bits without the sign. -/
def magnitudeBits (x : Binary64) : Nat := x.bits.toNat % Nat.pow 2 63

/-- The magnitude bits of the infinities: all exponent bits set and an empty significand. -/
def infinityBits : Nat := 2047 * Nat.pow 2 52

/-- The number with a sign and magnitude bits. -/
def ofMagnitudeBits (negative : Bool) (magnitude : Nat) : Binary64 :=
  ⟨UInt64.ofNat (magnitude + if negative then Nat.pow 2 63 else 0)⟩

/-! ## Rounding -/

/-- The integer nearest to `num / den`; a half goes to the even neighbour. -/
def roundHalfEven (num den : Nat) : Nat :=
  let floor := num / den
  let rest := num % den
  if 2 * rest < den then floor
  else if 2 * rest > den then floor + 1
  else if floor % 2 = 0 then floor else floor + 1

/-- The greatest `e` with `2 ^ e ≤ num / den`, for positive `num` and `den`. -/
def floorLog2 (num den : Nat) : Int :=
  let e : Int := (num.log2 : Int) - (den.log2 : Int)
  let reached := if 0 ≤ e then den * Nat.pow 2 e.toNat ≤ num
    else den ≤ num * Nat.pow 2 (-e).toNat
  if reached then e else e - 1

/-- The magnitude bits nearest to the positive fraction `num / den`. Writing the fraction as
    `m · 2 ^ q` with `m` below `2 ^ 53` and `q` at least `-1074`, the bits are
    `(q + 1074) · 2 ^ 52 + m`, also when rounding carries `m` to `2 ^ 53`. -/
def bitsOfFraction (num den : Nat) : Nat :=
  let q : Int := max (floorLog2 num den - 52) (-1074)
  let m := if 0 ≤ q then roundHalfEven num (den * Nat.pow 2 q.toNat)
    else roundHalfEven (num * Nat.pow 2 (-q).toNat) den
  min ((q + 1074).toNat * Nat.pow 2 52 + m) infinityBits

/-- How many decimal digits `n` has. -/
def decimalLength (n : Nat) : Nat := (Nat.toDigits 10 n).length

/-- The number nearest to `m · 10 ^ e`, with a sign. Every value from `10 ^ 310` is rounded to
    infinity and every value below `10 ^ -330` to zero. -/
def ofDecimal (negative : Bool) (m : Nat) (e : Int) : Binary64 :=
  let size := (decimalLength m : Int) + e
  ofMagnitudeBits negative <|
    if m = 0 || size < -330 then 0
    else if 311 < size then infinityBits
    else if 0 ≤ e then bitsOfFraction (m * Nat.pow 10 e.toNat) 1
    else bitsOfFraction m (Nat.pow 10 (-e).toNat)

/-! ## Decimal text -/

/-- The exponent that `e`, an optional sign and at least one digit give; 0 for no text at all. -/
def exponentOfText? : List Char → Option Int
  | [] => some 0
  | mark :: rest =>
    let (negative, digits) := match rest with
      | '-' :: digits => (true, digits)
      | '+' :: digits => (false, digits)
      | digits => (false, digits)
    if (mark = 'e' || mark = 'E') && !digits.isEmpty && digits.all Char.isDigit then
      let value : Int := digitsValue 10 digits
      some (if negative then -value else value)
    else none

/-- The number that a text denotes: an optional minus, digits with at most one point among them and
    at least one digit, and an optional exponent. -/
def ofText? (text : List Char) : Option Binary64 :=
  let (negative, unsigned) := match text with
    | '-' :: rest => (true, rest)
    | rest => (false, rest)
  let whole := unsigned.takeWhile Char.isDigit
  let afterWhole := unsigned.dropWhile Char.isDigit
  let (fraction, rest) := match afterWhole with
    | '.' :: more => (more.takeWhile Char.isDigit, more.dropWhile Char.isDigit)
    | more => ([], more)
  let digits := whole ++ fraction
  if digits.isEmpty then none
  else do
    let exponent ← exponentOfText? rest
    pure (ofDecimal negative (digitsValue 10 digits) (exponent - fraction.length))

end Binary64

end IdlBind.Number
