set_option autoImplicit false

/-! # Reading integers

Literals denote 64-bit signed integers. A literal outside that range is an error: nothing wraps and
nothing saturates. -/

namespace IdlBind.Number

/-- Why digits denote no 64-bit integer. -/
inductive IntegerError where
  | empty
  | tooLarge
  | tooSmall
  deriving DecidableEq, Repr

/-- The wording of an integer error. -/
def IntegerError.message : IntegerError → String
  | .empty => "cannot parse integer from empty string"
  | .tooLarge => "number too large to fit in target type"
  | .tooSmall => "number too small to fit in target type"

/-! ## Digits -/

/-- An ASCII digit or a letter from `a` to `f`, of either case. -/
def isHexDigit (c : Char) : Bool :=
  c.isDigit || ('a' ≤ c && c ≤ 'f') || ('A' ≤ c && c ≤ 'F')

/-- The value of a hexadecimal digit. -/
def digitValue (c : Char) : Nat :=
  if c.isDigit then c.toNat - '0'.toNat
  else if 'a' ≤ c && c ≤ 'f' then c.toNat - 'a'.toNat + 10
  else c.toNat - 'A'.toNat + 10

/-- The number that digits denote in a base, most significant digit first. -/
def digitsValue (base : Nat) (digits : List Char) : Nat :=
  digits.foldl (fun value c => value * base + digitValue c) 0

/-! ## The 64-bit range -/

/-- The 64-bit integer with a sign and a magnitude, if it is in range. -/
def ofMagnitude (negative : Bool) (magnitude : Nat) : Except IntegerError Int64 :=
  if negative then
    if magnitude ≤ Nat.pow 2 63 then .ok (Int64.ofInt (-magnitude)) else .error .tooSmall
  else
    if magnitude < Nat.pow 2 63 then .ok (Int64.ofNat magnitude) else .error .tooLarge

/-- The integer that a sign and decimal digits denote. -/
def ofDecimalDigits (negative : Bool) (digits : List Char) : Except IntegerError Int64 :=
  if digits.isEmpty then .error .empty else ofMagnitude negative (digitsValue 10 digits)

/-- The integer that a sign and hexadecimal digits denote. The digits must be in range before the
    sign applies, so the least integer has no hexadecimal literal. -/
def ofHexDigits (negative : Bool) (digits : List Char) : Except IntegerError Int64 :=
  if digits.isEmpty then .error .empty
  else do
    let value ← ofMagnitude false (digitsValue 16 digits)
    pure (if negative then -value else value)

end IdlBind.Number
