import IdlBind.Number.Binary64
import IdlBind.Toml

set_option autoImplicit false

/-! # Numbers, times and booleans in TOML

What such a value is follows from its characters, which go up to the next delimiter. -/

namespace IdlBind.Toml

/-! ## Numbers -/

/-- Digits of a kind with single underscores between them: without the underscores. -/
def digits? (isDigit : Char → Bool) (text : List Char) : Option (List Char) :=
  let rec go : List Char → Option (List Char)
    | [] => none
    | [c] => if isDigit c then some [c] else none
    | c :: '_' :: rest => if isDigit c then (c :: ·) <$> go rest else none
    | c :: rest => if isDigit c then (c :: ·) <$> go rest else none
  go text

/-- Takes a sign off a text. -/
def unsigned : List Char → Bool × List Char
  | '-' :: rest => (true, rest)
  | '+' :: rest => (false, rest)
  | text => (false, text)

/-- Decimal digits without a zero in front of others. -/
def decimal? (text : List Char) : Option (List Char) :=
  match digits? Char.isDigit text with
  | some ('0' :: _ :: _) => none
  | result => result

/-- A 64-bit integer from a sign and digits in a base. -/
def inRange? (negative : Bool) (base : Nat) (digits : List Char) : Option Value :=
  match Number.ofMagnitude negative (Number.digitsValue base digits) with
  | .ok value => some (.integer value.toInt)
  | .error _ => none

/-- An integer: decimal with an optional sign, or hexadecimal, octal or binary behind a mark. -/
def integer? (text : List Char) : Option Value :=
  match text with
  | '0' :: 'x' :: rest => (digits? Number.isHexDigit rest).bind (inRange? false 16)
  | '0' :: 'o' :: rest =>
    (digits? (fun c => '0' ≤ c && c ≤ '7') rest).bind (inRange? false 8)
  | '0' :: 'b' :: rest =>
    (digits? (fun c => c = '0' || c = '1') rest).bind (inRange? false 2)
  | _ =>
    let (negative, rest) := unsigned text
    (decimal? rest).bind (inRange? negative 10)

/-- Is the text an exponent of a float: a mark, an optional sign and digits? -/
def isExponent : List Char → Bool
  | mark :: rest =>
    (mark = 'e' || mark = 'E') && (digits? Char.isDigit (unsigned rest).2).isSome
  | [] => false

/-- Is the number that the digits denote rounded to infinity? -/
def overflows (text : List Char) : Bool :=
  (Number.Binary64.ofText? (text.filter (· ≠ '_'))).any fun x =>
    x.magnitudeBits = Number.Binary64.infinityBits

/-- A float: a decimal integer with a fraction, an exponent or both; or `inf` or `nan`; with an
    optional sign. Too great a number is none, unless it is negative. -/
def float? (text : List Char) : Option Value :=
  let (negative, rest) := unsigned text
  if rest = "inf".toList || rest = "nan".toList then some (.float (String.ofList text))
  else
    let isWhole (c : Char) : Bool := c.isDigit || c = '_'
    let whole := rest.takeWhile isWhole
    let valid := (decimal? whole).isSome && match rest.dropWhile isWhole with
      | '.' :: more =>
        let exponent := more.dropWhile isWhole
        (digits? Char.isDigit (more.takeWhile isWhole)).isSome &&
          (exponent.isEmpty || isExponent exponent)
      | exponent => isExponent exponent
    if valid && (negative || !overflows rest) then some (.float (String.ofList text)) else none

/-! ## Times -/

/-- The number that exactly `count` digits in front of a text denote, and what follows. -/
def fixedDigits? (count : Nat) (text : List Char) : Option (Nat × List Char) :=
  let front := text.take count
  if front.length = count && front.all Char.isDigit then
    some (Number.digitsValue 10 front, text.drop count)
  else none

/-- Takes the character `c` off a text. -/
def expectChar? (c : Char) : List Char → Option (List Char)
  | d :: rest => if c = d then some rest else none
  | [] => none

/-- How many days a month has. -/
def daysIn (year month : Nat) : Nat :=
  if month = 2 then
    if year % 4 = 0 && (year % 100 ≠ 0 || year % 400 = 0) then 29 else 28
  else if [4, 6, 9, 11].contains month then 30
  else 31

/-- What follows a date in front of a text. -/
def afterDate? (text : List Char) : Option (List Char) := do
  let (year, rest) ← fixedDigits? 4 text
  let (month, rest) ← fixedDigits? 2 (← expectChar? '-' rest)
  let (day, rest) ← fixedDigits? 2 (← expectChar? '-' rest)
  if 1 ≤ month && month ≤ 12 && 1 ≤ day && day ≤ daysIn year month then some rest else none

/-- What follows a time of day in front of a text: hours, minutes, seconds, and a fraction with at
    least one digit. -/
def afterClock? (text : List Char) : Option (List Char) := do
  let (hour, rest) ← fixedDigits? 2 text
  let (minute, rest) ← fixedDigits? 2 (← expectChar? ':' rest)
  let (second, rest) ← fixedDigits? 2 (← expectChar? ':' rest)
  if 24 ≤ hour || 60 ≤ minute || 61 ≤ second then none
  else match rest with
    | '.' :: more =>
      if (more.takeWhile Char.isDigit).isEmpty then none else some (more.dropWhile Char.isDigit)
    | _ => some rest

/-- Is the text an offset: nothing, `Z`, or a sign with hours and minutes? -/
def isOffset (text : List Char) : Bool :=
  match text with
  | [] => true
  | ['Z'] | ['z'] => true
  | sign :: rest => (sign = '+' || sign = '-') && Option.isSome do
    let (hour, rest) ← fixedDigits? 2 rest
    let (minute, rest) ← fixedDigits? 2 (← expectChar? ':' rest)
    if hour < 24 && minute < 60 && rest.isEmpty then some () else none

/-- A date, a time of day, or both with an optional offset. -/
def time? (text : List Char) : Option Value :=
  let valid := match afterDate? text with
    | some [] => true
    | some (separator :: rest) =>
      ['T', 't', ' '].contains separator && (afterClock? rest).any isOffset
    | none => (afterClock? text).any List.isEmpty
  if valid then some (.time (String.ofList text)) else none

/-! ## Scalars -/

/-- The value of a text that is no string, array or table. -/
def scalar? (text : List Char) : Option Value :=
  if text = "true".toList then some (.boolean true)
  else if text = "false".toList then some (.boolean false)
  else (integer? text).or ((float? text).or (time? text))

end IdlBind.Toml
