import IdlBind.Number.Binary64

set_option autoImplicit false

/-! # The shortest decimal text of a floating-point number

A number is shown by the fewest decimal digits that read back as it, of those by the digits nearest
to it. The text is positional: there is no exponent, and no fraction unless it is needed. -/

namespace IdlBind.Number.Binary64

/-- The positive number `m · 2 ^ q` together with the interval of reals that round to it, all three
    scaled by one common denominator: `low / den`, `value / den` and `high / den`. The ends belong
    to the interval exactly when `m` is even. -/
structure Interval where
  low : Nat
  value : Nat
  high : Nat
  den : Nat
  closed : Bool

/-- The interval of the finite nonzero number with these magnitude bits. The lower neighbour is
    only half as far away below a power of two. -/
def interval (magnitude : Nat) : Interval :=
  let exponent : Nat := magnitude / Nat.pow 2 52
  let fraction : Nat := magnitude % Nat.pow 2 52
  let m := if exponent = 0 then fraction else fraction + Nat.pow 2 52
  let q : Int := if exponent = 0 then -1074 else Int.ofNat exponent - 1075
  let below := if fraction = 0 && 1 < exponent then 1 else 2
  let scale := if 0 ≤ q then Nat.pow 2 q.toNat else 1
  let den := 4 * if 0 ≤ q then 1 else Nat.pow 2 (-q).toNat
  { low := (4 * m - below) * scale
    value := 4 * m * scale
    high := (4 * m + 2) * scale
    den
    closed := m % 2 = 0 }

/-- Does `digits · 10 ^ e` round to the number? -/
def Interval.contains (v : Interval) (digits : Nat) (e : Int) : Bool :=
  let num := digits * (if 0 ≤ e then Nat.pow 10 e.toNat else 1) * v.den
  let unit := if 0 ≤ e then 1 else Nat.pow 10 (-e).toNat
  if v.closed then v.low * unit ≤ num && num ≤ v.high * unit
  else v.low * unit < num && num < v.high * unit

/-- The neighbours of the value among the multiples of `10 ^ e`: the one in the interval, of two the
    nearer, and at equal distance the greater. -/
def Interval.onGrid (v : Interval) (e : Int) : Option Nat :=
  let num := v.value * if 0 ≤ e then 1 else Nat.pow 10 (-e).toNat
  let den := v.den * if 0 ≤ e then Nat.pow 10 e.toNat else 1
  let floor := num / den
  match v.contains floor e, v.contains (floor + 1) e with
  | true, true => some (if 2 * (num % den) < den then floor else floor + 1)
  | true, false => some floor
  | false, true => some (floor + 1)
  | false, false => none

/-- The exponent of ten of the leading digit. -/
def Interval.leadingExponent (v : Interval) : Int :=
  if v.den ≤ v.value then (decimalLength (v.value / v.den) : Int) - 1
  else
    -- no number is below `10 ^ -324`, so 324 more decimal places bring up the leading digit
    (decimalLength (v.value * Nat.pow 10 324 / v.den) : Int) - 325

/-- The first hit on the grids of `count` digits or more; `none` if no grid is left. -/
def Interval.search (v : Interval) (leading : Int) : Nat → Nat → Option (Nat × Int)
  | 0, _ => none
  | tries + 1, count =>
    let e := leading - count
    match v.onGrid e with
    | some digits => some (digits, e)
    | none => v.search leading tries (count + 1)

/-- The shortest digits and their exponent. Seventeen digits always suffice. -/
def Interval.shortest (v : Interval) : Nat × Int :=
  (v.search v.leadingExponent 17 0).getD (0, 0)

/-- The positional text of `digits · 10 ^ e`. -/
def positional (digits : Nat) (e : Int) : List Char :=
  let ds := Nat.toDigits 10 digits
  if 0 ≤ e then ds ++ List.replicate e.toNat '0'
  else
    let places := (-e).toNat
    let padded := List.replicate (places + 1 - ds.length) '0' ++ ds
    let whole := padded.take (padded.length - places)
    let fraction := (padded.drop (padded.length - places)).reverse.dropWhile (· = '0')
    if fraction.isEmpty then whole else whole ++ '.' :: fraction.reverse

/-- The text of a number: `inf` for the infinities, `NaN` for what is no number, and a minus in
    front when the sign is set, also for zero. -/
def text (x : Binary64) : String :=
  let magnitude := x.magnitudeBits
  if infinityBits < magnitude then "NaN"
  else
    let unsigned :=
      if magnitude = infinityBits then ['i', 'n', 'f']
      else if magnitude = 0 then ['0']
      else
        let (digits, e) := (interval magnitude).shortest
        positional digits e
    String.ofList (if x.isNegative then '-' :: unsigned else unsigned)

end IdlBind.Number.Binary64
