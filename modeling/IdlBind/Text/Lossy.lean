set_option autoImplicit false

/-! # Reading bytes as text

`decode?` accepts exactly UTF-8. `decodeLossy` reads any bytes: each longest prefix of a character
that is cut short, and each byte that starts none, becomes U+FFFD. -/

namespace IdlBind.Text

/-- The text that the bytes encode, if they are UTF-8. -/
def decode? (bytes : ByteArray) : Option String := String.fromUTF8? bytes

/-- The character that stands for bytes which encode none. -/
def replacement : Char := Char.ofNat 0xfffd

/-- Is `b` a byte that continues a character? -/
def isContinuation (b : UInt8) : Bool := 0x80 ≤ b && b ≤ 0xbf

/-- How many bytes follow `lead` in a character, and the range of the first of them. -/
def continuation (lead : UInt8) : Option (Nat × UInt8 × UInt8) :=
  if lead < 0x80 then some (0, 0, 0)
  else if 0xc2 ≤ lead && lead ≤ 0xdf then some (1, 0x80, 0xbf)
  else if lead == 0xe0 then some (2, 0xa0, 0xbf)
  else if lead == 0xed then some (2, 0x80, 0x9f)
  else if 0xe1 ≤ lead && lead ≤ 0xef then some (2, 0x80, 0xbf)
  else if lead == 0xf0 then some (3, 0x90, 0xbf)
  else if 0xf1 ≤ lead && lead ≤ 0xf3 then some (3, 0x80, 0xbf)
  else if lead == 0xf4 then some (3, 0x80, 0x8f)
  else none

/-- The bytes that continue a character: at most `count`, the first between `low` and `high`. -/
def takeContinuation : Nat → UInt8 → UInt8 → List UInt8 → List UInt8
  | 0, _, _, _ => []
  | _ + 1, _, _, [] => []
  | count + 1, low, high, b :: bytes =>
    if low ≤ b && b ≤ high then b :: takeContinuation count 0x80 0xbf bytes else []

/-- The code point that a leading byte and the bytes after it encode. -/
def codePoint (lead : UInt8) (tail : List UInt8) : Nat :=
  let bits := match tail.length with
    | 0 => lead.toNat
    | 1 => lead.toNat % 0x20
    | 2 => lead.toNat % 0x10
    | _ => lead.toNat % 0x08
  tail.foldl (fun value b => value * 0x40 + b.toNat % 0x40) bits

/-- Reads bytes as UTF-8, with U+FFFD for what is not. -/
def decodeLossyList (bytes : List UInt8) : List Char :=
  match bytes with
  | [] => []
  | lead :: rest =>
    match continuation lead with
    | none => replacement :: decodeLossyList rest
    | some (count, low, high) =>
      let tail := takeContinuation count low high rest
      let c := if tail.length = count then Char.ofNat (codePoint lead tail) else replacement
      c :: decodeLossyList (rest.drop tail.length)
termination_by bytes.length
decreasing_by
  · exact Nat.lt_succ_self _
  · simp only [List.length_drop, List.length_cons]
    omega

/-- The text of any bytes, with U+FFFD for what is not UTF-8. -/
def decodeLossy (bytes : ByteArray) : String :=
  String.ofList (decodeLossyList bytes.toList)

end IdlBind.Text
