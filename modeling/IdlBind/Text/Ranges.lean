set_option autoImplicit false

/-! # Sets of characters given by ranges of code points -/

namespace IdlBind.Text

/-- Is the code point of `c` in one of the closed ranges? -/
def inRanges (ranges : List (Nat × Nat)) (c : Char) : Bool :=
  ranges.any fun range => range.1 ≤ c.toNat && c.toNat ≤ range.2

end IdlBind.Text
