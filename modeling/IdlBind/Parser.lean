set_option autoImplicit false

/-! # Parsers over lists

A parser reads a front part of a list and gives a result and the rest, or an error. Repetition and
recursion are total because they go on only with a shorter rest. -/

namespace IdlBind

/-- Reads a front part of a list of `τ`: a result and the rest, or an error. -/
abbrev Parser (τ ε : Type) : Type → Type := StateT (List τ) (Except ε)

namespace Parser

variable {τ ε α : Type}

/-- Repeats `item` on a list until it gives `none` or fails: the results, and the rest or the error.
    An item that reads nothing is the last. -/
def collect (item : Parser τ ε (Option α)) (input : List τ) : List α × Except ε (List τ) :=
  match item input with
  | .error e => ([], .error e)
  | .ok (none, rest) => ([], .ok rest)
  | .ok (some a, rest) =>
    if rest.length < input.length then
      let (as, outcome) := collect item rest
      (a :: as, outcome)
    else ([a], .ok rest)
termination_by input.length

/-- Repeats `item` until it gives `none`. -/
def many (item : Parser τ ε (Option α)) : Parser τ ε (List α) := fun input =>
  match collect item input with
  | (as, .ok rest) => .ok (as, rest)
  | (_, .error e) => .error e

/-- The parser that `body` describes in terms of itself, on one list. -/
def recursiveFrom (stuck : ε) (body : Parser τ ε α → Parser τ ε α) (input : List τ) :
    Except ε (α × List τ) :=
  body (fun rest => if rest.length < input.length then recursiveFrom stuck body rest
    else .error stuck) input
termination_by input.length

/-- The parser that `body` describes in terms of itself. Inside `body` it may be used once something
    has been read; a use before that gives the error `stuck`. -/
def recursive (stuck : ε) (body : Parser τ ε α → Parser τ ε α) : Parser τ ε α :=
  recursiveFrom stuck body

end Parser

end IdlBind
