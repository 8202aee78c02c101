import IdlBind.Binding.Parser
import IdlBind.FilePath
import IdlBind.WebIdl.Document

set_option autoImplicit false

/-! # The two input languages -/

namespace IdlBind

/-- An input language. -/
inductive Language where
  | webIdl
  | binding
  deriving DecidableEq, Repr

namespace Language

/-- The language of a file: WebIDL with the extension `idl` or `webidl`, else a binding
    description. -/
def ofPath (path : String) : Language :=
  match FilePath.extension? path with
  | some "idl" | some "webidl" => .webIdl
  | _ => .binding

/-- The trees of a source text. -/
def parse : Language → String → Except ParseError (List Node)
  | .webIdl => WebIdl.parse
  | .binding => Binding.parse

end Language

end IdlBind
