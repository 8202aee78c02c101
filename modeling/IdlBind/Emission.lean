import IdlBind.Members

set_option autoImplicit false

/-! # Emissions

What the emission of a section comes to: the text that it writes, the notices it gives, and why it
fails, if it does. Emissions are put one behind the other up to the first that fails. -/

namespace IdlBind

/-- Why a section cannot be emitted. A sink gives its own words. -/
inductive EmitError where
  | sink (message : String)
  | resolve (cause : ResolveError)
  | missingNode (kind : NodeKind) (context : String)
  | tree (cause : Node.Mismatch)
  deriving DecidableEq, Repr

/-- The wording of an emit error. -/
def EmitError.message : EmitError → String
  | .sink message => "I/O error: " ++ message
  | .resolve cause => cause.message
  | .missingNode kind context => "missing " ++ kind.name ++ " node in " ++ context
  | .tree cause => cause.message

/-- A text with notices, and the failure that ends it. -/
structure Emission where
  text : String
  notices : List String
  failure? : Option EmitError
  deriving DecidableEq, Repr

namespace Emission

/-- A text and nothing else. -/
def ofText (text : String) : Emission := ⟨text, [], none⟩

/-- The failure of an emission that has written nothing. -/
def fail (e : EmitError) : Emission := ⟨"", [], some e⟩

/-- One emission behind another, unless that has failed. -/
def append (a b : Emission) : Emission :=
  match a.failure? with
  | some _ => a
  | none => ⟨a.text ++ b.text, a.notices ++ b.notices, b.failure?⟩

instance : Append Emission := ⟨append⟩

/-- Emissions one behind the other. -/
def concat (list : List Emission) : Emission := list.foldr append (ofText "")

/-- What is emitted from a value, or the failure to get the value. -/
def ofExcept {α : Type} (value : Except EmitError α) (emit : α → Emission) : Emission :=
  match value with
  | .ok a => emit a
  | .error e => fail e

end Emission

end IdlBind
