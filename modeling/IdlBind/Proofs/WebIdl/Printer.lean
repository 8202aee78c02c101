import IdlBind.Proofs.Token.Printed
import IdlBind.WebIdl.Parser

set_option autoImplicit false

/-! # Printing WebIDL

The tokens and the text of definitions. A definition is printed as its first block with its parent,
and then as a partial definition for every further block. -/

namespace IdlBind.WebIdl

/-! ## Names -/

/-- The words that the reader takes for types. -/
def typeKeywords : List String :=
  ["boolean", "byte", "octet", "float", "double", "short", "long", "DOMString", "ByteString",
   "USVString", "CSSOMString", "object", "Date", "void", "undefined", "any", "sequence",
   "FrozenArray", "unsigned", "unrestricted"]

/-- The words that mean something to the reader where a name may stand. -/
def keywords : List String :=
  typeKeywords ++ Modifier.all.map Modifier.keyword ++ skippedMembers ++
    ["attribute", "optional", "required", "mixin"]

/-- An identifier that is no keyword. -/
def isName (name : String) : Bool := isIdentifier name && !keywords.contains name

/-! ## Types -/

/-- To prove something of all types, prove it of a type under the assumption that it holds of the
    types inside. -/
@[elab_as_elim]
theorem TypeExpr.induction {motive : TypeExpr → Prop}
    (basic : ∀ base flags, motive (.basic base flags))
    (sequence : ∀ first others flags, (∀ t ∈ first :: others, motive t) →
      motive (.sequence first others flags))
    (named : ∀ name parameters flags, (∀ t ∈ parameters, motive t) →
      motive (.named name parameters flags)) (t : TypeExpr) : motive t := by
  match t with
  | .basic base flags => exact basic base flags
  | .sequence first others flags =>
    exact sequence first others flags fun t ht => TypeExpr.induction basic sequence named t
  | .named name parameters flags =>
    exact named name parameters flags fun t ht => TypeExpr.induction basic sequence named t
termination_by t
decreasing_by
  all_goals
    have := List.sizeOf_lt_of_mem ht
    simp only [List.cons.sizeOf_spec, TypeExpr.sequence.sizeOf_spec,
      TypeExpr.named.sizeOf_spec] at this ⊢
    omega

/-- The words of a basic type. -/
def BasicType.words : BasicType → List String
  | .bool => ["boolean"]
  | .byte => ["byte"]
  | .octet => ["octet"]
  | .float => ["float"]
  | .double => ["double"]
  | .short => ["short"]
  | .long => ["long"]
  | .longLong => ["long", "long"]
  | .string => ["DOMString"]
  | .object => ["object"]
  | .date => ["Date"]
  | .void => ["void"]
  | .any => ["any"]

/-- The words in front of a type. -/
def TypeFlags.print (flags : TypeFlags) : List TokenKind :=
  (if flags.unsigned then [.ident "unsigned"] else []) ++
    (if flags.unrestricted then [.ident "unrestricted"] else [])

/-- The question mark behind a nullable type. -/
def TypeFlags.printSuffix (flags : TypeFlags) : List TokenKind :=
  if flags.nullable then [.punct '?'] else []

mutual

/-- The tokens of a type. -/
def TypeExpr.print : TypeExpr → List TokenKind
  | .basic base flags => flags.print ++ base.words.map .ident ++ flags.printSuffix
  | .sequence first others flags =>
    flags.print ++ [.ident "sequence", .punct '<'] ++ first.print ++ TypeExpr.printList others ++
      [.punct '>'] ++ flags.printSuffix
  | .named name [] flags => flags.print ++ [.ident name] ++ flags.printSuffix
  | .named name (first :: others) flags =>
    flags.print ++ [.ident name, .punct '<'] ++ first.print ++ TypeExpr.printList others ++
      [.punct '>'] ++ flags.printSuffix

/-- The tokens of types with a comma in front of each. -/
def TypeExpr.printList : List TypeExpr → List TokenKind
  | [] => []
  | t :: ts => .punct ',' :: t.print ++ TypeExpr.printList ts

end

mutual

/-- Are all names in a type names? -/
def TypeExpr.isWellFormed : TypeExpr → Bool
  | .basic _ _ => true
  | .sequence first others _ => first.isWellFormed && TypeExpr.areWellFormed others
  | .named name parameters _ => isName name && TypeExpr.areWellFormed parameters

/-- Are all names in types names? -/
def TypeExpr.areWellFormed : List TypeExpr → Bool
  | [] => true
  | t :: ts => t.isWellFormed && TypeExpr.areWellFormed ts

end

theorem TypeExpr.areWellFormed_eq_all (ts : List TypeExpr) :
    areWellFormed ts = ts.all isWellFormed := by
  induction ts with
  | nil => rfl
  | cons t ts ih => rw [areWellFormed, List.all_cons, ih]

theorem TypeExpr.isWellFormed_sequence {first : TypeExpr} {others : List TypeExpr}
    {flags : TypeFlags} : (sequence first others flags).isWellFormed = true ↔
      ∀ t ∈ first :: others, t.isWellFormed = true := by
  rw [isWellFormed, areWellFormed_eq_all, ← List.all_cons, List.all_eq_true]

theorem TypeExpr.isWellFormed_named {name : String} {parameters : List TypeExpr}
    {flags : TypeFlags} : (named name parameters flags).isWellFormed = true ↔
      isName name = true ∧ ∀ t ∈ parameters, t.isWellFormed = true := by
  rw [isWellFormed, areWellFormed_eq_all, Bool.and_eq_true, List.all_eq_true]

/-! ## Members -/

/-- The tokens of an argument. -/
def Argument.print (a : Argument) : List TokenKind :=
  match a.kind with
  | .required => a.type.print ++ [.ident a.name]
  | .optional => .ident "optional" :: a.type.print ++ [.ident a.name]
  | .variadic => a.type.print ++ [.ellipsis, .ident a.name]

/-- Are all names in an argument names? -/
def Argument.isWellFormed (a : Argument) : Bool := a.type.isWellFormed && isName a.name

/-- The tokens of arguments with commas between them. -/
def Argument.printList : List Argument → List TokenKind
  | [] => []
  | first :: others => first.print ++ others.flatMap fun a => .punct ',' :: a.print

/-- The tokens of modifiers. -/
def Modifier.printList (modifiers : List Modifier) : List TokenKind :=
  modifiers.map fun m => .ident m.keyword

theorem Modifier.printList_cons (m : Modifier) (modifiers : List Modifier) :
    printList (m :: modifiers) = .ident m.keyword :: printList modifiers := rfl

/-- The tokens of a member of a definition of a kind. -/
def Member.print (kind : DefinitionKind) : Member → List TokenKind
  | .attribute modifiers type name =>
    match kind with
    | .interface =>
      Modifier.printList modifiers ++ [.ident "attribute"] ++ type.print ++
        [.ident name, .punct ';']
    | .dictionary => type.print ++ [.ident name, .punct ';']
  | .operation modifiers type name? arguments =>
    Modifier.printList modifiers ++ type.print ++ name?.toList.map .ident ++ [.punct '('] ++
      Argument.printList arguments ++ [.punct ')', .punct ';']
  | .stringifier => [.ident "stringifier", .punct ';']

/-- Can the member stand in a definition of a kind, and are all names in it names? A member of a
    dictionary is an attribute without modifiers. -/
def Member.isWellFormed (kind : DefinitionKind) : Member → Bool
  | .attribute modifiers type name =>
    (kind = .interface || modifiers.isEmpty) && type.isWellFormed && isName name
  | .operation _ type name? arguments =>
    kind = .interface && type.isWellFormed && name?.all isName &&
      arguments.all Argument.isWellFormed
  | .stringifier => kind = .interface

/-! ## Definitions -/

/-- The tokens of a block of members, with the semicolon behind it. -/
def printBlock (kind : DefinitionKind) (block : List Member) : List TokenKind :=
  .punct '{' :: block.flatMap (Member.print kind) ++ [.punct '}', .punct ';']

/-- The tokens of a colon with a parent behind it. -/
def printParent (parent? : Option String) : List TokenKind :=
  parent?.toList.flatMap fun parent => [.punct ':', .ident parent]

/-- A definition in pieces of one block each, of which all but the first are partial. -/
def Definition.pieces (d : Definition) : List Definition :=
  match d.blocks with
  | [] => []
  | first :: others =>
    ⟨d.kind, d.name, d.parent?, [first], false⟩ ::
      others.map fun block => ⟨d.kind, d.name, none, [block], true⟩

/-- The tokens of a piece of a definition. -/
def Definition.printPiece (d : Definition) : List TokenKind :=
  (if d.isPartial then [.ident "partial"] else []) ++ [.ident d.kind.keyword, .ident d.name] ++
    printParent d.parent? ++ d.blocks.flatMap (printBlock d.kind)

/-- The tokens of a definition, piece by piece. -/
def Definition.print (d : Definition) : List TokenKind := d.pieces.flatMap printPiece

/-- Does a definition have a block, and are all names in it names? -/
def Definition.isWellFormed (d : Definition) : Bool :=
  isName d.name && d.parent?.all isName && !d.blocks.isEmpty &&
    d.blocks.all fun block => block.all (Member.isWellFormed d.kind)

/-- Definitions of different things, each of them well formed. -/
structure WellFormed (definitions : List Definition) : Prop where
  each : ∀ d ∈ definitions, d.isWellFormed = true
  distinct : definitions.Pairwise fun a b => ¬(a.kind = b.kind ∧ a.name = b.name)

/-- The text of definitions. -/
def print (definitions : List Definition) : String :=
  textOf (definitions.flatMap Definition.print)

end IdlBind.WebIdl
