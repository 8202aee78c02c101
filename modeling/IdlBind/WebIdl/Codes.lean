set_option autoImplicit false

/-! # Codes of types and modifiers

Trees hold base types, type modifiers and member modifiers as integers, counted from 0 in the order
below. -/

namespace IdlBind.WebIdl

/-! ## Base types -/

/-- The base of a type. -/
inductive BaseType where
  | bool
  | byte
  | octet
  | float
  | double
  | short
  | long
  | longLong
  | string
  | sequence
  | object
  | date
  | user
  | void
  | any
  deriving DecidableEq, Repr, Inhabited

namespace BaseType

/-- All base types in the order of their codes. -/
def all : List BaseType :=
  [.bool, .byte, .octet, .float, .double, .short, .long, .longLong, .string, .sequence, .object,
   .date, .user, .void, .any]

/-- The code of a base type in a tree. -/
def code (b : BaseType) : Int := b.ctorIdx

/-- The base type with a code. -/
def ofCode? (code : Int) : Option BaseType := all.find? (·.code = code)

/-- The name of a base type in outlines. -/
def name : BaseType → String
  | .bool => "Bool"
  | .byte => "Byte"
  | .octet => "Octet"
  | .float => "Float"
  | .double => "Double"
  | .short => "Short"
  | .long => "Long"
  | .longLong => "LongLong"
  | .string => "String"
  | .sequence => "Sequence"
  | .object => "Object"
  | .date => "Date"
  | .user => "User"
  | .void => "Void"
  | .any => "Any"

@[simp] theorem ofCode?_code (b : BaseType) : ofCode? b.code = some b := by cases b <;> rfl

end BaseType

/-! ## Type modifiers -/

/-- What modifies a base type. -/
inductive TypeModifier where
  | unsigned
  | unrestricted
  | nullable
  deriving DecidableEq, Repr, Inhabited

namespace TypeModifier

/-- All type modifiers in the order of their codes. -/
def all : List TypeModifier := [.unsigned, .unrestricted, .nullable]

/-- The code of a type modifier in a tree. -/
def code (m : TypeModifier) : Int := m.ctorIdx

/-- The type modifier with a code. -/
def ofCode? (code : Int) : Option TypeModifier := all.find? (·.code = code)

/-- The name of a type modifier in outlines. -/
def name : TypeModifier → String
  | .unsigned => "Unsigned"
  | .unrestricted => "Unrestricted"
  | .nullable => "Nullable"

@[simp] theorem ofCode?_code (m : TypeModifier) : ofCode? m.code = some m := by cases m <;> rfl

end TypeModifier

/-! ## Member modifiers -/

/-- The keywords in front of an attribute or an operation. -/
inductive Modifier where
  | readOnly
  | inherit
  | static
  | getter
  | setter
  | creator
  | deleter
  | legacyCaller
  | stringifier
  deriving DecidableEq, Repr, Inhabited

namespace Modifier

/-- All member modifiers in the order of their codes. -/
def all : List Modifier :=
  [.readOnly, .inherit, .static, .getter, .setter, .creator, .deleter, .legacyCaller, .stringifier]

/-- The code of a member modifier in a tree. -/
def code (m : Modifier) : Int := m.ctorIdx

/-- The member modifier with a code. -/
def ofCode? (code : Int) : Option Modifier := all.find? (·.code = code)

/-- The name of a member modifier in outlines. -/
def name : Modifier → String
  | .readOnly => "ReadOnly"
  | .inherit => "Inherit"
  | .static => "Static"
  | .getter => "Getter"
  | .setter => "Setter"
  | .creator => "Creator"
  | .deleter => "Deleter"
  | .legacyCaller => "LegacyCaller"
  | .stringifier => "Stringifier"

/-- The keyword of a member modifier. -/
def keyword : Modifier → String
  | .readOnly => "readonly"
  | .inherit => "inherit"
  | .static => "static"
  | .getter => "getter"
  | .setter => "setter"
  | .creator => "creator"
  | .deleter => "deleter"
  | .legacyCaller => "legacycaller"
  | .stringifier => "stringifier"

/-- The member modifier with a keyword. -/
def ofKeyword? (keyword : String) : Option Modifier := all.find? (·.keyword = keyword)

/-- Does the modifier make a special operation, which needs no identifier? -/
def isSpecial : Modifier → Bool
  | .readOnly | .inherit | .static => false
  | .getter | .setter | .creator | .deleter | .legacyCaller | .stringifier => true

@[simp] theorem ofCode?_code (m : Modifier) : ofCode? m.code = some m := by cases m <;> rfl

@[simp] theorem ofKeyword?_keyword (m : Modifier) : ofKeyword? m.keyword = some m := by
  cases m <;> decide

end Modifier

end IdlBind.WebIdl
