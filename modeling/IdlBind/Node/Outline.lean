import IdlBind.Node
import IdlBind.Text.Quoted
import IdlBind.WebIdl.Codes

set_option autoImplicit false

/-! # Outlines of trees

An outline has one line for each node, indented by two spaces a level: the kind, then the quoted
text, or the integer with the name of its code. -/

namespace IdlBind.Node

open WebIdl in
/-- The name of the code that an integer is in a node of this kind. -/
def codeName? (kind : NodeKind) (code : Int) : Option String :=
  match kind with
  | .typeBase => (BaseType.ofCode? code).map BaseType.name
  | .typeModifier => (TypeModifier.ofCode? code).map TypeModifier.name
  | .modifier => (Modifier.ofCode? code).map Modifier.name
  | _ => none

/-- The line of a node, without indentation. -/
def outlineLine : Node → String
  | .text k s => k.name ++ ": " ++ Text.quoted s
  | .int k n =>
    match codeName? k n with
    | some name => k.name ++ ": " ++ toString n ++ " (" ++ name ++ ")"
    | none => k.name ++ ": " ++ toString n
  | .list k _ => k.name

/-- A line at a level. -/
def indentLine (depth : Nat) (line : String) : String :=
  String.ofList (List.replicate (2 * depth) ' ') ++ line

mutual

/-- The lines of a node and of everything below it. -/
def outlineNode (depth : Nat) : Node → List String
  | .list k cs => indentLine depth (outlineLine (.list k cs)) :: outlineLines (depth + 1) cs
  | .text k s => [indentLine depth (outlineLine (.text k s))]
  | .int k n => [indentLine depth (outlineLine (.int k n))]

/-- The lines of a list of siblings. -/
def outlineLines (depth : Nat) : List Node → List String
  | [] => []
  | n :: rest => outlineNode depth n ++ outlineLines depth rest

end

/-- The outline of a list of siblings; every line ends with a line feed. -/
def outline (list : List Node) : String :=
  String.join ((outlineLines 0 list).map (· ++ "\n"))

end IdlBind.Node
