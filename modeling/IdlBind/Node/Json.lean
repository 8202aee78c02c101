import IdlBind.Json
import IdlBind.Node

set_option autoImplicit false

/-! # Trees as JSON

A list of siblings is an array. A node is an object with its kind and its text, its value or its
children; the members are in the order of their keys. -/

namespace IdlBind.Node

mutual

/-- A node as a JSON object. -/
def toJson : Node → Json
  | .text k s => .object [("kind", .string k.name), ("text", .string s)]
  | .int k n => .object [("kind", .string k.name), ("value", .int n)]
  | .list k cs => .object [("children", .array (toJsonItems cs)), ("kind", .string k.name)]

/-- The nodes of a list as JSON objects. -/
def toJsonItems : List Node → List Json
  | [] => []
  | n :: rest => toJson n :: toJsonItems rest

end

/-- A list of siblings as a JSON array. -/
def listToJson (list : List Node) : Json := .array (toJsonItems list)

end IdlBind.Node
