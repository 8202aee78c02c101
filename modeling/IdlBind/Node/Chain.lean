import IdlBind.Node

set_option autoImplicit false

/-! # Chains of linked nodes

How siblings are held: a node has a link to the node behind it, so that the first node gives the
whole chain. Where chains are put together, a node may therefore be the first of several. They are
put together by going along the links to the last one, which is empty, and writing there.

`Chain.toList` is the list of siblings that a chain holds. -/

namespace IdlBind

mutual

/-- What a linked node carries. -/
inductive Payload where
  | text (value : String)
  | int (value : Int)
  | list (children : Chain)

/-- What a link holds: nothing, or a node with its own link. -/
inductive Chain where
  | empty
  | link (kind : NodeKind) (payload : Payload) (next : Chain)

end

/-- A node with its link. -/
structure LinkedNode where
  kind : NodeKind
  payload : Payload
  next : Chain

namespace LinkedNode

/-- The chain from a node on. -/
def toChain (node : LinkedNode) : Chain := .link node.kind node.payload node.next

/-- The node with another kind and payload, and the same link. -/
def set (kind : NodeKind) (payload : Payload) (node : LinkedNode) : LinkedNode :=
  { node with kind, payload }

end LinkedNode

namespace Chain

/-! ## Reading -/

/-- The first node. -/
def head? : Chain → Option LinkedNode
  | .empty => none
  | .link kind payload next => some ⟨kind, payload, next⟩

/-- What is met along the links, node by node. -/
def siblings : Chain → List (NodeKind × Payload)
  | .empty => []
  | .link kind payload next => (kind, payload) :: next.siblings

/-- The number of nodes. -/
def length (chain : Chain) : Nat := chain.siblings.length

/-! ## Writing -/

/-- A link within a chain: the nodes in front of it, the last one first, and what it holds. -/
structure Cursor where
  passed : List (NodeKind × Payload)
  held : Chain

/-- Goes along the links of a chain to the empty one, behind the nodes that were passed before. -/
def Cursor.follow : Chain → List (NodeKind × Payload) → Cursor
  | .empty, passed => ⟨passed, .empty⟩
  | .link kind payload next, passed => Cursor.follow next ((kind, payload) :: passed)

/-- The empty link at the end. -/
def Cursor.toEnd (c : Cursor) : Cursor := .follow c.held c.passed

/-- The chain that has something else at a link. -/
def Cursor.put (c : Cursor) (chain : Chain) : Chain :=
  c.passed.foldl (fun next (kind, payload) => .link kind payload next) chain

/-- A chain with a node, and what is linked to it, in front. -/
def prepend (chain : Chain) (node : LinkedNode) : Chain :=
  (Cursor.mk [(node.kind, node.payload)] node.next).toEnd.put chain

/-- A chain with a node, and what is linked to it, behind. -/
def append (chain : Chain) (node : LinkedNode) : Chain :=
  (Cursor.mk [] chain).toEnd.put node.toChain

/-- The nodes, and what is linked to each, in their order. -/
def concat (nodes : List LinkedNode) : Chain := nodes.reverse.foldl prepend .empty

end Chain

/-! ## Lists of siblings -/

mutual

/-- The node with a kind and a payload. -/
def Payload.toNode (kind : NodeKind) : Payload → Node
  | .text value => .text kind value
  | .int value => .int kind value
  | .list children => .list kind children.toList

/-- The siblings in a chain. -/
def Chain.toList : Chain → List Node
  | .empty => []
  | .link kind payload next => payload.toNode kind :: next.toList

end

mutual

/-- What a node carries. -/
def Payload.ofNode : Node → Payload
  | .text _ value => .text value
  | .int _ value => .int value
  | .list _ children => .list (Chain.ofList children)

/-- The chain that holds siblings. -/
def Chain.ofList : List Node → Chain
  | [] => .empty
  | node :: rest => .link node.kind (Payload.ofNode node) (Chain.ofList rest)

end

end IdlBind
