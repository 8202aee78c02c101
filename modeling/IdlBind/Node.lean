set_option autoImplicit false

/-! # Trees

Both input languages are read into one kind of tree. A node has a kind and carries a text, an
integer or a list of children; siblings form a list. -/

namespace IdlBind

/-- Every construct of both languages. -/
inductive NodeKind where
  | root
  | ident
  | interface
  | dictionary
  | interfaceMembers
  | interfaceInheritance
  | attribute
  | operation
  | argumentList
  | argument
  | optionalArgument
  | ellipsis
  | type
  | typeBase
  | typeModifier
  | modifier
  | binding
  | bindingType
  | bindingInterface
  | bindingPrivate
  | preamble
  | headerComment
  | string
  | webIdlFile
  deriving DecidableEq, Repr, Inhabited

namespace NodeKind

/-- All kinds. -/
def all : List NodeKind :=
  [.root, .ident, .interface, .dictionary, .interfaceMembers, .interfaceInheritance, .attribute,
   .operation, .argumentList, .argument, .optionalArgument, .ellipsis, .type, .typeBase,
   .typeModifier, .modifier, .binding, .bindingType, .bindingInterface, .bindingPrivate, .preamble,
   .headerComment, .string, .webIdlFile]

/-- The name of a kind in outlines and messages. -/
def name : NodeKind → String
  | .root => "root"
  | .ident => "ident"
  | .interface => "interface"
  | .dictionary => "dictionary"
  | .interfaceMembers => "interface-members"
  | .interfaceInheritance => "interface-inheritance"
  | .attribute => "attribute"
  | .operation => "operation"
  | .argumentList => "argument-list"
  | .argument => "argument"
  | .optionalArgument => "optional-argument"
  | .ellipsis => "ellipsis"
  | .type => "type"
  | .typeBase => "type-base"
  | .typeModifier => "type-modifier"
  | .modifier => "modifier"
  | .binding => "binding"
  | .bindingType => "binding-type"
  | .bindingInterface => "binding-interface"
  | .bindingPrivate => "binding-private"
  | .preamble => "preamble"
  | .headerComment => "hdrcomment"
  | .string => "string"
  | .webIdlFile => "webidlfile"

theorem mem_all (k : NodeKind) : k ∈ all := by cases k <;> decide

/-- Different kinds have different names. -/
theorem name_injective {a b : NodeKind} (h : a.name = b.name) : a = b := by
  have key : ∀ a ∈ all, ∀ b ∈ all, a.name = b.name → a = b := by decide +kernel
  exact key a a.mem_all b b.mem_all h

end NodeKind

/-! ## Nodes -/

/-- A node of a tree. -/
inductive Node where
  | text (kind : NodeKind) (value : String)
  | int (kind : NodeKind) (value : Int)
  | list (kind : NodeKind) (children : List Node)
  deriving Repr, Inhabited

namespace Node

mutual

/-- Decides equality of nodes. -/
def decEq (a b : Node) : Decidable (a = b) :=
  match a, b with
  | .text k s, .text k' s' =>
    if hk : k = k' then
      if hs : s = s' then isTrue (by rw [hk, hs]) else isFalse (by simp [hs])
    else isFalse (by simp [hk])
  | .int k n, .int k' n' =>
    if hk : k = k' then
      if hn : n = n' then isTrue (by rw [hk, hn]) else isFalse (by simp [hn])
    else isFalse (by simp [hk])
  | .list k cs, .list k' cs' =>
    if hk : k = k' then
      match decEqList cs cs' with
      | isTrue hc => isTrue (by rw [hk, hc])
      | isFalse hc => isFalse (by simp [hc])
    else isFalse (by simp [hk])
  | .text .., .int .. => isFalse nofun
  | .text .., .list .. => isFalse nofun
  | .int .., .text .. => isFalse nofun
  | .int .., .list .. => isFalse nofun
  | .list .., .text .. => isFalse nofun
  | .list .., .int .. => isFalse nofun

/-- Decides equality of sibling lists. -/
def decEqList (as bs : List Node) : Decidable (as = bs) :=
  match as, bs with
  | [], [] => isTrue rfl
  | a :: as, b :: bs =>
    match decEq a b, decEqList as bs with
    | isTrue ha, isTrue hs => isTrue (by rw [ha, hs])
    | isFalse ha, _ => isFalse (by simp [ha])
    | _, isFalse hs => isFalse (by simp [hs])
  | [], _ :: _ => isFalse nofun
  | _ :: _, [] => isFalse nofun

end

instance : DecidableEq Node := decEq

/-- The kind of a node. -/
def kind : Node → NodeKind
  | .text k _ => k
  | .int k _ => k
  | .list k _ => k

@[simp] theorem kind_text (k : NodeKind) (s : String) : (text k s).kind = k := rfl

@[simp] theorem kind_int (k : NodeKind) (n : Int) : (int k n).kind = k := rfl

@[simp] theorem kind_list (k : NodeKind) (cs : List Node) : (list k cs).kind = k := rfl

/-- The same contents under another kind. -/
def withKind (k : NodeKind) : Node → Node
  | .text _ s => .text k s
  | .int _ n => .int k n
  | .list _ cs => .list k cs

@[simp] theorem kind_withKind (k : NodeKind) (n : Node) : (n.withKind k).kind = k := by
  cases n <;> rfl

/-! ## Contents -/

/-- What a node can carry. -/
inductive Contents where
  | text
  | integer
  | node
  deriving DecidableEq, Repr

/-- How messages name what a node carries. -/
def Contents.describe : Contents → String
  | .text => "text"
  | .integer => "integer"
  | .node => "node"

/-- What the node carries. -/
def contents : Node → Contents
  | .text .. => .text
  | .int .. => .integer
  | .list .. => .node

/-- A node carries something else than was asked for. -/
structure Mismatch where
  kind : NodeKind
  expected : Contents
  found : Contents
  deriving DecidableEq, Repr

/-- The wording of a mismatch. -/
def Mismatch.message (m : Mismatch) : String :=
  m.kind.name ++ " node payload is " ++ m.found.describe ++ ", expected " ++ m.expected.describe

/-- The text of a node that carries one. -/
def getText : Node → Except Mismatch String
  | .text _ s => .ok s
  | n => .error ⟨n.kind, .text, n.contents⟩

/-- The integer of a node that carries one. -/
def getInt : Node → Except Mismatch Int
  | .int _ n => .ok n
  | n => .error ⟨n.kind, .integer, n.contents⟩

/-- The children of a node that carries a list of them. -/
def getChildren : Node → Except Mismatch (List Node)
  | .list _ cs => .ok cs
  | n => .error ⟨n.kind, .node, n.contents⟩

/-- The text of a node, if it carries one. -/
def text? : Node → Option String
  | .text _ s => some s
  | _ => none

/-- The integer of a node, if it carries one. -/
def int? : Node → Option Int
  | .int _ n => some n
  | _ => none

/-- The children of a node; none if it carries no list. -/
def children : Node → List Node
  | .list _ cs => cs
  | _ => []

@[simp] theorem children_list (k : NodeKind) (cs : List Node) : (list k cs).children = cs := rfl

/-- The first child of a kind. -/
def child? (k : NodeKind) (n : Node) : Option Node :=
  n.children.find? (·.kind = k)

/-- The text of the first child of a kind, if there is one and it carries a text. -/
def childText? (k : NodeKind) (n : Node) : Option String :=
  (n.child? k).bind text?

/-! ## Sibling lists -/

/-- The siblings `nodes` in front of `list`. -/
def prepend (list nodes : List Node) : List Node := nodes ++ list

/-- The siblings `nodes` behind `list`. -/
def append (list nodes : List Node) : List Node := list ++ nodes

/-- The siblings of several lists, one list after the other. -/
def concat (lists : List (List Node)) : List Node :=
  lists.foldr (fun nodes list => prepend list nodes) []

/-- Replaces the first node; the others stay. -/
def setHead (node : Node) : List Node → List Node
  | [] => []
  | _ :: rest => node :: rest

end Node

end IdlBind
