import IdlBind.Node

set_option autoImplicit false

/-! # Searching sibling lists

All searches are shallow: they look at one list of siblings and never at children. A search answers
with the list that starts at the node found, so that it can be resumed behind it. -/

namespace IdlBind.Node

variable {ε : Type}

/-- The nodes of a kind, in order. -/
def eachKind (k : NodeKind) (list : List Node) : List Node := list.filter (·.kind = k)

/-- Visits the nodes of a kind in order, up to the first error. -/
def forEachKind {m : Type → Type} [Monad m] (k : NodeKind) (list : List Node)
    (visit : Node → ExceptT ε m Unit) : ExceptT ε m Unit :=
  (eachKind k list).forM visit

/-- The list from the first node that satisfies `p`. -/
def findFrom (p : Node → Bool) : List Node → List Node
  | [] => []
  | n :: rest => if p n then n :: rest else findFrom p rest

/-- The list from the first node that satisfies `p` behind the one with which `found` starts. -/
def findAfter (p : Node → Bool) (found : List Node) : List Node := findFrom p found.tail

/-- The first node that satisfies `p`. -/
def find? (p : Node → Bool) (list : List Node) : Option Node := (findFrom p list).head?

theorem findFrom_head_eq_find? (p : Node → Bool) (list : List Node) :
    (findFrom p list).head? = list.find? p := by
  induction list with
  | nil => rfl
  | cons n rest ih =>
    unfold findFrom
    cases h : p n <;> simp [h, ih]

/-- How many nodes a search looks at: all up to and including the one it finds. -/
def findCalls (p : Node → Bool) : List Node → Nat
  | [] => 0
  | n :: rest => if p n then 1 else findCalls p rest + 1

/-- The list from the first node of a kind. -/
def findKindFrom (k : NodeKind) (list : List Node) : List Node := findFrom (·.kind = k) list

/-- The list from the first node of a kind behind the one with which `found` starts. -/
def findKindAfter (k : NodeKind) (found : List Node) : List Node := findAfter (·.kind = k) found

/-- The first node of a kind. -/
def findKind? (k : NodeKind) (list : List Node) : Option Node := find? (·.kind = k) list

/-- Has the node this kind and this text in its first identifier child? -/
def isNamed (k : NodeKind) (name : String) (n : Node) : Bool :=
  n.kind = k && n.childText? .ident = some name

/-- The first node of a kind with this identifier. -/
def findNamed? (k : NodeKind) (name : String) (list : List Node) : Option Node :=
  find? (isNamed k name) list

end IdlBind.Node
