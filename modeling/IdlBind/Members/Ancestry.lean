import IdlBind.Node.Query
import IdlBind.WebIdl.Definition

set_option autoImplicit false

/-! # The ancestry of a definition

A definition and its parents, most derived first. The path ends at a definition without a parent; or
at a name that names nothing, at a name that was met before, or at a parent that is no text. The
search ends because every step uses up a name (`unvisited_lt`). -/

namespace IdlBind

open WebIdl (DefinitionKind)

/-- Why a name does not resolve to members. -/
inductive ResolveError where
  | interfaceNotFound (name : String)
  | cyclicInheritance (chain : List String)
  | missingAttributeIdentifier (interface : String)
  | tree (cause : Node.Mismatch)
  deriving DecidableEq, Repr

/-- The wording of a resolve error. -/
def ResolveError.message : ResolveError → String
  | .interfaceNotFound name => "Unable to find interface " ++ name ++ " in loaded WebIDL"
  | .cyclicInheritance chain => "Cyclic inheritance: " ++ " -> ".intercalate chain
  | .missingAttributeIdentifier interface =>
    "attribute without identifier in interface " ++ interface
  | .tree cause => cause.message

/-- The first definition of a kind with a name. -/
def findDefinition? (kind : DefinitionKind) (name : String) (definitions : List Node) :
    Option Node :=
  Node.findNamed? kind.nodeKind name definitions

/-- The definitions on a path with their names, and how the path ends. -/
structure Ancestry where
  path : List (String × Node)
  ending : Except ResolveError Unit

/-! ## Names not yet on the path -/

/-- How many definitions have a name that is not among `visited`. -/
def unvisited (definitions : List Node) (visited : List String) : Nat :=
  definitions.countP fun d => (d.childText? .ident).any fun name => !visited.contains name

theorem findFrom_head_mem {p : Node → Bool} {list : List Node} {n : Node}
    (h : (Node.findFrom p list).head? = some n) : n ∈ list ∧ p n = true := by
  induction list with
  | nil => simp [Node.findFrom] at h
  | cons m rest ih =>
    unfold Node.findFrom at h
    split at h
    · rename_i hm
      obtain rfl := Option.some.inj h
      exact ⟨List.mem_cons_self .., hm⟩
    · exact ⟨List.mem_cons_of_mem _ (ih h).1, (ih h).2⟩

/-- A definition that is found is one of the list and has the name. -/
theorem findDefinition?_some {kind : DefinitionKind} {name : String} {definitions : List Node}
    {n : Node} (h : findDefinition? kind name definitions = some n) :
    n ∈ definitions ∧ n.kind = kind.nodeKind ∧ n.childText? .ident = some name := by
  obtain ⟨hm, hp⟩ := findFrom_head_mem h
  simp only [Node.isNamed, Bool.and_eq_true, decide_eq_true_eq] at hp
  exact ⟨hm, hp.1, hp.2⟩

theorem countP_lt_of_mem {α : Type} {p q : α → Bool} {l : List α} {a : α}
    (hqp : ∀ x, q x = true → p x = true) (ha : a ∈ l) (hp : p a = true) (hq : q a = false) :
    l.countP q < l.countP p := by
  induction l with
  | nil => simp at ha
  | cons b l ih =>
    have hle : l.countP q ≤ l.countP p := List.countP_mono_left fun x _ => hqp x
    rcases List.mem_cons.1 ha with rfl | hb
    · simp only [List.countP_cons, hp, hq]
      simp
      omega
    · have := ih hb
      simp only [List.countP_cons]
      by_cases h : q b = true
      · simp [h, hqp b h]
        omega
      · simp [h]
        omega

/-- A name that is met for the first time is used up. -/
theorem unvisited_lt {kind : DefinitionKind} {name : String} {definitions : List Node} {n : Node}
    {visited : List String} (h : findDefinition? kind name definitions = some n)
    (hv : name ∉ visited) :
    unvisited definitions (visited ++ [name]) < unvisited definitions visited := by
  obtain ⟨hm, -, hn⟩ := findDefinition?_some h
  refine countP_lt_of_mem (fun x hx => ?_) hm ?_ ?_
  · cases hc : x.childText? .ident with
    | none => simp [hc] at hx
    | some other => simp_all
  · simpa [hn] using hv
  · simp [hn]

/-! ## The path -/

/-- The path from a name, with the names that are already on it. -/
def ancestryFrom (definitions : List Node) (kind : DefinitionKind) (visited : List String)
    (name : String) : Ancestry :=
  match _h : findDefinition? kind name definitions with
  | none => ⟨[], .error (.interfaceNotFound name)⟩
  | some node =>
    if _hv : name ∈ visited then ⟨[], .error (.cyclicInheritance (visited ++ [name]))⟩
    else
      let rest : Ancestry := match (node.child? .interfaceInheritance).map Node.getText with
        | none => ⟨[], .ok ()⟩
        | some (.error cause) => ⟨[], .error (.tree cause)⟩
        | some (.ok parent) => ancestryFrom definitions kind (visited ++ [name]) parent
      ⟨(name, node) :: rest.path, rest.ending⟩
termination_by unvisited definitions visited
decreasing_by exact unvisited_lt _h _hv

/-- The path from a name. -/
def ancestry (definitions : List Node) (kind : DefinitionKind) (name : String) : Ancestry :=
  ancestryFrom definitions kind [] name

end IdlBind
