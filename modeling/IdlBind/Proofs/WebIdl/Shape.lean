import IdlBind.Node.Query
import IdlBind.WebIdl.Definition

set_option autoImplicit false

/-! # The shape of WebIDL trees

The shape that is documented for the trees of definitions, as a predicate on nodes. It leaves open
what stands inside a type and which integers stand for modifiers, so that it holds of more trees
than are ever read. `Definition.isDefinition_toNode`: the trees of definitions have it. -/

namespace IdlBind.WebIdl

/-! ## The predicate -/

/-- An argument: a type and an identifier. -/
inductive IsArgument : Node → Prop
  | intro (kind : ArgumentKind) (type : Node) (name : String) (htype : type.kind = .type) :
      IsArgument (.list kind.nodeKind [type, .text .ident name])

/-- A member of a block. An attribute has modifiers, a type and an identifier; an operation has
    modifiers and may have a type, an identifier and arguments. -/
inductive IsMember : Node → Prop
  | attribute (codes : List Int) (type : Node) (name : String) (htype : type.kind = .type) :
      IsMember (.list .attribute
        (codes.map (fun code => .int .modifier code) ++ [type, .text .ident name]))
  | operation (codes : List Int) (type? : Option Node) (name? : Option String)
      (arguments? : Option (List Node)) (htype : ∀ type ∈ type?, type.kind = .type)
      (harguments : ∀ list ∈ arguments?, ∀ a ∈ list, IsArgument a) :
      IsMember (.list .operation
        (codes.map (fun code => .int .modifier code) ++ type?.toList ++
          name?.toList.map (fun name => .text .ident name) ++
          arguments?.toList.map (fun list => .list .argumentList list)))

/-- A definition: an identifier, at most one parent, and blocks of members. -/
inductive IsDefinition : Node → Prop
  | intro (kind : DefinitionKind) (name : String) (parent? : Option String)
      (blocks : List (List Node)) (hmember : ∀ block ∈ blocks, ∀ m ∈ block, IsMember m) :
      IsDefinition (.list kind.nodeKind
        (.text .ident name ::
          (parent?.toList.map fun parent => .text .interfaceInheritance parent) ++
          blocks.map fun block => .list .interfaceMembers block))

/-! ## Trees of definitions have the shape -/

theorem TypeExpr.kind_toNode (t : TypeExpr) : t.toNode.kind = .type := by
  cases t <;> simp [TypeExpr.toNode, Node.kind]

theorem Argument.isArgument_toNode (a : Argument) : IsArgument a.toNode :=
  .intro a.kind a.type.toNode a.name a.type.kind_toNode

theorem Modifier.listToNodes_eq (modifiers : List Modifier) :
    Modifier.listToNodes modifiers
      = (modifiers.map Modifier.code).map fun code => .int .modifier code := by
  simp [Modifier.listToNodes]

theorem Member.isMember_toNode (m : Member) : IsMember m.toNode := by
  rcases m with ⟨modifiers, type, name⟩ | ⟨modifiers, type, name?, arguments⟩ | _
  · rw [Member.toNode, Modifier.listToNodes_eq]
    exact .attribute _ _ _ type.kind_toNode
  · rw [Member.toNode, Modifier.listToNodes_eq]
    refine .operation _ (some type.toNode) name? (some (arguments.map Argument.toNode)) ?_ ?_
    · rintro t ⟨⟩
      exact type.kind_toNode
    · rintro list ⟨⟩ a ha
      obtain ⟨b, -, rfl⟩ := List.mem_map.1 ha
      exact b.isArgument_toNode
  · rw [Member.toNode, Modifier.listToNodes_eq]
    exact .operation [Modifier.stringifier.code] none none none (by simp) (by simp)

theorem Definition.isDefinition_toNode (d : Definition) : IsDefinition d.toNode := by
  have hblocks : d.blocks.map (fun block => Node.list .interfaceMembers (block.map Member.toNode))
      = (d.blocks.map (fun block => block.map Member.toNode)).map
        (fun block => Node.list .interfaceMembers block) := by
    simp
  rw [Definition.toNode, hblocks]
  refine .intro d.kind d.name d.parent? _ ?_
  intro block hblock m hm
  obtain ⟨members, -, rfl⟩ := List.mem_map.1 hblock
  obtain ⟨member, -, rfl⟩ := List.mem_map.1 hm
  exact member.isMember_toNode

/-! ## Reading trees of the shape -/

/-- In a tree of the documented shape a parent is given by its name. -/
theorem IsDefinition.getText_inheritance {d : Node} (h : IsDefinition d) :
    (d.child? .interfaceInheritance).map Node.getText
      = (d.childText? .interfaceInheritance).map Except.ok := by
  obtain ⟨kind, name, parent?, blocks, -⟩ := h
  have hblocks : (blocks.map fun block => Node.list .interfaceMembers block).find?
      (fun n => decide (n.kind = .interfaceInheritance)) = none := by
    rw [List.find?_eq_none]
    intro n hn
    obtain ⟨block, -, rfl⟩ := List.mem_map.1 hn
    simp
  cases parent? with
  | none => simp [Node.childText?, Node.child?, hblocks, -List.find?_map]
  | some parent => simp [Node.childText?, Node.child?, Node.getText, Node.text?]

/-- The modifiers of a member are integers. -/
theorem IsMember.exists_children {m : Node} (h : IsMember m) :
    ∃ k cs, m = .list k cs ∧ ∀ c ∈ cs, c.kind = .modifier → ∃ code, c = .int .modifier code := by
  rcases h with ⟨codes, type, name, htype⟩ | ⟨codes, type?, name?, arguments?, htype, -⟩
  · refine ⟨_, _, rfl, fun c hc hkind => ?_⟩
    simp only [List.mem_append, List.mem_map, List.mem_cons, List.not_mem_nil, or_false] at hc
    rcases hc with ⟨code, -, rfl⟩ | rfl | rfl
    · exact ⟨code, rfl⟩
    · rw [htype] at hkind
      exact absurd hkind (by simp)
    · exact absurd hkind (by simp)
  · refine ⟨_, _, rfl, fun c hc hkind => ?_⟩
    simp only [List.mem_append, List.mem_map, Option.mem_toList] at hc
    rcases hc with ((⟨code, -, rfl⟩ | hc) | ⟨name, -, rfl⟩) | ⟨list, -, rfl⟩
    · exact ⟨code, rfl⟩
    · rw [htype c hc] at hkind
      exact absurd hkind (by simp)
    · exact absurd hkind (by simp)
    · exact absurd hkind (by simp)

theorem IsMember.kind_eq {m : Node} (h : IsMember m) :
    m.kind = .attribute ∨ m.kind = .operation := by
  rcases h with _ | _
  · exact Or.inl rfl
  · exact Or.inr rfl

/-- Every attribute has an identifier. -/
theorem IsMember.childText?_ident {m : Node} (h : IsMember m) (hkind : m.kind = .attribute) :
    ∃ name, m.childText? .ident = some name := by
  rcases h with ⟨codes, type, name, htype⟩ | _
  · have hcodes : (codes.map fun code => Node.int .modifier code).find?
        (fun n => decide (n.kind = .ident)) = none := by
      rw [List.find?_eq_none]
      intro n hn
      obtain ⟨code, -, rfl⟩ := List.mem_map.1 hn
      simp
    refine ⟨name, ?_⟩
    simp [Node.childText?, Node.child?, hcodes, htype, Node.text?, -List.find?_map]
  · exact absurd hkind (by simp)

/-- The blocks of a definition hold members. -/
theorem IsDefinition.isMember_of_mem {d : Node} (h : IsDefinition d) :
    ∀ block ∈ Node.eachKind .interfaceMembers d.children, ∀ m ∈ block.children, IsMember m := by
  obtain ⟨kind, name, parent?, blocks, hmember⟩ := h
  intro block hblock m hm
  simp only [Node.eachKind, Node.children_list, List.mem_filter, List.mem_append, List.mem_cons,
    List.mem_map, decide_eq_true_eq] at hblock
  rcases hblock with ⟨(rfl | ⟨parent, -, rfl⟩) | ⟨b, hb, rfl⟩, hkind⟩
  · exact absurd hkind (by simp)
  · exact absurd hkind (by simp)
  · exact hmember b hb m hm

end IdlBind.WebIdl
