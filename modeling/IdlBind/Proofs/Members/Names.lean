import IdlBind.Proofs.Members.Resolution
import IdlBind.Proofs.WebIdl.Names
import IdlBind.Proofs.WebIdl.TreeShape

set_option autoImplicit false

/-! # Names of members

In a document of sources, the names of all members to which a name resolves are identifiers, and so
are the names of the definitions that declare them (`isRead_of_resolve`). A dictionary has no
operations. -/

namespace IdlBind

open WebIdl (Argument Definition DefinitionKind Document Member Modifier TypeExpr)

/-! ## What is resolved -/

/-- What holds of a block of members that were read. -/
structure MemberBlock.IsRead (b : MemberBlock) : Prop where
  interface : isIdentifier b.interface = true
  attributes : ∀ a ∈ b.attributes, a.interface = b.interface ∧ isIdentifier a.name = true
  operations : ∀ o ∈ b.operations, o.interface = b.interface ∧
    ∀ name ∈ o.name?, isIdentifier name = true

/-- What holds of members that were read. -/
structure Members.IsRead (m : Members) : Prop where
  block : ∀ b ∈ m.blocks, b.IsRead
  dictionary : m.kind = .dictionary → m.operations = []

/-! ## Trees of members -/

theorem find?_ident_listToNodes (modifiers : List Modifier) :
    (Modifier.listToNodes modifiers).find? (fun n => decide (n.kind = .ident)) = none := by
  rw [List.find?_eq_none]
  intro n hn
  obtain ⟨m, -, rfl⟩ := List.mem_map.1 hn
  simp

theorem childText?_attribute (modifiers : List Modifier) (type : TypeExpr) (name : String) :
    (Member.attribute modifiers type name).toNode.childText? .ident = some name := by
  simp [Member.toNode, Node.childText?, Node.child?, List.find?_append, find?_ident_listToNodes,
    type.kind_toNode, Node.text?]

theorem child?_operation (modifiers : List Modifier) (type : TypeExpr) (name? : Option String)
    (arguments : List Argument) :
    (Member.operation modifiers type name? arguments).toNode.child? .ident
      = name?.map (Node.text .ident) := by
  cases name? <;>
    simp [Member.toNode, Node.child?, List.find?_append, find?_ident_listToNodes, type.kind_toNode]

theorem childText?_operation (modifiers : List Modifier) (type : TypeExpr)
    (name? : Option String) (arguments : List Argument) :
    (Member.operation modifiers type name? arguments).toNode.childText? .ident = name? := by
  rw [Node.childText?, child?_operation]
  cases name? <;> rfl

variable {kind : DefinitionKind} {m : Member}

theorem isIdentifier_of_attribute (h : m.IsRead kind) (hkind : m.toNode.kind = .attribute)
    (owner : String) : isIdentifier (declaredAttribute owner m.toNode).name = true := by
  rcases m with ⟨modifiers, type, name⟩ | ⟨modifiers, type, name?, arguments⟩ | _
  · rw [declaredAttribute, childText?_attribute]
    exact h
  · exact absurd hkind (by simp [Member.toNode])
  · exact absurd hkind (by simp [Member.toNode])

theorem isIdentifier_of_operation (h : m.IsRead kind) (hkind : m.toNode.kind = .operation) :
    kind = .interface ∧ ∀ name ∈ m.toNode.childText? .ident, isIdentifier name = true := by
  rcases m with ⟨modifiers, type, name⟩ | ⟨modifiers, type, name?, arguments⟩ | _
  · exact absurd hkind (by simp [Member.toNode])
  · rw [childText?_operation]
    exact h
  · exact ⟨h, by simp [Member.toNode, Modifier.listToNodes, Node.childText?, Node.child?]⟩

/-! ## Declared members -/

variable {doc : Document}

theorem isDefinition_of_mem_toNodes {n : Node} (h : n ∈ doc.toNodes) : WebIdl.IsDefinition n := by
  obtain ⟨d, -, rfl⟩ := List.mem_map.1 h
  exact d.isDefinition_toNode

/-- A name means a definition of the document with that name. -/
theorem exists_definition_of_meaning? {owner : String} {n : Node}
    (h : meaning? doc.toNodes kind owner = some n) :
    ∃ d ∈ doc.definitions, d.toNode = n ∧ d.kind = kind ∧ d.name = owner := by
  rw [meaning?, doc.find?_isNamed_toNodes, Option.map_eq_some_iff] at h
  obtain ⟨d, hd, rfl⟩ := h
  obtain ⟨rfl, rfl⟩ := Prod.mk.inj (WebIdl.Document.key_of_lookup? hd)
  exact ⟨d, List.mem_of_find?_eq_some hd, rfl, rfl, rfl⟩

theorem eachKind_interfaceMembers_toNode (d : Definition) :
    Node.eachKind .interfaceMembers d.toNode.children
      = d.blocks.map fun block => .list .interfaceMembers (block.map Member.toNode) := by
  obtain ⟨kind, name, parent?, blocks, isPartial⟩ := d
  cases parent? <;>
    simp [Definition.toNode, Node.eachKind, List.filter_map, Function.comp_def]

/-- The trees of members come from the blocks of one definition. -/
theorem exists_block_of_mem_memberTrees {owner : String} {trees : List Node}
    (h : trees ∈ memberTrees doc.toNodes kind owner) :
    ∃ d ∈ doc.definitions, d.kind = kind ∧ d.name = owner ∧
      ∃ block ∈ d.blocks, trees = block.map Member.toNode := by
  obtain ⟨n, hn, htrees⟩ := List.mem_flatMap.1 h
  obtain ⟨d, hd, rfl, hkind, hname⟩ :=
    exists_definition_of_meaning? (Option.mem_toList.1 hn)
  rw [eachKind_interfaceMembers_toNode, List.map_map] at htrees
  obtain ⟨block, hblock, rfl⟩ := List.mem_map.1 htrees
  exact ⟨d, hd, hkind, hname, block, hblock, rfl⟩

/-- What a definition that was read declares. -/
theorem isRead_of_mem_declaredBlocks (hdoc : ∀ d ∈ doc.definitions, d.IsRead) {owner : String}
    {b : MemberBlock} (hb : b ∈ declaredBlocks doc.toNodes kind owner) :
    b.IsRead ∧ (kind = .dictionary → b.operations = []) := by
  obtain ⟨trees, htrees, rfl⟩ := List.mem_map.1 hb
  obtain ⟨d, hd, rfl, rfl, block, hblock, rfl⟩ := exists_block_of_mem_memberTrees htrees
  have hread := (hdoc d hd).member block hblock
  have hattribute : ∀ a ∈ MemberBlock.attributes
      ⟨d.name, (block.map Member.toNode).filterMap (declaredMember? d.name)⟩,
      a.interface = d.name ∧ isIdentifier a.name = true := by
    intro a ha
    rw [MemberBlock.attributes, filterMap_attribute?_declaredMember?] at ha
    obtain ⟨n, hn, rfl⟩ := List.mem_map.1 ha
    obtain ⟨hmem, hkind⟩ := List.mem_filter.1 hn
    obtain ⟨m, hm, rfl⟩ := List.mem_map.1 hmem
    exact ⟨rfl, isIdentifier_of_attribute (hread m hm) (of_decide_eq_true hkind) d.name⟩
  have hoperation : ∀ o ∈ MemberBlock.operations
      ⟨d.name, (block.map Member.toNode).filterMap (declaredMember? d.name)⟩,
      d.kind = .interface ∧ o.interface = d.name ∧ ∀ name ∈ o.name?, isIdentifier name = true := by
    intro o ho
    rw [MemberBlock.operations, filterMap_operation?_declaredMember?] at ho
    obtain ⟨n, hn, rfl⟩ := List.mem_map.1 ho
    obtain ⟨hmem, hkind⟩ := List.mem_filter.1 hn
    obtain ⟨m, hm, rfl⟩ := List.mem_map.1 hmem
    obtain ⟨hinterface, hname⟩ :=
      isIdentifier_of_operation (hread m hm) (of_decide_eq_true hkind)
    exact ⟨hinterface, rfl, hname⟩
  refine ⟨⟨(hdoc d hd).name, hattribute, fun o ho => (hoperation o ho).2⟩, fun hdictionary => ?_⟩
  rw [List.eq_nil_iff_forall_not_mem]
  intro o ho
  exact absurd (hdictionary.symm.trans (hoperation o ho).1) (by decide)

/-! ## Resolved members -/

/-- The members to which a name resolves in a document of sources were read, and so was the name. -/
theorem isRead_of_resolve {sources : List String} {name : String} {m : Members}
    (h : resolve (Document.ofSources sources).toNodes name = .ok m) :
    isIdentifier name = true ∧ m.IsRead := by
  have hdoc := WebIdl.isRead_of_mem_ofSources sources
  generalize Document.ofSources sources = doc at h hdoc
  obtain ⟨names, last, hwalk, -, hroot, rfl⟩ :=
    (resolve_eq_ok_iff (fun _ => isDefinition_of_mem_toNodes) name m).1 h
  have hmeaning : meaning? doc.toNodes (pathKind doc.toNodes name) name ≠ none := by
    cases hwalk with
    | stay => exact hroot.ne_none
    | step hextends _ => exact hextends.ne_none
  obtain ⟨n, hn⟩ := Option.ne_none_iff_exists'.1 hmeaning
  obtain ⟨d, hd, -, -, rfl⟩ := exists_definition_of_meaning? hn
  refine ⟨(hdoc d hd).name, fun b hb => ?_, fun hkind => ?_⟩
  · obtain ⟨owner, -, howner⟩ := List.mem_flatMap.1 hb
    exact (isRead_of_mem_declaredBlocks hdoc howner).1
  · refine List.flatMap_eq_nil_iff.2 fun b hb => ?_
    obtain ⟨owner, -, howner⟩ := List.mem_flatMap.1 hb
    exact (isRead_of_mem_declaredBlocks hdoc howner).2 hkind

end IdlBind
