import IdlBind.Proofs.Node.Outline
import IdlBind.Proofs.WebIdl.Parts
import IdlBind.Proofs.WebIdl.Replacing
import IdlBind.Proofs.WebIdl.TreeShape

set_option autoImplicit false

/-! # Written operations

The operations of the definitions that are read from tokens are those that are written in them, if
the tokens are accepted (`writesOperation_of_mem`, `exists_mem_of_writesOperation`). Among the nodes
of the trees of definitions, the operations are the trees of members (`operation_mem_nodesOf_iff`),
and definitions that are merged have the same members as before (`exists_mem_insertAll_iff`). -/

namespace IdlBind.WebIdl

open TokenParser

variable {tokens ts us : List Token}

/-! ## What is written is read -/

/-- An operation is written in the tokens with these modifiers and this name, if it has one: where a
    member starts, the modifiers stand in front of a type, and that in front of the name and an
    opening parenthesis. -/
inductive WritesOperation (tokens : List Token) (modifiers : List Modifier)
    (name? : Option String) : Prop
  | intro {ts us behind list : List Token} {type : TypeExpr} {p : Position}
    (hplace : Place tokens (.member .interface) ts) (hstarts : StartsOperation modifiers ts us)
    (htype : typeExpr us = .ok (type, behind))
    (hname : acceptName behind = .ok (name?, ⟨.punct '(', p⟩ :: list)) :
    WritesOperation tokens modifiers name?

/-- What is read from a place on is among some definitions: all statements are, and all members of a
    block are members of one of these. -/
def Construct.Among (found : List Definition) : (c : Construct) → c.Result → Prop
  | .statement, result => result.2 = .ok () ∧ result.1 ⊆ found
  | .member _, result => ∃ members rest, result = .ok (members, rest) ∧
      ∃ d ∈ found, ∃ block ∈ d.blocks, members ⊆ block
  | .argument, _ => True
  | .type, _ => True

theorem exists_statement_of_definitions (h : (definitions ts).2 = .ok ()) :
    ∃ result, statement ts = .ok result := by
  cases hstatement : statement ts with
  | ok result => exact ⟨result, rfl⟩
  | error e =>
    rw [definitions, Parser.collect, hstatement] at h
    exact absurd h (by simp [Except.map])

/-- The members of a definition that is read are its block. -/
theorem among_firstMember {found : List Definition} {kind : DefinitionKind} {isPartial : Bool}
    {mid behind : List Token} {name : String} {parent? : Option String} {p p' : Position}
    (hpartial : acceptIdent "partial" ts = .ok (isPartial, mid))
    (hkeywords : BehindKeywords kind mid (⟨.ident name, p⟩ :: behind))
    (hparent : inheritance behind = .ok (parent?, ⟨.punct '{', p'⟩ :: us))
    (hts : Construct.statement.Among found (definitions ts)) :
    (Construct.member kind).Among found (memberItems kind us) := by
  obtain ⟨houtcome, hfound⟩ := hts
  have hopen := statement_open hpartial hkeywords hparent
  obtain ⟨result, hresult⟩ := exists_statement_of_definitions houtcome
  rw [hresult] at hopen
  obtain ⟨⟨d, rest⟩, hbody, rfl⟩ := exists_of_map_eq_ok hopen.symm
  rw [definitions_cons hresult] at hfound
  obtain ⟨members, closing, hmembers, hclosing⟩ := Parser.bind_eq_ok_iff.1 hbody
  obtain ⟨⟨⟩, _, -, hd⟩ := Parser.bind_eq_ok_iff.1 hclosing
  obtain ⟨rfl, -⟩ := Prod.mk.inj (Except.ok.inj hd)
  exact ⟨members, closing, hmembers, _, hfound List.mem_cons_self, members,
    List.mem_singleton_self members, List.Subset.refl members⟩

theorem Leads.among {c c' : Construct} {found : List Definition} (h : Leads c ts c' us)
    (hts : c.Among found (c.read ts)) : c'.Among found (c'.read us) := by
  cases h with
  | attributes h => exact read_of_group c h ▸ hts
  | @nextStatement ts us d? h =>
    have hts : Construct.statement.Among found (definitions ts) := hts
    rw [definitions_cons h] at hts
    exact ⟨hts.1, fun d hd => hts.2 (List.mem_append_right _ hd)⟩
  | firstMember hpartial hkeywords hparent => exact among_firstMember hpartial hkeywords hparent hts
  | @nextMember kind ts us m? h =>
    obtain ⟨members, rest, hmembers, d, hd, block, hblock, hsubset⟩ := hts
    have hmembers : memberItems kind ts = .ok (members, rest) := hmembers
    rw [memberItems_cons h] at hmembers
    obtain ⟨⟨others, _⟩, hothers, heq⟩ := exists_of_map_eq_ok hmembers
    obtain ⟨rfl, rfl⟩ := Prod.mk.inj heq
    exact ⟨others, _, hothers, d, hd, block, hblock,
      fun m hm => hsubset (List.mem_append_right _ hm)⟩
  | attributeType h => trivial
  | returnType h => trivial
  | argument h htype hname hlist hitem => trivial
  | fieldType hplain h htype => trivial
  | argumentType hplain h => trivial
  | parameter hunsigned hunrestricted hname hitem => trivial

/-- From every place of tokens that are accepted, what is read is among their definitions. -/
theorem Place.among {c : Construct} (h : Place tokens c ts)
    (haccepted : (definitions tokens).2 = .ok ()) :
    c.Among (definitions tokens).1 (c.read ts) := by
  induction h with
  | start => exact ⟨haccepted, List.Subset.refl _⟩
  | inside _ hleads ih => exact hleads.among ih

variable {modifiers : List Modifier} {name? : Option String}

/-- An operation that is written is a member of one of the definitions. -/
theorem exists_mem_of_writesOperation (haccepted : (definitions tokens).2 = .ok ())
    (h : WritesOperation tokens modifiers name?) :
    ∃ d ∈ (definitions tokens).1, ∃ type list,
      Member.operation modifiers type name? list ∈ d.blocks.flatten := by
  obtain @⟨ts, us, behind, inner, type, p, hplace, hstarts, htype, hname⟩ := h
  obtain ⟨members, rest, hmembers, d, hd, block, hblock, hsubset⟩ := hplace.among haccepted
  have hmembers : memberItems .interface ts = .ok (members, rest) := hmembers
  have hread := blockItem_operation hstarts
  rcases hitem : blockItem .interface ts with e | ⟨item, mid⟩
  · rw [memberItems_apply, Parser.collect, hitem] at hmembers
    exact absurd hmembers (by simp [Except.map])
  · rw [hitem] at hread
    obtain ⟨m?, _, hmap, hresult⟩ := Parser.bind_eq_ok_iff.1 hread.symm
    obtain ⟨m, rfl, hbody⟩ := Parser.map_eq_ok_iff.1 hmap
    obtain ⟨rfl, rfl⟩ := Prod.mk.inj (Except.ok.inj hresult)
    unfold operationBody at hbody
    rw [Parser.bind_apply_of_ok htype, Parser.bind_apply_of_ok hname] at hbody
    obtain ⟨list, closing, -, hclosing⟩ := Parser.bind_eq_ok_iff.1 hbody
    obtain ⟨⟨⟩, _, -, hm⟩ := Parser.bind_eq_ok_iff.1 hclosing
    obtain ⟨rfl, -⟩ := Prod.mk.inj (Except.ok.inj hm)
    rw [memberItems_cons hitem] at hmembers
    obtain ⟨others, -, heq⟩ := exists_of_map_eq_ok hmembers
    obtain ⟨rfl, -⟩ := Prod.mk.inj heq
    exact ⟨d, hd, type, list, List.mem_flatten.2 ⟨block, hblock, hsubset List.mem_cons_self⟩⟩

/-! ## What is read is written -/

theorem writesOperation_of_hasPlace {type : TypeExpr} {list : List Argument}
    (h : HasPlace tokens (.member .interface) (Member.operation modifiers type name? list)) :
    WritesOperation tokens modifiers name? := by
  obtain ⟨ts, rest, hplace, hplain, hread⟩ := h.behindAttributes
  rcases interfaceMember_cases (member_of_blockItem hplain hread) with
    hm | ⟨modifiers', us, hmodifiers, ⟨p, behind, rfl, hbody⟩ | ⟨hskipped, hattribute, hbody⟩⟩
  · exact absurd hm (by simp)
  · obtain ⟨_, _, _, hm, -⟩ := exists_type_of_attributeBody hbody
    exact absurd hm (by simp)
  · obtain ⟨hstarts, type', name', list', mid, behind, rest', hm, htype, hname, hlist⟩ :=
      startsOperation_of_operationBody hplain hmodifiers hskipped hattribute hbody
    obtain ⟨rfl, rfl, rfl, rfl⟩ := Member.operation.inj hm
    obtain ⟨⟨⟩, inner, hopening, -⟩ := Parser.bind_eq_ok_iff.1 hlist
    obtain ⟨p, rfl⟩ := expectPunct_eq_ok_iff.1 hopening
    exact ⟨hplace, hstarts, htype, hname⟩

/-- An operation of a definition is written. -/
theorem writesOperation_of_mem {d : Definition} (hd : d ∈ (definitions tokens).1)
    {type : TypeExpr} {list : List Argument}
    (hm : Member.operation modifiers type name? list ∈ d.blocks.flatten) :
    WritesOperation tokens modifiers name? := by
  have hplace := (hasPlaces_of_mem hd).members _ hm
  cases hkind : d.kind with
  | interface => exact writesOperation_of_hasPlace (hkind ▸ hplace)
  | dictionary =>
    obtain ⟨_, _, hfield, -⟩ := hasPlace_field_type (hkind ▸ hplace)
    exact absurd hfield (by simp)

/-! ## Nodes of operations -/

/-- A node that is no operation and has none below it. -/
def HasNoOperation (n : Node) : Prop := ∀ m ∈ Node.nodesOf [n], m.kind ≠ .operation

theorem hasNoOperation_iff {n : Node} : HasNoOperation n ↔
    n.kind ≠ .operation ∧ ∀ m ∈ Node.nodesOf n.children, m.kind ≠ .operation := by
  have hmem (m : Node) : m ∈ Node.nodesOf [n] ↔ m = n ∨ m ∈ Node.nodesOf n.children := by
    rw [Node.mem_nodesOf_iff]
    simp
  simp [HasNoOperation, hmem]

theorem hasNoOperation_int {k : NodeKind} (hk : k ≠ .operation) (i : Int) :
    HasNoOperation (.int k i) :=
  hasNoOperation_iff.2 ⟨hk, by simp [Node.children]⟩

theorem hasNoOperation_text {k : NodeKind} (hk : k ≠ .operation) (s : String) :
    HasNoOperation (.text k s) :=
  hasNoOperation_iff.2 ⟨hk, by simp [Node.children]⟩

theorem forall_mem_nodesOf {list : List Node} (h : ∀ c ∈ list, HasNoOperation c) :
    ∀ m ∈ Node.nodesOf list, m.kind ≠ .operation := by
  intro m hm
  obtain ⟨c, hc, hbelow⟩ := Node.mem_nodesOf_iff.1 hm
  obtain ⟨hkind, hchildren⟩ := hasNoOperation_iff.1 (h c hc)
  rcases hbelow with rfl | hbelow
  · exact hkind
  · exact hchildren m hbelow

theorem hasNoOperation_list {k : NodeKind} (hk : k ≠ .operation) {children : List Node}
    (h : ∀ c ∈ children, HasNoOperation c) : HasNoOperation (.list k children) :=
  hasNoOperation_iff.2 ⟨hk, forall_mem_nodesOf h⟩

theorem TypeExpr.hasNoOperation_toNode (t : TypeExpr) : HasNoOperation t.toNode := by
  have hbase (code : Int) : HasNoOperation (.int .typeBase code) := hasNoOperation_int (by decide) _
  have hflags (flags : TypeFlags) : ∀ n ∈ flags.toNodes, HasNoOperation n := by
    intro n hn
    obtain ⟨m, -, rfl⟩ := List.mem_map.1 hn
    exact hasNoOperation_int (by decide) _
  have hlist {ts : List TypeExpr} (hts : ∀ t ∈ ts, HasNoOperation t.toNode) :
      ∀ n ∈ listToNodes ts, HasNoOperation n := by
    intro n hn
    rw [listToNodes_eq_map] at hn
    obtain ⟨t, ht, rfl⟩ := List.mem_map.1 hn
    exact hts t ht
  induction t using TypeExpr.induction with
  | basic base flags =>
    exact hasNoOperation_list (by decide) (List.forall_mem_cons.2 ⟨hbase _, hflags flags⟩)
  | sequence first others flags ih =>
    exact hasNoOperation_list (by decide) (List.forall_mem_append.2
      ⟨List.forall_mem_cons.2 ⟨hbase _, hflags flags⟩, hlist ih⟩)
  | named name parameters flags ih =>
    exact hasNoOperation_list (by decide) (List.forall_mem_append.2
      ⟨List.forall_mem_cons.2 ⟨hbase _, hflags flags⟩,
        List.forall_mem_cons.2 ⟨hasNoOperation_text (by decide) name, hlist ih⟩⟩)

theorem Argument.hasNoOperation_toNode (a : Argument) : HasNoOperation a.toNode := by
  have hkind : a.kind.nodeKind ≠ .operation := by cases a.kind <;> decide
  have hname : HasNoOperation (.text .ident a.name) := hasNoOperation_text (by decide) a.name
  exact hasNoOperation_list hkind (by simpa using ⟨a.type.hasNoOperation_toNode, hname⟩)

/-- There is no operation below a member. -/
theorem Member.hasNoOperation_of_mem_children {m : Member} :
    ∀ c ∈ m.toNode.children, HasNoOperation c := by
  have hmodifiers (modifiers : List Modifier) :
      ∀ n ∈ Modifier.listToNodes modifiers, HasNoOperation n := by
    intro n hn
    obtain ⟨m, -, rfl⟩ := List.mem_map.1 hn
    exact hasNoOperation_int (by decide) _
  have hname (name : String) : HasNoOperation (.text .ident name) :=
    hasNoOperation_text (by decide) name
  rcases m with ⟨modifiers, type, name⟩ | ⟨modifiers, type, name?, arguments⟩ | _
  · exact List.forall_mem_append.2 ⟨hmodifiers modifiers,
      by simpa using ⟨type.hasNoOperation_toNode, hname name⟩⟩
  · have harguments : HasNoOperation (.list .argumentList (arguments.map Argument.toNode)) := by
      refine hasNoOperation_list (by decide) fun n hn => ?_
      obtain ⟨a, -, rfl⟩ := List.mem_map.1 hn
      exact a.hasNoOperation_toNode
    simp only [toNode, Node.children_list, List.forall_mem_append]
    refine ⟨⟨⟨hmodifiers modifiers, ?_⟩, ?_⟩, ?_⟩
    · simpa using type.hasNoOperation_toNode
    · simpa using fun name _ => hname name
    · simpa using harguments
  · exact hmodifiers [.stringifier]

theorem operation_mem_nodesOf_block {block : List Member} {n : Node} (hn : n.kind = .operation) :
    n ∈ Node.nodesOf (block.map Member.toNode) ↔ ∃ m ∈ block, m.toNode = n := by
  rw [Node.mem_nodesOf_iff]
  constructor
  · rintro ⟨_, htree, hbelow⟩
    obtain ⟨m, hm, rfl⟩ := List.mem_map.1 htree
    have hnone := forall_mem_nodesOf (Member.hasNoOperation_of_mem_children (m := m))
    exact ⟨m, hm, (hbelow.resolve_right fun h => hnone n h hn).symm⟩
  · rintro ⟨m, hm, rfl⟩
    exact ⟨m.toNode, List.mem_map_of_mem hm, .inl rfl⟩

theorem operation_mem_nodesOf_definition {d : Definition} {n : Node} (hn : n.kind = .operation) :
    n ∈ Node.nodesOf d.toNode.children ↔ ∃ m ∈ d.blocks.flatten, m.toNode = n := by
  constructor
  · intro hmem
    obtain ⟨c, hc, hbelow⟩ := Node.mem_nodesOf_iff.1 hmem
    rcases List.mem_append.1 hc with hc | hc
    · -- in front of the blocks stand the name and the parent
      have htext : HasNoOperation c := by
        rcases List.mem_cons.1 hc with rfl | hc
        · exact hasNoOperation_text (by decide) d.name
        · obtain ⟨parent, -, rfl⟩ := List.mem_map.1 hc
          exact hasNoOperation_text (by decide) parent
      obtain ⟨hkind, hchildren⟩ := hasNoOperation_iff.1 htext
      exact absurd hn (hbelow.elim (fun heq => heq ▸ hkind) (hchildren n))
    · obtain ⟨block, hblock, rfl⟩ := List.mem_map.1 hc
      have hmembers := hbelow.resolve_left fun heq => absurd hn (by simp [heq])
      obtain ⟨m, hm, rfl⟩ := (operation_mem_nodesOf_block hn).1 hmembers
      exact ⟨m, List.mem_flatten.2 ⟨block, hblock, hm⟩, rfl⟩
  · rintro ⟨m, hm, rfl⟩
    obtain ⟨block, hblock, hm⟩ := List.mem_flatten.1 hm
    have hmember := (operation_mem_nodesOf_block hn).2 ⟨m, hm, rfl⟩
    exact Node.mem_nodesOf_iff.2
      ⟨_, List.mem_append_right _ (List.mem_map_of_mem hblock), .inr hmember⟩

/-- The operations among the nodes of the trees of definitions are trees of members. -/
theorem operation_mem_nodesOf_iff {ds : List Definition} {n : Node} (hn : n.kind = .operation) :
    n ∈ Node.nodesOf (ds.map Definition.toNode) ↔
      ∃ d ∈ ds, ∃ m ∈ d.blocks.flatten, m.toNode = n := by
  rw [Node.mem_nodesOf_iff]
  constructor
  · rintro ⟨_, hroot, hbelow⟩
    obtain ⟨d, hd, rfl⟩ := List.mem_map.1 hroot
    have hkind : d.toNode.kind ≠ .operation := by
      cases h : d.kind <;> simp [Definition.toNode, DefinitionKind.nodeKind, h]
    have hmembers := hbelow.resolve_left fun heq => hkind (heq ▸ hn)
    exact ⟨d, hd, (operation_mem_nodesOf_definition hn).1 hmembers⟩
  · rintro ⟨d, hd, hm⟩
    exact ⟨d.toNode, List.mem_map_of_mem hd, .inr ((operation_mem_nodesOf_definition hn).2 hm)⟩

/-! ## Members of merged definitions -/

/-- What is merged from definitions has the members that these have. -/
theorem exists_mem_insertAll_iff {found : List Definition} {m : Member} :
    (∃ e ∈ (Document.empty.insertAll found).definitions, m ∈ e.blocks.flatten) ↔
      ∃ d ∈ found, m ∈ d.blocks.flatten := by
  constructor
  · rintro ⟨e, he, hm⟩
    obtain ⟨block, hblock, hm⟩ := List.mem_flatten.1 hm
    obtain ⟨d, hd, hblock⟩ := (isMergeOf_of_mem_insertAll he).mem_blocks hblock
    exact ⟨d, List.mem_of_mem_filter hd, List.mem_flatten.2 ⟨block, hblock, hm⟩⟩
  · rintro ⟨d, hd, hm⟩
    obtain ⟨block, hblock, hm⟩ := List.mem_flatten.1 hm
    have hpart : d ∈ found.filter (·.key = d.key) := List.mem_filter.2 ⟨hd, by simp⟩
    have hmerge := isMergeOf_lookup?_insertAll found d.key
    cases hentry : (Document.empty.insertAll found).lookup? d.key with
    | none =>
      rw [hentry] at hmerge
      exact absurd hpart (hmerge ▸ List.not_mem_nil)
    | some e =>
      rw [hentry] at hmerge
      have hblock := hmerge.blocks_perm.mem_iff.2 (List.mem_flatMap.2 ⟨d, hpart, hblock⟩)
      exact ⟨e, List.mem_of_find?_eq_some hentry, List.mem_flatten.2 ⟨block, hblock, hm⟩⟩

end IdlBind.WebIdl
