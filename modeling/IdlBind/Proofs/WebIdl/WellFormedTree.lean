import IdlBind.Proofs.WebIdl.TreeShape

set_option autoImplicit false

/-! # Well-formed trees

The trees of well-formed definitions, as a predicate on nodes (`isTree_iff`). -/

namespace IdlBind.WebIdl

/-! ## The predicate -/

/-- A type: its base, the modifiers that are set, a name if the base is defined by the user, and the
    types inside it. Only types defined by the user and sequences have types inside, and a sequence
    has at least one. -/
inductive IsTypeTree : Node → Prop
  | intro (base : BaseType) (modifiers : List TypeModifier) (name? : Option String)
      (elements : List Node) (hmodifiers : modifiers.Sublist TypeModifier.all)
      (hname : name?.isSome = true ↔ base = .user) (hvalid : name?.all isName = true)
      (hsequence : base = .sequence → elements ≠ [])
      (hother : elements ≠ [] → base = .sequence ∨ base = .user)
      (helements : ∀ e ∈ elements, IsTypeTree e) :
      IsTypeTree (.list .type (.int .typeBase base.code ::
        modifiers.map (fun m => .int .typeModifier m.code) ++
        name?.toList.map (fun name => .text .ident name) ++ elements))

/-- An argument: a type and an identifier. -/
inductive IsArgumentTree : Node → Prop
  | intro (kind : ArgumentKind) (type : Node) (name : String) (htype : IsTypeTree type)
      (hname : isName name = true) :
      IsArgumentTree (.list kind.nodeKind [type, .text .ident name])

/-- A member of a definition of a kind: an attribute, or in an interface an operation or the bare
    stringifier. Only in an interface have members modifiers. -/
inductive IsMemberTree : DefinitionKind → Node → Prop
  | attribute (kind : DefinitionKind) (modifiers : List Modifier) (type : Node) (name : String)
      (hmodifiers : kind = .dictionary → modifiers = []) (htype : IsTypeTree type)
      (hname : isName name = true) :
      IsMemberTree kind (.list .attribute
        (modifiers.map (fun m => .int .modifier m.code) ++ [type, .text .ident name]))
  | operation (modifiers : List Modifier) (type : Node) (name? : Option String)
      (arguments : List Node) (htype : IsTypeTree type) (hname : name?.all isName = true)
      (harguments : ∀ a ∈ arguments, IsArgumentTree a) :
      IsMemberTree .interface (.list .operation
        (modifiers.map (fun m => .int .modifier m.code) ++ [type] ++
          name?.toList.map (fun name => .text .ident name) ++ [.list .argumentList arguments]))
  | stringifier :
      IsMemberTree .interface (.list .operation [.int .modifier Modifier.stringifier.code])

/-- A definition: an identifier, at most one parent, and at least one block of members. -/
inductive IsDefinitionTree : Node → Prop
  | intro (kind : DefinitionKind) (name : String) (parent? : Option String)
      (blocks : List (List Node)) (hname : isName name = true)
      (hparent : parent?.all isName = true) (hblocks : blocks ≠ [])
      (hmember : ∀ block ∈ blocks, ∀ m ∈ block, IsMemberTree kind m) :
      IsDefinitionTree (.list kind.nodeKind
        (.text .ident name ::
          (parent?.toList.map fun parent => .text .interfaceInheritance parent) ++
          blocks.map fun block => .list .interfaceMembers block))

/-- Definitions of different kinds or identifiers. -/
structure IsTree (nodes : List Node) : Prop where
  each : ∀ n ∈ nodes, IsDefinitionTree n
  distinct : nodes.Pairwise fun a b =>
    ¬(a.kind = b.kind ∧ a.childText? .ident = b.childText? .ident)

/-! ## Trees of well-formed definitions -/

theorem TypeExpr.isName_of_mem_names {t : TypeExpr} (ht : t.isWellFormed = true) :
    ∀ name ∈ t.names, isName name = true := by
  induction t using TypeExpr.induction with
  | basic base flags => exact fun name hname => absurd hname List.not_mem_nil
  | sequence first others flags ih =>
    have hinside := isWellFormed_sequence.1 ht
    exact forall_mem_listNames.2 fun t hmem => ih t hmem (hinside t hmem)
  | named name parameters flags ih =>
    obtain ⟨hname, hinside⟩ := isWellFormed_named.1 ht
    exact List.forall_mem_cons.2 ⟨hname, forall_mem_listNames.2 fun t hmem =>
      ih t hmem (hinside t hmem)⟩

theorem Argument.isName_of_mem_names {a : Argument} (ha : a.isWellFormed = true) :
    ∀ name ∈ a.names, isName name = true := by
  simp only [isWellFormed, Bool.and_eq_true] at ha
  exact List.forall_mem_append.2
    ⟨TypeExpr.isName_of_mem_names ha.1, List.forall_mem_singleton.2 ha.2⟩

theorem Member.isSound_of_isWellFormed {kind : DefinitionKind} {m : Member}
    (hm : m.isWellFormed kind = true) : m.IsSound isName kind := by
  rcases m with ⟨modifiers, type, name⟩ | ⟨modifiers, type, name?, arguments⟩ | _
  · simp only [isWellFormed, Bool.and_eq_true, Bool.or_eq_true, decide_eq_true_eq] at hm
    obtain ⟨⟨hmodifiers, htype⟩, hname⟩ := hm
    refine ⟨List.forall_mem_append.2
      ⟨TypeExpr.isName_of_mem_names htype, List.forall_mem_singleton.2 hname⟩, ?_⟩
    rintro rfl
    exact hmodifiers.resolve_left (by simp)
  · simp only [isWellFormed, Bool.and_eq_true, decide_eq_true_eq] at hm
    obtain ⟨⟨⟨rfl, htype⟩, hname⟩, harguments⟩ := hm
    refine ⟨List.forall_mem_append.2 ⟨List.forall_mem_append.2
      ⟨TypeExpr.isName_of_mem_names htype, ?_⟩, ?_⟩, by simp⟩
    · intro name hmem
      exact (Option.all_eq_true _ _).1 hname name (Option.mem_toList.1 hmem)
    · intro name hmem
      obtain ⟨a, ha, hmem⟩ := List.mem_flatMap.1 hmem
      exact Argument.isName_of_mem_names (List.all_eq_true.1 harguments a ha) name hmem
  · simp only [isWellFormed, decide_eq_true_eq] at hm
    subst hm
    exact ⟨by simp [names], by simp⟩

theorem Definition.isSound_of_isWellFormed {d : Definition} (hd : d.isWellFormed = true) :
    d.IsSound isName := by
  simp only [isWellFormed, Bool.and_eq_true, Bool.not_eq_true', List.isEmpty_eq_false_iff] at hd
  obtain ⟨⟨⟨hname, hparent⟩, hblocks⟩, hmembers⟩ := hd
  refine ⟨hname, fun parent hmem => ?_, hblocks, fun block hblock m hm => ?_⟩
  · exact (Option.all_eq_true _ _).1 hparent parent (Option.mem_toList.1 hmem)
  · exact Member.isSound_of_isWellFormed
      (List.all_eq_true.1 (List.all_eq_true.1 hmembers block hblock) m hm)

/-! Trees of the shape of definitions are well-formed if their names are no keywords. -/

theorem TypeShape.isTypeTree {n : Node} (h : TypeShape isName n) : IsTypeTree n := by
  induction h with
  | intro base modifiers name? elements hmodifiers hname hvalid hsequence hother _ ih =>
    exact .intro base modifiers name? elements hmodifiers hname ((Option.all_eq_true _ _).2 hvalid)
      hsequence hother ih

theorem ArgumentShape.isArgumentTree {n : Node} (h : ArgumentShape isName n) :
    IsArgumentTree n := by
  obtain ⟨kind, type, name, htype, hname⟩ := h
  exact .intro kind type name htype.isTypeTree hname

theorem MemberShape.isMemberTree {kind : DefinitionKind} {n : Node}
    (h : MemberShape isName kind n) : IsMemberTree kind n := by
  rcases h with ⟨_, modifiers, type, name, hmodifiers, htype, hname⟩ |
    ⟨modifiers, type, name?, arguments, htype, hname, harguments⟩ | _
  · exact .attribute kind modifiers type name hmodifiers htype.isTypeTree hname
  · exact .operation modifiers type name? arguments htype.isTypeTree
      ((Option.all_eq_true _ _).2 hname) fun a ha => (harguments a ha).isArgumentTree
  · exact .stringifier

theorem DefinitionShape.isDefinitionTree {n : Node} (h : DefinitionShape isName n) :
    IsDefinitionTree n := by
  obtain ⟨kind, name, parent?, blocks, hname, hparent, hblocks, hmember⟩ := h
  exact .intro kind name parent? blocks hname ((Option.all_eq_true _ _).2 hparent) hblocks
    fun block hblock m hm => (hmember block hblock m hm).isMemberTree

/-! ## Definitions of well-formed trees -/

section

variable {α β : Type} {P : α → Prop} {f : α → β}

/-- A list of images is the image of a list. -/
theorem exists_map {bs : List β} (h : ∀ b ∈ bs, ∃ a, P a ∧ f a = b) :
    ∃ as : List α, (∀ a ∈ as, P a) ∧ as.map f = bs := by
  induction bs with
  | nil => exact ⟨[], by simp, rfl⟩
  | cons b bs ih =>
    obtain ⟨a, ha, rfl⟩ := h b List.mem_cons_self
    obtain ⟨as, has, rfl⟩ := ih fun b hb => h b (List.mem_cons_of_mem _ hb)
    exact ⟨a :: as, List.forall_mem_cons.2 ⟨ha, has⟩, rfl⟩

end

theorem exists_flags {modifiers : List TypeModifier} (h : modifiers.Sublist TypeModifier.all) :
    ∃ flags : TypeFlags, flags.modifiers = modifiers := by
  have hall : ∀ ms ∈ TypeModifier.all.sublists,
      (TypeFlags.mk (ms.contains .unsigned) (ms.contains .unrestricted)
        (ms.contains .nullable)).modifiers = ms := by decide
  exact ⟨_, hall modifiers (List.mem_sublists.2 h)⟩

theorem exists_basicType {base : BaseType} (hsequence : base ≠ .sequence) (huser : base ≠ .user) :
    ∃ basic : BasicType, basic.base = base := by
  cases base with
  | sequence => exact absurd rfl hsequence
  | user => exact absurd rfl huser
  | bool => exact ⟨.bool, rfl⟩
  | byte => exact ⟨.byte, rfl⟩
  | octet => exact ⟨.octet, rfl⟩
  | float => exact ⟨.float, rfl⟩
  | double => exact ⟨.double, rfl⟩
  | short => exact ⟨.short, rfl⟩
  | long => exact ⟨.long, rfl⟩
  | longLong => exact ⟨.longLong, rfl⟩
  | string => exact ⟨.string, rfl⟩
  | object => exact ⟨.object, rfl⟩
  | date => exact ⟨.date, rfl⟩
  | void => exact ⟨.void, rfl⟩
  | any => exact ⟨.any, rfl⟩

theorem IsTypeTree.exists_typeExpr {n : Node} (h : IsTypeTree n) :
    ∃ t : TypeExpr, t.isWellFormed = true ∧ t.toNode = n := by
  induction h with
  | intro base modifiers name? elements hmodifiers hname hvalid hsequence hother _ ih =>
    obtain ⟨flags, rfl⟩ := exists_flags hmodifiers
    obtain ⟨ts, hts, rfl⟩ := exists_map ih
    by_cases huser : base = .user
    · subst huser
      obtain ⟨name, rfl⟩ := Option.isSome_iff_exists.1 (hname.2 rfl)
      have hnamed : isName name = true := hvalid
      refine ⟨.named name ts flags, TypeExpr.isWellFormed_named.2 ⟨hnamed, hts⟩, ?_⟩
      simp [TypeExpr.toNode, TypeFlags.toNodes, TypeExpr.listToNodes_eq_map]
    -- only types defined by the user have a name
    obtain rfl : name? = none := by
      cases name? with
      | none => rfl
      | some name => exact absurd (hname.1 rfl) huser
    by_cases hbase : base = .sequence
    · subst hbase
      cases ts with
      | nil => exact absurd rfl (hsequence rfl)
      | cons first others =>
        refine ⟨.sequence first others flags, TypeExpr.isWellFormed_sequence.2 hts, ?_⟩
        simp [TypeExpr.toNode, TypeFlags.toNodes, TypeExpr.listToNodes_eq_map]
    · obtain rfl : ts = [] := by
        by_contra hts
        rcases hother (by simpa using hts) with h | h
        · exact hbase h
        · exact huser h
      obtain ⟨basic, rfl⟩ := exists_basicType hbase huser
      refine ⟨.basic basic flags, rfl, ?_⟩
      simp [TypeExpr.toNode, TypeFlags.toNodes]

theorem IsArgumentTree.exists_argument {n : Node} (h : IsArgumentTree n) :
    ∃ a : Argument, a.isWellFormed = true ∧ a.toNode = n := by
  obtain ⟨kind, type, name, htype, hname⟩ := h
  obtain ⟨t, ht, rfl⟩ := htype.exists_typeExpr
  refine ⟨⟨kind, t, name⟩, ?_, rfl⟩
  rw [Argument.isWellFormed, ht, hname]
  rfl

theorem IsMemberTree.exists_member {kind : DefinitionKind} {n : Node} (h : IsMemberTree kind n) :
    ∃ m : Member, m.isWellFormed kind = true ∧ m.toNode = n := by
  rcases h with ⟨_, modifiers, type, name, hmodifiers, htype, hname⟩ |
    ⟨modifiers, type, name?, arguments, htype, hname, harguments⟩ | _
  · obtain ⟨t, ht, rfl⟩ := htype.exists_typeExpr
    refine ⟨.attribute modifiers t name, ?_, rfl⟩
    cases kind with
    | interface =>
      rw [Member.isWellFormed, ht, hname]
      rfl
    | dictionary =>
      rw [Member.isWellFormed, ht, hname, hmodifiers rfl]
      rfl
  · obtain ⟨t, ht, rfl⟩ := htype.exists_typeExpr
    obtain ⟨list, hlist, rfl⟩ := exists_map fun a ha => (harguments a ha).exists_argument
    refine ⟨.operation modifiers t name? list, ?_, rfl⟩
    rw [Member.isWellFormed, ht, hname, List.all_eq_true.2 hlist]
    rfl
  · exact ⟨.stringifier, rfl, rfl⟩

theorem IsDefinitionTree.exists_definition {n : Node} (h : IsDefinitionTree n) :
    ∃ d : Definition, d.isWellFormed = true ∧ d.toNode = n := by
  obtain ⟨kind, name, parent?, blocks, hname, hparent, hblocks, hmember⟩ := h
  have hblock : ∀ block ∈ blocks, ∃ members : List Member,
      (∀ m ∈ members, m.isWellFormed kind = true) ∧ members.map Member.toNode = block :=
    fun block hblock => exists_map fun m hm => (hmember block hblock m hm).exists_member
  obtain ⟨members, hmembers, rfl⟩ := exists_map hblock
  refine ⟨⟨kind, name, parent?, members, false⟩, ?_, by simp [Definition.toNode]⟩
  simp only [Definition.isWellFormed, hname, hparent, Bool.true_and, Bool.and_eq_true,
    Bool.not_eq_true', List.isEmpty_eq_false_iff, List.all_eq_true]
  exact ⟨by simpa using hblocks, hmembers⟩

/-- The well-formed trees are the trees of well-formed definitions. -/
theorem isTree_iff (nodes : List Node) :
    IsTree nodes ↔ ∃ ds, WellFormed ds ∧ ds.map Definition.toNode = nodes := by
  constructor
  · rintro ⟨heach, hpairs⟩
    obtain ⟨ds, hds, rfl⟩ := exists_map fun n hn => (heach n hn).exists_definition
    exact ⟨ds, ⟨hds, (pairwise_toNode_iff ds).1 hpairs⟩, rfl⟩
  · rintro ⟨ds, ⟨heach, hpairs⟩, rfl⟩
    obtain ⟨hshape, hdistinct⟩ :=
      shape_map_toNode (fun d hd => Definition.isSound_of_isWellFormed (heach d hd)) hpairs
    exact ⟨fun n hn => (hshape n hn).isDefinitionTree, hdistinct⟩

end IdlBind.WebIdl
