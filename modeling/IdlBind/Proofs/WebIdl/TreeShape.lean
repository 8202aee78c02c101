import IdlBind.Proofs.WebIdl.Merging
import IdlBind.Proofs.WebIdl.Printer
import Mathlib.Data.List.Sublists

set_option autoImplicit false

/-! # The shape of trees

Which children a node of each kind has, and in which order. The shape leaves open which texts are
names. The trees of all documents of sources have it with the identifiers for names
(`toNodes_ofSources_shape`), whether or not all sources can be parsed. -/

namespace IdlBind.WebIdl

/-! ## The shape -/

section

variable (valid : String → Bool)

/-- A type: its base, the modifiers that are set, a name if the base is defined by the user, and the
    types inside it. Only types defined by the user and sequences have types inside, and a sequence
    has at least one. -/
inductive TypeShape : Node → Prop
  | intro (base : BaseType) (modifiers : List TypeModifier) (name? : Option String)
      (elements : List Node) (hmodifiers : modifiers.Sublist TypeModifier.all)
      (hname : name?.isSome = true ↔ base = .user) (hvalid : ∀ name ∈ name?, valid name = true)
      (hsequence : base = .sequence → elements ≠ [])
      (hother : elements ≠ [] → base = .sequence ∨ base = .user)
      (helements : ∀ e ∈ elements, TypeShape e) :
      TypeShape (.list .type (.int .typeBase base.code ::
        modifiers.map (fun m => .int .typeModifier m.code) ++
        name?.toList.map (fun name => .text .ident name) ++ elements))

/-- An argument: a type and an identifier. -/
inductive ArgumentShape : Node → Prop
  | intro (kind : ArgumentKind) (type : Node) (name : String) (htype : TypeShape valid type)
      (hname : valid name = true) :
      ArgumentShape (.list kind.nodeKind [type, .text .ident name])

/-- A member of a definition of a kind: an attribute, or in an interface an operation or the bare
    stringifier. Only in an interface have members modifiers. -/
inductive MemberShape : DefinitionKind → Node → Prop
  | attribute (kind : DefinitionKind) (modifiers : List Modifier) (type : Node) (name : String)
      (hmodifiers : kind = .dictionary → modifiers = []) (htype : TypeShape valid type)
      (hname : valid name = true) :
      MemberShape kind (.list .attribute
        (modifiers.map (fun m => .int .modifier m.code) ++ [type, .text .ident name]))
  | operation (modifiers : List Modifier) (type : Node) (name? : Option String)
      (arguments : List Node) (htype : TypeShape valid type)
      (hname : ∀ name ∈ name?, valid name = true)
      (harguments : ∀ a ∈ arguments, ArgumentShape valid a) :
      MemberShape .interface (.list .operation
        (modifiers.map (fun m => .int .modifier m.code) ++ [type] ++
          name?.toList.map (fun name => .text .ident name) ++ [.list .argumentList arguments]))
  | stringifier :
      MemberShape .interface (.list .operation [.int .modifier Modifier.stringifier.code])

/-- A definition: an identifier, at most one parent, and at least one block of members. -/
inductive DefinitionShape : Node → Prop
  | intro (kind : DefinitionKind) (name : String) (parent? : Option String)
      (blocks : List (List Node)) (hname : valid name = true)
      (hparent : ∀ parent ∈ parent?, valid parent = true) (hblocks : blocks ≠ [])
      (hmember : ∀ block ∈ blocks, ∀ m ∈ block, MemberShape valid kind m) :
      DefinitionShape (.list kind.nodeKind
        (.text .ident name ::
          (parent?.toList.map fun parent => .text .interfaceInheritance parent) ++
          blocks.map fun block => .list .interfaceMembers block))

/-- Definitions of different kinds or identifiers. -/
structure DocumentShape (nodes : List Node) : Prop where
  each : ∀ n ∈ nodes, DefinitionShape valid n
  distinct : nodes.Pairwise fun a b =>
    ¬(a.kind = b.kind ∧ a.childText? .ident = b.childText? .ident)

end

/-! ## Trees of types -/

variable {valid : String → Bool}

theorem TypeExpr.listToNodes_eq_map (ts : List TypeExpr) : listToNodes ts = ts.map toNode := by
  induction ts with
  | nil => rfl
  | cons t ts ih => rw [listToNodes, ih, List.map_cons]

theorem TypeFlags.sublist_modifiers (flags : TypeFlags) :
    flags.modifiers.Sublist TypeModifier.all := by
  obtain ⟨unsigned, unrestricted, nullable⟩ := flags
  revert unsigned unrestricted nullable
  decide

/-- The names in types are those in each of them. -/
theorem TypeExpr.forall_mem_listNames {ts : List TypeExpr} {p : String → Prop} :
    (∀ name ∈ listNames ts, p name) ↔ ∀ t ∈ ts, ∀ name ∈ t.names, p name := by
  induction ts with
  | nil => simp [listNames]
  | cons t ts ih => rw [listNames, List.forall_mem_append, List.forall_mem_cons, ih]

theorem TypeExpr.shape_toNode {t : TypeExpr} (ht : ∀ name ∈ t.names, valid name = true) :
    TypeShape valid t.toNode := by
  have hlist : ∀ {ts : List TypeExpr}, (∀ t ∈ ts, TypeShape valid t.toNode) →
      ∀ e ∈ listToNodes ts, TypeShape valid e := by
    intro ts hts e he
    rw [listToNodes_eq_map] at he
    obtain ⟨t, hmem, rfl⟩ := List.mem_map.1 he
    exact hts t hmem
  induction t using TypeExpr.induction with
  | basic base flags =>
    have hbase : base.base ≠ .user ∧ base.base ≠ .sequence := by cases base <;> decide
    have hintro : TypeShape valid _ := .intro base.base flags.modifiers none []
      flags.sublist_modifiers (by simp [hbase.1]) (by simp) (fun h => absurd h hbase.2) (by simp)
      (by simp)
    simpa [toNode, TypeFlags.toNodes] using hintro
  | sequence first others flags ih =>
    have hnames : ∀ t ∈ first :: others, ∀ name ∈ t.names, valid name = true :=
      forall_mem_listNames.1 ht
    have hintro := TypeShape.intro .sequence flags.modifiers none _ flags.sublist_modifiers
      (by simp) (by simp) (by simp [listToNodes]) (fun _ => .inl rfl)
      (hlist fun t hmem => ih t hmem (hnames t hmem))
    simpa [toNode, listToNodes, TypeFlags.toNodes] using hintro
  | named name parameters flags ih =>
    obtain ⟨hname, hparameters⟩ := List.forall_mem_cons.1 ht
    have hnames := forall_mem_listNames.1 hparameters
    have hintro := TypeShape.intro .user flags.modifiers (some name) _ flags.sublist_modifiers
      (by simp) (by simpa using hname) (by simp) (fun _ => .inr rfl)
      (hlist fun t hmem => ih t hmem (hnames t hmem))
    simpa [toNode, TypeFlags.toNodes] using hintro

/-! ## Trees of definitions -/

theorem Argument.shape_toNode {a : Argument} (ha : ∀ name ∈ a.names, valid name = true) :
    ArgumentShape valid a.toNode := by
  obtain ⟨htype, hname⟩ := List.forall_mem_append.1 ha
  exact .intro a.kind _ a.name (TypeExpr.shape_toNode htype) (hname a.name List.mem_cons_self)

theorem Member.IsSound.shape_toNode {kind : DefinitionKind} {m : Member}
    (hm : m.IsSound valid kind) : MemberShape valid kind m.toNode := by
  obtain ⟨hnames, hplain⟩ := hm
  rcases m with ⟨modifiers, type, name⟩ | ⟨modifiers, type, name?, arguments⟩ | _
  · obtain ⟨htype, hname⟩ := List.forall_mem_append.1 hnames
    refine .attribute kind modifiers _ name (fun hkind => ?_) (TypeExpr.shape_toNode htype)
      (hname name List.mem_cons_self)
    exact List.isEmpty_iff.1 (hplain hkind)
  · -- an operation is not plain, so that it stands in an interface
    cases kind with
    | dictionary => exact absurd (hplain rfl) (by simp [isPlain])
    | interface =>
      obtain ⟨hfront, harguments⟩ := List.forall_mem_append.1 hnames
      obtain ⟨htype, hname⟩ := List.forall_mem_append.1 hfront
      refine .operation modifiers _ name? _ (TypeExpr.shape_toNode htype) ?_ ?_
      · intro name hmem
        exact hname name (Option.mem_toList.2 hmem)
      · intro n hn
        obtain ⟨a, ha, rfl⟩ := List.mem_map.1 hn
        exact Argument.shape_toNode fun name hmem =>
          harguments name (List.mem_flatMap.2 ⟨a, ha, hmem⟩)
  · cases kind with
    | dictionary => exact absurd (hplain rfl) (by simp [isPlain])
    | interface => exact .stringifier

theorem Definition.IsSound.shape_toNode {d : Definition} (hd : d.IsSound valid) :
    DefinitionShape valid d.toNode := by
  have hmember : ∀ nodes ∈ d.blocks.map (·.map Member.toNode), ∀ n ∈ nodes,
      MemberShape valid d.kind n := by
    intro nodes hnodes n hn
    obtain ⟨block, hblock, rfl⟩ := List.mem_map.1 hnodes
    obtain ⟨m, hm, rfl⟩ := List.mem_map.1 hn
    exact (hd.member block hblock m hm).shape_toNode
  have hparent : ∀ parent ∈ d.parent?, valid parent = true :=
    fun parent hmem => hd.parent parent (Option.mem_toList.2 hmem)
  have hintro := DefinitionShape.intro d.kind d.name d.parent? _ hd.name hparent
    (by simpa using hd.blocks) hmember
  rw [List.map_map] at hintro
  exact hintro

theorem DefinitionKind.nodeKind_inj {a b : DefinitionKind} :
    a.nodeKind = b.nodeKind ↔ a = b := by
  cases a <;> cases b <;> decide

theorem Definition.childText?_ident_toNode (d : Definition) :
    d.toNode.childText? .ident = some d.name := by
  simp [toNode, Node.childText?, Node.child?, Node.kind, Node.text?]

theorem Definition.toNode_key_iff (a b : Definition) :
    (a.toNode.kind = b.toNode.kind ∧ a.toNode.childText? .ident = b.toNode.childText? .ident) ↔
      a.kind = b.kind ∧ a.name = b.name := by
  rw [childText?_ident_toNode, childText?_ident_toNode, Option.some_inj]
  exact and_congr_left' DefinitionKind.nodeKind_inj

/-- The tree of a definition is named by the key of the definition. -/
theorem Definition.isNamed_toNode (d : Definition) (kind : DefinitionKind) (name : String) :
    Node.isNamed kind.nodeKind name d.toNode = decide (d.key = (kind, name)) := by
  have hkind : d.toNode.kind = d.kind.nodeKind := rfl
  rw [Node.isNamed, childText?_ident_toNode, hkind]
  simp [key, DefinitionKind.nodeKind_inj]

/-- In the trees of a document, a definition is found by its key. -/
theorem Document.find?_isNamed_toNodes (doc : Document) (kind : DefinitionKind) (name : String) :
    doc.toNodes.find? (Node.isNamed kind.nodeKind name)
      = (doc.lookup? (kind, name)).map Definition.toNode := by
  have hnamed : Node.isNamed kind.nodeKind name ∘ Definition.toNode
      = fun d => decide (d.key = (kind, name)) :=
    funext fun d => d.isNamed_toNode kind name
  rw [toNodes, List.find?_map, hnamed]
  rfl

/-- Trees are distinct where the definitions are. -/
theorem pairwise_toNode_iff (ds : List Definition) :
    ((ds.map Definition.toNode).Pairwise fun a b =>
      ¬(a.kind = b.kind ∧ a.childText? .ident = b.childText? .ident)) ↔
    ds.Pairwise fun a b => ¬(a.kind = b.kind ∧ a.name = b.name) := by
  rw [List.pairwise_map]
  simp only [Definition.toNode_key_iff]

theorem shape_map_toNode {ds : List Definition} (hds : ∀ d ∈ ds, d.IsSound valid)
    (hdistinct : ds.Pairwise fun a b => ¬(a.kind = b.kind ∧ a.name = b.name)) :
    DocumentShape valid (ds.map Definition.toNode) := by
  refine ⟨fun n hn => ?_, (pairwise_toNode_iff ds).2 hdistinct⟩
  obtain ⟨d, hd, rfl⟩ := List.mem_map.1 hn
  exact (hds d hd).shape_toNode

/-! ## Documents of sources -/

/-- The entries of a document differ in kind or name. -/
theorem pairwise_of_nodup_keys {doc : Document} (h : doc.keys.Nodup) :
    doc.definitions.Pairwise fun a b => ¬(a.kind = b.kind ∧ a.name = b.name) := by
  have hkeys : doc.definitions.Pairwise fun a b => a.key ≠ b.key := List.pairwise_map.1 h
  refine hkeys.imp fun {a b} hne hsame => hne ?_
  exact Prod.ext hsame.1 hsame.2

/-- However many sources are added to a document, and whether or not they can be parsed, its trees
    have the shape of definitions, with identifiers for names. -/
theorem toNodes_ofSources_shape (sources : List String) :
    DocumentShape isIdentifier (Document.ofSources sources).toNodes := by
  refine shape_map_toNode (isSound_of_mem_ofSources sources) (pairwise_of_nodup_keys ?_)
  rw [ofSources_eq_insertAll]
  exact nodup_keys_insertAll (by simp) _

end IdlBind.WebIdl
