import IdlBind.Proofs.Parsing.Results
import IdlBind.Proofs.WebIdl.Sources

set_option autoImplicit false

/-! # What is read from a source

Every definition that is read has one block. All names in it, at any depth of its types, are
identifiers, and the members of a dictionary are attributes without modifiers
(`isPart_of_mem_readSource`). This holds of the definitions in front of an error as well. -/

namespace IdlBind.WebIdl

open TokenParser

/-! ## Names -/

mutual

/-- The names in a type. -/
def TypeExpr.names : TypeExpr → List String
  | .basic _ _ => []
  | .sequence first others _ => first.names ++ TypeExpr.listNames others
  | .named name parameters _ => name :: TypeExpr.listNames parameters

/-- The names in types. -/
def TypeExpr.listNames : List TypeExpr → List String
  | [] => []
  | t :: ts => t.names ++ TypeExpr.listNames ts

end

/-- The names in an argument. -/
def Argument.names (a : Argument) : List String := a.type.names ++ [a.name]

/-- The names in a member. -/
def Member.names : Member → List String
  | .attribute _ type name => type.names ++ [name]
  | .operation _ type name? arguments =>
    type.names ++ name?.toList ++ arguments.flatMap Argument.names
  | .stringifier => []

theorem TypeExpr.listNames_eq_flatMap (ts : List TypeExpr) :
    listNames ts = ts.flatMap names := by
  induction ts with
  | nil => rfl
  | cons t ts ih => rw [listNames, ih, List.flatMap_cons]

/-! ## What holds of what is read -/

/-- Are all names identifiers? -/
def AreIdentifiers (names : List String) : Prop := ∀ name ∈ names, isIdentifier name = true

theorem areIdentifiers_nil : AreIdentifiers [] := by simp [AreIdentifiers]

theorem areIdentifiers_singleton {name : String} (h : isIdentifier name = true) :
    AreIdentifiers [name] := List.forall_mem_singleton.2 h

theorem areIdentifiers_append {a b : List String} :
    AreIdentifiers (a ++ b) ↔ AreIdentifiers a ∧ AreIdentifiers b := List.forall_mem_append

theorem areIdentifiers_flatMap {α : Type} {names : α → List String} {list : List α} :
    AreIdentifiers (list.flatMap names) ↔ ∀ a ∈ list, AreIdentifiers (names a) := by
  constructor
  · intro h a ha name hname
    exact h name (List.mem_flatMap.2 ⟨a, ha, hname⟩)
  · intro h name hname
    obtain ⟨a, ha, hmem⟩ := List.mem_flatMap.1 hname
    exact h a ha name hmem

/-- Is the member an attribute without modifiers? -/
def Member.isPlain : Member → Bool
  | .attribute modifiers _ _ => modifiers.isEmpty
  | _ => false

/-- Is this a member of a definition of a kind, all of whose names are valid? -/
structure Member.IsSound (valid : String → Bool) (kind : DefinitionKind) (m : Member) : Prop where
  names : ∀ name ∈ m.names, valid name = true
  plain : kind = .dictionary → m.isPlain = true

/-- Is this a definition of at least one block, all of whose names are valid? -/
structure Definition.IsSound (valid : String → Bool) (d : Definition) : Prop where
  name : valid d.name = true
  parent : ∀ parent ∈ d.parent?.toList, valid parent = true
  blocks : d.blocks ≠ []
  member : ∀ block ∈ d.blocks, ∀ m ∈ block, m.IsSound valid d.kind

/-- What holds of a member that is read in a definition of a kind. -/
abbrev Member.IsLexical (kind : DefinitionKind) (m : Member) : Prop := m.IsSound isIdentifier kind

/-! ## Skipped parts -/

theorem skipAttributes_keeps : KeepsLexical skipAttributes := by
  have hgroup : KeepsLexical attributeGroup := by
    refine (look_keeps _).bind fun isGroup _ => ?_
    refine Yields.ite (fun _ => ?_) fun _ => Yields.pure trivial
    exact (skipGroup_keeps '[' ']').bind fun _ _ => Yields.pure trivial
  exact (Yields.many_keeps hgroup).bind fun _ _ => Yields.pure trivial

theorem skipDefault_keeps : KeepsLexical skipDefault := by
  refine (look_keeps _).bind fun isList _ => ?_
  refine Yields.ite (fun _ => skipGroup_keeps '[' ']') fun _ => ?_
  refine (look_keeps _).bind fun isRecord _ => ?_
  refine Yields.ite (fun _ => skipGroup_keeps '{' '}') fun _ => ?_
  refine (acceptPunct_keeps '-').bind fun isMinus _ => ?_
  refine Yields.ite (fun _ => expectIdent_yields.bind fun _ _ => Yields.pure trivial) fun _ => ?_
  refine (look_keeps _).bind fun ended _ => ?_
  exact Yields.ite (fun _ => unexpected_yields _ _) fun _ => skip_keeps

theorem optionalDefault_keeps : KeepsLexical optionalDefault := by
  refine (acceptPunct_keeps '=').bind fun isEquals _ => ?_
  exact Yields.ite (fun _ => skipDefault_keeps) fun _ => Yields.pure trivial

/-! ## Types -/

theorem typeSuffix_keeps : KeepsLexical typeSuffix := by
  have hbrackets : KeepsLexical emptyBrackets := by
    refine (look_keeps _).bind fun isOpening _ => (look_keeps _).bind fun isClosing _ => ?_
    refine Yields.ite (fun _ => ?_) fun _ => Yields.pure trivial
    exact skip_keeps.bind fun _ _ => skip_keeps.bind fun _ _ => Yields.pure trivial
  refine (acceptPunct_keeps '?').bind fun nullable _ => ?_
  exact (Yields.many_keeps hbrackets).bind fun _ _ => Yields.pure trivial

/-- The type that a parser gives has identifiers for names. -/
abbrev YieldsType (p : TokenParser TypeExpr) : Prop := Yields p fun t => AreIdentifiers t.names

theorem typeParameters_yields {p : TokenParser TypeExpr} (h : YieldsType p) :
    Yields (typeParameters p) fun types =>
      AreIdentifiers (TypeExpr.listNames (types.1 :: types.2)) := by
  refine (expectPunct_keeps '<').bind fun _ _ => (separated_yields h).bind fun types htypes => ?_
  refine (expectPunct_keeps '>').bind fun _ _ => Yields.pure ?_
  rw [TypeExpr.listNames_eq_flatMap, areIdentifiers_flatMap]
  exact List.forall_mem_cons.2 htypes

theorem typeBehind_yields {p : TokenParser TypeExpr} (h : YieldsType p)
    (unsigned unrestricted : Bool) {name : String} (hname : isIdentifier name = true) :
    YieldsType (typeBehind p unsigned unrestricted name) := by
  have hsuffix : ∀ {f : Bool → TypeExpr}, (∀ nullable, AreIdentifiers (f nullable).names) →
      YieldsType (typeSuffix >>= fun nullable => pure (f nullable)) :=
    fun hf => typeSuffix_keeps.bind fun nullable _ => Yields.pure (hf nullable)
  unfold typeBehind
  cases BasicType.ofName? name with
  | some base =>
    have hlong : KeepsLexical (acceptLong base) := by
      refine Yields.ite (fun _ => ?_) fun _ => Yields.pure trivial
      refine (acceptIdent_keeps "long").bind fun isLong _ => ?_
      exact Yields.ite (fun _ => Yields.pure trivial) fun _ => Yields.pure trivial
    exact hlong.bind fun base _ => hsuffix fun _ => areIdentifiers_nil
  | none =>
    have hparameters : Yields (optionalParameters p) fun types =>
        AreIdentifiers (TypeExpr.listNames types) := by
      refine (look_keeps _).bind fun isOpening _ => ?_
      refine Yields.ite (fun _ => ?_) fun _ => Yields.pure areIdentifiers_nil
      exact (typeParameters_yields h).bind fun _ htypes => Yields.pure htypes
    refine Yields.ite (fun _ => ?_) fun _ => ?_
    · exact (typeParameters_yields h).bind fun types htypes => hsuffix fun _ => htypes
    · exact hparameters.bind fun parameters hparameters => hsuffix fun _ =>
        List.forall_mem_cons.2 ⟨hname, hparameters⟩

theorem typeExpr_yields : YieldsType typeExpr := by
  refine Yields.recursive fun h => skipAttributes_keeps.bind fun _ _ => ?_
  refine (look_keeps _).bind fun isUnion _ => Yields.ite (fun _ => ?_) fun _ => ?_
  · refine (skipGroup_keeps '(' ')').bind fun _ _ => ?_
    exact typeSuffix_keeps.bind fun nullable _ => Yields.pure areIdentifiers_nil
  refine (acceptIdent_keeps "unsigned").bind fun unsigned _ => ?_
  refine (acceptIdent_keeps "unrestricted").bind fun unrestricted _ => ?_
  exact expectIdent_yields.bind fun name hname => typeBehind_yields h unsigned unrestricted hname

/-! ## Members -/

theorem acceptEllipsis_keeps : KeepsLexical acceptEllipsis := by
  refine Yields.of_mem fun {ts a rest} h t ht => ?_
  unfold acceptEllipsis at h
  split at h <;> obtain ⟨-, rfl⟩ := Prod.mk.inj (Except.ok.inj h)
  · exact List.mem_cons_of_mem _ ht
  · exact ht

theorem argument_yields : Yields argument fun a => AreIdentifiers a.names := by
  refine skipAttributes_keeps.bind fun _ _ => ?_
  refine (acceptIdent_keeps "optional").bind fun isOptional _ => ?_
  refine typeExpr_yields.bind fun type htype => acceptEllipsis_keeps.bind fun isVariadic _ => ?_
  exact expectIdent_yields.bind fun name hname => optionalDefault_keeps.bind fun _ _ =>
    Yields.pure (areIdentifiers_append.2 ⟨htype, areIdentifiers_singleton hname⟩)

theorem arguments_yields :
    Yields arguments fun list => AreIdentifiers (list.flatMap Argument.names) := by
  have hlist : Yields argumentList fun list => AreIdentifiers (list.flatMap Argument.names) := by
    refine (look_keeps _).bind fun isEmpty _ => ?_
    refine Yields.ite (fun _ => Yields.pure areIdentifiers_nil) fun _ => ?_
    exact (separated_yields argument_yields).bind fun _ hlist =>
      Yields.pure (areIdentifiers_flatMap.2 (List.forall_mem_cons.2 hlist))
  exact (expectPunct_keeps '(').bind fun _ _ => hlist.bind fun list hlist =>
    (expectPunct_keeps ')').bind fun _ _ => Yields.pure hlist

theorem acceptModifier_keeps : KeepsLexical acceptModifier := by
  refine Yields.of_mem fun {ts a rest} h t ht => ?_
  unfold acceptModifier at h
  split at h
  · split at h <;> obtain ⟨-, rfl⟩ := Prod.mk.inj (Except.ok.inj h)
    · exact List.mem_cons_of_mem _ ht
    · exact ht
  · obtain ⟨-, rfl⟩ := Prod.mk.inj (Except.ok.inj h)
    exact ht

theorem acceptName_yields : Yields acceptName fun name? => AreIdentifiers name?.toList := by
  refine ⟨fun {ts name? rest} hts h => ?_⟩
  unfold acceptName at h
  split at h <;> obtain ⟨rfl, rfl⟩ := Prod.mk.inj (Except.ok.inj h)
  · obtain ⟨hname, hrest⟩ := List.forall_mem_cons.1 hts
    exact ⟨areIdentifiers_singleton (hname _ rfl), hrest⟩
  · exact ⟨areIdentifiers_nil, hts⟩

theorem attributeBody_yields (modifiers : List Modifier) :
    Yields (attributeBody modifiers) (Member.IsLexical .interface) := by
  refine typeExpr_yields.bind fun type htype => expectIdent_yields.bind fun name hname => ?_
  refine (expectPunct_keeps ';').bind fun _ _ => Yields.pure ⟨?_, by simp⟩
  exact areIdentifiers_append.2 ⟨htype, areIdentifiers_singleton hname⟩

theorem operationBody_yields (modifiers : List Modifier) :
    Yields (operationBody modifiers) (Member.IsLexical .interface) := by
  refine typeExpr_yields.bind fun type htype => acceptName_yields.bind fun name? hname => ?_
  refine arguments_yields.bind fun list hlist => ?_
  refine (expectPunct_keeps ';').bind fun _ _ => Yields.pure ⟨?_, by simp⟩
  exact areIdentifiers_append.2 ⟨areIdentifiers_append.2 ⟨htype, hname⟩, hlist⟩

theorem interfaceMember_yields :
    Yields interfaceMember fun m? => ∀ m ∈ m?, Member.IsLexical .interface m := by
  have hskip : Yields (skipStatement >>= fun _ => pure none)
      fun m? => ∀ m ∈ m?, Member.IsLexical .interface m :=
    skipStatement_keeps.bind fun _ _ => Yields.pure (by simp)
  have hsome : ∀ {p : TokenParser Member}, Yields p (Member.IsLexical .interface) →
      Yields (some <$> p) fun m? => ∀ m ∈ m?, Member.IsLexical .interface m :=
    fun h => h.map fun m hm n hn => Option.some.inj hn ▸ hm
  refine (look_keeps _).bind fun isSkipped _ => Yields.ite (fun _ => hskip) fun _ => ?_
  refine (look_keeps _).bind fun isStringifier _ => (look_keeps _).bind fun isBare _ => ?_
  refine Yields.ite (fun _ => ?_) fun _ => ?_
  · exact skip_keeps.bind fun _ _ => skip_keeps.bind fun _ _ =>
      Yields.pure fun m hm => Option.some.inj hm ▸ ⟨areIdentifiers_nil, by simp⟩
  refine (Yields.many_keeps acceptModifier_keeps).bind fun modifiers _ => ?_
  refine (look_keeps _).bind fun isSkipped _ => Yields.ite (fun _ => hskip) fun _ => ?_
  refine (acceptIdent_keeps "attribute").bind fun isAttribute _ => ?_
  exact Yields.ite (fun _ => hsome (attributeBody_yields modifiers)) fun _ =>
    hsome (operationBody_yields modifiers)

theorem member_yields (kind : DefinitionKind) :
    Yields (member kind) fun m? => ∀ m ∈ m?, Member.IsLexical kind m := by
  cases kind with
  | interface => exact interfaceMember_yields
  | dictionary =>
    refine (acceptIdent_keeps "required").bind fun isRequired _ => ?_
    refine typeExpr_yields.bind fun type htype => expectIdent_yields.bind fun name hname => ?_
    refine optionalDefault_keeps.bind fun _ _ => (expectPunct_keeps ';').bind fun _ _ => ?_
    have hsound : Member.IsLexical .dictionary (.attribute [] type name) :=
      ⟨areIdentifiers_append.2 ⟨htype, areIdentifiers_singleton hname⟩, fun _ => rfl⟩
    exact Yields.pure fun m hm => Option.some.inj hm ▸ hsound

theorem memberBlock_yields (kind : DefinitionKind) :
    Yields (memberBlock kind) fun block => ∀ m ∈ block, m.IsLexical kind := by
  have hitem : Yields (blockItem kind) fun item => ∀ m? ∈ item, ∀ m ∈ m?, m.IsLexical kind := by
    refine skipAttributes_keeps.bind fun _ _ => (acceptPunct_keeps '}').bind fun isEnd _ => ?_
    refine Yields.ite (fun _ => Yields.pure (by simp)) fun _ => ?_
    refine (look_keeps _).bind fun ended _ => ?_
    refine Yields.ite (fun _ => unexpected_yields _ _) fun _ => ?_
    exact (member_yields kind).bind fun m? hm => Yields.pure fun n? hn =>
      Option.some.inj hn ▸ hm
  refine (expectPunct_keeps '{').bind fun _ _ => hitem.many.bind fun members hmembers => ?_
  refine (expectPunct_keeps ';').bind fun _ _ => Yields.pure fun m hm => ?_
  obtain ⟨m?, hm?, hsome⟩ := List.mem_filterMap.1 hm
  exact hmembers m? hm? m hsome

/-! ## Definitions -/

/-- What holds of a definition that is read, before it is merged with others. -/
structure Definition.IsPart (d : Definition) : Prop where
  sound : d.IsSound isIdentifier
  block : ∃ block, d.blocks = [block]

theorem definitionBody_yields (kind : DefinitionKind) (isPartial : Bool) :
    Yields (definitionBody kind isPartial) Definition.IsPart := by
  have hinheritance : Yields inheritance fun parent? => AreIdentifiers parent?.toList := by
    refine (acceptPunct_keeps ':').bind fun isColon _ => Yields.ite (fun _ => ?_) fun _ => ?_
    · exact expectIdent_yields.map fun _ hname => areIdentifiers_singleton hname
    · exact Yields.pure areIdentifiers_nil
  refine expectIdent_yields.bind fun name hname => hinheritance.bind fun parent? hparent => ?_
  refine (memberBlock_yields kind).bind fun block hblock => Yields.pure ⟨?_, block, rfl⟩
  exact ⟨hname, hparent, List.cons_ne_nil block [], List.forall_mem_singleton.2 hblock⟩

theorem declaration_yields : Yields declaration fun d? => ∀ d ∈ d?, Definition.IsPart d := by
  have hskip : Yields (skipStatement >>= fun _ => pure none)
      fun d? => ∀ d ∈ d?, Definition.IsPart d :=
    skipStatement_keeps.bind fun _ _ => Yields.pure (by simp)
  have hbody : ∀ (kind : DefinitionKind) (isPartial : Bool),
      Yields (some <$> definitionBody kind isPartial) fun d? => ∀ d ∈ d?, Definition.IsPart d :=
    fun kind isPartial => (definitionBody_yields kind isPartial).map fun d hd e he =>
      Option.some.inj he ▸ hd
  refine (acceptIdent_keeps "partial").bind fun isPartial _ => ?_
  refine (acceptIdent_keeps "callback").bind fun isCallback _ => ?_
  refine Yields.ite (fun _ => ?_) fun _ => ?_
  · refine (acceptIdent_keeps "interface").bind fun isInterface _ => ?_
    exact Yields.ite (fun _ => hbody .interface isPartial) fun _ => hskip
  refine (acceptIdent_keeps "interface").bind fun isInterface _ => ?_
  refine Yields.ite (fun _ => ?_) fun _ => ?_
  · exact (acceptIdent_keeps "mixin").bind fun isMixin _ => hbody .interface isPartial
  refine (acceptIdent_keeps "dictionary").bind fun isDictionary _ => ?_
  refine Yields.ite (fun _ => hbody .dictionary isPartial) fun _ => ?_
  refine (look_keeps _).bind fun isNamespace _ => ?_
  exact Yields.ite (fun _ => unexpected_yields _ _) fun _ => hskip

theorem statement_yields :
    Yields statement fun d?? => ∀ d? ∈ d??, ∀ d ∈ d?, Definition.IsPart d := by
  refine skipAttributes_keeps.bind fun _ _ => (look_keeps _).bind fun ended _ => ?_
  refine Yields.ite (fun _ => Yields.pure (by simp)) fun _ => ?_
  exact declaration_yields.map fun d? hd e? he => Option.some.inj he ▸ hd

/-- What holds of each definition that is read from a source, up to its first error. -/
theorem isPart_of_mem_readSource {source : String} :
    ∀ d ∈ (readSource source).1, Definition.IsPart d := by
  unfold readSource
  split
  · simp
  · rename_i stream hstream
    obtain ⟨hfound, -⟩ := statement_yields.collect (TokenStream.isLexical_of_mem_ahead hstream)
    intro d hd
    obtain ⟨d?, hd?, hsome⟩ := List.mem_filterMap.1 hd
    exact hfound d? hd? d hsome

end IdlBind.WebIdl
