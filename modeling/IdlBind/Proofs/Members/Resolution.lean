import IdlBind.Members
import IdlBind.Proofs.Members.Path

set_option autoImplicit false

/-! # What a name resolves to

The members that definitions declare, read off their trees (`declaredAttributes`,
`declaredOperations`), and `resolve` as their concatenation along the path of inheritance. The path
decides the outcome: members if it ends in a definition without a parent, an error that shows the
path if it comes back to a name, an error with the name if that means nothing
(`resolve_follows_path`). -/

namespace IdlBind

open WebIdl (DefinitionKind IsDefinition IsMember Modifier)

/-! ## Declared members -/

/-- The modifiers of a member, in order. Integers that are no code count for nothing. -/
def declaredModifiers (member : Node) : List Modifier :=
  ((Node.eachKind .modifier member.children).filterMap Node.int?).filterMap Modifier.ofCode?

/-- The attribute that a tree declares. -/
def declaredAttribute (owner : String) (member : Node) : ResolvedAttribute :=
  ⟨owner, (member.childText? .ident).getD "", (declaredModifiers member).contains .readOnly,
    member.child? .type⟩

/-- The operation that a tree declares. -/
def declaredOperation (owner : String) (member : Node) : ResolvedOperation :=
  ⟨owner, member.childText? .ident, declaredModifiers member,
    (((member.child? .argumentList).map Node.children).getD []).filterMap resolveArgument?⟩

/-- The member that a tree declares. -/
def declaredMember? (owner : String) (member : Node) : Option ResolvedMember :=
  match member.kind with
  | .attribute => some (.attribute (declaredAttribute owner member))
  | .operation => some (.operation (declaredOperation owner member))
  | _ => none

/-- The trees of the members that the definition with a name declares, block by block. -/
def memberTrees (definitions : List Node) (kind : DefinitionKind) (owner : String) :
    List (List Node) :=
  (meaning? definitions kind owner).toList.flatMap fun d =>
    (Node.eachKind .interfaceMembers d.children).map Node.children

/-- The attributes that the definition with a name declares: over its blocks in order, the
    attributes of each in order. -/
def declaredAttributes (definitions : List Node) (kind : DefinitionKind) (owner : String) :
    List ResolvedAttribute :=
  (memberTrees definitions kind owner).flatMap fun block =>
    (Node.eachKind .attribute block).map (declaredAttribute owner)

/-- The operations that the definition with a name declares: over its blocks in order, the
    operations of each in order. -/
def declaredOperations (definitions : List Node) (kind : DefinitionKind) (owner : String) :
    List ResolvedOperation :=
  (memberTrees definitions kind owner).flatMap fun block =>
    (Node.eachKind .operation block).map (declaredOperation owner)

/-- The blocks that the definition with a name declares. -/
def declaredBlocks (definitions : List Node) (kind : DefinitionKind) (owner : String) :
    List MemberBlock :=
  (memberTrees definitions kind owner).map fun block =>
    ⟨owner, block.filterMap (declaredMember? owner)⟩

/-- The members that the definitions with some names declare, one definition after the other. -/
def declaredMembers (definitions : List Node) (kind : DefinitionKind) (chain : List String) :
    Members :=
  ⟨kind, chain, chain.flatMap (declaredBlocks definitions kind)⟩

variable {definitions : List Node} {kind : DefinitionKind}

theorem filterMap_attribute?_declaredMember? (owner : String) (block : List Node) :
    (block.filterMap (declaredMember? owner)).filterMap ResolvedMember.attribute?
      = (Node.eachKind .attribute block).map (declaredAttribute owner) := by
  induction block with
  | nil => rfl
  | cons n rest ih =>
    cases hk : n.kind <;>
      simp_all [declaredMember?, Node.eachKind, List.filterMap_cons, ResolvedMember.attribute?]

theorem filterMap_operation?_declaredMember? (owner : String) (block : List Node) :
    (block.filterMap (declaredMember? owner)).filterMap ResolvedMember.operation?
      = (Node.eachKind .operation block).map (declaredOperation owner) := by
  induction block with
  | nil => rfl
  | cons n rest ih =>
    cases hk : n.kind <;>
      simp_all [declaredMember?, Node.eachKind, List.filterMap_cons, ResolvedMember.operation?]

theorem attributes_declaredMembers (chain : List String) :
    (declaredMembers definitions kind chain).attributes
      = chain.flatMap (declaredAttributes definitions kind) := by
  have howner (owner : String) : (declaredBlocks definitions kind owner).flatMap
      MemberBlock.attributes = declaredAttributes definitions kind owner := by
    simp only [declaredBlocks, declaredAttributes, List.flatMap_map, MemberBlock.attributes,
      filterMap_attribute?_declaredMember?]
  simp only [declaredMembers, Members.attributes, List.flatMap_assoc, howner]

theorem operations_declaredMembers (chain : List String) :
    (declaredMembers definitions kind chain).operations
      = chain.flatMap (declaredOperations definitions kind) := by
  have howner (owner : String) : (declaredBlocks definitions kind owner).flatMap
      MemberBlock.operations = declaredOperations definitions kind owner := by
    simp only [declaredBlocks, declaredOperations, List.flatMap_map, MemberBlock.operations,
      filterMap_operation?_declaredMember?]
  simp only [declaredMembers, Members.operations, List.flatMap_assoc, howner]

/-! ## Resolving one definition -/

theorem mapM_getInt {ns : List Node} (h : ∀ n ∈ ns, ∃ code, n = .int .modifier code) :
    ns.mapM Node.getInt = .ok (ns.filterMap Node.int?) := by
  induction ns with
  | nil => rfl
  | cons n rest ih =>
    obtain ⟨code, rfl⟩ := h n (List.mem_cons_self ..)
    have hrest := ih fun m hm => h m (List.mem_cons_of_mem _ hm)
    rw [List.mapM_cons, hrest]
    rfl

theorem resolveModifiers_eq {member : Node} (h : IsMember member) :
    resolveModifiers member = .ok (declaredModifiers member) := by
  obtain ⟨k, cs, rfl, hcs⟩ := h.exists_children
  have hcodes : ∀ n ∈ Node.eachKind .modifier cs, ∃ code, n = .int .modifier code := by
    intro n hn
    obtain ⟨hmem, hkind⟩ := List.mem_filter.1 hn
    exact hcs n hmem (of_decide_eq_true hkind)
  simp only [resolveModifiers, Node.getChildren, mapM_getInt hcodes, declaredModifiers,
    Node.children_list]

theorem resolveAttribute_eq {member : Node} (owner : String) (h : IsMember member)
    (hkind : member.kind = .attribute) :
    resolveAttribute owner member = .ok (declaredAttribute owner member) := by
  obtain ⟨name, hname⟩ := h.childText?_ident hkind
  simp only [resolveAttribute, hname, resolveModifiers_eq h, declaredAttribute]
  rfl

theorem resolveOperation_eq {member : Node} (owner : String) (h : IsMember member) :
    resolveOperation owner member = .ok (declaredOperation owner member) := by
  simp only [resolveOperation, resolveModifiers_eq h, declaredOperation]
  rfl

theorem resolveMembers_eq (owner : String) {block : List Node} (h : ∀ m ∈ block, IsMember m) :
    resolveMembers owner block = .ok (block.filterMap (declaredMember? owner)) := by
  induction block with
  | nil => rfl
  | cons n rest ih =>
    have hn := h n (List.mem_cons_self ..)
    have hrest := ih fun m hm => h m (List.mem_cons_of_mem _ hm)
    rcases hn.kind_eq with hkind | hkind
    · simp only [resolveMembers, hkind, resolveAttribute_eq owner hn hkind, hrest,
        List.filterMap_cons, declaredMember?]
      rfl
    · simp only [resolveMembers, hkind, resolveOperation_eq owner hn, hrest,
        List.filterMap_cons, declaredMember?]
      rfl

theorem resolveBlocks_eq (owner : String) {d : Node} (h : IsDefinition d) :
    resolveBlocks owner d = .ok ((Node.eachKind .interfaceMembers d.children).map fun block =>
      ⟨owner, block.children.filterMap (declaredMember? owner)⟩) := by
  have hmember := h.isMember_of_mem
  unfold resolveBlocks
  generalize Node.eachKind .interfaceMembers d.children = blocks at hmember
  induction blocks with
  | nil => rfl
  | cons block rest ih =>
    rw [List.mapM_cons, resolveMembers_eq owner (hmember block (List.mem_cons_self ..)),
      ih fun b hb => hmember b (List.mem_cons_of_mem _ hb)]
    rfl

/-! ## Resolving a path -/

theorem resolvePath_eq (shaped : ∀ d ∈ definitions, IsDefinition d) {path : List (String × Node)}
    (hpath : ∀ p ∈ path, meaning? definitions kind p.1 = some p.2) :
    resolvePath path = .ok ((path.map (·.1)).flatMap (declaredBlocks definitions kind)) := by
  induction path with
  | nil => rfl
  | cons p rest ih =>
    obtain ⟨name, d⟩ := p
    have hd := hpath _ (List.mem_cons_self ..)
    have hblocks := resolveBlocks_eq name (shaped d (List.mem_of_find?_eq_some hd))
    have hdeclared : declaredBlocks definitions kind name
        = (Node.eachKind .interfaceMembers d.children).map fun block =>
          ⟨name, block.children.filterMap (declaredMember? name)⟩ := by
      simp [declaredBlocks, memberTrees, hd]
    rw [resolvePath, hblocks, ih fun q hq => hpath q (List.mem_cons_of_mem _ hq), List.map_cons,
      List.flatMap_cons, hdeclared]
    rfl

theorem exists_of_bind_eq_ok {ε α β : Type} {x : Except ε α} {f : α → Except ε β} {b : β}
    (h : x >>= f = .ok b) : ∃ a, x = .ok a ∧ f a = .ok b := by
  cases x with
  | error e => exact absurd h (by simp [bind, Except.bind])
  | ok a => exact ⟨a, rfl, h⟩

/-- Members are those of a path that comes to an end. -/
theorem resolve_eq_ok_iff_ancestry {name : String} {m : Members} :
    resolve definitions name = .ok m ↔
      definitionKind? definitions name = some m.kind ∧
      (ancestry definitions m.kind name).ending = .ok () ∧
      (ancestry definitions m.kind name).path.map (·.1) = m.chain ∧
      resolvePath (ancestry definitions m.kind name).path = .ok m.blocks := by
  unfold resolve
  cases definitionKind? definitions name with
  | none => simp
  | some kind =>
    dsimp only
    constructor
    · intro hm
      obtain ⟨blocks, hblocks, hmore⟩ := exists_of_bind_eq_ok hm
      obtain ⟨⟨⟩, hends, hmembers⟩ := exists_of_bind_eq_ok hmore
      obtain rfl := Except.ok.inj hmembers
      exact ⟨rfl, hends, rfl, hblocks⟩
    · rintro ⟨hkind, hends, hchain, hblocks⟩
      obtain rfl := Option.some.inj hkind
      rw [hblocks, hends, hchain]
      rfl

/-- The kind of the definitions on the path from a name: interfaces if one has the name. -/
def pathKind (definitions : List Node) (name : String) : DefinitionKind :=
  if (meaning? definitions .interface name).isSome then .interface else .dictionary

/-- Resolving is the search for the path, then the concatenation along it. -/
theorem resolve_eq_ancestry (shaped : ∀ d ∈ definitions, IsDefinition d) (name : String) :
    resolve definitions name
      = (ancestry definitions (pathKind definitions name) name).ending.map fun _ =>
        declaredMembers definitions (pathKind definitions name)
          ((ancestry definitions (pathKind definitions name) name).path.map (·.1)) := by
  have hpath (kind : DefinitionKind) : resolvePath (ancestry definitions kind name).path
      = .ok (((ancestry definitions kind name).path.map (·.1)).flatMap
        (declaredBlocks definitions kind)) :=
    resolvePath_eq shaped fun p hp => meaning?_of_mem_path hp
  simp only [resolve, definitionKind?, pathKind, findDefinition?_eq_meaning?]
  cases hi : meaning? definitions .interface name with
  | some d =>
    simp only [Option.isSome_some, if_true, hpath]
    cases (ancestry definitions .interface name).ending <;> rfl
  | none =>
    cases hd : meaning? definitions .dictionary name with
    | some d =>
      simp only [Option.isSome_some, Option.isSome_none, if_true, hpath]
      cases (ancestry definitions .dictionary name).ending <;> rfl
    | none =>
      have hnone : ancestry definitions .dictionary name
          = ⟨[], .error (.interfaceNotFound name)⟩ := by
        rw [← findDefinition?_eq_meaning?] at hd
        unfold ancestry ancestryFrom
        split <;> simp_all
      simp [hnone, Except.map]

/-! ## The outcome is decided by the path -/

theorem resolve_of_ending (shaped : ∀ d ∈ definitions, IsDefinition d) {name last : String}
    {names chain : List String} {outcome : Except ResolveError Unit}
    (hpath : IsPath definitions (pathKind definitions name) name names last)
    (hending : Ending definitions (pathKind definitions name) names last chain outcome) :
    resolve definitions name
      = outcome.map fun _ => declaredMembers definitions (pathKind definitions name) chain := by
  obtain ⟨names', last', hpath', hending'⟩ := ancestry_isPath shaped name
  obtain ⟨rfl, rfl⟩ := hpath.unique hpath'
  obtain ⟨hchain, houtcome⟩ := hending'.unique hpath.walk hending
  rw [resolve_eq_ancestry shaped, hchain, houtcome]

/-- Resolving ends as the path from the name does. -/
theorem exists_ending (shaped : ∀ d ∈ definitions, IsDefinition d) (name : String) :
    ∃ names last chain outcome, IsPath definitions (pathKind definitions name) name names last ∧
      Ending definitions (pathKind definitions name) names last chain outcome ∧
      resolve definitions name
        = outcome.map fun _ => declaredMembers definitions (pathKind definitions name) chain := by
  obtain ⟨names, last, hpath, hending⟩ := ancestry_isPath shaped name
  exact ⟨names, last, _, _, hpath, hending, resolve_of_ending shaped hpath hending⟩

/-- Members come from a path that ends in a definition without a parent. -/
theorem resolve_eq_ok_iff (shaped : ∀ d ∈ definitions, IsDefinition d) (name : String)
    (m : Members) :
    resolve definitions name = .ok m ↔
      ∃ names last, Walk definitions (pathKind definitions name) name names last ∧
        (names ++ [last]).Nodup ∧ IsRoot definitions (pathKind definitions name) last ∧
        m = declaredMembers definitions (pathKind definitions name) (names ++ [last]) := by
  constructor
  · intro hm
    obtain ⟨names, last, chain, outcome, hpath, hending, hresolve⟩ := exists_ending shaped name
    rw [hm] at hresolve
    cases hending with
    | root hroot hnew =>
      have hnodup := hpath.nodup.append (List.nodup_singleton last)
        (List.disjoint_singleton.2 hnew)
      exact ⟨names, last, hpath.walk, hnodup, hroot, Except.ok.inj hresolve⟩
    | undefined => exact absurd hresolve (by simp [Except.map])
    | repeated => exact absurd hresolve (by simp [Except.map])
  · rintro ⟨names, last, hwalk, hnodup, hroot, rfl⟩
    obtain ⟨hnames, -, hnew⟩ := List.nodup_append.1 hnodup
    have hpath : IsPath definitions (pathKind definitions name) name names last :=
      ⟨hwalk, hnames, Or.inr hroot.not_extends⟩
    exact resolve_of_ending shaped hpath
      (.root hroot fun hmem => hnew last hmem last (List.mem_singleton_self last) rfl)

/-- A cycle is reported if the path comes back to a name. -/
theorem resolve_eq_cyclicInheritance_iff (shaped : ∀ d ∈ definitions, IsDefinition d)
    (name : String) (chain : List String) :
    resolve definitions name = .error (.cyclicInheritance chain) ↔
      ∃ names again, Walk definitions (pathKind definitions name) name names again ∧
        names.Nodup ∧ again ∈ names ∧ chain = names ++ [again] := by
  constructor
  · intro he
    obtain ⟨names, last, found, outcome, hpath, hending, hresolve⟩ := exists_ending shaped name
    rw [he] at hresolve
    cases hending with
    | root => exact absurd hresolve (by simp [Except.map])
    | undefined => exact absurd hresolve (by simp [Except.map])
    | repeated hmem =>
      obtain hchain := ResolveError.cyclicInheritance.inj (Except.error.inj hresolve)
      exact ⟨names, last, hpath.walk, hpath.nodup, hmem, hchain⟩
  · rintro ⟨names, again, hwalk, hnodup, hmem, rfl⟩
    have hpath : IsPath definitions (pathKind definitions name) name names again :=
      ⟨hwalk, hnodup, Or.inl hmem⟩
    exact resolve_of_ending shaped hpath (.repeated hmem)

/-- A name is reported if the path leads to it and it means nothing. -/
theorem resolve_eq_interfaceNotFound_iff (shaped : ∀ d ∈ definitions, IsDefinition d)
    (name missing : String) :
    resolve definitions name = .error (.interfaceNotFound missing) ↔
      ∃ names, Walk definitions (pathKind definitions name) name names missing ∧
        names.Nodup ∧ meaning? definitions (pathKind definitions name) missing = none := by
  constructor
  · intro he
    obtain ⟨names, last, found, outcome, hpath, hending, hresolve⟩ := exists_ending shaped name
    rw [he] at hresolve
    cases hending with
    | root => exact absurd hresolve (by simp [Except.map])
    | undefined hnone =>
      obtain rfl := ResolveError.interfaceNotFound.inj (Except.error.inj hresolve)
      exact ⟨names, hpath.walk, hpath.nodup, hnone⟩
    | repeated => exact absurd hresolve (by simp [Except.map])
  · rintro ⟨names, hwalk, hnodup, hnone⟩
    have hending : Ending definitions (pathKind definitions name) names missing names
        (.error (.interfaceNotFound missing)) := .undefined hnone
    exact resolve_of_ending shaped ⟨hwalk, hnodup, hending.ends⟩ hending

/-- No other error is reported. -/
theorem error_of_resolve (shaped : ∀ d ∈ definitions, IsDefinition d) {name : String}
    {e : ResolveError} (he : resolve definitions name = .error e) :
    (∃ chain, e = .cyclicInheritance chain) ∨ ∃ missing, e = .interfaceNotFound missing := by
  obtain ⟨names, last, chain, outcome, -, hending, hresolve⟩ := exists_ending shaped name
  rw [he] at hresolve
  cases hending with
  | root => exact absurd hresolve (by simp [Except.map])
  | undefined => exact Or.inr ⟨_, Except.error.inj hresolve⟩
  | repeated => exact Or.inl ⟨_, Except.error.inj hresolve⟩

/-- Resolving a name collects what is declared along its path of inheritance, over interfaces if one
    has the name and over dictionaries otherwise. It gives members if the path ends in a definition
    without a parent before a name repeats; these are the attributes and the operations of all
    definitions on the path, most derived first and block by block, each with the name of its
    definition. It reports the distinct names and the first repeated one if the path comes back to a
    name, and the name that means nothing if the path leads to one. There is no other error. -/
theorem resolve_follows_path (shaped : ∀ d ∈ definitions, IsDefinition d) (name : String) :
    let kind := pathKind definitions name
    ((∃ m, resolve definitions name = .ok m) ↔
      ∃ names last, Walk definitions kind name names last ∧ (names ++ [last]).Nodup ∧
        IsRoot definitions kind last) ∧
    (∀ m, resolve definitions name = .ok m →
      (∃ names last, Walk definitions kind name names last ∧ IsRoot definitions kind last ∧
        m.chain = names ++ [last]) ∧
      m.kind = kind ∧ m.chain.Nodup ∧
      m.attributes = m.chain.flatMap (declaredAttributes definitions kind) ∧
      m.operations = m.chain.flatMap (declaredOperations definitions kind)) ∧
    (∀ chain, resolve definitions name = .error (.cyclicInheritance chain) ↔
      ∃ names again, Walk definitions kind name names again ∧ names.Nodup ∧ again ∈ names ∧
        chain = names ++ [again]) ∧
    (∀ missing, resolve definitions name = .error (.interfaceNotFound missing) ↔
      ∃ names, Walk definitions kind name names missing ∧ names.Nodup ∧
        meaning? definitions kind missing = none) ∧
    (∀ e, resolve definitions name = .error e →
      (∃ chain, e = .cyclicInheritance chain) ∨ ∃ missing, e = .interfaceNotFound missing) := by
  intro kind
  refine ⟨⟨?_, ?_⟩, ?_, resolve_eq_cyclicInheritance_iff shaped name,
    resolve_eq_interfaceNotFound_iff shaped name, fun e he => error_of_resolve shaped he⟩
  · rintro ⟨m, hm⟩
    obtain ⟨names, last, hwalk, hnodup, hroot, -⟩ := (resolve_eq_ok_iff shaped name m).1 hm
    exact ⟨names, last, hwalk, hnodup, hroot⟩
  · rintro ⟨names, last, hwalk, hnodup, hroot⟩
    exact ⟨_, (resolve_eq_ok_iff shaped name _).2 ⟨names, last, hwalk, hnodup, hroot, rfl⟩⟩
  · intro m hm
    obtain ⟨names, last, hwalk, hnodup, hroot, rfl⟩ := (resolve_eq_ok_iff shaped name m).1 hm
    exact ⟨⟨names, last, hwalk, hroot, rfl⟩, rfl, hnodup, attributes_declaredMembers _,
      operations_declaredMembers _⟩

/-- Three interfaces, of which the first leads into a cycle of the others, with a dictionary of the
    same name as one of them. -/
def lasso : List Node :=
  [⟨.interface, "A", some "B", [[.operation [.getter] (.basic .long ⟨true, false, false⟩) none []]],
      false⟩,
   ⟨.dictionary, "B", none, [[]], false⟩,
   ⟨.interface, "B", some "C", [[.stringifier], []], false⟩,
   ⟨.interface, "C", some "B", [[]], false⟩].map WebIdl.Definition.toNode

theorem isDefinition_of_mem_lasso {d : Node} (hd : d ∈ lasso) : IsDefinition d := by
  obtain ⟨definition, -, rfl⟩ := List.mem_map.1 hd
  exact definition.isDefinition_toNode

/-- The cycle is reported with the name that leads into it. -/
theorem resolve_lasso : (∀ d ∈ lasso, IsDefinition d) ∧
    resolve lasso "A" = .error (.cyclicInheritance ["A", "B", "C", "B"]) := by
  have shaped : ∀ d ∈ lasso, IsDefinition d := fun d hd => isDefinition_of_mem_lasso hd
  have hwalk : Walk lasso (pathKind lasso "A") "A" ["A", "B", "C"] "B" :=
    .step ⟨_, rfl, rfl⟩ (.step ⟨_, rfl, rfl⟩ (.step ⟨_, rfl, rfl⟩ (.stay "B")))
  obtain ⟨-, -, hcyclic, -, -⟩ := resolve_follows_path shaped "A"
  exact ⟨shaped, (hcyclic _).2 ⟨_, _, hwalk, by decide, by decide, rfl⟩⟩

end IdlBind
