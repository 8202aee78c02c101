import IdlBind.Proofs.Binding.Shape
import IdlBind.Proofs.Generation.Failures
import IdlBind.Proofs.Members.Names
import IdlBind.Proofs.WebIdl.Sources

set_option autoImplicit false

/-! # Where a run can fail

For a binding description that can be read, a table of WebIDL texts and a sink that takes
everything, a run fails for few reasons: there is nothing to bind, a WebIDL text is missing or
cannot be parsed, or the path of inheritance does not end (`generate_confined`). All else that could
go wrong in a tree cannot, because the trees that are read have the shape that is asked of them
(`Descriptor.IsRead`). -/

namespace IdlBind

open WebIdl (IsDefinition)

/-! ## Descriptors that were read -/

/-- A descriptor whose trees were read from texts. -/
structure Descriptor.IsRead (d : Descriptor) : Prop where
  statements : ∃ ss : List Binding.Statement, d.statements = ss.map Binding.Statement.toNode
  definitions : ∀ n ∈ d.definitions, IsDefinition n
  block : ∃ name entries, d.block = (Binding.Statement.block name entries).toNode

namespace Descriptor.IsRead

variable {d : Descriptor}

theorem exists_privateFields (h : d.IsRead) : ∃ fields, d.privateFields = .ok fields := by
  obtain ⟨name, entries, hblock⟩ := h.block
  have hentries : ∀ n ∈ Node.eachKind .bindingPrivate
      (Binding.Statement.block name entries).toNode.children,
      ∃ ctype field, n = .list .bindingPrivate [.text .string ctype, .text .ident field] :=
    fun n hn => Binding.exists_eq_of_mem_privates hn
  unfold privateFields
  rw [hblock]
  generalize Node.eachKind .bindingPrivate (Binding.Statement.block name entries).toNode.children
    = privates at hentries
  induction privates with
  | nil => exact ⟨[], rfl⟩
  | cons n rest ih =>
    obtain ⟨ctype, field, rfl⟩ := hentries n (List.mem_cons_self ..)
    obtain ⟨fields, hfields⟩ := ih fun m hm => hentries m (List.mem_cons_of_mem _ hm)
    refine ⟨⟨ctype, field⟩ :: fields, ?_⟩
    rw [List.mapM_cons, hfields]
    rfl

theorem exists_statement (h : d.IsRead) {k : NodeKind} {n : Node}
    (hn : n ∈ Node.eachKind k d.statements) :
    ∃ s : Binding.Statement, n = s.toNode ∧ s.toNode.kind = k := by
  obtain ⟨ss, hss⟩ := h.statements
  obtain ⟨hmem, hkind⟩ := List.mem_filter.1 hn
  rw [hss] at hmem
  obtain ⟨s, -, rfl⟩ := List.mem_map.1 hmem
  exact ⟨s, rfl, of_decide_eq_true hkind⟩

end Descriptor.IsRead

/-! ## Sections of such descriptors -/

/-- Does the section list members? -/
def Section.listsMembers : Section → Bool
  | .operatorBodies | .propertyBodies | .functionSpec | .propertySpec => true
  | _ => false

variable {d : Descriptor}

theorem failure?_emitTextOf (before : String) (k : NodeKind) (s : String) :
    (emitTextOf before (.text k s)).failure? = none := rfl

theorem failure?_headerLines (first : String) (others : List String) :
    (headerLines (Binding.Statement.headerComment first others).toNode).failure? = none := by
  refine Emission.failure?_concat fun e he => ?_
  obtain ⟨n, hn, rfl⟩ := List.mem_map.1 he
  obtain ⟨line, -, rfl⟩ := List.mem_map.1 (List.mem_of_mem_filter hn)
  exact failure?_emitTextOf "\n * " .string line

theorem failure?_headerComment (h : d.IsRead) : (headerComment d).failure? = none := by
  unfold headerComment
  rw [Emission.failure?_append, Emission.failure?_append, Emission.failure?_concat]
  · rfl
  · intro e he
    obtain ⟨n, hn, rfl⟩ := List.mem_map.1 he
    obtain ⟨s, rfl, hkind⟩ := h.exists_statement hn
    cases s with
    | headerComment first others => exact failure?_headerLines first others
    | webIdlFile reference => exact absurd hkind (by simp [Binding.Statement.toNode])
    | preamble code => exact absurd hkind (by simp [Binding.Statement.toNode])
    | block name entries => exact absurd hkind (by simp [Binding.Statement.toNode])

theorem failure?_preamble (h : d.IsRead) : (preamble d).failure? = none := by
  unfold preamble
  rw [Emission.failure?_append, Emission.failure?_concat]
  · rfl
  · intro e he
    obtain ⟨n, hn, rfl⟩ := List.mem_map.1 he
    obtain ⟨s, rfl, hkind⟩ := h.exists_statement hn
    cases s with
    | preamble code => exact failure?_emitTextOf "" .preamble code
    | webIdlFile reference => exact absurd hkind (by simp [Binding.Statement.toNode])
    | headerComment first others => exact absurd hkind (by simp [Binding.Statement.toNode])
    | block name entries => exact absurd hkind (by simp [Binding.Statement.toNode])

theorem members_of_ok {m : Members} (h : resolve d.definitions d.interface = .ok m) :
    d.members = .ok m := by
  unfold Descriptor.members
  rw [h]

theorem members_of_error {e : ResolveError} (h : resolve d.definitions d.interface = .error e) :
    d.members = .error (.resolve e) := by
  unfold Descriptor.members
  rw [h]

/-- A section that lists no members completes. -/
theorem failure?_emit_of_not_listsMembers (h : d.IsRead) {b : Backend} (hb : b ∈ Backend.all)
    {s : Section} (hs : s.listsMembers = false) : (b.emit s d).failure? = none := by
  obtain ⟨fields, hfields⟩ := h.exists_privateFields
  have hlookup : failureOf? d.privateFields = none := by
    rw [hfields]
    rfl
  rw [failure?_emit hb]
  cases s with
  | headerComment => exact failure?_headerComment h
  | preamble => exact failure?_preamble h
  | privateDeclaration => exact hlookup
  | classDescriptor => rfl
  | constructors => exact hlookup
  | _ => exact absurd hs (by decide)

/-- What a section holds that lists members is made of the members alone, and completes. -/
theorem emit_eq_ofExcept {b : Backend} (hb : b ∈ Backend.all) {s : Section}
    (hs : s.listsMembers = true) :
    ∃ emit : Members → Emission, (∀ m, (emit m).failure? = none) ∧
      b.emit s d = .ofExcept d.members emit := by
  simp only [Backend.all, List.mem_cons, List.not_mem_nil, or_false] at hb
  rcases hb with rfl | rfl <;> cases s with
  | operatorBodies => exact ⟨_, fun _ => rfl, rfl⟩
  | propertyBodies => exact ⟨_, fun _ => rfl, rfl⟩
  | functionSpec => exact ⟨_, fun _ => rfl, rfl⟩
  | propertySpec => exact ⟨_, fun _ => rfl, rfl⟩
  | _ => exact absurd hs (by decide)

/-! ## Runs over such descriptors -/

theorem emitAll_of_resolve_ok (h : d.IsRead) {b : Backend} (hb : b ∈ Backend.all) {m : Members}
    (hm : resolve d.definitions d.interface = .ok m) :
    ∃ report, (emitAll .unlimited b d).result = .ok report := by
  have hcompletes : ∀ s ∈ Section.all, (b.emit s d).failure? = none := by
    intro s _
    cases hs : s.listsMembers with
    | false => exact failure?_emit_of_not_listsMembers h hb hs
    | true =>
      obtain ⟨emit, hemit, heq⟩ := emit_eq_ofExcept (d := d) hb hs
      rw [heq, members_of_ok hm]
      exact hemit m
  exact result_of_completes hcompletes

/-- Without members the run ends at the first section that lists them. -/
theorem emitAll_of_resolve_error (h : d.IsRead) {b : Backend} (hb : b ∈ Backend.all)
    {e : ResolveError} (he : resolve d.definitions d.interface = .error e) :
    (emitAll .unlimited b d).result = .error (.emit .operatorBodies (.resolve e)) ∧
      (emitAll .unlimited b d).output = (sectionsText b d (Section.all.take 4)).toUTF8 := by
  -- the fifth section is the first that lists members
  have hbefore : ∀ s ∈ Section.all.take 4, (b.emit s d).failure? = none := by
    intro s hs
    refine failure?_emit_of_not_listsMembers h hb ?_
    revert s
    decide
  obtain ⟨emit, -, heq⟩ := emit_eq_ofExcept (d := d) (s := .operatorBodies) hb rfl
  rw [members_of_error he] at heq
  have hfails : (b.emit .operatorBodies d).failure? = some (.resolve e) := by
    rw [heq]
    rfl
  have hnothing : (b.emit .operatorBodies d).text = "" := by
    rw [heq]
    rfl
  have hall : Section.all = Section.all.take 4 ++ .operatorBodies :: Section.all.drop 5 := rfl
  rw [emitAll_of_failure hall hbefore hfails]
  refine ⟨rfl, ?_⟩
  simp [sectionsText, hnothing]

/-! ## Descriptors of trees -/

/-- The first interface entry of a block decides, and without one there is no descriptor. -/
theorem ofTrees_of_block {statements : List Node} (definitions : List Node) {name : String}
    {entries : List Binding.Entry}
    (hblock : Node.findKind? .binding statements
      = some (Binding.Statement.block name entries).toNode) :
    Descriptor.ofTrees statements definitions
      = match (Binding.Statement.block name entries).toNode.childText? .bindingInterface with
        | none => .error (.missingInterface name)
        | some interface => .ok
          { statements, definitions, name, interface
            block := (Binding.Statement.block name entries).toNode
            bindingType? :=
              (Binding.Statement.block name entries).toNode.childText? .bindingType } := by
  have hname := Binding.child?_ident_block name entries
  have htext {k : NodeKind} (hk : k ≠ .bindingPrivate) {c : Node}
      (hc : (Binding.Statement.block name entries).toNode.child? k = some c) :
      ∃ s, c = .text k s := Binding.exists_text_of_child?_block hk hc
  -- of the block only its name and the texts of its entries matter
  generalize (Binding.Statement.block name entries).toNode = block at *
  unfold Descriptor.ofTrees
  cases hi : block.child? .bindingInterface with
  | none =>
    simp only [hblock, hname, hi, Node.childText?]
    rfl
  | some c =>
    obtain ⟨interface, rfl⟩ := htext (by decide) hi
    cases ht : block.child? .bindingType with
    | none =>
      simp only [hblock, hname, hi, ht, Node.childText?]
      rfl
    | some t =>
      obtain ⟨bindingType, rfl⟩ := htext (by decide) ht
      simp only [hblock, hname, hi, ht, Node.childText?]
      rfl

/-! ## Loading -/

/-- What can be wrong with the inputs: nothing is bound, or a WebIDL text is missing or cannot be
    parsed. -/
inductive IsInputFault : DescriptorError → Prop
  | noBindingBlock : IsInputFault .noBindingBlock
  | missingInterface (binding : String) : IsInputFault (.missingInterface binding)
  | notFound (reference : String) (searched : List String) :
      IsInputFault (.load (.notFound reference searched))
  | parse (reference : String) (cause : ParseError) :
      IsInputFault (.load (.parse reference cause))

variable {files : List (String × String)} {ss : List Binding.Statement}

theorem webIdl_load_eq (read : WebIdl.Reader Id) :
    WebIdl.load read (ss.map Binding.Statement.toNode)
      = WebIdl.loadInto read .empty ((Binding.references (ss.map Binding.Statement.toNode)).map
          (Node.text .webIdlFile)) := by
  unfold WebIdl.load
  rw [Binding.eachKind_webIdlFile]

theorem load_of_findKind?_eq_none {statements : List Node} (read : WebIdl.Reader Id)
    (hnone : Node.findKind? .binding statements = none) :
    Descriptor.load read statements = .error .noBindingBlock := by
  unfold Descriptor.load
  simp only [hnone]
  rfl

theorem load_of_findKind?_eq_some {statements : List Node} (read : WebIdl.Reader Id) {block : Node}
    (hblock : Node.findKind? .binding statements = some block) :
    Descriptor.load read statements
      = match WebIdl.load read statements with
        | .error cause => .error (.load cause)
        | .ok doc => Descriptor.ofTrees statements doc.toNodes := by
  unfold Descriptor.load
  simp only [hblock, Option.isNone_some, Bool.false_eq_true, if_false, bind, pure]
  rfl

theorem error_of_readTable {reference : String} {e : WebIdl.LoadError}
    (he : WebIdl.readTable files reference = .error e) : e = .notFound reference [] := by
  unfold WebIdl.readTable at he
  split at he
  · exact absurd he (by simp)
  · exact (Except.error.inj he).symm

/-- The references of a description with the sources that they mean, each of which can be parsed. -/
def Sources (files : List (String × String)) (statements : List Node) (sources : List String) :
    Prop :=
  List.Forall₂ (fun reference source => WebIdl.readTable files reference = .ok source ∧
    ∃ nodes, WebIdl.parse source = .ok nodes) (Binding.references statements) sources

theorem exists_block_of_findKind? {block : Node}
    (hblock : Node.findKind? .binding (ss.map Binding.Statement.toNode) = some block) :
    block ∈ ss.map Binding.Statement.toNode ∧ block.kind = .binding ∧
      ∃ name entries, block = (Binding.Statement.block name entries).toNode := by
  obtain ⟨hmem, hkind⟩ := findFrom_head_mem hblock
  have hkind : block.kind = .binding := of_decide_eq_true hkind
  refine ⟨hmem, hkind, ?_⟩
  obtain ⟨s, -, rfl⟩ := List.mem_map.1 hmem
  cases s with
  | block name entries => exact ⟨name, entries, rfl⟩
  | _ => exact absurd hkind (by simp [Binding.Statement.toNode])

theorem isRead_of_ofTrees {definitions : List Node} {d : Descriptor}
    (hdefinitions : ∀ n ∈ definitions, IsDefinition n) {block : Node}
    (hblock : Node.findKind? .binding (ss.map Binding.Statement.toNode) = some block)
    (hd : Descriptor.ofTrees (ss.map Binding.Statement.toNode) definitions = .ok d) :
    d.IsRead ∧ block.childText? .bindingInterface = some d.interface ∧
      d.definitions = definitions := by
  obtain ⟨-, -, name, entries, rfl⟩ := exists_block_of_findKind? hblock
  rw [ofTrees_of_block _ hblock] at hd
  split at hd
  · exact absurd hd (by simp)
  · rename_i interface hinterface
    obtain rfl := Except.ok.inj hd
    exact ⟨⟨⟨ss, rfl⟩, hdefinitions, ⟨name, entries, rfl⟩⟩, hinterface, rfl⟩

theorem load_eq_ok (hone : ss.countP Binding.Statement.isBlock ≤ 1) {block : Node}
    (hmem : block ∈ ss.map Binding.Statement.toNode) (hkind : block.kind = .binding)
    {interface : String} (hinterface : block.childText? .bindingInterface = some interface)
    {sources : List String} (hsources : Sources files (ss.map Binding.Statement.toNode) sources) :
    ∃ d, Descriptor.load (WebIdl.readTable files) (ss.map Binding.Statement.toNode) = .ok d ∧
      d.IsRead ∧ d.interface = interface ∧
      d.definitions = (WebIdl.Document.ofSources sources).toNodes := by
  have hblock := Binding.findKind?_of_mem hone hmem hkind
  have hload : WebIdl.load (WebIdl.readTable files) (ss.map Binding.Statement.toNode)
      = .ok (WebIdl.Document.ofSources sources) := by
    rw [webIdl_load_eq, WebIdl.loadInto_eq_ok_iff]
    exact ⟨sources, hsources, rfl⟩
  rw [load_of_findKind?_eq_some _ hblock, hload]
  obtain ⟨-, -, name, entries, rfl⟩ := exists_block_of_findKind? hblock
  have hd := ofTrees_of_block (WebIdl.Document.ofSources sources).toNodes hblock
  rw [hinterface] at hd
  obtain ⟨hread, -, -⟩ := isRead_of_ofTrees (fun n => isDefinition_of_mem_toNodes) hblock hd
  exact ⟨_, hd, hread, rfl, rfl⟩

theorem of_load_eq_ok {d : Descriptor}
    (hd : Descriptor.load (WebIdl.readTable files) (ss.map Binding.Statement.toNode) = .ok d) :
    d.IsRead ∧ ∃ block ∈ ss.map Binding.Statement.toNode, block.kind = .binding ∧
      block.childText? .bindingInterface = some d.interface ∧
      ∃ sources, Sources files (ss.map Binding.Statement.toNode) sources ∧
        d.definitions = (WebIdl.Document.ofSources sources).toNodes := by
  cases hblock : Node.findKind? .binding (ss.map Binding.Statement.toNode) with
  | none =>
    rw [load_of_findKind?_eq_none _ hblock] at hd
    exact absurd hd (by simp)
  | some block =>
    rw [load_of_findKind?_eq_some _ hblock] at hd
    split at hd
    · exact absurd hd (by simp)
    · rename_i doc hload
      obtain ⟨hread, hinterface, hdefinitions⟩ :=
        isRead_of_ofTrees (fun n => isDefinition_of_mem_toNodes) hblock hd
      rw [webIdl_load_eq, WebIdl.loadInto_eq_ok_iff] at hload
      obtain ⟨sources, hsources, rfl⟩ := hload
      obtain ⟨hmem, hkind, -⟩ := exists_block_of_findKind? hblock
      exact ⟨hread, block, hmem, hkind, hinterface, sources, hsources, hdefinitions⟩

theorem isInputFault_of_load {cause : DescriptorError}
    (he : Descriptor.load (WebIdl.readTable files) (ss.map Binding.Statement.toNode)
      = .error cause) : IsInputFault cause := by
  cases hblock : Node.findKind? .binding (ss.map Binding.Statement.toNode) with
  | none =>
    rw [load_of_findKind?_eq_none _ hblock] at he
    obtain rfl := Except.error.inj he
    exact .noBindingBlock
  | some block =>
    rw [load_of_findKind?_eq_some _ hblock] at he
    split at he
    · rename_i fault hload
      obtain rfl := Except.error.inj he
      rw [webIdl_load_eq] at hload
      rcases WebIdl.error_of_loadInto _ hload with ⟨reference, hread⟩ | ⟨reference, cause, rfl⟩
      · rw [error_of_readTable hread]
        exact .notFound reference []
      · exact .parse reference cause
    · obtain ⟨-, -, name, entries, rfl⟩ := exists_block_of_findKind? hblock
      rw [ofTrees_of_block _ hblock] at he
      split at he
      · obtain rfl := Except.error.inj he
        exact .missingInterface name
      · exact absurd he (by simp)

/-! ## Where a run can fail -/

theorem generate_eq (read : WebIdl.Reader Id) (sink : Sink) (b : Backend)
    (statements : List Node) :
    generate read sink b statements
      = match Descriptor.load read statements with
        | .error cause => ⟨.empty, [], .error (.descriptor cause)⟩
        | .ok d => emitAll sink b d := by
  unfold generate
  simp only [bind, pure]
  rfl

/-- For a binding description that can be read, a run into a sink that takes everything succeeds, or
    fails to load for a fault of the inputs with nothing written, or fails to resolve the members
    behind the text of the first four sections. It succeeds if there is a binding block with an
    interface entry, every WebIDL text that is referred to is there and can be parsed, and the
    interface resolves in the definitions of all of them. -/
theorem generate_confined {source : String} {statements : List Node}
    (hparse : Binding.parse source = .ok statements) (files : List (String × String)) {b : Backend}
    (hb : b ∈ Backend.all) :
    let run : Run Report := generate (WebIdl.readTable files) .unlimited b statements
    ((∃ report, run.result = .ok report) ∨
      (run.output = .empty ∧
        ∃ cause, run.result = .error (.descriptor cause) ∧ IsInputFault cause) ∨
      (∃ d, Descriptor.load (WebIdl.readTable files) statements = .ok d ∧
        run.output = (sectionsText b d
          [.headerComment, .preamble, .privateDeclaration, .classDescriptor]).toUTF8 ∧
        ∃ cause, run.result = .error (.emit .operatorBodies (.resolve cause)) ∧
          ((∃ chain, cause = .cyclicInheritance chain) ∨
            ∃ missing, cause = .interfaceNotFound missing))) ∧
    ((∃ report, run.result = .ok report) ↔
      ∃ block ∈ statements, block.kind = .binding ∧
        ∃ interface, block.childText? .bindingInterface = some interface ∧
          ∃ sources, Sources files statements sources ∧
            ∃ m, resolve (WebIdl.Document.ofSources sources).toNodes interface = .ok m) := by
  obtain ⟨ss, rfl, hone⟩ := Binding.exists_statements_of_parse hparse
  intro run
  have hrun : run = match Descriptor.load (WebIdl.readTable files)
      (ss.map Binding.Statement.toNode) with
        | .error cause => ⟨.empty, [], .error (.descriptor cause)⟩
        | .ok d => emitAll .unlimited b d := generate_eq _ _ _ _
  -- loading decides first, and then resolving
  constructor
  · cases hload : Descriptor.load (WebIdl.readTable files) (ss.map Binding.Statement.toNode) with
    | error cause =>
      rw [hrun, hload]
      exact Or.inr (Or.inl ⟨rfl, cause, rfl, isInputFault_of_load hload⟩)
    | ok d =>
      obtain ⟨hread, -⟩ := of_load_eq_ok hload
      rw [hrun, hload]
      cases hresolve : resolve d.definitions d.interface with
      | ok m => exact Or.inl (emitAll_of_resolve_ok hread hb hresolve)
      | error e =>
        obtain ⟨hresult, houtput⟩ := emitAll_of_resolve_error hread hb hresolve
        exact Or.inr (Or.inr ⟨d, rfl, houtput, e, hresult,
          error_of_resolve hread.definitions hresolve⟩)
  · constructor
    · rintro ⟨report, hreport⟩
      cases hload : Descriptor.load (WebIdl.readTable files)
          (ss.map Binding.Statement.toNode) with
      | error cause =>
        rw [hrun, hload] at hreport
        exact absurd hreport (by simp)
      | ok d =>
        obtain ⟨hread, block, hmem, hkind, hinterface, sources, hsources, hdefinitions⟩ :=
          of_load_eq_ok hload
        rw [hrun, hload] at hreport
        cases hresolve : resolve d.definitions d.interface with
        | ok m =>
          rw [hdefinitions] at hresolve
          exact ⟨block, hmem, hkind, d.interface, hinterface, sources, hsources, m, hresolve⟩
        | error e =>
          obtain ⟨hresult, -⟩ := emitAll_of_resolve_error hread hb hresolve
          rw [hresult] at hreport
          exact absurd hreport (by simp)
    · rintro ⟨block, hmem, hkind, interface, hinterface, sources, hsources, m, hm⟩
      obtain ⟨d, hload, hread, rfl, hdefinitions⟩ :=
        load_eq_ok hone hmem hkind hinterface hsources
      rw [← hdefinitions] at hm
      rw [hrun, hload]
      exact emitAll_of_resolve_ok hread hb hm

/-- An interface and its parent in two files. -/
def panelFiles : List (String × String) :=
  [("base.idl", "interface Base { };"), ("panel.idl", "interface Panel : Base { void draw(); };")]

/-- A description that binds the interface. -/
def panelSource : String :=
  "webidlfile \"base.idl\"; webidlfile \"panel.idl\"; binding panel { interface Panel; }"

/-- The statements of the description. -/
def panelStatements : List Node :=
  [.text .webIdlFile "base.idl", .text .webIdlFile "panel.idl",
   .list .binding [.text .ident "panel", .text .bindingInterface "Panel"]]

theorem sources_panel : Sources panelFiles panelStatements (panelFiles.map (·.2)) := by
  refine .cons ⟨rfl, ?_⟩ (.cons ⟨rfl, ?_⟩ .nil)
  · exact (WebIdl.parse_isOk_iff _).2 (by decide +kernel)
  · exact (WebIdl.parse_isOk_iff _).2 (by decide +kernel)

/-- The interface resolves through its parent, so that the run succeeds. -/
theorem generate_panel : Binding.parse panelSource = .ok panelStatements ∧
    Jsapi.backend ∈ Backend.all ∧
    ∃ report, (generate (WebIdl.readTable panelFiles) .unlimited Jsapi.backend panelStatements :
      Run Report).result = .ok report := by
  have hparse : Binding.parse panelSource = .ok panelStatements := by decide +kernel
  have hb : Jsapi.backend ∈ Backend.all := List.mem_cons_self
  have hresolve : (resolve (WebIdl.Document.ofSources (panelFiles.map (·.2))).toNodes
      "Panel").isOk = true := by decide +kernel
  rcases hm : resolve (WebIdl.Document.ofSources (panelFiles.map (·.2))).toNodes "Panel" with e | m
  · rw [hm] at hresolve
    exact absurd hresolve (by simp [Except.isOk, Except.toBool])
  obtain ⟨-, hok⟩ := generate_confined hparse panelFiles hb
  exact ⟨hparse, hb,
    hok.2 ⟨_, List.mem_of_getLast? rfl, rfl, "Panel", rfl, _, sources_panel, m, hm⟩⟩

end IdlBind
