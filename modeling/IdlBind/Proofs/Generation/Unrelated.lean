import IdlBind.Proofs.Generation.Confinement
import IdlBind.Proofs.WebIdl.TreeShape

set_option autoImplicit false

/-! # Unrelated sources

A further WebIDL file that defines nothing on the path of the interface that is bound changes
nothing: not the output, not the notices, not the report (`unrelated_source_is_neutral`). The path
is searched by name and kind (`resolve_congr`), to merge definitions with other keys does not change
what is found (`findDefinition?_toNodes`), and all sections are made of the members, the private
fields and the texts of the binding description (`emitAll_congr`). -/

namespace IdlBind

open WebIdl (Definition DefinitionKind Document)

/-! ## Resolving -/

section

variable {definitions others : List Node} {kind : DefinitionKind}

/-- A path that comes to an end begins with the name itself. -/
theorem mem_path_of_ends {visited : List String} {name : String}
    (hends : (ancestryFrom definitions kind visited name).ending = .ok ()) :
    name ∈ (ancestryFrom definitions kind visited name).path.map (·.1) := by
  fun_induction ancestryFrom definitions kind visited name with
  | case1 => exact absurd hends (by simp)
  | case2 => exact absurd hends (by simp)
  | case3 => exact List.mem_cons_self

/-- A path that comes to an end is the same wherever its names mean the same. -/
theorem ancestryFrom_congr {visited : List String} {name : String}
    (hends : (ancestryFrom definitions kind visited name).ending = .ok ())
    (hsame : ∀ p ∈ (ancestryFrom definitions kind visited name).path,
      findDefinition? kind p.1 others = findDefinition? kind p.1 definitions) :
    ancestryFrom others kind visited name = ancestryFrom definitions kind visited name := by
  fun_induction ancestryFrom definitions kind visited name with
  | case1 => exact absurd hends (by simp)
  | case2 => exact absurd hends (by simp)
  | case3 visited name node hfound hnew rest ih =>
    have hname : findDefinition? kind name others = some node :=
      (hsame (name, node) List.mem_cons_self).trans hfound
    have hrest : ∀ p ∈ rest.path,
        findDefinition? kind p.1 others = findDefinition? kind p.1 definitions :=
      fun p hp => hsame p (List.mem_cons_of_mem _ hp)
    rw [ancestryFrom_of_found hname hnew]
    cases hparent : (node.child? .interfaceInheritance).map Node.getText with
    | none => simp only [rest, hparent]
    | some text =>
      cases text with
      | error cause => simp only [rest, hparent]
      | ok parent =>
        have hmore : rest = ancestryFrom definitions kind (visited ++ [name]) parent := by
          simp only [rest, hparent]
        have hothers := ih parent (hmore ▸ hends) (hmore ▸ hrest)
        simp only [hothers, hmore]

/-- What a name means does not change where it means the same in both kinds. -/
theorem definitionKind?_congr {name : String} (hkind : definitionKind? definitions name = some kind)
    (hname : findDefinition? kind name others = findDefinition? kind name definitions)
    (hinterface : kind = .dictionary →
      findDefinition? .interface name others = findDefinition? .interface name definitions) :
    definitionKind? others name = some kind := by
  rw [← hkind]
  cases kind with
  | dictionary => rw [definitionKind?, definitionKind?, hname, hinterface rfl]
  | interface =>
    unfold definitionKind? at hkind ⊢
    by_cases hsome : (findDefinition? .interface name definitions).isSome = true
    · rw [hname, if_pos hsome, if_pos hsome]
    · rw [if_neg hsome] at hkind
      split at hkind <;> exact absurd hkind (by simp)

/-- A definition resolves to the same members wherever the names on its path mean the same. The name
    of a dictionary must mean the same among the interfaces, too. -/
theorem resolve_congr {name : String} {m : Members} (hm : resolve definitions name = .ok m)
    (hchain : ∀ c ∈ m.chain, findDefinition? m.kind c others = findDefinition? m.kind c definitions)
    (hinterface : m.kind = .dictionary →
      findDefinition? .interface name others = findDefinition? .interface name definitions) :
    resolve others name = .ok m := by
  obtain ⟨hkind, hends, hpath, hblocks⟩ := resolve_eq_ok_iff_ancestry.1 hm
  have hsame : ∀ p ∈ (ancestry definitions m.kind name).path,
      findDefinition? m.kind p.1 others = findDefinition? m.kind p.1 definitions :=
    fun p hp => hchain p.1 (hpath ▸ List.mem_map_of_mem hp)
  have hancestry : ancestry others m.kind name = ancestry definitions m.kind name :=
    ancestryFrom_congr hends hsame
  have hname : name ∈ m.chain := hpath ▸ mem_path_of_ends hends
  refine resolve_eq_ok_iff_ancestry.2 ⟨?_, ?_, ?_, ?_⟩
  · exact definitionKind?_congr hkind (hchain name hname) hinterface
  · rw [hancestry, hends]
  · rw [hancestry, hpath]
  · rw [hancestry, hblocks]

end

/-! ## Definitions of documents -/

/-- In the trees of a document, a definition is found by its key. -/
theorem findDefinition?_toNodes (doc : Document) (kind : DefinitionKind) (name : String) :
    findDefinition? kind name doc.toNodes = (doc.lookup? (kind, name)).map Definition.toNode := by
  rw [findDefinition?_eq_meaning?]
  exact doc.find?_isNamed_toNodes kind name

/-- Definitions without a key change nothing about what is found by it, wherever they are merged. -/
theorem findDefinition?_insertAll (first added last : List Definition) {kind : DefinitionKind}
    {name : String} (hadded : ∀ d ∈ added, d.key ≠ (kind, name)) :
    findDefinition? kind name (Document.empty.insertAll (first ++ added ++ last)).toNodes
      = findDefinition? kind name (Document.empty.insertAll (first ++ last)).toNodes := by
  have hfront : (Document.empty.insertAll (first ++ added)).lookup? (kind, name)
      = (Document.empty.insertAll first).lookup? (kind, name) := by
    rw [Document.insertAll_append, WebIdl.lookup?_insertAll_of_forall hadded]
  rw [findDefinition?_toNodes, findDefinition?_toNodes, Document.insertAll_append _ _ last,
    Document.insertAll_append _ first last, WebIdl.lookup?_insertAll_congr hfront]

/-- Where a source has no tree for a key, no definition that is read from it has the key. -/
theorem key_ne_of_findDefinition? {source : String} {nodes : List Node}
    (hparse : WebIdl.parse source = .ok nodes) {kind : DefinitionKind} {name : String}
    (hnone : findDefinition? kind name nodes = none) :
    ∀ d ∈ (WebIdl.readSource source).1, d.key ≠ (kind, name) := by
  have hnodes : nodes = (Document.empty.insertAll (WebIdl.readSource source).1).toNodes := by
    unfold WebIdl.parse at hparse
    rw [WebIdl.addSource_eq] at hparse
    split at hparse
    · rename_i hsource
      rw [← (Prod.mk.inj hsource).1] at hparse
      exact (Except.ok.inj hparse).symm
    · exact absurd hparse (by simp)
  rw [hnodes, findDefinition?_toNodes, Option.map_eq_none_iff] at hnone
  intro d hd hkey
  -- what is read has an entry
  have hmem : (kind, name) ∈ (Document.empty.insertAll (WebIdl.readSource source).1).keys := by
    rw [WebIdl.keys_insertAll, List.mem_eraseDups, ← hkey]
    exact List.mem_map_of_mem hd
  obtain ⟨e, he, hsame⟩ := List.mem_map.1 hmem
  exact List.find?_eq_none.1 hnone e he (decide_eq_true hsame)

/-! ## Loading -/

section

variable {read : WebIdl.Reader Id} {before after : List Node}

/-- A file that can be parsed adds its definitions, and all other files theirs as before. -/
theorem load_insert {doc : Document} (hdoc : WebIdl.load read (before ++ after) = .ok doc) :
    ∃ first last, doc = Document.empty.insertAll (first ++ last) ∧
      ∀ reference source nodes, read reference = .ok source → WebIdl.parse source = .ok nodes →
        WebIdl.load read (before ++ .text .webIdlFile reference :: after)
          = .ok (Document.empty.insertAll
              (first ++ (WebIdl.readSource source).1 ++ last)) := by
  unfold WebIdl.load at hdoc ⊢
  rw [WebIdl.loadInto_eq_mapM, Node.eachKind, List.filter_append, List.mapM_append] at hdoc
  cases hbefore : (before.filter (·.kind = .webIdlFile)).mapM (WebIdl.readReference read) with
  | error e =>
    rw [hbefore] at hdoc
    exact absurd hdoc (by simp [bind, Except.bind, Except.map])
  | ok first =>
    cases hafter : (after.filter (·.kind = .webIdlFile)).mapM (WebIdl.readReference read) with
    | error e =>
      rw [hbefore, hafter] at hdoc
      exact absurd hdoc (by simp [bind, Except.bind, Except.map])
    | ok last =>
      rw [hbefore, hafter] at hdoc
      refine ⟨first.flatten, last.flatten, ?_, fun reference source nodes hread hparse => ?_⟩
      · rw [← List.flatten_append]
        exact (Except.ok.inj hdoc).symm
      · have hadded : WebIdl.readReference read (.text .webIdlFile reference)
            = .ok (WebIdl.readSource source).1 := by
          simp only [WebIdl.readReference, Node.getText, hread,
            (WebIdl.parse_isOk_iff source).1 ⟨nodes, hparse⟩]
        rw [WebIdl.loadInto_eq_mapM, Node.eachKind, List.filter_append,
          List.filter_cons_of_pos (by simp), List.mapM_append, List.mapM_cons, hbefore, hadded,
          hafter]
        refine congrArg Except.ok ?_
        simp

/-- What the file does not define is found as before. -/
theorem exists_load_insert {doc : Document} {reference source : String} {unrelated : List Node}
    (hdoc : WebIdl.load read (before ++ after) = .ok doc) (hread : read reference = .ok source)
    (hparse : WebIdl.parse source = .ok unrelated) :
    ∃ doc', WebIdl.load read (before ++ .text .webIdlFile reference :: after) = .ok doc' ∧
      ∀ {kind : DefinitionKind} {name : String}, findDefinition? kind name unrelated = none →
        findDefinition? kind name doc'.toNodes = findDefinition? kind name doc.toNodes := by
  obtain ⟨first, last, rfl, hinsert⟩ := load_insert hdoc
  refine ⟨_, hinsert reference source unrelated hread hparse, fun hnone => ?_⟩
  exact findDefinition?_insertAll first _ last (key_ne_of_findDefinition? hparse hnone)

end

/-! ## Emitting -/

section

variable {b : Backend} {d d' : Descriptor}

/-- Two descriptors from which the same is generated. -/
structure Descriptor.Agrees (d d' : Descriptor) : Prop where
  headerComment : Node.eachKind .headerComment d'.statements
    = Node.eachKind .headerComment d.statements
  preamble : Node.eachKind .preamble d'.statements = Node.eachKind .preamble d.statements
  block : d'.block = d.block
  interface : d'.interface = d.interface
  members : d'.members = d.members

theorem emit_congr (hb : b ∈ Backend.all) (h : d.Agrees d') (s : Section) :
    b.emit s d' = b.emit s d := by
  have hfields : d'.privateFields = d.privateFields := by
    rw [Descriptor.privateFields, Descriptor.privateFields, h.block]
  have hheader : IdlBind.headerComment d' = IdlBind.headerComment d := by
    rw [IdlBind.headerComment, IdlBind.headerComment, h.headerComment]
  have hpreamble : IdlBind.preamble d' = IdlBind.preamble d := by
    rw [IdlBind.preamble, IdlBind.preamble, h.preamble]
  simp only [Backend.all, List.mem_cons, List.not_mem_nil, or_false] at hb
  rcases hb with rfl | rfl
  · simp only [Jsapi.backend, Jsapi.emit, hfields, hheader, hpreamble, h.interface, h.members]
  · simp only [Duktape.backend, Duktape.emit, hfields, hheader, hpreamble, h.interface, h.members]

theorem emitSections_congr (h : ∀ s, b.emit s d' = b.emit s d) (sink : Sink) (held : ByteArray)
    (sections : List Section) :
    emitSections sink b d' held sections = emitSections sink b d held sections := by
  induction sections generalizing held with
  | nil => rfl
  | cons s rest ih => simp only [emitSections, h s, ih]

/-- From such descriptors each backend generates the same into any sink. -/
theorem emitAll_congr (hb : b ∈ Backend.all) (h : d.Agrees d') (sink : Sink) :
    emitAll sink b d' = emitAll sink b d := by
  have hsections := emitSections_congr (emit_congr hb h) sink .empty Section.all
  simp only [emitAll, hsections, h.interface]

/-- A run that succeeds has found the members. -/
theorem exists_members_of_emitAll (hb : b ∈ Backend.all) {sink : Sink} {report : Report}
    (h : (emitAll sink b d).result = .ok report) :
    ∃ m, resolve d.definitions d.interface = .ok m := by
  have hoperators : (b.emit .operatorBodies d).failure? = none := by
    obtain ⟨sizes, hsections, -⟩ := exists_of_bind_eq_ok h
    exact failure?_of_emitSections_ok hsections _ (by decide)
  rw [failure?_emit hb] at hoperators
  cases hm : resolve d.definitions d.interface with
  | ok m => exact ⟨m, rfl⟩
  | error e =>
    rw [Descriptor.failure?, members_of_error hm] at hoperators
    exact absurd hoperators (by simp [failureOf?])

end

/-! ## Unrelated sources -/

section

variable {read : WebIdl.Reader Id} {before after : List Node} {d : Descriptor}

theorem findKind?_insert {k : NodeKind} {node : Node} (h : node.kind ≠ k) :
    Node.findKind? k (before ++ node :: after) = Node.findKind? k (before ++ after) := by
  simp only [Node.findKind?, Node.find?, Node.findFrom_head_eq_find?]
  rw [List.find?_append, List.find?_cons_of_neg (by simpa using h), List.find?_append]

theorem eachKind_insert {k : NodeKind} {node : Node} (h : node.kind ≠ k) :
    Node.eachKind k (before ++ node :: after) = Node.eachKind k (before ++ after) := by
  rw [Node.eachKind, List.filter_append, List.filter_cons_of_neg (by simpa using h), Node.eachKind,
    List.filter_append]

/-- A descriptor is made of the statements and of the definitions that they load. -/
theorem load_eq_ok_iff {statements : List Node} :
    Descriptor.load read statements = .ok d ↔
      ∃ doc, WebIdl.load read statements = .ok doc ∧
        Descriptor.ofTrees statements doc.toNodes = .ok d := by
  cases hblock : Node.findKind? .binding statements with
  | none =>
    rw [load_of_findKind?_eq_none read hblock]
    simp [ofTrees_eq, hblock]
  | some block =>
    rw [load_of_findKind?_eq_some read hblock]
    cases WebIdl.load read statements with
    | error cause => simp
    | ok doc =>
      constructor
      · intro hd
        exact ⟨doc, rfl, hd⟩
      · rintro ⟨_, hdoc, hd⟩
        obtain rfl := Except.ok.inj hdoc
        exact hd

/-- What the first binding block says does not depend on the other trees. -/
theorem ofTrees_congr {statements statements' definitions : List Node}
    (hd : Descriptor.ofTrees statements definitions = .ok d)
    (hblock : Node.findKind? .binding statements' = Node.findKind? .binding statements)
    (definitions' : List Node) :
    (d.statements = statements ∧ d.definitions = definitions) ∧
      Descriptor.ofTrees statements' definitions'
        = .ok { d with statements := statements', definitions := definitions' } := by
  rw [ofTrees_eq] at hd ⊢
  rw [hblock]
  split at hd
  · exact absurd hd (by simp)
  · rename_i block _
    dsimp only
    cases hsaid : Descriptor.readBlock block with
    | error e =>
      rw [hsaid] at hd
      exact absurd hd (by simp [Except.map])
    | ok said =>
      rw [hsaid] at hd
      obtain rfl := Except.ok.inj hd
      exact ⟨⟨rfl, rfl⟩, rfl⟩

end

/-- A run that succeeds has resolved its interface to members. A further WebIDL file, wherever it is
    referred to, that can be parsed and defines none of the names on the path of the members in
    their kind, nor, for a dictionary, an interface of its name, leaves the run as it is: it
    succeeds with the same output, the same notices and the same report, section by section. -/
theorem unrelated_source_is_neutral {read : WebIdl.Reader Id} {sink : Sink} {b : Backend}
    (hb : b ∈ Backend.all) {before after : List Node} {report : Report}
    (hok : (generate read sink b (before ++ after) : Run Report).result = .ok report) :
    ∃ d m, Descriptor.load read (before ++ after) = .ok d ∧
      resolve d.definitions d.interface = .ok m ∧
      ∀ reference source unrelated, read reference = .ok source →
        WebIdl.parse source = .ok unrelated →
        (∀ name ∈ m.chain, findDefinition? m.kind name unrelated = none) →
        (m.kind = .dictionary → findDefinition? .interface d.interface unrelated = none) →
        (generate read sink b (before ++ .text .webIdlFile reference :: after) : Run Report)
          = generate read sink b (before ++ after) := by
  rw [generate_eq] at hok
  cases hload : Descriptor.load read (before ++ after) with
  | error cause =>
    rw [hload] at hok
    exact absurd hok (by simp)
  | ok d =>
    rw [hload] at hok
    obtain ⟨m, hm⟩ := exists_members_of_emitAll hb hok
    refine ⟨d, m, rfl, hm, fun reference source unrelated hread hparse hchain hinterface => ?_⟩
    obtain ⟨doc, hdoc, hd⟩ := load_eq_ok_iff.1 hload
    obtain ⟨doc', hdoc', hfound⟩ := exists_load_insert hdoc hread hparse
    have hblock : Node.findKind? .binding (before ++ .text .webIdlFile reference :: after)
        = Node.findKind? .binding (before ++ after) := findKind?_insert (by simp)
    obtain ⟨⟨hstatements, hdefinitions⟩, hd'⟩ := ofTrees_congr hd hblock doc'.toNodes
    have hload' := load_eq_ok_iff.2 ⟨doc', hdoc', hd'⟩
    have hm' : resolve doc'.toNodes d.interface = .ok m :=
      resolve_congr hm (fun name hname => hdefinitions ▸ hfound (hchain name hname))
        fun hkind => hdefinitions ▸ hfound (hinterface hkind)
    have hagrees : d.Agrees { d with
        statements := before ++ .text .webIdlFile reference :: after
        definitions := doc'.toNodes } := by
      refine ⟨?_, ?_, rfl, rfl, ?_⟩
      · rw [hstatements]
        exact eachKind_insert (by simp)
      · rw [hstatements]
        exact eachKind_insert (by simp)
      · rw [members_of_ok hm]
        exact members_of_ok hm'
    rw [generate_eq, generate_eq, hload, hload']
    exact emitAll_congr hb hagrees sink

/-- A dictionary with the name of the panel, and another interface. -/
def strangers : String := "dictionary Panel { long width; }; interface Other { };"

/-- The dictionary plays no part, as the panel is an interface. -/
theorem unrelated_source_is_neutral_panel :
    let run (statements : List Node) : Run Report := generate
      (WebIdl.readTable (("strangers.idl", strangers) :: panelFiles)) .unlimited Duktape.backend
      statements
    Duktape.backend ∈ Backend.all ∧ (∃ report, (run panelStatements).result = .ok report) ∧
      run (panelStatements.take 1 ++ .text .webIdlFile "strangers.idl" :: panelStatements.drop 1)
        = run panelStatements := by
  intro run
  have hb : Duktape.backend ∈ Backend.all := List.mem_cons_of_mem _ List.mem_cons_self
  have hsucceeds : (run panelStatements).result.toOption.isSome = true := by decide +kernel
  obtain ⟨report, hok⟩ : ∃ report, (run panelStatements).result = .ok report := by
    cases hresult : (run panelStatements).result with
    | error e => exact absurd hsucceeds (by simp [hresult, Except.toOption])
    | ok report => exact ⟨report, rfl⟩
  obtain ⟨nodes, hparse⟩ := (WebIdl.parse_isOk_iff strangers).2 (by decide +kernel)
  obtain ⟨d, m, hload, hm, hneutral⟩ := unrelated_source_is_neutral hb
    (show (run (panelStatements.take 1 ++ panelStatements.drop 1)).result = .ok report from hok)
  -- none of the names on the path of the panel is that of an interface among the strangers
  have hpath : ((Descriptor.load (WebIdl.readTable (("strangers.idl", strangers) :: panelFiles))
      panelStatements : Except DescriptorError Descriptor).toOption.bind fun d =>
        (resolve d.definitions d.interface).toOption.map fun m => (m.kind, m.chain))
      = some (.interface, ["Panel", "Base"]) := by decide +kernel
  have hothers : ∀ nodes ∈ (WebIdl.parse strangers).toOption, ∀ name ∈ ["Panel", "Base"],
      findDefinition? .interface name nodes = none := by decide +kernel
  have hkind : m.kind = .interface ∧ m.chain = ["Panel", "Base"] := by
    have hload' : (Descriptor.load (WebIdl.readTable (("strangers.idl", strangers) :: panelFiles))
        panelStatements : Except DescriptorError Descriptor) = .ok d := hload
    rw [hload'] at hpath
    simpa [hm, Except.toOption] using hpath
  refine ⟨hb, ⟨report, hok⟩, hneutral _ strangers nodes rfl hparse ?_ ?_⟩
  · rw [hkind.1, hkind.2]
    exact hothers nodes (by rw [hparse]; rfl)
  · rw [hkind.1]
    exact fun h => absurd h (by decide)

end IdlBind
