import IdlBind.Proofs.Backend.PrivateFields
import IdlBind.Proofs.Generation.Sections

set_option autoImplicit false

/-! # Whole sections

Behind the header comment and the preamble a section is written as a whole or not at all. Before
anything is written the private fields or the members are looked up, and what they give is listed in
one format, item by item (`sections_are_whole_or_nothing`). Only the texts in front of them are
written up to a faulty node. -/

namespace IdlBind

/-! ## Items -/

/-- What a section lists. -/
inductive Item where
  | member (f : PrivateField)
  | parameter (f : PrivateField)
  | body
  | assignment (f : PrivateField)
  | banner (interface : String)
  | operation (o : ResolvedOperation) (name : String)
  | attribute (a : ResolvedAttribute)

/-- The items of operations with a name, block by block. -/
def Members.operationItems (m : Members) : List Item :=
  m.blocks.flatMap fun b =>
    .banner b.interface :: b.operations.filterMap fun o => o.name?.map (Item.operation o)

/-- The items of attributes, block by block. -/
def Members.attributeItems (m : Members) : List Item :=
  m.blocks.flatMap fun b => .banner b.interface :: b.attributes.map Item.attribute

/-- Are operations listed? Duktape lists none of a dictionary. -/
def Backend.listsOperations (b : Backend) (m : Members) : Bool :=
  !(decide (b.target = Duktape.target) && decide (m.kind = .dictionary))

/-- The items of a section, for what is looked up. -/
def Backend.items (b : Backend) (d : Descriptor) : Section → Except EmitError (List Item)
  | .headerComment | .preamble | .classDescriptor => .ok []
  | .privateDeclaration => d.privateFields.map fun fields => fields.map .member
  | .constructors => d.privateFields.map fun fields =>
    fields.map .parameter ++ .body :: fields.map .assignment
  | .operatorBodies | .functionSpec => d.members.map fun m =>
    if b.listsOperations m then m.operationItems else []
  | .propertyBodies | .propertySpec => d.members.map Members.attributeItems

/-! ## Formats -/

/-- The format of a section: what opens it, the text of an item, and what closes it. -/
structure Format where
  opening : String
  item : Item → String
  closing : String

/-- A section with some items. -/
def Format.text (f : Format) (items : List Item) : String :=
  f.opening ++ String.join (items.map f.item) ++ f.closing

/-- The section is written in this format: every item leaves a text, and nothing is written where
    there are no items. -/
def Format.Describes (f : Format) (b : Backend) (s : Section) (interface : String) : Prop :=
  ∀ d : Descriptor, d.interface = interface →
    match b.items d s with
    | .ok items => (b.emit s d).text = f.text items ∧ (b.emit s d).failure? = none ∧
        ∀ i ∈ items, f.item i ≠ ""
    | .error cause => b.emit s d = .fail cause

/-- The sections behind the header comment and the preamble. -/
def Section.whole : List Section :=
  [.privateDeclaration, .classDescriptor, .operatorBodies, .propertyBodies, .functionSpec,
   .propertySpec, .constructors]

/-! ## Sections with members -/

section

variable {σ : Type} (text : σ → String) (banner : String → σ)

/-- The texts of operations, one for each item. -/
def operationText (operation : ResolvedOperation → String → σ) : Item → String
  | .banner interface => text (banner interface)
  | .operation o name => text (operation o name)
  | _ => ""

/-- The texts of attributes, one for each item. -/
def attributeText (accessors : ResolvedAttribute → List σ) : Item → String
  | .banner interface => text (banner interface)
  | .attribute a => String.join ((accessors a).map text)
  | _ => ""

theorem join_flatMap {α : Type} (xs : List α) (f : α → List String) :
    String.join (xs.flatMap f) = String.join (xs.map fun x => String.join (f x)) := by
  induction xs with
  | nil => rfl
  | cons x xs ih =>
    rw [List.flatMap_cons, String.join_append, ih, List.map_cons, String.join_cons]

theorem join_operationItems (operation : ResolvedOperation → String → σ) (m : Members) :
    String.join (m.operationItems.map (operationText text banner operation))
      = String.join ((m.blocks.flatMap fun b => banner b.interface ::
          b.operations.filterMap fun o => o.name?.map (operation o)).map text) := by
  rw [Members.operationItems, List.map_flatMap, List.map_flatMap]
  simp only [List.map_cons, List.map_filterMap, Option.map_map]
  rfl

theorem join_attributeItems (accessors : ResolvedAttribute → List σ) (m : Members) :
    String.join (m.attributeItems.map (attributeText text banner accessors))
      = String.join ((m.blocks.flatMap fun b => banner b.interface ::
          b.attributes.flatMap accessors).map text) := by
  rw [Members.attributeItems, List.map_flatMap, List.map_flatMap, join_flatMap, join_flatMap]
  congr 1
  refine List.map_congr_left fun b _ => ?_
  rw [List.map_cons, List.map_cons, List.map_map, List.map_flatMap, String.join_cons,
    String.join_cons, join_flatMap]
  rfl

theorem operationText_ne_empty {operation : ResolvedOperation → String → σ}
    (hbanner : ∀ interface, text (banner interface) ≠ "")
    (hoperation : ∀ o name, text (operation o name) ≠ "") (m : Members) :
    ∀ i ∈ m.operationItems, operationText text banner operation i ≠ "" := by
  intro i hi
  obtain ⟨b, -, hi⟩ := List.mem_flatMap.1 hi
  rcases List.mem_cons.1 hi with rfl | hi
  · exact hbanner b.interface
  · obtain ⟨o, -, hi⟩ := List.mem_filterMap.1 hi
    obtain ⟨name, -, rfl⟩ := Option.map_eq_some_iff.1 hi
    exact hoperation o name

theorem attributeText_ne_empty {accessors : ResolvedAttribute → List σ}
    (hbanner : ∀ interface, text (banner interface) ≠ "")
    (haccessors : ∀ a, String.join ((accessors a).map text) ≠ "") (m : Members) :
    ∀ i ∈ m.attributeItems, attributeText text banner accessors i ≠ "" := by
  intro i hi
  obtain ⟨b, -, hi⟩ := List.mem_flatMap.1 hi
  rcases List.mem_cons.1 hi with rfl | hi
  · exact hbanner b.interface
  · obtain ⟨a, -, rfl⟩ := List.mem_map.1 hi
    exact haccessors a

end

/-! ## Formats of the backends -/

/-- A section that looks something up, and writes every item of it in a format. -/
theorem Format.describes_of {α : Type} {f : Format} {b : Backend} {s : Section} {interface : String}
    (lookup : Descriptor → Except EmitError α) (items : α → List Item) (emission : α → Emission)
    (hitems : ∀ d, b.items d s = (lookup d).map items)
    (hemit : ∀ d, d.interface = interface → b.emit s d = .ofExcept (lookup d) emission)
    (hwhole : ∀ a, (emission a).text = f.text (items a) ∧ (emission a).failure? = none ∧
      ∀ i ∈ items a, f.item i ≠ "") : f.Describes b s interface := by
  intro d hd
  rw [hitems, hemit d hd]
  cases lookup d with
  | error cause => rfl
  | ok a => exact hwhole a

/-- The text of a member of the struct. -/
def FieldLayout.memberText (l : FieldLayout) : Item → String
  | .member f => l.indent ++ f.declaration ++ ";" ++ "\n"
  | _ => ""

/-- The text of an item of the constructor. -/
def FieldLayout.partText (l : FieldLayout) : Item → String
  | .parameter f => FieldLayout.separator ++ f.declaration
  | .body => unlines (")" :: "\x7b" :: l.opening)
  | .assignment f => l.assignment f ++ "\n"
  | _ => ""

theorem FieldLayout.structText_eq (l : FieldLayout) (fields : List PrivateField) :
    l.structText fields = "struct " ++ l.tag ++ " \x7b\n" ++
      String.join ((fields.map Item.member).map l.memberText) ++ "\x7d;\n\n" := by
  simp [FieldLayout.structText, FieldLayout.memberText, unlines, Function.comp_def]

/-- The private sections, for any backend. -/
theorem exists_format_private {b : Backend} (hb : b ∈ Backend.all) (interface : String) :
    (∃ f : Format, f.Describes b .privateDeclaration interface) ∧
      ∃ f : Format, f.Describes b .constructors interface := by
  obtain ⟨p, hp, rfl⟩ : ∃ p ∈ ownParameters, p.1 = b := List.mem_map.1 hb
  obtain ⟨l, -, hsound, hstruct, hconstructors⟩ := exists_fieldLayout hp interface
  constructor
  · refine ⟨⟨"struct " ++ l.tag ++ " \x7b\n", l.memberText, "\x7d;\n\n"⟩, ?_⟩
    refine Format.describes_of Descriptor.privateFields (·.map .member) _ (fun _ => rfl) hstruct
      fun fields => ⟨l.structText_eq fields, rfl, ?_⟩
    simp [FieldLayout.memberText]
  · refine ⟨⟨unlines l.before ++ (l.head ++ FieldLayout.separator.intercalate l.own), l.partText,
      unlines l.closing⟩, ?_⟩
    refine Format.describes_of Descriptor.privateFields
      (fun fields => fields.map .parameter ++ .body :: fields.map .assignment) _ (fun _ => rfl)
      hconstructors fun fields => ⟨?_, rfl, ?_⟩
    · have htext :=
        FieldLayout.constructorText_eq hsound.own rfl (fun _ => rfl) (fun _ => rfl) fields
      simp [Emission.ofText, htext, Format.text, FieldLayout.partText, Function.comp_def,
        String.append_assoc]
    · simp [FieldLayout.partText, FieldLayout.separator, FieldLayout.assignment, unlines_cons,
        or_imp, forall_and]

/-- The class descriptor, which lists nothing. -/
theorem exists_format_class {b : Backend} {interface : String} (text : String)
    (hemit : ∀ d, d.interface = interface → b.emit .classDescriptor d = .ofText text) :
    ∃ f : Format, f.Describes b .classDescriptor interface := by
  refine ⟨⟨text, fun _ => "", ""⟩, ?_⟩
  refine Format.describes_of (fun _ => .ok ()) (fun _ => []) (fun _ => .ofText text) (fun _ => rfl)
    hemit fun _ => ⟨?_, rfl, fun i hi => absurd hi List.not_mem_nil⟩
  simp [Format.text, Emission.ofText]

section

variable {σ : Type} {b : Backend} {s : Section} {interface : String} (opening closing : String)
  (text : σ → String) (banner : String → σ) (rows : Members → List σ)
  {emission : Members → Emission}

/-- A section with a text for every operation. -/
theorem exists_format_operations (operation : ResolvedOperation → String → σ)
    (hs : s = .operatorBodies ∨ s = .functionSpec)
    (hemit : ∀ d, d.interface = interface → b.emit s d = .ofExcept d.members emission)
    (hemission : ∀ m, (emission m).text = opening ++ String.join ((rows m).map text) ++ closing ∧
      (emission m).failure? = none)
    (hrows : ∀ m, rows m = if b.listsOperations m then
      m.blocks.flatMap fun b => banner b.interface ::
        b.operations.filterMap fun o => o.name?.map (operation o) else [])
    (hbanner : ∀ interface, text (banner interface) ≠ "")
    (hoperation : ∀ o name, text (operation o name) ≠ "") :
    ∃ f : Format, f.Describes b s interface := by
  refine ⟨⟨opening, operationText text banner operation, closing⟩, ?_⟩
  refine Format.describes_of Descriptor.members
    (fun m => if b.listsOperations m then m.operationItems else []) emission ?_ hemit
    fun m => ⟨?_, (hemission m).2, ?_⟩
  · rcases hs with rfl | rfl <;> exact fun _ => rfl
  · rw [(hemission m).1, hrows, Format.text]
    split
    · rw [join_operationItems]
    · rfl
  · dsimp only
    split
    · exact operationText_ne_empty text banner hbanner hoperation m
    · exact fun i hi => absurd hi List.not_mem_nil

/-- A section with a text for every attribute. -/
theorem exists_format_attributes (accessors : ResolvedAttribute → List σ)
    (hs : s = .propertyBodies ∨ s = .propertySpec)
    (hemit : ∀ d, d.interface = interface → b.emit s d = .ofExcept d.members emission)
    (hemission : ∀ m, (emission m).text = opening ++ String.join ((rows m).map text) ++ closing ∧
      (emission m).failure? = none)
    (hrows : ∀ m, rows m = m.blocks.flatMap fun b => banner b.interface ::
      b.attributes.flatMap accessors)
    (hbanner : ∀ interface, text (banner interface) ≠ "")
    (haccessors : ∀ a, String.join ((accessors a).map text) ≠ "") :
    ∃ f : Format, f.Describes b s interface := by
  refine ⟨⟨opening, attributeText text banner accessors, closing⟩, ?_⟩
  refine Format.describes_of Descriptor.members Members.attributeItems emission ?_ hemit
    fun m => ⟨?_, (hemission m).2, attributeText_ne_empty text banner hbanner haccessors m⟩
  · rcases hs with rfl | rfl <;> exact fun _ => rfl
  · rw [(hemission m).1, hrows, Format.text, join_attributeItems]

end

namespace Jsapi

theorem exists_format {s : Section} (hs : s ∈ Section.whole) (interface : String) :
    ∃ f : Format, f.Describes backend s interface := by
  have hbanner : ∀ i, blockBanner i ≠ "" := fun i => by simp [blockBanner]
  cases s with
  | headerComment => exact absurd hs (by decide)
  | preamble => exact absurd hs (by decide)
  | privateDeclaration => exact (exists_format_private List.mem_cons_self interface).1
  | constructors => exact (exists_format_private List.mem_cons_self interface).2
  | classDescriptor => exact exists_format_class (classDescriptor interface) fun _ hd => hd ▸ rfl
  | operatorBodies =>
    refine exists_format_operations "" "" Stub.text .banner operatorStubs
      (fun _ name => .native (CName.identifier name)) (.inl rfl) (fun _ _ => rfl)
      (fun m => ⟨by simp, rfl⟩) (fun m => rfl) hbanner fun o name => ?_
    simp [Stub.text, unlines]
  | propertyBodies =>
    refine exists_format_attributes "" "" Stub.text .banner propertyStubs attributeStubs (.inl rfl)
      (fun _ _ => rfl) (fun m => ⟨by simp [Emission.ofText], rfl⟩) (fun m => rfl) hbanner
      fun a => ?_
    unfold attributeStubs
    cases a.readOnly <;> simp [Stub.text, unlines]
  | functionSpec =>
    refine exists_format_operations "static JSFunctionSpec jsclass_functions[] = \x7b\n"
      "   JSAPI_FS_END\n\x7d;\n\n" Row.text .banner functionRows
      (fun _ name => .function (CName.identifier name)) (.inr rfl) (fun _ _ => rfl)
      (fun m => ⟨rfl, rfl⟩) (fun m => rfl) (fun i => by simp [Row.text]) fun o name => ?_
    simp [Row.text]
  | propertySpec =>
    refine exists_format_attributes "static JSPropertySpec jsclass_properties[] = \x7b\n"
      "    JSAPI_PS_END\n\x7d;\n\n" Row.text .banner propertyRows (fun a => [propertyRow a])
      (.inr rfl) (fun _ _ => rfl) (fun m => ⟨rfl, rfl⟩)
      (fun m => by simp only [propertyRows, List.map_eq_flatMap]) (fun i => by simp [Row.text])
      fun a => ?_
    simp [Row.text, propertyRow]

end Jsapi

namespace Duktape

/-- Of a dictionary no operations are listed. -/
theorem rows_operations {σ : Type} (banner : String → σ)
    (operation : ResolvedOperation → String → σ)
    {rows : Members → List σ}
    (hrows : ∀ m, rows m = match m.kind with
      | .dictionary => []
      | .interface => m.blocks.flatMap fun b => banner b.interface ::
          b.operations.filterMap fun o => o.name?.map (operation o)) (m : Members) :
    rows m = if backend.listsOperations m then
      m.blocks.flatMap fun b => banner b.interface ::
        b.operations.filterMap fun o => o.name?.map (operation o) else [] := by
  rw [hrows, Backend.listsOperations]
  cases m.kind <;> rfl

theorem exists_format {s : Section} (hs : s ∈ Section.whole) (interface : String) :
    ∃ f : Format, f.Describes backend s interface := by
  -- a specification names the interface the descriptor is of
  have hspec : ∀ {t} (spec : String → Members → String),
      (∀ d, backend.emit t d = .ofExcept d.members fun m => .ofText (spec d.interface m)) →
      ∀ d : Descriptor, d.interface = interface →
        backend.emit t d = .ofExcept d.members fun m => .ofText (spec interface m) := by
    intro t spec h d hd
    rw [h, hd]
  have hmem : backend ∈ Backend.all := List.mem_cons_of_mem _ List.mem_cons_self
  have hbanner : ∀ i, blockBanner i ≠ "" := fun i => by simp [blockBanner]
  cases s with
  | headerComment => exact absurd hs (by decide)
  | preamble => exact absurd hs (by decide)
  | privateDeclaration => exact (exists_format_private hmem interface).1
  | constructors => exact (exists_format_private hmem interface).2
  | classDescriptor => exact exists_format_class (classDescriptor interface) fun _ hd => hd ▸ rfl
  | operatorBodies =>
    refine exists_format_operations "" "" Stub.text .banner operatorStubs
      (fun o name => .method (symbol o.interface name)) (.inl rfl) (fun _ _ => rfl)
      (fun m => ⟨by simp, rfl⟩) (rows_operations _ _ fun _ => rfl) hbanner fun o name => ?_
    simp [Stub.text, unlines]
  | propertyBodies =>
    refine exists_format_attributes "" "" Stub.text .banner propertyStubs attributeStubs (.inl rfl)
      (fun _ _ => rfl) (fun m => ⟨by simp [Emission.ofText], rfl⟩) (fun m => rfl) hbanner
      fun a => ?_
    unfold attributeStubs
    cases a.readOnly <;> simp [Stub.text, unlines]
  | functionSpec =>
    refine exists_format_operations
      ("static const duk_function_list_entry " ++ classSymbol interface "methods" ++ "[] = \x7b\n")
      "\t\x7b NULL, NULL, 0 \x7d\n\x7d;\n\n" Row.text .banner methodRows
      (fun o name => .method name (symbol o.interface name)
        (if o.isVariadic then none else some o.arguments.length)) (.inr rfl)
      (hspec functionSpec fun _ => rfl) (fun m => ⟨rfl, rfl⟩) (rows_operations _ _ fun _ => rfl)
      (fun i => by simp [Row.text]) fun o name => ?_
    simp [Row.text]
  | propertySpec =>
    refine exists_format_attributes
      ("static const " ++ classSymbol interface "property" ++ " " ++
        classSymbol interface "properties" ++ "[] = \x7b\n")
      "\t\x7b NULL, NULL, NULL \x7d\n\x7d;\n\n" Row.text .banner propertyRows
      (fun a => [propertyRow a]) (.inr rfl) (hspec propertySpec fun _ => rfl)
      (fun m => ⟨rfl, rfl⟩)
      (fun m => by simp only [propertyRows, List.map_eq_flatMap]) (fun i => by simp [Row.text])
      fun a => ?_
    simp [Row.text, propertyRow]

end Duktape

/-! ## Whole or nothing -/

theorem exists_format {b : Backend} (hb : b ∈ Backend.all) {s : Section} (hs : s ∈ Section.whole)
    (interface : String) : ∃ f : Format, f.Describes b s interface := by
  simp only [Backend.all, List.mem_cons, List.not_mem_nil, or_false] at hb
  rcases hb with rfl | rfl
  · exact Jsapi.exists_format hs interface
  · exact Duktape.exists_format hs interface

/-- Sections are whole or nothing. A backend writes each of the sections behind the header comment
    and the preamble in one format for an interface. Whatever the trees a descriptor for the
    interface is made of, and a sink that takes everything: where the section fails, its items could
    not be looked up, and the sink holds what it has held before; where it does not, they could, and
    the sink holds besides what opens the section, a text for every item, and what closes it. -/
theorem sections_are_whole_or_nothing {b : Backend} (hb : b ∈ Backend.all) {s : Section}
    (hs : s ∈ Section.whole) (interface : String) :
    ∃ f : Format, ∀ d : Descriptor, d.interface = interface → ∀ held,
      let run := emitSection .unlimited held s (b.emit s d)
      (∀ e, run.result = .error e → run.output = held ∧
        ∃ cause, b.items d s = .error cause ∧ e = .emit s cause) ∧
      (∀ size, run.result = .ok size → ∃ items, b.items d s = .ok items ∧
        (∀ i ∈ items, f.item i ≠ "") ∧
        run.output = held ++ (f.text items).toUTF8 ∧ size = (f.text items).toUTF8.size) := by
  obtain ⟨f, hf⟩ := exists_format hb hs interface
  refine ⟨f, fun d hinterface held => ?_⟩
  have hitems := hf d hinterface
  rw [emitSection_unlimited]
  cases hlookup : b.items d s with
  | error cause =>
    rw [hlookup] at hitems
    rw [hitems]
    refine ⟨fun e he => ⟨?_, cause, rfl, (Except.error.inj he).symm⟩, fun size hsize => ?_⟩
    · simp [Emission.fail]
    · exact absurd hsize (by simp [Emission.fail])
  | ok items =>
    rw [hlookup] at hitems
    obtain ⟨htext, hcompletes, hnonempty⟩ := hitems
    rw [htext, hcompletes]
    refine ⟨fun e he => absurd he (by simp), fun size hsize => ⟨items, rfl, hnonempty, rfl, ?_⟩⟩
    exact (Except.ok.inj hsize).symm

/-- A block with a private field, whose interface has an attribute without a name. -/
def knob : Descriptor where
  statements := [knobBlock]
  definitions := [knobInterface]
  block := knobBlock
  name := "knob"
  interface := "Knob"
  bindingType? := none

/-- Its private fields are written as a whole, and nothing of its operator bodies. -/
theorem sections_are_whole_or_nothing_knob :
    Descriptor.ofTrees [knobBlock] [knobInterface] = .ok knob ∧
    ∀ b ∈ Backend.all, ∀ held,
      let bodies := emitSection .unlimited held .operatorBodies (b.emit .operatorBodies knob)
      let struct :=
        emitSection .unlimited held .privateDeclaration (b.emit .privateDeclaration knob)
      (bodies.result
          = .error (.emit .operatorBodies (.resolve (.missingAttributeIdentifier "Knob"))) ∧
        bodies.output = held) ∧
      ∃ f : Format, f.item (.member ⟨"int", "turns"⟩) ≠ "" ∧
        struct.output = held ++ (f.text [.member ⟨"int", "turns"⟩]).toUTF8 := by
  refine ⟨rfl, fun b hb held => ?_⟩
  intro bodies struct
  constructor
  · obtain ⟨f, hf⟩ := sections_are_whole_or_nothing hb (s := .operatorBodies) (by decide) "Knob"
    have hfails : (b.emit .operatorBodies knob).failure?
        = some (.resolve (.missingAttributeIdentifier "Knob")) := by
      rw [failure?_emit hb]
      decide +kernel
    have hresult : bodies.result
        = .error (.emit .operatorBodies (.resolve (.missingAttributeIdentifier "Knob"))) := by
      simp only [bodies, emitSection_unlimited, hfails]
    exact ⟨hresult, ((hf knob rfl held).1 _ hresult).1⟩
  · obtain ⟨f, hf⟩ := sections_are_whole_or_nothing hb (s := .privateDeclaration) (by decide) "Knob"
    have hcompletes : (b.emit .privateDeclaration knob).failure? = none := by
      rw [failure?_emit hb]
      decide +kernel
    have hresult : struct.result
        = .ok (b.emit .privateDeclaration knob).text.toUTF8.size := by
      simp only [struct, emitSection_unlimited, hcompletes]
    obtain ⟨items, hitems, hnonempty, houtput, -⟩ := (hf knob rfl held).2 _ hresult
    have hmembers : b.items knob .privateDeclaration = .ok [.member ⟨"int", "turns"⟩] := rfl
    obtain rfl := Except.ok.inj (hmembers.symm.trans hitems)
    exact ⟨f, hnonempty _ (List.mem_singleton_self _), houtput⟩

/-- A header comment is written up to a faulty line. -/
example :
    let d := { knob with statements := [.list .headerComment [.int .string 1], knobBlock] }
    (headerComment d).failure?.isSome = true ∧ (headerComment d).text ≠ "" := by
  decide +kernel

end IdlBind
