import IdlBind.Proofs.Generation.Order

set_option autoImplicit false

/-! # How runs fail

Whatever the trees, why a section fails does not depend on the engine (`failure?_emit`), and a
section that looks up the private fields or the members fails only if the first one that does so has
failed. All engines therefore end alike, and only four sections can be the first to fail
(`backends_fail_alike`). -/

namespace IdlBind

/-! ## Why a section fails -/

/-- The failure of a lookup. -/
def failureOf? {α : Type} : Except EmitError α → Option EmitError
  | .ok _ => none
  | .error e => some e

theorem failure?_ofExcept {α : Type} (value : Except EmitError α) {emit : α → Emission}
    (hemit : ∀ a, (emit a).failure? = none) :
    (Emission.ofExcept value emit).failure? = failureOf? value := by
  cases value with
  | ok a => exact hemit a
  | error e => rfl

/-- Why a section fails, for any engine. -/
def Descriptor.failure? (d : Descriptor) : Section → Option EmitError
  | .headerComment => (headerComment d).failure?
  | .preamble => (preamble d).failure?
  | .privateDeclaration | .constructors => failureOf? d.privateFields
  | .classDescriptor => none
  | .operatorBodies | .propertyBodies | .functionSpec | .propertySpec => failureOf? d.members

theorem failure?_emit {b : Backend} (hb : b ∈ Backend.all) (s : Section) (d : Descriptor) :
    (b.emit s d).failure? = d.failure? s := by
  simp only [Backend.all, List.mem_cons, List.not_mem_nil, or_false] at hb
  rcases hb with rfl | rfl <;> cases s with
  | headerComment => rfl
  | preamble => rfl
  | classDescriptor => rfl
  | privateDeclaration => exact failure?_ofExcept _ fun _ => rfl
  | operatorBodies => exact failure?_ofExcept _ fun _ => rfl
  | propertyBodies => exact failure?_ofExcept _ fun _ => rfl
  | functionSpec => exact failure?_ofExcept _ fun _ => rfl
  | propertySpec => exact failure?_ofExcept _ fun _ => rfl
  | constructors => exact failure?_ofExcept _ fun _ => rfl

/-! ## The first section that fails -/

variable {d : Descriptor}

/-- The sections of which each is the first to look something up. -/
def Section.lookups : List Section :=
  [.headerComment, .preamble, .privateDeclaration, .operatorBodies]

/-- What stands in front of a section in the order of the file. -/
theorem mem_of_mem_takeWhile {s t : Section} {before after : List Section}
    (hall : Section.all = before ++ s :: after)
    (ht : t ∈ Section.all.takeWhile (· ≠ s)) : t ∈ before := by
  rw [hall, List.takeWhile_append] at ht
  split at ht
  · rw [List.takeWhile_cons_of_neg (by simp), List.append_nil] at ht
    exact ht
  · exact (List.takeWhile_prefix _).subset ht

/-- A section that is no first lookup repeats an earlier one, or has nothing to look up. -/
theorem mem_lookups_of_first_failure {s : Section} {before after : List Section} {cause : EmitError}
    (hall : Section.all = before ++ s :: after) (hbefore : ∀ t ∈ before, d.failure? t = none)
    (hs : d.failure? s = some cause) : s ∈ Section.lookups := by
  have hearlier : ∀ t ∈ Section.all.takeWhile (· ≠ s), d.failure? t ≠ some cause := by
    intro t ht
    rw [hbefore t (mem_of_mem_takeWhile hall ht)]
    exact Option.some_ne_none cause |>.symm
  cases s with
  | headerComment => decide
  | preamble => decide
  | privateDeclaration => decide
  | operatorBodies => decide
  | classDescriptor => exact absurd hs (by simp [Descriptor.failure?])
  | propertyBodies => exact absurd hs (hearlier .operatorBodies (by decide))
  | functionSpec => exact absurd hs (hearlier .operatorBodies (by decide))
  | propertySpec => exact absurd hs (hearlier .operatorBodies (by decide))
  | constructors => exact absurd hs (hearlier .privateDeclaration (by decide))

/-- For each engine all sections complete, or for each engine the same one is the first that does
    not, and for the same reason. -/
theorem completes_or_first_failure (d : Descriptor) :
    (∀ b ∈ Backend.all, ∀ s ∈ Section.all, (b.emit s d).failure? = none) ∨
      ∃ before s after cause, Section.all = before ++ s :: after ∧ s ∈ Section.lookups ∧
        ∀ b ∈ Backend.all, (∀ t ∈ before, (b.emit t d).failure? = none) ∧
          (b.emit s d).failure? = some cause := by
  have hjsapi : Jsapi.backend ∈ Backend.all := List.mem_cons_self
  rcases completes_or_exists_first_failure Jsapi.backend d Section.all with
    hcompletes | ⟨before, s, after, cause, hall, hbefore, hs⟩
  · left
    intro b hb s hmem
    rw [failure?_emit hb, ← failure?_emit hjsapi]
    exact hcompletes s hmem
  · right
    have hfailures : (∀ t ∈ before, d.failure? t = none) ∧ d.failure? s = some cause := by
      refine ⟨fun t ht => ?_, ?_⟩
      · rw [← failure?_emit hjsapi]
        exact hbefore t ht
      · rw [← failure?_emit hjsapi]
        exact hs
    refine ⟨before, s, after, cause, hall,
      mem_lookups_of_first_failure hall hfailures.1 hfailures.2, fun b hb => ⟨fun t ht => ?_, ?_⟩⟩
    · rw [failure?_emit hb]
      exact hfailures.1 t ht
    · rw [failure?_emit hb]
      exact hfailures.2

/-! ## Whole runs -/

theorem result_of_completes {b : Backend} (h : ∀ s ∈ Section.all, (b.emit s d).failure? = none) :
    ∃ report, (emitAll .unlimited b d).result = .ok report := by
  rw [emitAll_of_completes h]
  exact ⟨_, rfl⟩

theorem failure?_of_emitSection_ok {sink : Sink} {held : ByteArray} {s : Section} {e : Emission}
    {size : Nat} (h : (emitSection sink held s e).result = .ok size) : e.failure? = none := by
  unfold emitSection at h
  dsimp only at h
  split at h
  · exact absurd h (by simp)
  · exact absurd h (by simp)
  · rename_i hnone
    exact hnone

/-- Where a run over sections succeeds, into whatever sink, all of them have completed. -/
theorem failure?_of_emitSections_ok {sink : Sink} {b : Backend} {held : ByteArray}
    {sections : List Section} {sizes : List (Section × Nat)}
    (h : (emitSections sink b d held sections).result = .ok sizes) :
    ∀ s ∈ sections, (b.emit s d).failure? = none := by
  induction sections generalizing held sizes with
  | nil => simp
  | cons s rest ih =>
    rw [emitSections] at h
    dsimp only at h
    split at h
    · exact absurd h (by simp)
    · rename_i size hsize
      cases hmore : (emitSections sink b d
          (emitSection sink held s (b.emit s d)).output rest).result with
      | error e =>
        rw [hmore] at h
        exact absurd h (by simp [Except.map])
      | ok more => exact List.forall_mem_cons.2 ⟨failure?_of_emitSection_ok hsize, ih hmore⟩

/-! ## Descriptors of trees -/

/-- What a binding block says: a name, an interface, and perhaps a type. -/
def Descriptor.readBlock (block : Node) :
    Except DescriptorError (String × String × Option String) := do
  let some nameNode := block.child? .ident | throw .missingName
  let name ← textOf nameNode
  let some interfaceNode := block.child? .bindingInterface | throw (.missingInterface name)
  let interface ← textOf interfaceNode
  match block.child? .bindingType with
  | some typeNode => return (name, interface, some (← textOf typeNode))
  | none => return (name, interface, none)

/-- A descriptor is made of what the first binding block says. -/
theorem ofTrees_eq (statements definitions : List Node) :
    Descriptor.ofTrees statements definitions
      = match Node.findKind? .binding statements with
        | none => .error .noBindingBlock
        | some block => (Descriptor.readBlock block).map fun (name, interface, bindingType?) =>
          { statements, definitions, block, name, interface, bindingType? } := by
  unfold Descriptor.ofTrees Descriptor.readBlock
  cases Node.findKind? .binding statements with
  | none => rfl
  | some block =>
    dsimp only
    cases block.child? .ident with
    | none => rfl
    | some nameNode =>
      dsimp only
      cases Descriptor.textOf nameNode with
      | error e => rfl
      | ok name =>
        cases block.child? .bindingInterface with
        | none => rfl
        | some interfaceNode =>
          dsimp only
          cases Descriptor.textOf interfaceNode with
          | error e => rfl
          | ok interface =>
            cases block.child? .bindingType with
            | none => rfl
            | some typeNode =>
              dsimp only
              cases Descriptor.textOf typeNode <;> rfl

/-- A block that says something carries a list. -/
theorem getChildren_of_readBlock {block : Node} {said : String × String × Option String}
    (h : Descriptor.readBlock block = .ok said) : block.getChildren = .ok block.children := by
  have hname : (block.child? .ident).isSome = true := by
    unfold Descriptor.readBlock at h
    cases hchild : block.child? .ident with
    | none =>
      rw [hchild] at h
      exact absurd h (by simp [throw, throwThe, MonadExceptOf.throw])
    | some nameNode => rfl
  cases block with
  | list k children => rfl
  | text k s => exact absurd hname (by simp [Node.child?, Node.children])
  | int k n => exact absurd hname (by simp [Node.child?, Node.children])

/-- The block of a descriptor is the first one of the description, and says something. -/
theorem block_of_ofTrees {statements definitions : List Node}
    (hd : Descriptor.ofTrees statements definitions = .ok d) :
    Node.findKind? .binding statements = some d.block ∧
      ∃ said, Descriptor.readBlock d.block = .ok said := by
  rw [ofTrees_eq] at hd
  split at hd
  · exact absurd hd (by simp)
  · rename_i block hfound
    cases hblock : Descriptor.readBlock block with
    | error e =>
      rw [hblock] at hd
      exact absurd hd (by simp [Except.map])
    | ok said =>
      rw [hblock] at hd
      obtain rfl := Except.ok.inj hd
      exact ⟨hfound, said, hblock⟩

theorem getChildren_block {statements definitions : List Node}
    (hd : Descriptor.ofTrees statements definitions = .ok d) :
    d.block.getChildren = .ok d.block.children := by
  obtain ⟨-, said, hblock⟩ := block_of_ofTrees hd
  exact getChildren_of_readBlock hblock

/-! ## All engines -/

/-- For all trees of which a descriptor can be made, and a sink that takes everything, the engines
    end alike: both runs succeed, or both fail in the same section with the same error. That section
    is one of four, so that a run which has got as far as the operator bodies succeeds. The private
    fields are read from a block that carries a list, and so fail only for an entry. -/
theorem backends_fail_alike {statements definitions : List Node} {d : Descriptor}
    (hd : Descriptor.ofTrees statements definitions = .ok d) :
    let jsapi := emitAll .unlimited Jsapi.backend d
    let duktape := emitAll .unlimited Duktape.backend d
    (((∃ report, jsapi.result = .ok report) ∧ ∃ report, duktape.result = .ok report) ∨
      ∃ s ∈ [Section.headerComment, .preamble, .privateDeclaration, .operatorBodies], ∃ cause,
        jsapi.result = .error (.emit s cause) ∧ duktape.result = .error (.emit s cause)) ∧
    (∀ b ∈ Backend.all, ∀ sizes,
      (emitSections .unlimited b d .empty
        [.headerComment, .preamble, .privateDeclaration, .classDescriptor,
          .operatorBodies]).result = .ok sizes →
      ∃ report, (emitAll .unlimited b d).result = .ok report) ∧
    d.block.getChildren = .ok d.block.children := by
  intro jsapi duktape
  have hjsapi : Jsapi.backend ∈ Backend.all := List.mem_cons_self
  have hduktape : Duktape.backend ∈ Backend.all := List.mem_cons_of_mem _ List.mem_cons_self
  refine ⟨?_, ?_, getChildren_block hd⟩
  · rcases completes_or_first_failure d with
      hcompletes | ⟨before, s, after, cause, hall, hlookup, hfails⟩
    · exact Or.inl ⟨result_of_completes (hcompletes _ hjsapi),
        result_of_completes (hcompletes _ hduktape)⟩
    · have hresult : ∀ b ∈ Backend.all,
          (emitAll .unlimited b d).result = .error (.emit s cause) := by
        intro b hb
        rw [emitAll_of_failure hall (hfails b hb).1 (hfails b hb).2]
      exact Or.inr ⟨s, hlookup, cause, hresult _ hjsapi, hresult _ hduktape⟩
  · intro b hb sizes hsizes
    have hfirst := failure?_of_emitSections_ok hsizes
    rcases completes_or_first_failure d with
      hcompletes | ⟨before, s, after, cause, -, hlookup, hfails⟩
    · exact result_of_completes (hcompletes b hb)
    · -- each of the four sections is among those that have completed
      have hmem : ∀ t ∈ Section.lookups, t ∈ [Section.headerComment, .preamble,
          .privateDeclaration, .classDescriptor, .operatorBodies] := by decide
      have hnone := hfirst s (hmem s hlookup)
      exact absurd (hnone.symm.trans (hfails b hb).2) (by simp)

/-- A block with one private field. -/
def knobBlock : Node :=
  .list .binding [.text .ident "knob", .text .bindingInterface "Knob",
    .list .bindingPrivate [.text .string "int", .text .ident "turns"]]

/-- An interface with an attribute that has no name. -/
def knobInterface : Node :=
  .list .interface [.text .ident "Knob", .list .interfaceMembers [.list .attribute []]]

/-- Both engines fail to list the attribute. -/
theorem backends_fail_alike_knob : ∃ d,
    Descriptor.ofTrees [knobBlock] [knobInterface] = .ok d ∧
    let cause := EmitError.resolve (.missingAttributeIdentifier "Knob")
    (emitAll .unlimited Jsapi.backend d).result = .error (.emit .operatorBodies cause) ∧
      (emitAll .unlimited Duktape.backend d).result = .error (.emit .operatorBodies cause) := by
  let d : Descriptor :=
    { statements := [knobBlock], definitions := [knobInterface], block := knobBlock
      name := "knob", interface := "Knob", bindingType? := none }
  have hd : Descriptor.ofTrees [knobBlock] [knobInterface] = .ok d := rfl
  refine ⟨d, hd, ?_⟩
  have hjsapi : (emitAll .unlimited Jsapi.backend d).result
      = .error (.emit .operatorBodies (.resolve (.missingAttributeIdentifier "Knob"))) := by
    have hbefore : ∀ t ∈ Section.all.take 4, (Jsapi.backend.emit t d).failure? = none := by
      decide +kernel
    have hfails : (Jsapi.backend.emit .operatorBodies d).failure?
        = some (.resolve (.missingAttributeIdentifier "Knob")) := by decide +kernel
    have hall : Section.all = Section.all.take 4 ++ .operatorBodies :: Section.all.drop 5 := rfl
    rw [emitAll_of_failure hall hbefore hfails]
  obtain ⟨⟨⟨report, hreport⟩, -⟩ | ⟨s, -, cause, hfirst, hsecond⟩, -⟩ := backends_fail_alike hd
  · exact absurd (hjsapi.symm.trans hreport) (by simp)
  · obtain ⟨rfl, rfl⟩ := GenerateError.emit.inj (Except.error.inj (hjsapi.symm.trans hfirst))
    exact ⟨hjsapi, hsecond⟩

end IdlBind
