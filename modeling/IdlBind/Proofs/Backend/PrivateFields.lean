import IdlBind.Backend.Catalogue
import IdlBind.Proofs.Backend.Duktape
import IdlBind.Proofs.Backend.FieldLayout
import IdlBind.Proofs.Binding.Privates

set_option autoImplicit false

/-! # Private fields stay aligned

Each backend lays out its private sections in one way, whatever the fields are
(`exists_fieldLayout`). The fields are the private entries of the description, so that the members
of the struct, the parameters for fields and the assignments are those of the same entries, in the
same order (`private_fields_stay_aligned`). -/

namespace IdlBind

/-! ## Layouts of the backends -/

/-- The private sections of a backend are laid out this way, for an interface. -/
structure FieldLayout.Describes (l : FieldLayout) (b : Backend) (interface : String) : Prop where
  struct : ∀ d : Descriptor, d.interface = interface →
    b.emit .privateDeclaration d
      = .ofExcept d.privateFields fun fields => .ofText (l.structText fields)
  constructors : ∀ d : Descriptor, d.interface = interface →
    b.emit .constructors d
      = .ofExcept d.privateFields fun fields => .ofText (l.constructorText fields)

/-- A backend writes its private sections in a layout if it puts this text around the parameters for
    fields and the assignments. -/
theorem FieldLayout.IsSound.describes {l : FieldLayout} (hsound : l.IsSound) {b : Backend}
    {interface start : String} {parameter assignment : PrivateField → String}
    (hstart : start = l.head ++ separator.intercalate l.own)
    (hparameter : ∀ f, parameter f = separator ++ f.declaration)
    (hassignment : ∀ f, assignment f = l.assignment f ++ "\n")
    (hstruct : ∀ d : Descriptor, d.interface = interface → b.emit .privateDeclaration d
      = .ofExcept d.privateFields fun fields => .ofText (l.structText fields))
    (hconstructors : ∀ d : Descriptor, d.interface = interface → b.emit .constructors d
      = .ofExcept d.privateFields fun fields => .ofText (unlines l.before ++ start ++
          String.join (fields.map parameter) ++ unlines (")" :: "\x7b" :: l.opening) ++
          String.join (fields.map assignment) ++ unlines l.closing)) : l.Describes b interface where
  struct := hstruct
  constructors d hd := by
    rw [hconstructors d hd]
    refine congrArg (Emission.ofExcept d.privateFields) (funext fun fields => ?_)
    rw [constructorText_eq hsound.own hstart hparameter hassignment]

namespace Duktape

theorem exists_frame (interface : String) : ∃ before opening closing : List String,
    (∀ fields, constructors interface fields
      = unlines before ++ "duk_ret_t " ++ classSymbol interface "create" ++ "(duk_context *ctx" ++
        String.join (fields.map parameter) ++ unlines (")" :: "\x7b" :: opening) ++
        String.join (fields.map assignment) ++ unlines closing) ∧
    FieldLayout.IsSound
      ⟨symbol interface "private", "\t", before,
        "duk_ret_t " ++ classSymbol interface "create" ++ "(", ["duk_context *ctx"], opening,
        "priv", closing⟩ := by
  have hsymbol := isNameChar_symbol interface "private"
  -- no name that is part of a line has a line feed or a space in it
  have hname : ∀ {name : String}, name.toList.all CName.isNameChar = true →
      '\n' ∉ name.toList ∧ ' ' ∉ name.toList := fun h =>
    ⟨notMem_of_isNameChar h (by decide), notMem_of_isNameChar h (by decide)⟩
  have hstruct := hname hsymbol
  have hkey := hname (isNameChar_privateKey interface)
  have hrole : ∀ role : String, role.toList.all CName.isNameChar = true →
      '\n' ∉ (classSymbol interface role).toList ∧ ' ' ∉ (classSymbol interface role).toList :=
    fun role h => hname (isNameChar_classSymbol interface role h)
  have hcreate := hrole "create" (by decide)
  have hdestructor := hrole "destructor" (by decide)
  have hmethods := hrole "methods" (by decide)
  have hproperties := hrole "properties" (by decide)
  have htag : leadingName ((symbol interface "private").toList ++ " *priv;".toList)
      = symbol interface "private" := leadingName_append hsymbol rfl
  refine ⟨_, _, _, fun fields => rfl, ?_⟩
  constructor
  case indent => exact .inl rfl
  case own => exact List.cons_ne_nil _ _
  case onLines => simp [hstruct, hcreate]
  case head => simp [FieldLayout.assigned?, behind?]
  case before => simp [behind?]
  case parameter => simp [FieldLayout.assigned?, behind?]
  case frame =>
    simp at htag
    simp [FieldLayout.frame, FieldLayout.assigned?, behind?, structTag?_skip, htag, hstruct, hkey,
      hdestructor, hmethods, hproperties]
  case pointer => exact List.mem_cons.2 (.inl (String.toList_inj.1 (by simp)))

theorem exists_layout (interface : String) : ∃ l : FieldLayout, l.own = ["duk_context *ctx"] ∧
    l.IsSound ∧ l.Describes backend interface := by
  obtain ⟨before, opening, closing, htext, hsound⟩ := exists_frame interface
  have hstart : "duk_ret_t " ++ classSymbol interface "create" ++ "(duk_context *ctx"
      = "duk_ret_t " ++ classSymbol interface "create" ++ "(" ++
        FieldLayout.separator.intercalate ["duk_context *ctx"] :=
    String.toList_inj.1 (by simp)
  have hassignment : ∀ f, assignment f
      = "\t" ++ "priv" ++ "->" ++ f.name ++ " = " ++ f.name ++ ";" ++ "\n" := fun f =>
    String.toList_inj.1 (by simp [assignment])
  have hparameter : ∀ f, parameter f = FieldLayout.separator ++ f.declaration := fun _ => rfl
  refine ⟨_, rfl, hsound, hsound.describes hstart hparameter hassignment ?_ ?_⟩
  · rintro d rfl
    rfl
  · rintro d rfl
    refine congrArg (Emission.ofExcept d.privateFields) (funext fun fields => ?_)
    rw [htext]
    simp only [String.append_assoc]

end Duktape

namespace Jsapi

theorem exists_frame (interface : String) : ∃ before opening closing : List String,
    (∀ fields, constructors interface fields
      = unlines before ++ "JSObject *jsapi_new_" ++ CName.escape interface ++
        "(JSContext *cx,\n\t\tJSObject *proto,\n\t\tJSObject *parent" ++
        String.join (fields.map parameter) ++ unlines (")" :: "\x7b" :: opening) ++
        String.join (fields.map assignment) ++ unlines closing) ∧
    FieldLayout.IsSound
      ⟨"jsclass_private", "        ", before,
        "JSObject *jsapi_new_" ++ CName.escape interface ++ "(",
        ["JSContext *cx", "JSObject *proto", "JSObject *parent"], opening, "private",
        closing⟩ := by
  have hall : (CName.escape interface).toList.all CName.isNameChar = true :=
    List.all_eq_true.2 fun c hc => CName.isNameChar_of_mem_escape hc
  have hname : '\n' ∉ (CName.escape interface).toList ∧ ' ' ∉ (CName.escape interface).toList :=
    ⟨notMem_of_isNameChar hall (by decide), notMem_of_isNameChar hall (by decide)⟩
  refine ⟨_, _, _, fun fields => rfl, ?_⟩
  constructor
  case indent => exact .inr rfl
  case own => exact List.cons_ne_nil _ _
  case onLines => simp [hname]
  case head => simp [FieldLayout.assigned?, behind?]
  case before => simp [behind?]
  case parameter => simp [FieldLayout.assigned?, behind?]
  case frame =>
    simp [FieldLayout.frame, FieldLayout.assigned?, behind?, structTag?_skip, hname]
    decide
  case pointer =>
    exact List.mem_cons_of_mem _ (List.mem_cons.2 (.inl (String.toList_inj.1 (by simp))))

theorem exists_layout (interface : String) : ∃ l : FieldLayout,
    l.own = ["JSContext *cx", "JSObject *proto", "JSObject *parent"] ∧
    l.IsSound ∧ l.Describes backend interface := by
  obtain ⟨before, opening, closing, htext, hsound⟩ := exists_frame interface
  have hstart : "JSObject *jsapi_new_" ++ CName.escape interface ++
        "(JSContext *cx,\n\t\tJSObject *proto,\n\t\tJSObject *parent"
      = "JSObject *jsapi_new_" ++ CName.escape interface ++ "(" ++
        FieldLayout.separator.intercalate
          ["JSContext *cx", "JSObject *proto", "JSObject *parent"] :=
    String.toList_inj.1 (by simp [FieldLayout.separator])
  have hassignment : ∀ f, assignment f
      = "\t" ++ "private" ++ "->" ++ f.name ++ " = " ++ f.name ++ ";" ++ "\n" := fun f =>
    String.toList_inj.1 (by simp [assignment])
  have hparameter : ∀ f, parameter f = FieldLayout.separator ++ f.declaration := fun _ => rfl
  refine ⟨_, rfl, hsound, hsound.describes hstart hparameter hassignment ?_ ?_⟩
  · rintro d rfl
    rfl
  · rintro d rfl
    refine congrArg (Emission.ofExcept d.privateFields) (funext fun fields => ?_)
    rw [htext]
    simp only [String.append_assoc]

end Jsapi

/-! ## All backends -/

/-- The backends, with the parameters that their constructors have of their own. -/
def ownParameters : List (Backend × List String) :=
  [(Jsapi.backend, ["JSContext *cx", "JSObject *proto", "JSObject *parent"]),
   (Duktape.backend, ["duk_context *ctx"])]

theorem exists_fieldLayout {p : Backend × List String} (hp : p ∈ ownParameters)
    (interface : String) :
    ∃ l : FieldLayout, l.own = p.2 ∧ l.IsSound ∧ l.Describes p.1 interface := by
  simp only [ownParameters, List.mem_cons, List.not_mem_nil, or_false] at hp
  rcases hp with rfl | rfl
  · exact Jsapi.exists_layout interface
  · exact Duktape.exists_layout interface

/-- Private fields stay aligned. A backend lays out its private sections for an interface in one
    way, with one struct. For every description that can be read, and whatever the definitions, the
    struct has a member for each private entry, the constructor a parameter behind those of its own
    and an assignment, all in the order of the entries; a member and its parameter have the same
    text. If the types of the entries are on one line, these and no others are read off the lines
    of both sections. -/
theorem private_fields_stay_aligned :
    ownParameters.map Prod.fst = Backend.all ∧
    ∀ p ∈ ownParameters, ∀ interface, ∃ l : FieldLayout, l.own = p.2 ∧ l.IsSound ∧
      ∀ {source : String} {statements definitions : List Node} {d : Descriptor},
        Binding.parse source = .ok statements →
        Descriptor.ofTrees statements definitions = .ok d → d.interface = interface →
        ∃ tokens, tokenize source = .ok tokens ∧
          let fields := Binding.privateEntries (tokens.map (·.kind))
          p.1.emit .privateDeclaration d = .ofText (l.structText fields) ∧
          p.1.emit .constructors d = .ofText (l.constructorText fields) ∧
          ((∀ f ∈ fields, '\n' ∉ f.ctype.toList) →
            readLines l.member? (l.structText fields) = fields.map PrivateField.declaration ∧
            l.readParameters (l.constructorText fields)
              = p.2 ++ fields.map PrivateField.declaration ∧
            readLines l.assigned? (l.constructorText fields)
              = fields.map fun f => (f.name, f.name)) := by
  refine ⟨rfl, fun p hp interface => ?_⟩
  obtain ⟨l, hown, hsound, hdescribes⟩ := exists_fieldLayout hp interface
  refine ⟨l, hown, hsound, fun {source statements definitions d} hparse hd hinterface => ?_⟩
  obtain ⟨tokens, htokens, hfields, hnames⟩ := privateFields_eq hparse hd
  refine ⟨tokens, htokens, ?_⟩
  intro fields
  have hstruct := hdescribes.struct d hinterface
  have hconstructors := hdescribes.constructors d hinterface
  rw [hfields] at hstruct hconstructors
  refine ⟨hstruct, hconstructors, fun hctypes =>
    ⟨hsound.readLines_member hctypes hnames, ?_, hsound.readLines_assigned hctypes hnames⟩⟩
  rw [hsound.readParameters_eq hctypes hnames, ← hown]
  rfl

/-- Private entries between the others, with a type that ends in an asterisk, one that is a struct
    itself and one that is a word. -/
def knotSource : String :=
  "binding knot \x7b private \"char *\" name; type duk_libdom;
     private \"struct knot *\" next; interface Knot; private \"int\" loops; \x7d"

/-- The fields of these entries. -/
def knotFields : List PrivateField :=
  [⟨"char *", "name"⟩, ⟨"struct knot *", "next"⟩, ⟨"int", "loops"⟩]

/-- The block with these entries. -/
def knotBlock : Node :=
  .list .binding
    [.text .ident "knot", .list .bindingPrivate [.text .string "char *", .text .ident "name"],
     .text .bindingType "duk_libdom",
     .list .bindingPrivate [.text .string "struct knot *", .text .ident "next"],
     .text .bindingInterface "Knot",
     .list .bindingPrivate [.text .string "int", .text .ident "loops"]]

/-- What is bound. -/
def knot : Descriptor where
  statements := [knotBlock]
  definitions := []
  block := knotBlock
  name := "knot"
  interface := "Knot"
  bindingType? := some "duk_libdom"

theorem private_fields_stay_aligned_knot :
    Binding.parse knotSource = .ok [knotBlock] ∧
    Descriptor.ofTrees [knotBlock] [] = .ok knot ∧
    ∀ p ∈ ownParameters, ∃ l : FieldLayout,
      readLines l.member? (p.1.emit .privateDeclaration knot).text
        = ["char *name", "struct knot *next", "int loops"] ∧
      l.readParameters (p.1.emit .constructors knot).text
        = p.2 ++ ["char *name", "struct knot *next", "int loops"] ∧
      readLines l.assigned? (p.1.emit .constructors knot).text
        = [("name", "name"), ("next", "next"), ("loops", "loops")] := by
  have hparse : Binding.parse knotSource = .ok [knotBlock] := by decide +kernel
  have hd : Descriptor.ofTrees [knotBlock] [] = .ok knot := rfl
  have hfields : (tokenize knotSource).map (fun tokens =>
      Binding.privateEntries (tokens.map (·.kind))) = .ok knotFields := by decide +kernel
  refine ⟨hparse, hd, fun p hp => ?_⟩
  obtain ⟨l, -, -, hread⟩ := private_fields_stay_aligned.2 p hp "Knot"
  obtain ⟨tokens, htokens, hstruct, hconstructors, hlines⟩ := hread hparse hd rfl
  rw [htokens] at hfields
  have hentries : Binding.privateEntries (tokens.map (·.kind)) = knotFields :=
    Except.ok.inj hfields
  rw [hentries] at hstruct hconstructors hlines
  obtain ⟨hmembers, hparameters, hassigned⟩ := hlines (by decide)
  refine ⟨l, ?_, ?_, ?_⟩
  · rw [hstruct]
    exact hmembers
  · rw [hconstructors]
    exact hparameters
  · rw [hconstructors]
    exact hassigned

end IdlBind
