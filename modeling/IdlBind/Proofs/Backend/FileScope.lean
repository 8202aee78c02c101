import IdlBind.Proofs.Backend.Duktape
import IdlBind.Proofs.Generation.Confinement

set_option autoImplicit false

/-! # Names at file scope

The Duktape backend declares functions for operations and attributes, and a type, two tables and two
functions for the class. `declaredName?` reads the names off the emitted text. For the members to
which a name resolves in a document of sources, different things have different names
(`fileScope_names_distinct`). The tag of the private struct is not among them: tags are apart from
other names in C. -/

namespace IdlBind.Duktape

open WebIdl (Document)

/-! ## What is named -/

/-- What a class has one of. -/
inductive ClassRole where
  | property
  | properties
  | methods
  | destructor
  | create
  deriving DecidableEq, Repr

/-- The role in the name. -/
def ClassRole.text : ClassRole → String
  | .property => "property"
  | .properties => "properties"
  | .methods => "methods"
  | .destructor => "destructor"
  | .create => "create"

/-- What has a name at file scope: a stub for a member of the definition that declares it, or
    something of the class. -/
inductive Entity where
  | method (interface member : String)
  | getter (interface member : String)
  | setter (interface member : String)
  | ofClass (interface : String) (role : ClassRole)
  deriving DecidableEq, Repr

/-- The name at file scope. -/
def Entity.name : Entity → String
  | .method interface member => symbol interface member
  | .getter interface member => symbol interface member ++ "_getter"
  | .setter interface member => symbol interface member ++ "_setter"
  | .ofClass interface role => classSymbol interface role.text

/-- What the stubs of an attribute are, in order. -/
def accessors (a : ResolvedAttribute) : List Entity :=
  (if a.readOnly then [] else [.setter a.interface a.name]) ++ [.getter a.interface a.name]

/-- What a section declares for a class with its members. Header comment, preamble and private
    struct declare nothing that has a name at file scope. -/
def entities (interface : String) (m : Members) : Section → List Entity
  | .classDescriptor => [.ofClass interface .property, .ofClass interface .destructor]
  | .operatorBodies => m.identifiedOperations.map fun p => .method p.1.interface p.2
  | .propertyBodies => m.attributes.flatMap accessors
  | .functionSpec => [.ofClass interface .methods]
  | .propertySpec => [.ofClass interface .properties]
  | .constructors => [.ofClass interface .destructor, .ofClass interface .create]
  | _ => []

/-! ## Different names -/

/-- The identifiers that are parts of the name. -/
def Entity.parts : Entity → List String
  | .method interface member => [interface, member]
  | .getter interface member => [interface, member, "getter"]
  | .setter interface member => [interface, member, "setter"]
  | .ofClass interface _ => [interface]

/-- What stands behind the parts. -/
def Entity.ending : Entity → List Char
  | .ofClass _ role => '_' :: '_' :: '_' :: role.text.toList
  | _ => []

theorem Entity.toList_name (e : Entity) :
    e.name.toList = "dukky".toList ++ (e.parts.flatMap CName.part ++ e.ending) := by
  have hgetter : CName.part "getter" = "_getter".toList := by decide
  have hsetter : CName.part "setter" = "_setter".toList := by decide
  cases e <;>
    simp [Entity.name, Entity.parts, Entity.ending, symbol, classSymbol, CName.toList_symbol,
      hgetter, hsetter]

theorem Entity.endsSymbol_ending (e : Entity) : CName.EndsSymbol e.ending := by
  cases e with
  | ofClass interface role => exact .inr ⟨_, rfl⟩
  | _ => exact .inl rfl

theorem ClassRole.text_inj {r r' : ClassRole} (h : r.text = r'.text) : r = r' := by
  cases r <;> cases r' <;> first | rfl | exact absurd h (by decide)

theorem Entity.eq_of_parts {e e' : Entity} (hparts : e.parts = e'.parts)
    (hending : e.ending = e'.ending) : e = e' := by
  cases e <;> cases e' <;> simp_all [Entity.parts, Entity.ending]
  exact ClassRole.text_inj (String.toList_inj.1 hending)

/-- Names of identifiers determine what they name. -/
theorem Entity.name_inj {e e' : Entity} (h : ∀ p ∈ e.parts, isIdentifier p = true)
    (h' : ∀ p ∈ e'.parts, isIdentifier p = true) (hname : e.name = e'.name) : e = e' := by
  have hchars := congrArg String.toList hname
  rw [e.toList_name, e'.toList_name] at hchars
  obtain ⟨hparts, hending⟩ := CName.flatMap_part_append_inj h h' e.endsSymbol_ending
    e'.endsSymbol_ending (List.append_cancel_left hchars)
  exact Entity.eq_of_parts hparts hending

theorem isIdentifier_parts {interface : String} {m : Members}
    (hinterface : isIdentifier interface = true) (hm : m.IsRead) {s : Section} {e : Entity}
    (he : e ∈ entities interface m s) : ∀ p ∈ e.parts, isIdentifier p = true := by
  have hclass : ∀ role, ∀ p ∈ (Entity.ofClass interface role).parts, isIdentifier p = true :=
    fun _ => List.forall_mem_singleton.2 hinterface
  cases s with
  | operatorBodies =>
    obtain ⟨⟨o, name⟩, hp, rfl⟩ := List.mem_map.1 he
    obtain ⟨o', ho, hsome⟩ := List.mem_filterMap.1 hp
    obtain ⟨name', hname, heq⟩ := Option.map_eq_some_iff.1 hsome
    obtain ⟨rfl, rfl⟩ := Prod.mk.inj heq
    obtain ⟨b, hb, ho⟩ := List.mem_flatMap.1 ho
    obtain ⟨howner, hnames⟩ := (hm.block b hb).operations o' ho
    simpa [Entity.parts, howner, (hm.block b hb).interface] using hnames name' hname
  | propertyBodies =>
    obtain ⟨a, ha, hmem⟩ := List.mem_flatMap.1 he
    obtain ⟨b, hb, ha⟩ := List.mem_flatMap.1 ha
    obtain ⟨howner, hname⟩ := (hm.block b hb).attributes a ha
    have hwords : isIdentifier "getter" = true ∧ isIdentifier "setter" = true := by decide
    have hsetter : ∀ p ∈ (Entity.setter a.interface a.name).parts, isIdentifier p = true := by
      simp [Entity.parts, howner, (hm.block b hb).interface, hname, hwords]
    have hgetter : ∀ p ∈ (Entity.getter a.interface a.name).parts, isIdentifier p = true := by
      simp [Entity.parts, howner, (hm.block b hb).interface, hname, hwords]
    unfold accessors at hmem
    split at hmem
    · simp only [List.nil_append, List.mem_singleton] at hmem
      exact hmem ▸ hgetter
    · simp only [List.singleton_append, List.mem_cons, List.not_mem_nil, or_false] at hmem
      rcases hmem with rfl | rfl
      · exact hsetter
      · exact hgetter
  | classDescriptor =>
    simp only [entities, List.mem_cons, List.not_mem_nil, or_false] at he
    rcases he with rfl | rfl
    · exact hclass _
    · exact hclass _
  | functionSpec =>
    rw [entities, List.mem_singleton] at he
    exact he ▸ hclass _
  | propertySpec =>
    rw [entities, List.mem_singleton] at he
    exact he ▸ hclass _
  | constructors =>
    simp only [entities, List.mem_cons, List.not_mem_nil, or_false] at he
    rcases he with rfl | rfl
    · exact hclass _
    · exact hclass _
  | _ => exact absurd he (by simp [entities])

/-! ## Reading names -/

/-- Is this neither an opening parenthesis nor an opening bracket? -/
def isPlain (c : Char) : Bool := c != '(' && c != '['

/-- The name that a line declares at file scope: what follows a closing brace, or the last word in
    front of the first parenthesis or bracket if the line starts with a letter. -/
def declaredName? (cs : List Char) : Option String :=
  match behind? "\x7d " cs with
  | some rest => some (leadingName rest)
  | none =>
    let front := cs.takeWhile isPlain
    if cs.head?.any Char.isAlpha && front.length < cs.length then
      some (String.ofList (front.reverse.takeWhile CName.isNameChar).reverse)
    else none

theorem behind?_brace_of_ne {c : Char} (h : c ≠ '\x7d') (cs : List Char) :
    behind? "\x7d " (c :: cs) = none := by
  have hne : '\x7d' ≠ c := fun heq => h heq.symm
  simp [behind?, hne]

theorem declaredName?_eq_none {c : Char} (hbrace : c ≠ '\x7d') (hstart : c.isAlpha = false)
    (cs : List Char) : declaredName? (c :: cs) = none := by
  rw [declaredName?, behind?_brace_of_ne hbrace]
  simp [hstart]

@[simp] theorem declaredName?_nil : declaredName? [] = none := rfl

@[simp] theorem declaredName?_tab (cs : List Char) : declaredName? ('\t' :: cs) = none :=
  declaredName?_eq_none (by decide) (by decide) cs

@[simp] theorem declaredName?_brace : declaredName? ['\x7d'] = none := rfl

/-- Is this a text of words, the first of which starts with a letter? -/
def isWords (text : String) : Bool :=
  text.toList.head?.any Char.isAlpha && text.toList.all fun c => CName.isNameChar c || c == ' '

theorem isWords_append {first name : String} (h : isWords first = true)
    (hname : name.toList.all CName.isNameChar = true) : isWords (first ++ name) = true := by
  rw [isWords, Bool.and_eq_true, List.all_eq_true] at h ⊢
  rw [String.toList_append]
  refine ⟨?_, fun c hc => ?_⟩
  · cases hchars : first.toList with
    | nil => exact absurd h.1 (by simp [hchars])
    | cons c cs => simpa [hchars] using h.1
  · rcases List.mem_append.1 hc with hc | hc
    · exact h.2 c hc
    · simp [List.all_eq_true.1 hname c hc]

theorem isPlain_of_isNameChar {c : Char} (h : CName.isNameChar c = true) : isPlain c = true := by
  have hne : c ≠ '(' ∧ c ≠ '[' := by
    constructor <;> rintro rfl <;> exact absurd h (by decide)
  simp [isPlain, hne]

theorem declaredName?_eq_some (first : String) {name : String} (hfirst : isWords first = true)
    (hname : name.toList.all CName.isNameChar = true) {b : Char} (hb : isPlain b = false)
    (rest : List Char) :
    declaredName? (first.toList ++ ' ' :: (name.toList ++ b :: rest)) = some name := by
  rw [isWords, Bool.and_eq_true] at hfirst
  obtain ⟨hhead, hwords⟩ := hfirst
  obtain ⟨c, cs, hc⟩ : ∃ c cs, first.toList = c :: cs := by
    cases h : first.toList with
    | nil => exact absurd hhead (by simp [h])
    | cons c cs => exact ⟨c, cs, rfl⟩
  have hstart : c.isAlpha = true := by simpa [hc] using hhead
  have hbrace : behind? "\x7d " (first.toList ++ ' ' :: (name.toList ++ b :: rest)) = none := by
    rw [hc]
    refine behind?_brace_of_ne ?_ _
    rintro rfl
    exact absurd hstart (by decide)
  have hplain : ∀ d ∈ first.toList ++ ' ' :: name.toList, isPlain d = true := by
    intro d hd
    rcases List.mem_append.1 hd with hd | hd
    · have hword := List.all_eq_true.1 hwords d hd
      rw [Bool.or_eq_true, beq_iff_eq] at hword
      rcases hword with hword | rfl
      · exact isPlain_of_isNameChar hword
      · decide
    · rcases List.mem_cons.1 hd with rfl | hd
      · decide
      · exact isPlain_of_isNameChar (List.all_eq_true.1 hname d hd)
  have hfront : (first.toList ++ ' ' :: (name.toList ++ b :: rest)).takeWhile isPlain
      = first.toList ++ ' ' :: name.toList := by
    rw [← List.cons_append, ← List.append_assoc, List.takeWhile_append_of_pos hplain,
      List.takeWhile_cons_of_neg (by simp [hb]), List.append_nil]
  -- the last word is the first one of the reversed front
  have hword : (first.toList ++ ' ' :: name.toList).reverse.takeWhile CName.isNameChar
      = name.toList.reverse := by
    rw [List.reverse_append, List.reverse_cons, List.append_assoc, List.singleton_append,
      List.takeWhile_append_of_pos (by simpa using List.all_eq_true.1 hname),
      List.takeWhile_cons_of_neg (by decide), List.append_nil]
  have hcond : ((first.toList ++ ' ' :: (name.toList ++ b :: rest)).head?.any Char.isAlpha &&
      decide ((first.toList ++ ' ' :: name.toList).length
        < (first.toList ++ ' ' :: (name.toList ++ b :: rest)).length)) = true := by
    simp [hc, hstart]
  rw [declaredName?, hbrace]
  dsimp only
  rw [hfront, if_pos hcond, hword, List.reverse_reverse, String.ofList_toList]

/-! ## Functions and tables -/

theorem readsFunctions_declaredName? : ReadsFunctions declaredName? where
  function h := by
    have hname := declaredName?_eq_some "static duk_ret_t" (by decide) h (b := '(') (by decide)
      "duk_context *ctx)".toList
    simpa using hname
  banner _ := rfl
  body := by decide

variable {m : Members}

theorem reads_rowBanner_declaredName? {interface : String} (h : isIdentifier interface = true) :
    Reads declaredName? (Row.banner interface).text [] :=
  reads_blockBanner h "\t" (by decide) fun _ => rfl

/-- Rows declare nothing. -/
theorem Columns.declares_nothing {text name b c : String}
    (h : Columns text (labelColumn name) b c) : Reads declaredName? text [] := by
  have hreads := h.reads declaredName?
  have hrow : declaredName? ((labelColumn name).toList ++
      ',' :: (b.toList ++ ',' :: (c.toList ++ ',' :: []))) = none := by
    simp [labelColumn]
  rwa [hrow] at hreads

/-- What opens a table declares it. -/
theorem reads_table (first : String) {name : String} (hfirst : isWords first = true)
    (hname : name.toList.all CName.isNameChar = true) :
    Reads declaredName? (first ++ " " ++ name ++ "[] = \x7b\n") [name] := by
  have hnewline : '\n' ∉ first.toList := by
    rw [isWords, Bool.and_eq_true, List.all_eq_true] at hfirst
    exact fun hmem => absurd (hfirst.2 _ hmem) (by decide)
  have hline : Reads declaredName? (first ++ " " ++ name ++ "[] = \x7b\n") _ :=
    Reads.line (first.toList ++ ' ' :: (name.toList ++ '[' :: "] = \x7b".toList)) (by simp)
      (by simp [hnewline, notMem_of_isNameChar hname (c := '\n') (by decide)])
  rwa [declaredName?_eq_some first hfirst hname (by decide)] at hline

theorem declares_functionSpec (h : m.IsRead) (interface : String) :
    readLines declaredName? (functionSpec interface m) = [classSymbol interface "methods"] := by
  have hhead := reads_table "static const duk_function_list_entry" (by decide)
    (isNameChar_classSymbol interface "methods" (by decide))
  have hrow : ∀ {interface name : String} {arity? : Option Nat}, isIdentifier name = true →
      Reads declaredName? (Row.method name (symbol interface name) arity?).text [] := by
    intro interface name arity? hname
    obtain ⟨_, hcolumns⟩ := columns_methodRow hname interface arity?
    exact hcolumns.declares_nothing
  have hrows := reads_methodRows reads_rowBanner_declaredName? h (fun _ _ => []) hrow
  have htail : Reads declaredName? "\t\x7b NULL, NULL, 0 \x7d\n\x7d;\n\n" [] :=
    Reads.silent ["\t\x7b NULL, NULL, 0 \x7d", "\x7d;", ""] (by decide)
  rw [List.flatMap_eq_nil_iff.2 fun _ _ => rfl] at hrows
  exact hhead.table hrows htail rfl

theorem declares_propertySpec (h : m.IsRead) (interface : String) :
    readLines declaredName? (propertySpec interface m) = [classSymbol interface "properties"] := by
  have hwords : isWords ("static const " ++ classSymbol interface "property") = true :=
    isWords_append (by decide) (isNameChar_classSymbol interface "property" (by decide))
  have hhead := reads_table _ hwords (isNameChar_classSymbol interface "properties" (by decide))
  have hrows := reads_propertyRows reads_rowBanner_declaredName? h (fun _ => [])
    fun hname => (columns_propertyRow hname).declares_nothing
  have htail : Reads declaredName? "\t\x7b NULL, NULL, NULL \x7d\n\x7d;\n\n" [] :=
    Reads.silent ["\t\x7b NULL, NULL, NULL \x7d", "\x7d;", ""] (by decide)
  rw [List.flatMap_eq_nil_iff.2 fun _ _ => rfl] at hrows
  exact hhead.table hrows htail rfl

/-! ## The class -/

theorem declaredName?_closing {name : String} (h : name.toList.all CName.isNameChar = true) :
    declaredName? ('\x7d' :: ' ' :: (name.toList ++ [';'])) = some name :=
  congrArg some (leadingName_append h rfl)

theorem declares_classDescriptor {interface : String} (h : isIdentifier interface = true) :
    readLines declaredName? (classDescriptor interface)
      = [classSymbol interface "property", classSymbol interface "destructor"] := by
  have hproperty := isNameChar_classSymbol interface "property" (by decide)
  have hdestructor := isNameChar_classSymbol interface "destructor" (by decide)
  have hreads : Reads declaredName? (classDescriptor interface) _ := Reads.lines (by
    simp [notMem_of_isIdentifier h (c := '\n') (by decide), notMem_privateKey,
      notMem_classSymbol interface "property" (by decide),
      notMem_classSymbol interface "destructor" (by decide)])
  have hprototype := declaredName?_eq_some "static duk_ret_t" (by decide) hdestructor (b := '(')
    (by decide) "duk_context *ctx);".toList
  have hopening : declaredName? "typedef struct \x7b".toList = none := by decide
  rw [hreads.readLines_eq rfl]
  -- both lines by their characters, as simp has them in the goal
  simp at hprototype hopening
  simp [declaredName?_eq_none, declaredName?_closing hproperty, hprototype, hopening]

/-! ## Constructors -/

/-- The first line of the constructor, as far as the parameters for private fields. -/
def createHead (interface : String) : String :=
  "duk_ret_t " ++ classSymbol interface "create" ++ "(duk_context *ctx"

theorem reads_createHead (interface : String) {c : Char} (hc : c ≠ '\n') {text : String}
    (htext : text.toList = (createHead interface).toList ++ [c, '\n']) :
    Reads declaredName? text [classSymbol interface "create"] := by
  have hcreate := isNameChar_classSymbol interface "create" (by decide)
  have hline : Reads declaredName? text _ := Reads.line
    ("duk_ret_t".toList ++ ' ' ::
      ((classSymbol interface "create").toList ++ '(' :: ("duk_context *ctx".toList ++ [c])))
    (by simp [htext, createHead])
    (by simp [notMem_of_isNameChar hcreate (c := '\n') (by decide), hc.symm])
  rwa [declaredName?_eq_some "duk_ret_t" (by decide) hcreate (by decide)] at hline

/-- A field that is written on one line. -/
def OnOneLine (f : PrivateField) : Prop := '\n' ∉ f.ctype.toList ∧ '\n' ∉ f.name.toList

theorem OnOneLine.declaration {f : PrivateField} (h : OnOneLine f) :
    '\n' ∉ f.declaration.toList := PrivateField.newline_notMem_declaration h.1 h.2

theorem indented_declares_nothing (cs : List Char) {text : String}
    (htext : text.toList = '\t' :: (cs ++ ['\n'])) (hcs : '\n' ∉ cs) :
    Reads declaredName? text [] := by
  have hline : Reads declaredName? text _ :=
    Reads.line ('\t' :: cs) htext (by simp [hcs])
  rwa [declaredName?_tab] at hline

/-- Parameters stand on lines of their own, each of which starts with a tab. -/
theorem parameters_declare_nothing {fields : List PrivateField} (h : ∀ f ∈ fields, OnOneLine f)
    (line : String) (hline : '\n' ∉ line.toList) :
    Reads declaredName? ("\t" ++ line ++ String.join (fields.map parameter) ++ ")\n") [] := by
  induction fields generalizing line with
  | nil => exact indented_declares_nothing (line.toList ++ [')']) (by simp) (by simp [hline])
  | cons f fields ih =>
    obtain ⟨hf, hfields⟩ := List.forall_mem_cons.1 h
    have hfirst : Reads declaredName? ("\t" ++ line ++ ",\n") [] :=
      indented_declares_nothing (line.toList ++ [',']) (by simp) (by simp [hline])
    have hothers := ih hfields ("\t" ++ f.declaration) (by simp [hf.declaration])
    have htext : "\t" ++ line ++ String.join ((f :: fields).map parameter) ++ ")\n"
        = "\t" ++ line ++ ",\n" ++
          ("\t" ++ ("\t" ++ f.declaration) ++ String.join (fields.map parameter) ++ ")\n") :=
      String.toList_inj.1 (by simp [parameter, String.join_cons])
    rw [htext]
    exact hfirst.append hothers

theorem assignments_declare_nothing {fields : List PrivateField}
    (h : ∀ f ∈ fields, OnOneLine f) :
    Reads declaredName? (String.join (fields.map assignment)) [] := by
  have hassignment : ∀ f ∈ fields, Reads declaredName? (assignment f) [] := fun f hf =>
    indented_declares_nothing
      ("priv->".toList ++ f.name.toList ++ " = ".toList ++ f.name.toList ++ [';'])
      (by simp [assignment]) (by simp [(h f hf).2])
  have hreads := Reads.join hassignment
  rwa [List.flatMap_eq_nil_iff.2 fun _ _ => rfl] at hreads

/-- The first line of the constructor declares it, whatever the fields are. Behind that line fields
    on one line each declare nothing. -/
theorem declares_create (interface : String) (fields : List PrivateField) (rest : String) :
    ∃ found, readLines declaredName?
        (createHead interface ++ String.join (fields.map parameter) ++ ")\n" ++ rest)
          = classSymbol interface "create" :: found ∧
      ((∀ f ∈ fields, OnOneLine f) → found = readLines declaredName? rest) := by
  cases fields with
  | nil =>
    have hhead : Reads declaredName?
        (createHead interface ++ String.join ([].map parameter) ++ ")\n") _ :=
      reads_createHead interface (c := ')') (by decide) (by simp)
    exact ⟨_, hhead rest, fun _ => rfl⟩
  | cons f fields =>
    have hhead : Reads declaredName? (createHead interface ++ ",\n") _ :=
      reads_createHead interface (c := ',') (by decide) (by simp)
    have htext : createHead interface ++ String.join ((f :: fields).map parameter) ++ ")\n" ++ rest
        = createHead interface ++ ",\n" ++ ("\t" ++ ("\t" ++ f.declaration) ++
          String.join (fields.map parameter) ++ ")\n" ++ rest) :=
      String.toList_inj.1 (by simp [parameter, String.join_cons])
    rw [htext]
    refine ⟨_, hhead _, fun h => ?_⟩
    obtain ⟨hf, hfields⟩ := List.forall_mem_cons.1 h
    exact parameters_declare_nothing hfields _ (by simp [hf.declaration]) rest

/-- The constructor behind the destructor, for any lines of their bodies that declare nothing. -/
theorem declares_constructorBodies (interface : String) (fields : List PrivateField)
    {destructorLines opening closing : List String} {found : List String}
    (hdestructor : Reads declaredName? (unlines destructorLines) found)
    (hopening : ∀ l ∈ opening, '\n' ∉ l.toList ∧ declaredName? l.toList = none)
    (hclosing : ∀ l ∈ closing, '\n' ∉ l.toList ∧ declaredName? l.toList = none) :
    ∃ others, readLines declaredName?
        (unlines destructorLines ++ "duk_ret_t " ++ classSymbol interface "create" ++
          "(duk_context *ctx" ++ String.join (fields.map parameter) ++ unlines (")" :: opening) ++
          String.join (fields.map assignment) ++ unlines closing)
          = found ++ classSymbol interface "create" :: others ∧
      ((∀ f ∈ fields, OnOneLine f) → others = []) := by
  obtain ⟨others, hothers, hnone⟩ := declares_create interface fields
    (unlines opening ++ String.join (fields.map assignment) ++ unlines closing)
  refine ⟨others, ?_, fun h => ?_⟩
  · rw [← hothers, ← hdestructor]
    exact congrArg _ (String.toList_inj.1 (by simp [createHead, unlines_cons]))
  · rw [hnone h]
    exact (((Reads.silent opening hopening).append (assignments_declare_nothing h)).append
      (Reads.silent closing hclosing)).readLines_eq rfl

theorem declares_constructors (interface : String) (fields : List PrivateField) :
    ∃ others, readLines declaredName? (constructors interface fields)
        = [classSymbol interface "destructor"] ++ classSymbol interface "create" :: others ∧
      ((∀ f ∈ fields, OnOneLine f) → others = []) := by
  have hdestructor := isNameChar_classSymbol interface "destructor" (by decide)
  have hnewline := notMem_classSymbol interface "destructor" (by decide)
  have hmethods := notMem_classSymbol interface "methods" (by decide)
  have hproperties := notMem_classSymbol interface "properties" (by decide)
  have hstruct : '\n' ∉ (symbol interface "private").toList :=
    notMem_of_isNameChar (isNameChar_symbol interface "private") (by decide)
  refine declares_constructorBodies interface fields ?_ ?_ ?_
  · exact readsFunctions_declaredName?.definition rfl hdestructor
      (by simp [declaredName?_eq_none, hstruct, notMem_privateKey])
  · simp [declaredName?_eq_none, hstruct]
  · simp [notMem_privateKey, hnewline, hmethods, hproperties]

/-! ## Names of members and class -/

variable {d : Descriptor}

theorem map_name_accessors (a : ResolvedAttribute) :
    (accessors a).map Entity.name = (linkage.entry a).stubs := by
  unfold accessors PropertyEntry.stubs Linkage.entry
  cases a.readOnly <;> rfl

/-- What is read off the sections that list members, and off the class descriptor. -/
theorem declares_section (h : m.IsRead) (hname : isIdentifier d.interface = true)
    (hm : d.members = .ok m) {s : Section} (hs : s.listsMembers = true ∨ s = .classDescriptor) :
    readLines declaredName? (emit s d).text = (entities d.interface m s).map Entity.name := by
  cases s with
  | classDescriptor => exact declares_classDescriptor hname
  | operatorBodies =>
    simp only [emit, hm, Emission.ofExcept, entities, List.map_map]
    exact (readsFunctions_declaredName?.operatorStubs h).readLines_eq rfl
  | propertyBodies =>
    simp only [emit, hm, Emission.ofExcept, entities, List.map_flatMap, map_name_accessors]
    exact (readsFunctions_declaredName?.propertyStubs h).readLines_eq rfl
  | functionSpec =>
    simp only [emit, hm, Emission.ofExcept]
    exact declares_functionSpec h d.interface
  | propertySpec =>
    simp only [emit, hm, Emission.ofExcept]
    exact declares_propertySpec h d.interface
  | _ => exact absurd hs (by simp [Section.listsMembers])

/-- For the members to which a name resolves in a document of sources. The names that are read at
    file scope off the class descriptor and off the sections that list members are those of what
    these sections declare, in order. Of the constructors the two functions are read first; only
    fields that are not on one line each can have C code that is read behind them. Two names are
    equal only if they name the same method, getter or setter of the same definition, or the same
    role of the class. More generally, a symbol determines the identifiers that are its parts. -/
theorem fileScope_names_distinct {sources : List String} {d : Descriptor} {m : Members}
    (hparsed : d.definitions = (Document.ofSources sources).toNodes)
    (hresolve : resolve d.definitions d.interface = .ok m) :
    (∀ s, s.listsMembers = true ∨ s = .classDescriptor →
      readLines declaredName? (emit s d).text = (entities d.interface m s).map Entity.name) ∧
    (∀ fields, d.privateFields = .ok fields → ∃ others,
      readLines declaredName? (emit .constructors d).text
        = (entities d.interface m .constructors).map Entity.name ++ others ∧
      ((∀ f ∈ fields, OnOneLine f) → others = [])) ∧
    (∀ s s', ∀ e ∈ entities d.interface m s, ∀ e' ∈ entities d.interface m s',
      e.name = e'.name → e = e') ∧
    ∀ start parts parts', (∀ p ∈ parts, isIdentifier p = true) →
      (∀ p ∈ parts', isIdentifier p = true) →
      CName.symbol start parts = CName.symbol start parts' → parts = parts' := by
  have hm := members_of_ok hresolve
  rw [hparsed] at hresolve
  obtain ⟨hname, hread⟩ := isRead_of_resolve hresolve
  refine ⟨fun s hs => declares_section hread hname hm hs, fun fields hfields => ?_,
    fun s s' e he e' he' => Entity.name_inj (isIdentifier_parts hname hread he)
      (isIdentifier_parts hname hread he'),
    fun start parts parts' h h' => CName.symbol_inj h h'⟩
  obtain ⟨others, hothers, hnone⟩ := declares_constructors d.interface fields
  simp only [emit, hfields, Emission.ofExcept]
  exact ⟨others, hothers, hnone⟩

/-- Tabs and lists of them. Without escapes an item of a list and a list item of a tab would have
    the same symbol. -/
def tabSource : String :=
  "interface Tab_list : Tab \x7b void item(); readonly attribute long create; \x7d;
   interface Tab \x7b void list_item(); void create(); \x7d;"

/-- A list of tabs is bound. -/
def tabList : Descriptor where
  statements := []
  definitions := (Document.ofSources [tabSource]).toNodes
  block := .list .binding
    [.list .bindingPrivate [.text .string "struct tab *", .text .ident "tabs"]]
  name := "tabs"
  interface := "Tab_list"
  bindingType? := none

/-- The members of a list of tabs. -/
def tabListMembers : Members where
  kind := .interface
  chain := ["Tab_list", "Tab"]
  blocks :=
    [⟨"Tab_list", [.operation ⟨"Tab_list", some "item", [], []⟩,
        .attribute ⟨"Tab_list", "create", true,
          some (.list .type [.int .typeBase WebIdl.BaseType.long.code])⟩]⟩,
     ⟨"Tab", [.operation ⟨"Tab", some "list_item", [], []⟩,
        .operation ⟨"Tab", some "create", [], []⟩]⟩]

/-- An operation and an attribute have the name of a role of the class. -/
theorem fileScope_names_distinct_tabList :
    tabList.definitions = (Document.ofSources [tabSource]).toNodes ∧
    resolve tabList.definitions tabList.interface = .ok tabListMembers ∧
    readLines declaredName? (emit .operatorBodies tabList).text
      = ["dukky_Tab_1list_item", "dukky_Tab_list_1item", "dukky_Tab_create"] ∧
    readLines declaredName? (emit .propertyBodies tabList).text
      = ["dukky_Tab_1list_create_getter"] ∧
    readLines declaredName? (emit .constructors tabList).text
      = ["dukky_Tab_1list___destructor", "dukky_Tab_1list___create"] := by
  have hresolve : resolve tabList.definitions tabList.interface = .ok tabListMembers := by
    decide +kernel
  have hparsed : tabList.definitions = (Document.ofSources [tabSource]).toNodes := rfl
  obtain ⟨hsections, hconstructors, -, -⟩ := fileScope_names_distinct hparsed hresolve
  obtain ⟨others, hothers, hnone⟩ := hconstructors [⟨"struct tab *", "tabs"⟩] rfl
  have hlines : ∀ f ∈ [PrivateField.mk "struct tab *" "tabs"], OnOneLine f := by
    simp [OnOneLine]
  rw [hsections .operatorBodies (.inl rfl), hsections .propertyBodies (.inl rfl), hothers,
    hnone hlines, List.append_nil]
  exact ⟨hparsed, hresolve, by decide +kernel, by decide +kernel, by decide +kernel⟩

end IdlBind.Duktape
