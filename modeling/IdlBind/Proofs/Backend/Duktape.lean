import IdlBind.Proofs.Backend.Linkage
import IdlBind.Proofs.Members.Names

set_option autoImplicit false

/-! # Stubs and rows for Duktape

A stub is a C function, and tables hold the names of functions in columns with commas behind them.
Symbols hold no commas, so that every row is read back (`reads_methodRow`, `reads_propertyRow`). -/

namespace IdlBind.Duktape

/-! ## Reading lines -/

/-- The function whose definition a line starts. -/
def body? (cs : List Char) : Option String := nameBehind? "static duk_ret_t " cs

/-- The columns of a row, each with a comma behind it. -/
def columns? (cs : List Char) : Option (List Char × List Char × List Char) :=
  match cs.splitOn ',' with
  | [first, second, third, []] => some (first, second, third)
  | _ => none

/-- The symbol in the second column of a row. -/
def rowStub? (cs : List Char) : Option String :=
  (columns? cs).map fun (_, symbol, _) => leadingName (symbol.drop 1)

/-- The name in quotes in the first column of a row, and the symbols in the others. -/
def entryOfColumns (columns : List Char × List Char × List Char) : PropertyEntry :=
  let (label, getter, setter) := columns
  let setter := leadingName (setter.drop 1)
  ⟨String.ofList ((label.drop 4).takeWhile (· != '"')), leadingName (getter.drop 1),
    if setter = "NULL" then none else some setter⟩

/-- The entry of a row. -/
def rowAccessors? (cs : List Char) : Option PropertyEntry := (columns? cs).map entryOfColumns

/-- Stubs are functions, and tables hold their names. -/
def linkage : Linkage where
  backend := backend
  label := id
  method interface member := symbol interface member
  getter interface member := symbol interface member ++ "_getter"
  setter interface member := symbol interface member ++ "_setter"
  body? := body?
  rowStub? := rowStub?
  rowAccessors? := rowAccessors?

/-! ## Symbols -/

variable {m : Members}

theorem isNameChar_symbol (interface member : String) :
    (symbol interface member).toList.all CName.isNameChar = true :=
  CName.isNameChar_of_mem_symbol (by decide) [interface, member]

theorem isNameChar_append {name suffix : String} (h : name.toList.all CName.isNameChar = true)
    (hsuffix : suffix.toList.all CName.isNameChar = true) :
    (name ++ suffix).toList.all CName.isNameChar = true := by
  rw [String.toList_append, List.all_append, h, hsuffix, Bool.true_and]

theorem isNameChar_classSymbol (interface role : String)
    (h : role.toList.all CName.isNameChar = true) :
    (classSymbol interface role).toList.all CName.isNameChar = true :=
  isNameChar_append (isNameChar_append
    (CName.isNameChar_of_mem_symbol (by decide) [interface]) (by decide)) h

theorem notMem_classSymbol (interface role : String)
    (h : role.toList.all CName.isNameChar = true) : '\n' ∉ (classSymbol interface role).toList :=
  notMem_of_isNameChar (isNameChar_classSymbol interface role h) (by decide)

theorem isNameChar_toUpper {c : Char} (h : CName.isNameChar c = true) :
    CName.isNameChar c.toUpper = true := by
  unfold Char.toUpper
  split
  case isTrue hlower =>
    obtain ⟨hle, hge⟩ : 97 ≤ c.val.toNat ∧ c.val.toNat ≤ 122 := hlower
    have hdiff : ('A'.val - 'a'.val).toNat = 4294967264 := by decide
    have hval : (c.val + ('A'.val - 'a'.val)).toNat = c.val.toNat - 32 := by
      rw [UInt32.toNat_add, hdiff]
      omega
    have hupper : 65 ≤ (c.val + ('A'.val - 'a'.val)).toNat ∧
        (c.val + ('A'.val - 'a'.val)).toNat ≤ 90 := by omega
    refine CName.isNameChar_of_isAlphanum ?_
    exact (Bool.or_eq_true _ _).mpr (.inl ((Bool.or_eq_true _ _).mpr (.inl (decide_eq_true hupper))))
  case isFalse => exact h

theorem isNameChar_privateKey (interface : String) :
    (privateKey interface).toList.all CName.isNameChar = true := by
  refine isNameChar_append (isNameChar_append (by decide) ?_) (by decide)
  rw [String.toList_map, List.all_map, List.all_eq_true]
  exact fun c hc => isNameChar_toUpper (CName.isNameChar_of_mem_escape hc)

theorem notMem_privateKey (interface : String) : '\n' ∉ (privateKey interface).toList :=
  notMem_of_isNameChar (isNameChar_privateKey interface) (by decide)

/-! ## Stubs -/

/-- The lines of bodies behind the first. -/
def bodyLines : List String :=
  ["\x7b", "\treturn 0;", "\tduk_push_undefined(ctx);", "\treturn 1;", "\x7d", ""]

/-- Of all lines of the stubs, those that start the definition of a function give its name. -/
structure ReadsFunctions (read : List Char → Option String) : Prop where
  function : ∀ {name : String}, name.toList.all CName.isNameChar = true →
    read ("static duk_ret_t " ++ name ++ "(duk_context *ctx)").toList = some name
  banner : ∀ cs, read ("/**** ".toList ++ cs) = none
  body : ∀ l ∈ bodyLines, read l.toList = none

theorem readsFunctions_body? : ReadsFunctions body? where
  function h := nameBehind?_line "static duk_ret_t " h (by decide)
  banner _ := rfl
  body := by decide

variable {read : List Char → Option String}

/-- A body defines the function whose name its first line shows. -/
theorem ReadsFunctions.definition (hread : ReadsFunctions read) {name first : String}
    {others : List String} (hfirst : first = "static duk_ret_t " ++ name ++ "(duk_context *ctx)")
    (h : name.toList.all CName.isNameChar = true)
    (hothers : ∀ l ∈ others, '\n' ∉ l.toList ∧ read l.toList = none) :
    Reads read (unlines (first :: others)) [name] := by
  have hnewline : '\n' ∉ first.toList := by
    simp [hfirst, notMem_of_isNameChar h (c := '\n') (by decide)]
  have hlines := Reads.first hnewline hothers
  rwa [hfirst, hread.function h, ← hfirst] at hlines

theorem ReadsFunctions.stub (hread : ReadsFunctions read) {name first : String}
    {others : List String} (hfirst : first = "static duk_ret_t " ++ name ++ "(duk_context *ctx)")
    (h : name.toList.all CName.isNameChar = true) (hothers : ∀ l ∈ others, l ∈ bodyLines) :
    Reads read (unlines (first :: others)) [name] := by
  have hnewline : ∀ l ∈ bodyLines, '\n' ∉ l.toList := by decide
  exact hread.definition hfirst h fun l hl =>
    ⟨hnewline l (hothers l hl), hread.body l (hothers l hl)⟩

theorem ReadsFunctions.method (hread : ReadsFunctions read) (interface member : String) :
    Reads read (Stub.method (symbol interface member)).text
      [linkage.method interface member] :=
  hread.stub rfl (isNameChar_symbol interface member) (by decide)

theorem ReadsFunctions.setter (hread : ReadsFunctions read) (interface member : String) :
    Reads read (Stub.setter (symbol interface member)).text
      [linkage.setter interface member] :=
  hread.stub (by simp only [linkage, String.append_assoc]; rfl)
    (isNameChar_append (isNameChar_symbol interface member) (by decide)) (by decide)

theorem ReadsFunctions.getter (hread : ReadsFunctions read) (interface member : String) :
    Reads read (Stub.getter (symbol interface member)).text
      [linkage.getter interface member] :=
  hread.stub (by simp only [linkage, String.append_assoc]; rfl)
    (isNameChar_append (isNameChar_symbol interface member) (by decide)) (by decide)

theorem ReadsFunctions.stubBanner (hread : ReadsFunctions read) {interface : String}
    (h : isIdentifier interface = true) : Reads read (Stub.banner interface).text [] := by
  have hbanner := reads_blockBanner h "" (by decide) hread.banner
  rwa [String.empty_append] at hbanner

theorem ReadsFunctions.attributeStubs (hread : ReadsFunctions read) (a : ResolvedAttribute) :
    Reads read (String.join ((attributeStubs a).map Stub.text)) (linkage.entry a).stubs := by
  unfold Duktape.attributeStubs PropertyEntry.stubs Linkage.entry
  dsimp only
  have hgetter := hread.getter a.interface a.name
  split
  · simpa using hgetter
  · simpa using (hread.setter a.interface a.name).append hgetter

theorem identifiedOperations_of_dictionary (h : m.IsRead) (hkind : m.kind = .dictionary) :
    m.identifiedOperations = [] := by
  rw [Members.identifiedOperations, h.dictionary hkind, List.filterMap_nil]

theorem ReadsFunctions.operatorStubs (hread : ReadsFunctions read) (h : m.IsRead) :
    Reads read (String.join ((operatorStubs m).map Stub.text))
      (m.identifiedOperations.map fun p => linkage.method p.1.interface p.2) := by
  unfold Duktape.operatorStubs
  cases hkind : m.kind with
  | dictionary =>
    rw [identifiedOperations_of_dictionary h hkind]
    exact Reads.nil
  | interface =>
    have hreads := reads_operations Stub.banner
      (fun o name => .method (symbol o.interface name))
      (fun o name => [linkage.method o.interface name])
      (fun b hb => hread.stubBanner (h.block b hb).interface)
      (fun _ _ o _ name _ => hread.method o.interface name)
    rwa [← List.map_eq_flatMap] at hreads

theorem ReadsFunctions.propertyStubs (hread : ReadsFunctions read) (h : m.IsRead) :
    Reads read (String.join ((propertyStubs m).map Stub.text))
      (m.attributes.flatMap fun a => (linkage.entry a).stubs) :=
  reads_attributes Stub.banner Duktape.attributeStubs _
    (fun b hb => hread.stubBanner (h.block b hb).interface)
    (fun _ _ a _ => hread.attributeStubs a)

/-! ## Rows -/

/-- May a text stand in a column? -/
def isColumn (text : String) : Bool := !text.toList.contains ',' && !text.toList.contains '\n'

theorem isColumn_iff (text : String) :
    isColumn text = true ↔ ',' ∉ text.toList ∧ '\n' ∉ text.toList := by
  simp [isColumn]

theorem isColumn_append {a b : String} (ha : isColumn a = true) (hb : isColumn b = true) :
    isColumn (a ++ b) = true := by
  rw [isColumn_iff] at *
  simp [ha, hb]

theorem isColumn_of_isNameChar {name : String} (h : name.toList.all CName.isNameChar = true) :
    isColumn name = true :=
  (isColumn_iff name).2 ⟨notMem_of_isNameChar h (by decide), notMem_of_isNameChar h (by decide)⟩

theorem isColumn_of_isIdentifier {name : String} (h : isIdentifier name = true) :
    isColumn name = true :=
  (isColumn_iff name).2
    ⟨notMem_of_isIdentifier h (by decide), notMem_of_isIdentifier h (by decide)⟩

theorem isColumn_toString (n : Nat) : isColumn (toString n) = true := by
  have hdigit : ∀ c ∈ (toString n).toList, c.isDigit = true := by
    rw [Nat.toString_eq_ofList_toDigits, String.toList_ofList]
    exact fun c => Nat.isDigit_of_mem_toDigits (by decide) (by decide)
  exact (isColumn_iff _).2
    ⟨fun h => absurd (hdigit _ h) (by decide), fun h => absurd (hdigit _ h) (by decide)⟩

/-- A row of three columns, each with a comma behind it. -/
structure Columns (text a b c : String) : Prop where
  text_eq : text = a ++ "," ++ b ++ "," ++ c ++ ",\n"
  first : isColumn a = true
  second : isColumn b = true
  third : isColumn c = true

variable {α : Type} {text a b c : String}

/-- A row is a line of its own. -/
theorem Columns.reads (read : List Char → Option α) (h : Columns text a b c) :
    Reads read text
      (read (a.toList ++ ',' :: (b.toList ++ ',' :: (c.toList ++ ',' :: [])))).toList := by
  obtain ⟨rfl, ha, hb, hc⟩ := h
  rw [isColumn_iff] at ha hb hc
  exact Reads.line _ (by simp) (by simp [ha.2, hb.2, hc.2])

/-- A row of three columns is read by its columns. -/
theorem Columns.reads_entry (entry : List Char × List Char × List Char → α)
    (h : Columns text a b c) :
    Reads (fun cs => (columns? cs).map entry) text [entry (a.toList, b.toList, c.toList)] := by
  have hcolumns : columns? (a.toList ++ ',' :: (b.toList ++ ',' :: (c.toList ++ ',' :: [])))
      = some (a.toList, b.toList, c.toList) := by
    rw [columns?, List.splitOn_append_cons_self_of_not_mem ((isColumn_iff a).1 h.first).1,
      List.splitOn_append_cons_self_of_not_mem ((isColumn_iff b).1 h.second).1,
      List.splitOn_append_cons_self_of_not_mem ((isColumn_iff c).1 h.third).1, List.splitOn_nil]
  have hreads := h.reads fun cs => (columns? cs).map entry
  rwa [hcolumns] at hreads

/-- The column of a name that is shown. -/
def labelColumn (name : String) : String := "\t\x7b \"" ++ name ++ "\""

theorem isColumn_labelColumn {name : String} (h : isIdentifier name = true) :
    isColumn (labelColumn name) = true :=
  isColumn_append (isColumn_append (by decide) (isColumn_of_isIdentifier h)) (by decide)

/-- A C name in a column, with a blank in front of it. -/
theorem leadingName_column {name tail : String} (h : name.toList.all CName.isNameChar = true)
    (htail : tail.toList.takeWhile CName.isNameChar = []) :
    leadingName ((" " ++ name ++ tail).toList.drop 1) = name := by
  have hcs : (" " ++ name ++ tail).toList.drop 1 = name.toList ++ tail.toList := by simp
  rw [hcs, leadingName_append h htail]

theorem isColumn_name {name tail : String} (h : name.toList.all CName.isNameChar = true)
    (htail : isColumn tail = true) : isColumn (" " ++ name ++ tail) = true :=
  isColumn_append (isColumn_append (by decide) (isColumn_of_isNameChar h)) htail

/-- The columns of a method: the name, the symbol and the arity. -/
theorem columns_methodRow {name : String} (hname : isIdentifier name = true) (interface : String)
    (arity? : Option Nat) :
    ∃ arity, Columns (Row.method name (symbol interface name) arity?).text (labelColumn name)
      (" " ++ symbol interface name ++ "") (" " ++ arity ++ " \x7d") := by
  obtain ⟨arity, harity, htext⟩ : ∃ arity : String, isColumn arity = true ∧
      (Row.method name (symbol interface name) arity?).text
        = "\t\x7b \"" ++ name ++ "\", " ++ symbol interface name ++ ", " ++ arity ++
          " \x7d,\n" := by
    cases arity? with
    | none => exact ⟨"DUK_VARARGS", by decide, rfl⟩
    | some n => exact ⟨toString n, isColumn_toString n, rfl⟩
  exact ⟨arity, htext.trans (String.toList_inj.1 (by simp [labelColumn])),
    isColumn_labelColumn hname, isColumn_name (isNameChar_symbol interface name) (by decide),
    isColumn_append (isColumn_append (by decide) harity) (by decide)⟩

/-- The name in the column of the setter. -/
def setterName (a : ResolvedAttribute) : String :=
  if a.readOnly then "NULL" else symbol a.interface a.name ++ "_setter"

theorem isNameChar_setterName (a : ResolvedAttribute) :
    (setterName a).toList.all CName.isNameChar = true := by
  unfold setterName
  split
  · decide
  · exact isNameChar_append (isNameChar_symbol a.interface a.name) (by decide)

/-- The columns of an attribute: the name, the getter and the setter. -/
theorem columns_propertyRow {a : ResolvedAttribute} (hname : isIdentifier a.name = true) :
    Columns (propertyRow a).text (labelColumn a.name)
      (" " ++ (symbol a.interface a.name ++ "_getter") ++ "") (" " ++ setterName a ++ " \x7d") where
  text_eq := by
    have htext : (propertyRow a).text = "\t\x7b \"" ++ a.name ++ "\", " ++
        symbol a.interface a.name ++ "_getter, " ++ setterName a ++ " \x7d,\n" := rfl
    exact htext.trans (String.toList_inj.1 (by simp [labelColumn]))
  first := isColumn_labelColumn hname
  second := isColumn_name (isNameChar_append (isNameChar_symbol a.interface a.name) (by decide))
    (by decide)
  third := isColumn_name (isNameChar_setterName a) (by decide)

/-! ## Rows that are read -/

theorem reads_methodRow {name : String} (hname : isIdentifier name = true) (interface : String)
    (arity? : Option Nat) :
    Reads rowStub? (Row.method name (symbol interface name) arity?).text
      [linkage.method interface name] := by
  obtain ⟨arity, hcolumns⟩ := columns_methodRow hname interface arity?
  have hrow := hcolumns.reads_entry fun (_, symbol, _) => leadingName (symbol.drop 1)
  dsimp only at hrow
  rwa [leadingName_column (isNameChar_symbol interface name) (by decide)] at hrow

/-- The column of the setter is never that of a row without one by accident. -/
theorem setter?_eq (a : ResolvedAttribute) :
    (if setterName a = "NULL" then none else some (setterName a)) = (linkage.entry a).setter? := by
  have hne : symbol a.interface a.name ++ "_setter" ≠ "NULL" := by
    intro h
    have hchars := congrArg String.toList h
    rw [String.toList_append, symbol, CName.toList_symbol] at hchars
    exact absurd (congrArg List.head? hchars) (by simp)
  cases hread : a.readOnly <;> simp [setterName, Linkage.entry, linkage, hread, hne]

theorem label_labelColumn {name : String} (h : isIdentifier name = true) :
    String.ofList (((labelColumn name).toList.drop 4).takeWhile (· != '"')) = name := by
  have hcs : (labelColumn name).toList.drop 4 = name.toList ++ ['"'] := by simp [labelColumn]
  have hquote : ∀ c ∈ name.toList, (c != '"') = true := by
    intro c hc
    have hne : c ≠ '"' := by
      rintro rfl
      exact notMem_of_isIdentifier h (by decide) hc
    simpa using hne
  rw [hcs, List.takeWhile_append_of_pos hquote, List.takeWhile_cons_of_neg (by decide),
    List.append_nil, String.ofList_toList]

theorem reads_propertyRow {a : ResolvedAttribute} (hname : isIdentifier a.name = true) :
    Reads rowAccessors? (propertyRow a).text [linkage.entry a] := by
  have hgetter : (symbol a.interface a.name ++ "_getter").toList.all CName.isNameChar = true :=
    isNameChar_append (isNameChar_symbol a.interface a.name) (by decide)
  have hrow := (columns_propertyRow hname).reads_entry entryOfColumns
  simp only [entryOfColumns] at hrow
  rwa [leadingName_column hgetter (by decide),
    leadingName_column (isNameChar_setterName a) (by decide), label_labelColumn hname,
    setter?_eq] at hrow

/-- A line without commas is no row. -/
theorem reads_noColumns (entry : List Char × List Char × List Char → α) (cs : List Char)
    (htext : text.toList = cs ++ ['\n']) (hcomma : ',' ∉ cs) (hnewline : '\n' ∉ cs) :
    Reads (fun cs => (columns? cs).map entry) text [] := by
  have hline : Reads (fun cs => (columns? cs).map entry) text _ := Reads.line cs htext hnewline
  rwa [columns?, List.splitOn_eq_singleton hcomma] at hline

theorem reads_rowBanner (entry : List Char × List Char × List Char → α) {interface : String}
    (h : isIdentifier interface = true) :
    Reads (fun cs => (columns? cs).map entry) (Row.banner interface).text [] :=
  reads_noColumns entry ("\t/**** " ++ interface ++ " ****/").toList
    (by simp [Row.text, blockBanner]) (by simp [notMem_of_isIdentifier h (c := ',') (by decide)])
    (by simp [notMem_of_isIdentifier h (c := '\n') (by decide)])

section

variable {read : List Char → Option α}
  (hbanner : ∀ {interface : String}, isIdentifier interface = true →
    Reads read (Row.banner interface).text [])

include hbanner

/-- The rows of the method table give what the rows of operations with a name give. -/
theorem reads_methodRows (h : m.IsRead) (found : String → String → List α)
    (hrow : ∀ {interface name : String} {arity? : Option Nat}, isIdentifier name = true →
      Reads read (Row.method name (symbol interface name) arity?).text (found interface name)) :
    Reads read (String.join ((methodRows m).map Row.text))
      (m.identifiedOperations.flatMap fun p => found p.1.interface p.2) := by
  unfold methodRows
  cases hkind : m.kind with
  | dictionary =>
    rw [identifiedOperations_of_dictionary h hkind]
    exact Reads.nil
  | interface =>
    exact reads_operations Row.banner
      (fun o name => .method name (symbol o.interface name)
        (if o.isVariadic then none else some o.arguments.length))
      (fun o name => found o.interface name)
      (fun b hb => hbanner (h.block b hb).interface)
      (fun b hb o ho name hname => hrow (((h.block b hb).operations o ho).2 name hname))

/-- The rows of the property table give what the rows of attributes give. -/
theorem reads_propertyRows (h : m.IsRead) (found : ResolvedAttribute → List α)
    (hrow : ∀ {a : ResolvedAttribute}, isIdentifier a.name = true →
      Reads read (propertyRow a).text (found a)) :
    Reads read (String.join ((propertyRows m).map Row.text)) (m.attributes.flatMap found) := by
  have hreads := reads_attributes Row.banner (fun a => [propertyRow a]) found
    (fun b hb => hbanner (h.block b hb).interface)
    (fun b hb a ha => by simpa using hrow ((h.block b hb).attributes a ha).2)
  simpa only [propertyRows, List.map_eq_flatMap] using hreads

end

/-! ## Sections -/

/-- What opens a table is no row. -/
theorem reads_tableHead (entry : List Char × List Char × List Char → α) (head : String)
    {name : String} (hhead : isColumn head = true)
    (hname : name.toList.all CName.isNameChar = true) :
    Reads (fun cs => (columns? cs).map entry) (head ++ name ++ "[] = \x7b\n") [] := by
  rw [isColumn_iff] at hhead
  exact reads_noColumns entry (head ++ name ++ "[] = \x7b").toList (by simp)
    (by simp [hhead.1, notMem_of_isNameChar hname (c := ',') (by decide)])
    (by simp [hhead.2, notMem_of_isNameChar hname (c := '\n') (by decide)])

theorem readLines_functionSpec (h : m.IsRead) (interface : String) :
    readLines rowStub? (functionSpec interface m)
      = m.identifiedOperations.map fun p => linkage.method p.1.interface p.2 := by
  have hhead := reads_tableHead (fun (_, symbol, _) => leadingName (symbol.drop 1))
    "static const duk_function_list_entry " (by decide)
    (isNameChar_classSymbol interface "methods" (by decide))
  have hrows := reads_methodRows (reads_rowBanner _) h
    (fun interface name => [linkage.method interface name])
    (fun hname => reads_methodRow hname _ _)
  have htail : Reads rowStub? "\t\x7b NULL, NULL, 0 \x7d\n\x7d;\n\n" [] :=
    Reads.silent ["\t\x7b NULL, NULL, 0 \x7d", "\x7d;", ""] (by decide)
  rw [← List.map_eq_flatMap] at hrows
  exact Reads.table hhead hrows htail rfl

theorem readLines_propertySpec (h : m.IsRead) (interface : String) :
    readLines rowAccessors? (propertySpec interface m) = m.attributes.map linkage.entry := by
  have hproperty := isNameChar_classSymbol interface "property" (by decide)
  have hhead := reads_tableHead entryOfColumns
    ("static const " ++ classSymbol interface "property" ++ " ")
    (isColumn_append (isColumn_append (by decide) (isColumn_of_isNameChar hproperty)) (by decide))
    (isNameChar_classSymbol interface "properties" (by decide))
  have hrows := reads_propertyRows (reads_rowBanner _) h (fun a => [linkage.entry a])
    reads_propertyRow
  have htail : Reads rowAccessors? "\t\x7b NULL, NULL, NULL \x7d\n\x7d;\n\n" [] :=
    Reads.silent ["\t\x7b NULL, NULL, NULL \x7d", "\x7d;", ""] (by decide)
  rw [← List.map_eq_flatMap] at hrows
  exact Reads.table hhead hrows htail rfl

/-- What the sections hold that list members. -/
theorem lists {d : Descriptor} (h : m.IsRead) (hm : d.members = .ok m) : linkage.Lists d m where
  methodBodies := by
    simp only [Linkage.bodies, linkage, backend, emit, hm, Emission.ofExcept]
    exact (readsFunctions_body?.operatorStubs h).readLines_eq rfl
  accessorBodies := by
    simp only [Linkage.bodies, linkage, backend, emit, hm, Emission.ofExcept]
    exact (readsFunctions_body?.propertyStubs h).readLines_eq rfl
  methodEntries := by
    simp only [Linkage.methodEntries, linkage, backend, emit, hm, Emission.ofExcept]
    exact readLines_functionSpec h d.interface
  propertyEntries := by
    simp only [Linkage.propertyEntries, linkage, backend, emit, hm, Emission.ofExcept]
    exact readLines_propertySpec h d.interface

end IdlBind.Duktape
