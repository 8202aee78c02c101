import IdlBind.Proofs.Backend.Linkage
import IdlBind.Proofs.Members.Names

set_option autoImplicit false

/-! # Stubs and rows for SpiderMonkey

A stub is named by a macro with the name of the member as its argument, and rows are macros with the
same argument. -/

namespace IdlBind.Jsapi

/-! ## Reading lines -/

/-- A use of a macro with an argument. -/
def macroUse (name argument : String) : String := name ++ "(" ++ argument ++ ")"

/-- The macro use whose first argument is the name of the stub that a line starts to define. -/
def body? (cs : List Char) : Option String :=
  (behind? "static JSBool " cs).map fun rest => String.ofList (rest.takeWhile (· != ',')) ++ ")"

/-- The macro of a row stands for the one that makes the name of the native. -/
def rowStub? (cs : List Char) : Option String :=
  (nameBehind? "    JSAPI_FS(" cs).map (macroUse "JSAPI_NATIVE")

/-- The macro of a row stands for those that make the names of the accessors. -/
def rowAccessors? (cs : List Char) : Option PropertyEntry :=
  ((nameBehind? "    JSAPI_PS(" cs).map fun name =>
      ⟨name, macroUse "JSAPI_PROPERTYGET" name, some (macroUse "JSAPI_PROPERTYSET" name)⟩).or
    ((nameBehind? "    JSAPI_PS_RO(" cs).map fun name =>
      ⟨name, macroUse "JSAPI_PROPERTYGET" name, none⟩)

/-- Stubs and rows have the name of a member as the argument of a macro. -/
def linkage : Linkage where
  backend := backend
  label := CName.identifier
  method _ member := macroUse "JSAPI_NATIVE" (CName.identifier member)
  getter _ member := macroUse "JSAPI_PROPERTYGET" (CName.identifier member)
  setter _ member := macroUse "JSAPI_PROPERTYSET" (CName.identifier member)
  body? := body?
  rowStub? := rowStub?
  rowAccessors? := rowAccessors?

/-! ## Stubs -/

variable {m : Members}

theorem isNameChar_identifier (name : String) :
    (CName.identifier name).toList.all CName.isNameChar = true := by
  rw [CName.identifier, String.toList_map, List.all_map, List.all_eq_true]
  intro c _
  show CName.isNameChar (if c.isAlphanum || c == '_' then c else '_') = true
  split
  · assumption
  · decide

/-- The lines of bodies behind the first. -/
def bodyLines : List String :=
  ["\x7b", "\tJS_SET_RVAL(cx, vp, JSVAL_VOID);", "\tJS_SET_RVAL(cx, vp, JSVAL_NULL);",
   "\treturn JS_TRUE;", "        return JS_FALSE;", "\x7d", ""]

theorem bodyLines_silent : ∀ l ∈ bodyLines, '\n' ∉ l.toList ∧ body? l.toList = none := by decide

/-- A body defines the stub that its first line names by a macro. -/
theorem reads_body {name macroName first : String} {others : List String} (parameters : String)
    (h : name.toList.all CName.isNameChar = true)
    (hname : macroName.toList.all CName.isNameChar = true) (hparameters : '\n' ∉ parameters.toList)
    (hfirst : first = "static JSBool " ++ macroName ++ "(" ++ name ++ "," ++ parameters)
    (hothers : ∀ l ∈ others, l ∈ bodyLines) :
    Reads body? (unlines (first :: others)) [macroUse macroName name] := by
  have hnewline : '\n' ∉ first.toList := by
    simp [hfirst, hparameters, notMem_of_isNameChar h (c := '\n') (by decide),
      notMem_of_isNameChar hname (c := '\n') (by decide)]
  have hcomma : ∀ c ∈ macroName.toList ++ '(' :: name.toList, (c != ',') = true := by
    have hnotMem : ',' ∉ macroName.toList ++ '(' :: name.toList := by
      simp [notMem_of_isNameChar h (c := ',') (by decide),
        notMem_of_isNameChar hname (c := ',') (by decide)]
    intro c hc
    have hne : c ≠ ',' := by
      rintro rfl
      exact hnotMem hc
    simpa using hne
  have hchars : first.toList = "static JSBool ".toList ++
      ((macroName.toList ++ '(' :: name.toList) ++ ',' :: parameters.toList) := by
    simp [hfirst]
  have hbody : body? first.toList = some (macroUse macroName name) := by
    rw [body?, hchars, behind?_append, Option.map_some, List.takeWhile_append_of_pos hcomma,
      List.takeWhile_cons_of_neg (by decide), List.append_nil]
    exact congrArg some (String.toList_inj.1 (by simp [macroUse]))
  have hlines := Reads.first hnewline fun l hl => bodyLines_silent l (hothers l hl)
  rwa [hbody] at hlines

theorem reads_native (interface member : String) :
    Reads body? (Stub.native (CName.identifier member)).text
      [linkage.method interface member] :=
  reads_body " JSContext *cx, uintN argc, jsval *vp)" (isNameChar_identifier member) (by decide)
    (by decide) (String.toList_inj.1 (by simp)) (by decide)

theorem reads_setter (interface member : String) :
    Reads body? (Stub.setter (CName.identifier member)).text
      [linkage.setter interface member] :=
  reads_body " JSContext *cx, JSObject *obj, jsval *vp)" (isNameChar_identifier member) (by decide)
    (by decide) (String.toList_inj.1 (by simp)) (by decide)

theorem reads_getter (interface member : String) :
    Reads body? (Stub.getter (CName.identifier member)).text
      [linkage.getter interface member] :=
  reads_body " JSContext *cx, JSObject *obj, jsval *vp)" (isNameChar_identifier member) (by decide)
    (by decide) (String.toList_inj.1 (by simp)) (by decide)

theorem reads_attributeStubs (a : ResolvedAttribute) :
    Reads body? (String.join ((attributeStubs a).map Stub.text)) (linkage.entry a).stubs := by
  unfold attributeStubs PropertyEntry.stubs Linkage.entry
  dsimp only
  have hgetter := reads_getter a.interface a.name
  split
  · simpa using hgetter
  · simpa using (reads_setter a.interface a.name).append hgetter

theorem reads_stubBanner {interface : String} (h : isIdentifier interface = true) :
    Reads body? (Stub.banner interface).text [] := by
  have hbanner : Reads body? _ [] := reads_blockBanner h "" (by decide) fun _ => rfl
  rwa [String.empty_append] at hbanner

theorem reads_operatorStubs (h : m.IsRead) :
    Reads body? (String.join ((operatorStubs m).map Stub.text))
      (m.identifiedOperations.map fun p => linkage.method p.1.interface p.2) := by
  have hreads := reads_operations Stub.banner (fun _ name => .native (CName.identifier name))
    (fun o name => [linkage.method o.interface name])
    (fun b hb => reads_stubBanner (h.block b hb).interface)
    (fun _ _ o _ name _ => reads_native o.interface name)
  rwa [← List.map_eq_flatMap] at hreads

theorem reads_propertyStubs (h : m.IsRead) :
    Reads body? (String.join ((propertyStubs m).map Stub.text))
      (m.attributes.flatMap fun a => (linkage.entry a).stubs) :=
  reads_attributes Stub.banner attributeStubs _
    (fun b hb => reads_stubBanner (h.block b hb).interface)
    (fun _ _ a _ => reads_attributeStubs a)

/-! ## Rows -/

theorem reads_functionRow (interface member : String) :
    Reads rowStub? (Row.function (CName.identifier member)).text
      [linkage.method interface member] := by
  have hname := isNameChar_identifier member
  have hline : Reads rowStub? (Row.function (CName.identifier member)).text _ :=
    Reads.line ("    JSAPI_FS(" ++ CName.identifier member ++ ", 0, 0),").toList
      (by simp [Row.text]) (by simp [notMem_of_isNameChar hname (c := '\n') (by decide)])
  rwa [rowStub?, nameBehind?_line "    JSAPI_FS(" hname (by decide)] at hline

theorem rowAccessors?_line {name : String} (h : name.toList.all CName.isNameChar = true) :
    rowAccessors? ("    JSAPI_PS(" ++ name ++ ", 0, JSPROP_ENUMERATE | JSPROP_SHARED),").toList
        = some ⟨name, macroUse "JSAPI_PROPERTYGET" name,
          some (macroUse "JSAPI_PROPERTYSET" name)⟩ ∧
      rowAccessors?
          ("    JSAPI_PS_RO(" ++ name ++ ", 0, JSPROP_ENUMERATE | JSPROP_SHARED),").toList
        = some ⟨name, macroUse "JSAPI_PROPERTYGET" name, none⟩ := by
  have hother : ∀ cs, behind? "    JSAPI_PS(" ("    JSAPI_PS_RO(".toList ++ cs) = none :=
    fun _ => rfl
  constructor
  · rw [rowAccessors?, nameBehind?_line "    JSAPI_PS(" h (by decide)]
    rfl
  · rw [rowAccessors?, nameBehind?_line "    JSAPI_PS_RO(" h (by decide), nameBehind?,
      String.append_assoc, String.toList_append, hother]
    rfl

theorem reads_propertyRow (a : ResolvedAttribute) :
    Reads rowAccessors? (propertyRow a).text [linkage.entry a] := by
  have hname := isNameChar_identifier a.name
  obtain ⟨hwritable, hreadOnly⟩ := rowAccessors?_line hname
  have hnewline := notMem_of_isNameChar hname (c := '\n') (by decide)
  cases hread : a.readOnly with
  | true =>
    have hline : Reads rowAccessors? (propertyRow a).text _ :=
      Reads.line ("    JSAPI_PS_RO(" ++ CName.identifier a.name ++
          ", 0, JSPROP_ENUMERATE | JSPROP_SHARED),").toList
        (by simp [propertyRow, Row.text, hread]) (by simp [hnewline])
    rw [hreadOnly] at hline
    simpa [Linkage.entry, linkage, hread] using hline
  | false =>
    have hline : Reads rowAccessors? (propertyRow a).text _ :=
      Reads.line ("    JSAPI_PS(" ++ CName.identifier a.name ++
          ", 0, JSPROP_ENUMERATE | JSPROP_SHARED),").toList
        (by simp [propertyRow, Row.text, hread]) (by simp [hnewline])
    rw [hwritable] at hline
    simpa [Linkage.entry, linkage, hread] using hline

theorem reads_functionRows (h : m.IsRead) :
    Reads rowStub? (String.join ((functionRows m).map Row.text))
      (m.identifiedOperations.map fun p => linkage.method p.1.interface p.2) := by
  have hbanner : ∀ b ∈ m.blocks, Reads rowStub? (Row.banner b.interface).text [] := fun b hb =>
    reads_blockBanner (h.block b hb).interface "    " (by decide) fun _ => rfl
  have hreads := reads_operations Row.banner (fun _ name => .function (CName.identifier name))
    (fun o name => [linkage.method o.interface name]) hbanner
    (fun _ _ o _ name _ => reads_functionRow o.interface name)
  rwa [← List.map_eq_flatMap] at hreads

theorem reads_propertyRows (h : m.IsRead) :
    Reads rowAccessors? (String.join ((propertyRows m).map Row.text))
      (m.attributes.map linkage.entry) := by
  have hbanner : ∀ b ∈ m.blocks, Reads rowAccessors? (Row.banner b.interface).text [] :=
    fun b hb => reads_blockBanner (h.block b hb).interface "    " (by decide) fun _ => rfl
  have hreads := reads_attributes Row.banner (fun a => [propertyRow a])
    (fun a => [linkage.entry a]) hbanner (fun _ _ a _ => by simpa using reads_propertyRow a)
  simpa only [propertyRows, ← List.map_eq_flatMap] using hreads

/-! ## Sections -/

theorem readLines_functionSpec (h : m.IsRead) :
    readLines rowStub? (functionSpec m)
      = m.identifiedOperations.map fun p => linkage.method p.1.interface p.2 := by
  have hhead : Reads rowStub? "static JSFunctionSpec jsclass_functions[] = \x7b\n" [] :=
    Reads.silent ["static JSFunctionSpec jsclass_functions[] = \x7b"] (by decide)
  have htail : Reads rowStub? "   JSAPI_FS_END\n\x7d;\n\n" [] :=
    Reads.silent ["   JSAPI_FS_END", "\x7d;", ""] (by decide)
  exact hhead.table (reads_functionRows h) htail rfl

theorem readLines_propertySpec (h : m.IsRead) :
    readLines rowAccessors? (propertySpec m) = m.attributes.map linkage.entry := by
  have hhead : Reads rowAccessors? "static JSPropertySpec jsclass_properties[] = \x7b\n" [] :=
    Reads.silent ["static JSPropertySpec jsclass_properties[] = \x7b"] (by decide)
  have htail : Reads rowAccessors? "    JSAPI_PS_END\n\x7d;\n\n" [] :=
    Reads.silent ["    JSAPI_PS_END", "\x7d;", ""] (by decide)
  exact hhead.table (reads_propertyRows h) htail rfl

/-- What the sections hold that list members. -/
theorem lists {d : Descriptor} (h : m.IsRead) (hm : d.members = .ok m) : linkage.Lists d m where
  methodBodies := by
    simp only [Linkage.bodies, linkage, backend, emit, hm, Emission.ofExcept]
    exact (reads_operatorStubs h).readLines_eq rfl
  accessorBodies := by
    simp only [Linkage.bodies, linkage, backend, emit, hm, Emission.ofExcept]
    exact (reads_propertyStubs h).readLines_eq rfl
  methodEntries := by
    simp only [Linkage.methodEntries, linkage, backend, emit, hm, Emission.ofExcept]
    exact readLines_functionSpec h
  propertyEntries := by
    simp only [Linkage.propertyEntries, linkage, backend, emit, hm, Emission.ofExcept]
    exact readLines_propertySpec h

end IdlBind.Jsapi
