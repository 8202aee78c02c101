import IdlBind.Proofs.Backend.Lines
import Mathlib.Data.List.Basic

set_option autoImplicit false

/-! # The layout of private fields

A backend writes the private fields three times: as the members of a struct, as parameters of the
constructor, and as assignments in its body. A layout says what stands around them; the fields
themselves are written the same way by all backends. Fields whose types are on one line can be read
off the text again. -/

namespace IdlBind

/-- What a backend writes around the private fields: the tag of the struct and what stands in front
    of its members, the lines in front of the constructor, the text in front of its parameters, the
    parameters that it has of its own, the lines in front of the assignments and behind them, and
    the pointer to the struct. -/
structure FieldLayout where
  tag : String
  indent : String
  before : List String
  head : String
  own : List String
  opening : List String
  pointer : String
  closing : List String

namespace FieldLayout

/-! ## Texts -/

/-- What stands between two parameters. -/
def separator : String := ",\n\t\t"

/-- The struct, with a member for every field. -/
def structText (l : FieldLayout) (fields : List PrivateField) : String :=
  "struct " ++ l.tag ++ " \x7b\n" ++
    unlines (fields.map fun f => l.indent ++ f.declaration ++ ";") ++ "\x7d;\n\n"

/-- The parameters of the constructor: those of its own, and one for every field. -/
def parameters (l : FieldLayout) (fields : List PrivateField) : List String :=
  l.own ++ fields.map PrivateField.declaration

/-- The assignment of a parameter to its field. -/
def assignment (l : FieldLayout) (f : PrivateField) : String :=
  "\t" ++ l.pointer ++ "->" ++ f.name ++ " = " ++ f.name ++ ";"

/-- The constructor, with what stands in front of it. -/
def constructorText (l : FieldLayout) (fields : List PrivateField) : String :=
  unlines l.before ++ (l.head ++ separator.intercalate (l.parameters fields) ++ ")\n") ++
    unlines ("\x7b" :: l.opening ++ fields.map l.assignment ++ l.closing)

/-- The lines around the parameters and the assignments. -/
def frame (l : FieldLayout) : List String := l.before ++ l.opening ++ l.closing

theorem unlines_append (lines more : List String) :
    unlines (lines ++ more) = unlines lines ++ unlines more := by
  rw [unlines, List.map_append, String.join_append]
  rfl

theorem intercalate_cons (first : String) (others : List String) :
    separator.intercalate (first :: others)
      = first ++ String.join (others.map (separator ++ ·)) := by
  induction others generalizing first with
  | nil => simp
  | cons second others ih =>
    rw [String.intercalate_cons_cons, ih, List.map_cons, String.join_cons, String.append_assoc,
      String.append_assoc]

/-- The text of the constructor, for what a backend writes in front of the parameters for fields,
    for every parameter and for every assignment. -/
theorem constructorText_eq {l : FieldLayout} (hown : l.own ≠ []) {start : String}
    {parameter assignment : PrivateField → String}
    (hstart : start = l.head ++ separator.intercalate l.own)
    (hparameter : ∀ f, parameter f = separator ++ f.declaration)
    (hassignment : ∀ f, assignment f = l.assignment f ++ "\n") (fields : List PrivateField) :
    l.constructorText fields
      = unlines l.before ++ start ++ String.join (fields.map parameter) ++
        unlines (")" :: "\x7b" :: l.opening) ++ String.join (fields.map assignment) ++
        unlines l.closing := by
  obtain ⟨first, others, hfirst⟩ := List.exists_cons_of_ne_nil hown
  have hparameters : l.head ++ separator.intercalate (l.parameters fields)
      = start ++ String.join (fields.map parameter) := by
    rw [parameters, hstart, hfirst, List.cons_append, intercalate_cons, intercalate_cons,
      List.map_append, String.join_append, List.map_map, funext hparameter, ← String.append_assoc,
      ← String.append_assoc, ← String.append_assoc]
    rfl
  have hclose : unlines (")" :: "\x7b" :: l.opening) = ")\n" ++ unlines ("\x7b" :: l.opening) :=
    unlines_cons ..
  have hassignments : unlines (fields.map l.assignment) = String.join (fields.map assignment) := by
    rw [unlines, List.map_map, funext hassignment]
    rfl
  rw [constructorText, hparameters, unlines_append, unlines_append, hassignments, hclose]
  simp only [String.append_assoc]

end FieldLayout

/-! ## Tags in lines -/

/-- The tag behind the first word `struct` of a line. -/
def structTag? : List Char → Option String
  | [] => none
  | c :: cs =>
    match behind? "struct " (c :: cs) with
    | some rest => some (leadingName rest)
    | none => structTag? cs

@[simp] theorem structTag?_nil : structTag? [] = none := rfl

@[simp] theorem structTag?_of_ne {c : Char} (h : c ≠ 's') (cs : List Char) :
    structTag? (c :: cs) = structTag? cs := by
  have hbehind : behind? "struct " (c :: cs) = none := if_neg (by simp [h.symm])
  rw [structTag?, hbehind]

@[simp] theorem structTag?_start (cs : List Char) :
    structTag? ('s' :: cs)
      = if "truct ".toList.isPrefixOf cs then some (leadingName (cs.drop 6))
        else structTag? cs := by
  have hstart : "struct ".toList.isPrefixOf ('s' :: cs) = "truct ".toList.isPrefixOf cs := rfl
  rw [structTag?, behind?, hstart]
  cases "truct ".toList.isPrefixOf cs <;> rfl

/-- The word is not in front of a text without spaces up to a character that is not in the word. -/
theorem behind?_struct_eq_none {cs rest : List Char} {c : Char} (hcs : ' ' ∉ cs)
    (hc : c ∉ "struct ".toList) : behind? "struct " (cs ++ c :: rest) = none := by
  refine if_neg fun h => ?_
  have hword : "struct ".toList <+: cs ++ c :: rest := List.isPrefixOf_iff_prefix.1 h
  have hends : cs ++ [c] <+: cs ++ c :: rest := by simp
  rcases List.prefix_or_prefix_of_prefix hword hends with hinside | hbeyond
  · rcases List.prefix_concat_iff.1 hinside with hwhole | hfront
    · exact hc (hwhole ▸ by simp)
    · exact hcs (hfront.subset (by decide))
  · exact hc (hbeyond.subset (by simp))

/-- No tag is in a text without spaces up to a character that is not in the word. -/
theorem structTag?_skip {cs rest : List Char} {c : Char} (hcs : ' ' ∉ cs)
    (hc : c ∉ "struct ".toList) : structTag? (cs ++ c :: rest) = structTag? rest := by
  induction cs with
  | nil =>
    have hbehind : behind? "struct " (c :: rest) = none := behind?_struct_eq_none hcs hc
    rw [List.nil_append, structTag?, hbehind]
  | cons d cs ih =>
    have hbehind : behind? "struct " (d :: (cs ++ c :: rest)) = none :=
      behind?_struct_eq_none hcs hc
    rw [List.cons_append, structTag?, hbehind]
    exact ih fun h => hcs (List.mem_cons_of_mem _ h)

namespace FieldLayout

/-! ## Reading fields -/

/-- The member that a line of the struct declares. -/
def member? (l : FieldLayout) (cs : List Char) : Option String := do
  let member ← behind? l.indent cs
  if member.getLast? = some ';' then some (String.ofList member.dropLast) else none

/-- What a line of the constructor assigns through the pointer: the field, and the value. -/
def assigned? (l : FieldLayout) (cs : List Char) : Option (String × String) := do
  let assigned ← behind? ("\t" ++ l.pointer ++ "->") cs
  let value ← behind? " = " (assigned.dropWhile (· ≠ ' '))
  some (String.ofList (assigned.takeWhile (· ≠ ' ')), String.ofList value.dropLast)

/-- The lines of a text. -/
def lines (text : String) : List (List Char) := readLines some text

/-- The parameters of the constructor: one in the line that starts with its head, and one in each
    line behind that starts with two tabs. A comma or a parenthesis follows each. -/
def readParameters (l : FieldLayout) (text : String) : List String :=
  match (lines text).dropWhile fun cs => (behind? l.head cs).isNone with
  | [] => []
  | first :: more =>
    let others := (more.takeWhile fun cs => (behind? "\t\t" cs).isSome).map (·.drop 2)
    (first.drop l.head.toList.length :: others).map fun cs => String.ofList cs.dropLast

/-! ## Lines of the constructor -/

/-- The lines of parameters behind the start of the first. -/
def parameterLines : String → List String → List (List Char)
  | start, [] => [start.toList ++ [')']]
  | start, p :: ps => (start.toList ++ [',']) :: parameterLines ("\t\t" ++ p) ps

theorem reads_parameters {start : String} {ps : List String} (hstart : '\n' ∉ start.toList)
    (hps : ∀ p ∈ ps, '\n' ∉ p.toList) :
    Reads some (start ++ String.join (ps.map (separator ++ ·)) ++ ")\n")
      (parameterLines start ps) := by
  induction ps generalizing start with
  | nil => exact Reads.line (start.toList ++ [')']) (by simp) (by simp [hstart])
  | cons p ps ih =>
    obtain ⟨hp, hps⟩ := List.forall_mem_cons.1 hps
    have hfirst : Reads some (start ++ ",\n") [start.toList ++ [',']] :=
      Reads.line (start.toList ++ [',']) (by simp) (by simp [hstart])
    have htext : start ++ String.join ((p :: ps).map (separator ++ ·)) ++ ")\n"
        = start ++ ",\n" ++ ("\t\t" ++ p ++ String.join (ps.map (separator ++ ·)) ++ ")\n") :=
      String.toList_inj.1 (by simp [separator, String.join_cons])
    rw [htext]
    exact hfirst.append (ih (by simp [hp]) hps)

/-- Of the first line the start is left, and of the others the parameters. -/
theorem parameterLines_eq (start : String) (ps : List String) :
    ∃ c more, parameterLines start ps = (start.toList ++ [c]) :: more ∧
      (∀ cs ∈ more, (behind? "\t\t" cs).isSome = true) ∧
      more.map (fun cs => String.ofList (cs.drop 2).dropLast) = ps := by
  induction ps generalizing start with
  | nil => exact ⟨')', [], rfl, by simp, rfl⟩
  | cons p ps ih =>
    obtain ⟨c, more, hlines, htabs, hmore⟩ := ih ("\t\t" ++ p)
    refine ⟨',', _, rfl, ?_, ?_⟩
    · rw [hlines]
      exact List.forall_mem_cons.2 ⟨by simp [behind?], htabs⟩
    · rw [hlines, List.map_cons, hmore]
      simp

/-! ## Reading whole texts -/

/-- What stands around the fields: lines of which none assigns anything, and of which none in front
    of the constructor starts like it. All structs that they name are that of the fields, and to it
    the pointer points. -/
structure IsSound (l : FieldLayout) : Prop where
  indent : l.indent = "\t" ∨ l.indent = "        "
  own : l.own ≠ []
  onLines : ∀ text ∈ l.tag :: l.head :: l.own, '\n' ∉ text.toList
  head : ∀ cs, l.assigned? (l.head.toList ++ cs) = none
  before : ∀ line ∈ l.before, behind? l.head line.toList = none
  parameter : ∀ cs, l.assigned? ('\t' :: '\t' :: cs) = none
  frame : ∀ line ∈ "\x7b" :: l.frame, '\n' ∉ line.toList ∧ l.assigned? line.toList = none ∧
    ∀ tag, structTag? line.toList = some tag → tag = l.tag
  pointer : "\tstruct " ++ l.tag ++ " *" ++ l.pointer ++ ";" ∈ l.opening

variable {l : FieldLayout} {fields : List PrivateField}

theorem notMem_declaration (hctypes : ∀ f ∈ fields, '\n' ∉ f.ctype.toList)
    (hnames : ∀ f ∈ fields, isIdentifier f.name = true) :
    ∀ f ∈ fields, '\n' ∉ f.declaration.toList := fun f hf =>
  f.newline_notMem_declaration (hctypes f hf) (notMem_of_isIdentifier (hnames f hf) (by decide))

theorem IsSound.notMem_assignment (h : l.IsSound)
    (hnames : ∀ f ∈ fields, isIdentifier f.name = true) :
    ∀ f ∈ fields, '\n' ∉ (l.assignment f).toList := by
  intro f hf
  have hname : '\n' ∉ f.name.toList := notMem_of_isIdentifier (hnames f hf) (by decide)
  have hline := (h.frame _ (List.mem_cons_of_mem _
    (List.mem_append_left _ (List.mem_append_right _ h.pointer)))).1
  have hpointer : '\n' ∉ l.pointer.toList := fun hmem => hline (by simp [hmem])
  simp [assignment, hpointer, hname]

theorem member?_member (l : FieldLayout) (f : PrivateField) :
    l.member? (l.indent ++ f.declaration ++ ";").toList = some f.declaration := by
  rw [String.append_assoc, String.toList_append, member?, behind?_append]
  simp

/-- The members are read off the lines of the struct. -/
theorem IsSound.readLines_member (h : l.IsSound) (hctypes : ∀ f ∈ fields, '\n' ∉ f.ctype.toList)
    (hnames : ∀ f ∈ fields, isIdentifier f.name = true) :
    readLines l.member? (l.structText fields) = fields.map PrivateField.declaration := by
  have hindent : '\n' ∉ l.indent.toList := by rcases h.indent with hl | hl <;> simp [hl]
  have hhead : Reads l.member? ("struct " ++ l.tag ++ " \x7b\n") [] := by
    have hline : Reads l.member? ("struct " ++ l.tag ++ " \x7b\n") _ :=
      Reads.line ("struct " ++ l.tag ++ " \x7b").toList (by simp)
        (by simp [h.onLines l.tag List.mem_cons_self])
    have hnone : l.member? ("struct " ++ l.tag ++ " \x7b").toList = none := by
      rcases h.indent with hl | hl <;> simp [member?, behind?, hl]
    rwa [hnone] at hline
  have hmembers : Reads l.member? (unlines (fields.map fun f => l.indent ++ f.declaration ++ ";"))
      (fields.map PrivateField.declaration) := by
    have hlines : Reads l.member?
        (unlines (fields.map fun f => l.indent ++ f.declaration ++ ";")) _ := Reads.lines (by
      simpa [hindent] using notMem_declaration hctypes hnames)
    have hread : (fun line : String => l.member? line.toList) ∘
        (fun f : PrivateField => l.indent ++ f.declaration ++ ";")
          = some ∘ PrivateField.declaration := funext fun f => member?_member l f
    rwa [List.filterMap_map, hread, List.filterMap_eq_map] at hlines
  have htail : Reads l.member? "\x7d;\n\n" [] :=
    Reads.silent ["\x7d;", ""] (by rcases h.indent with hl | hl <;> simp [member?, behind?, hl])
  have hnil : l.member? [] = none := by
    rcases h.indent with hl | hl <;> simp [member?, behind?, hl]
  exact hhead.table hmembers htail hnil

theorem reads_lines {ls : List String} (h : ∀ line ∈ ls, '\n' ∉ line.toList) :
    Reads some (unlines ls) (ls.map String.toList) := by
  have hreads : Reads some (unlines ls) _ := Reads.lines h
  rwa [List.filterMap_eq_map'] at hreads

/-- The lines of the constructor, for the first of the parameters that it has of its own. -/
theorem IsSound.reads_constructor (h : l.IsSound)
    (hctypes : ∀ f ∈ fields, '\n' ∉ f.ctype.toList)
    (hnames : ∀ f ∈ fields, isIdentifier f.name = true) {first : String} {others : List String}
    (hown : l.own = first :: others) :
    Reads some (l.constructorText fields)
      (l.before.map String.toList ++
        parameterLines (l.head ++ first) (others ++ fields.map PrivateField.declaration) ++
        ("\x7b" :: l.opening ++ fields.map l.assignment ++ l.closing).map String.toList) := by
  obtain ⟨-, hhead, hownLines⟩ : '\n' ∉ l.tag.toList ∧ '\n' ∉ l.head.toList ∧
      ∀ p ∈ l.own, '\n' ∉ p.toList := by
    simpa using h.onLines
  rw [hown, List.forall_mem_cons] at hownLines
  have hframe : ∀ line ∈ l.frame, '\n' ∉ line.toList := fun line hline =>
    (h.frame line (List.mem_cons_of_mem _ hline)).1
  have hbefore : Reads some (unlines l.before) (l.before.map String.toList) :=
    reads_lines fun line hline => hframe line (by simp [FieldLayout.frame, hline])
  have hparameters : Reads some (l.head ++ separator.intercalate (l.parameters fields) ++ ")\n")
      (parameterLines (l.head ++ first) (others ++ fields.map PrivateField.declaration)) := by
    rw [parameters, hown, List.cons_append, intercalate_cons, ← String.append_assoc]
    refine reads_parameters (by simp [hhead, hownLines.1]) fun p hp => ?_
    rcases List.mem_append.1 hp with hother | hfield
    · exact hownLines.2 p hother
    · obtain ⟨f, hf, rfl⟩ := List.mem_map.1 hfield
      exact notMem_declaration hctypes hnames f hf
  have hbody : ∀ line ∈ "\x7b" :: l.opening ++ fields.map l.assignment ++ l.closing,
      '\n' ∉ line.toList := by
    intro line hline
    simp only [List.mem_append, List.mem_cons, List.mem_map] at hline
    rcases hline with ((rfl | hopening) | ⟨f, hf, rfl⟩) | hclosing
    · decide
    · exact hframe line (by simp [FieldLayout.frame, hopening])
    · exact h.notMem_assignment hnames f hf
    · exact hframe line (by simp [FieldLayout.frame, hclosing])
  exact (hbefore.append hparameters).append (reads_lines hbody)

theorem lines_eq {text : String} {found : List (List Char)} (h : Reads some text found) :
    lines text = found ++ [[]] := by
  rw [lines, ← String.append_empty (s := text), h]
  rfl

/-- The parameters are read off the lines behind the head. -/
theorem IsSound.readParameters_eq (h : l.IsSound) (hctypes : ∀ f ∈ fields, '\n' ∉ f.ctype.toList)
    (hnames : ∀ f ∈ fields, isIdentifier f.name = true) :
    l.readParameters (l.constructorText fields) = l.parameters fields := by
  obtain ⟨first, others, hown⟩ := List.exists_cons_of_ne_nil h.own
  obtain ⟨c, more, hlines, htabs, hmore⟩ :=
    parameterLines_eq (l.head ++ first) (others ++ fields.map PrivateField.declaration)
  have hread := lines_eq (h.reads_constructor hctypes hnames hown)
  rw [hlines] at hread
  obtain ⟨rest, hrest⟩ : ∃ rest, lines (l.constructorText fields)
      = l.before.map String.toList ++
          ((l.head ++ first).toList ++ [c]) :: (more ++ ['\x7b'] :: rest) :=
    ⟨_, hread.trans (by simp; rfl)⟩
  have hdrop : (lines (l.constructorText fields)).dropWhile
        (fun cs => (behind? l.head cs).isNone)
      = ((l.head ++ first).toList ++ [c]) :: (more ++ ['\x7b'] :: rest) := by
    rw [hrest, List.dropWhile_append_of_pos, List.dropWhile_cons_of_neg]
    · simp
    · intro cs hcs
      obtain ⟨line, hline, rfl⟩ := List.mem_map.1 hcs
      rw [h.before line hline]
      rfl
  have htake : (more ++ ['\x7b'] :: rest).takeWhile (fun cs => (behind? "\t\t" cs).isSome)
      = more := by
    rw [List.takeWhile_append_of_pos htabs, List.takeWhile_cons_of_neg (by simp [behind?]),
      List.append_nil]
  rw [readParameters, hdrop]
  simp only [htake, List.map_cons, List.map_map, Function.comp_def, hmore]
  simp [parameters, hown]

theorem assigned?_assignment {f : PrivateField} (h : isIdentifier f.name = true) :
    l.assigned? (l.assignment f).toList = some (f.name, f.name) := by
  have hspace : ∀ c ∈ f.name.toList, decide (c ≠ ' ') = true := by
    intro c hc
    rw [decide_eq_true_eq]
    rintro rfl
    exact notMem_of_isIdentifier h (by decide) hc
  have htext : (l.assignment f).toList = ("\t" ++ l.pointer ++ "->").toList ++
      (f.name.toList ++ (" = ".toList ++ (f.name.toList ++ [';']))) := by
    simp [assignment]
  have htake : (f.name.toList ++ (" = ".toList ++ (f.name.toList ++ [';']))).takeWhile (· ≠ ' ')
      = f.name.toList := by
    rw [List.takeWhile_append_of_pos hspace]
    simp
  have hdrop : (f.name.toList ++ (" = ".toList ++ (f.name.toList ++ [';']))).dropWhile (· ≠ ' ')
      = " = ".toList ++ (f.name.toList ++ [';']) := by
    rw [List.dropWhile_append_of_pos hspace]
    simp
  rw [assigned?, htext, behind?_append]
  simp only [Option.bind_eq_bind, Option.bind_some, htake, hdrop, behind?_append]
  simp

theorem IsSound.filterMap_parameterLines (h : l.IsSound) (first : String) (ps : List String) :
    (parameterLines (l.head ++ first) ps).filterMap l.assigned? = [] := by
  obtain ⟨c, more, hlines, htabs, -⟩ := parameterLines_eq (l.head ++ first) ps
  rw [hlines, List.filterMap_eq_nil_iff]
  refine List.forall_mem_cons.2 ⟨?_, fun cs hcs => ?_⟩
  · rw [String.toList_append, List.append_assoc]
    exact h.head _
  · have hprefix := htabs cs hcs
    unfold behind? at hprefix
    split at hprefix
    · rename_i hstart
      obtain ⟨rest, rfl⟩ := List.isPrefixOf_iff_prefix.1 hstart
      exact h.parameter rest
    · exact absurd hprefix (by simp)

/-- The assignments are read off the lines of the body. -/
theorem IsSound.readLines_assigned (h : l.IsSound)
    (hctypes : ∀ f ∈ fields, '\n' ∉ f.ctype.toList)
    (hnames : ∀ f ∈ fields, isIdentifier f.name = true) :
    readLines l.assigned? (l.constructorText fields) = fields.map fun f => (f.name, f.name) := by
  obtain ⟨first, others, hown⟩ := List.exists_cons_of_ne_nil h.own
  have hread : readLines l.assigned? (l.constructorText fields)
      = (lines (l.constructorText fields)).filterMap l.assigned? := by simp [lines, readLines]
  have hframe : ∀ ls : List String, (∀ line ∈ ls, line ∈ "\x7b" :: l.frame) →
      (ls.map String.toList).filterMap l.assigned? = [] := by
    intro ls hls
    rw [List.filterMap_map, List.filterMap_eq_nil_iff]
    exact fun line hline => (h.frame line (hls line hline)).2.1
  have hfieldLines : ((fields.map l.assignment).map String.toList).filterMap l.assigned?
      = fields.map fun f => (f.name, f.name) := by
    rw [List.map_map, List.filterMap_map, ← List.filterMap_eq_map]
    exact List.filterMap_congr fun f hf => assigned?_assignment (hnames f hf)
  have hnil : l.assigned? [] = none := by simp [assigned?, behind?]
  rw [hread, lines_eq (h.reads_constructor hctypes hnames hown), List.map_append,
    List.map_append, List.filterMap_append, List.filterMap_append, List.filterMap_append,
    List.filterMap_append, List.filterMap_append, h.filterMap_parameterLines, hfieldLines,
    hframe l.before (by simp +contextual [FieldLayout.frame]),
    hframe ("\x7b" :: l.opening) (by simp +contextual [FieldLayout.frame]),
    hframe l.closing (by simp +contextual [FieldLayout.frame])]
  simp [hnil]

end FieldLayout

end IdlBind
