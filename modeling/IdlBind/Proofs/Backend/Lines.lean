import IdlBind.Backend
import IdlBind.Proofs.CName.Escape

set_option autoImplicit false

/-! # Reading emitted text

Emitted text is read line by line. What is read from texts of whole lines adds up along them, so
that a section gives what its stubs or rows give, one after the other (`reads_operations`,
`reads_attributes`). -/

namespace IdlBind

variable {α σ τ : Type}

/-! ## Lines -/

/-- What `read` makes of the lines of a text, in order. Lines of which it makes nothing do not
    count. -/
def readLines (read : List Char → Option α) (text : String) : List α :=
  (text.toList.splitOn '\n').filterMap read

theorem unlines_cons (line : String) (lines : List String) :
    unlines (line :: lines) = line ++ "\n" ++ unlines lines := String.join_cons

/-- Whatever text follows, `found` is read in front of what is read there. -/
def Reads (read : List Char → Option α) (text : String) (found : List α) : Prop :=
  ∀ rest, readLines read (text ++ rest) = found ++ readLines read rest

variable {read : List Char → Option α}

namespace Reads

theorem nil : Reads read "" [] := fun rest => by rw [String.empty_append]; rfl

theorem append {a b : String} {found found' : List α} (ha : Reads read a found)
    (hb : Reads read b found') : Reads read (a ++ b) (found ++ found') := fun rest => by
  rw [String.append_assoc, ha, hb, List.append_assoc]

/-- A line by its characters. -/
theorem line (cs : List Char) {text : String} (htext : text.toList = cs ++ ['\n'])
    (hcs : '\n' ∉ cs) : Reads read text (read cs).toList := fun rest => by
  unfold readLines
  rw [String.toList_append, htext, List.append_assoc, List.singleton_append,
    List.splitOn_append_cons_self_of_not_mem hcs, List.filterMap_cons]
  cases read cs <;> rfl

theorem lines {lines : List String} (h : ∀ l ∈ lines, '\n' ∉ l.toList) :
    Reads read (unlines lines) (lines.filterMap fun l => read l.toList) := by
  induction lines with
  | nil => exact nil
  | cons l lines ih =>
    obtain ⟨hl, hlines⟩ := List.forall_mem_cons.1 h
    have hline : Reads read (l ++ "\n") (read l.toList).toList :=
      line l.toList (String.toList_append ..) hl
    have hcons : (l :: lines).filterMap (fun l => read l.toList)
        = (read l.toList).toList ++ lines.filterMap fun l => read l.toList := by
      rw [List.filterMap_cons]
      cases read l.toList <;> rfl
    rw [unlines_cons, hcons]
    exact hline.append (ih hlines)

/-- Lines of which nothing is read. -/
theorem silent (lines : List String)
    (h : ∀ l ∈ lines, '\n' ∉ l.toList ∧ read l.toList = none) :
    Reads read (unlines lines) [] := by
  have hlines : Reads read (unlines lines) _ := Reads.lines fun l hl => (h l hl).1
  rwa [List.filterMap_eq_nil_iff.2 fun l hl => (h l hl).2] at hlines

/-- Lines of which only the first is read. -/
theorem first {first : String} {others : List String} (hfirst : '\n' ∉ first.toList)
    (hothers : ∀ l ∈ others, '\n' ∉ l.toList ∧ read l.toList = none) :
    Reads read (unlines (first :: others)) (read first.toList).toList := by
  have hline : Reads read (first ++ "\n") (read first.toList).toList :=
    line first.toList (String.toList_append ..) hfirst
  simpa only [unlines_cons, List.append_nil] using hline.append (silent others hothers)

theorem join_flatMap {text : σ → String} {items : τ → List σ} {found : τ → List α} {xs : List τ}
    (h : ∀ x ∈ xs, Reads read (String.join ((items x).map text)) (found x)) :
    Reads read (String.join ((xs.flatMap items).map text)) (xs.flatMap found) := by
  induction xs with
  | nil => exact nil
  | cons x xs ih =>
    obtain ⟨hx, hxs⟩ := List.forall_mem_cons.1 h
    rw [List.flatMap_cons, List.map_append, String.join_append, List.flatMap_cons]
    exact hx.append (ih hxs)

theorem join {text : σ → String} {found : σ → List α} {items : List σ}
    (h : ∀ x ∈ items, Reads read (text x) (found x)) :
    Reads read (String.join (items.map text)) (items.flatMap found) := by
  have hsingle : ∀ x ∈ items, Reads read (String.join ([x].map text)) (found x) := by
    intro x hx
    rw [List.map_singleton, String.join_cons, String.join_nil, String.append_empty]
    exact h x hx
  have hjoin := join_flatMap hsingle
  rwa [List.flatMap_singleton'] at hjoin

/-- What is read from a text of whole lines. -/
theorem readLines_eq {text : String} {found : List α} (h : Reads read text found)
    (hread : read [] = none) : readLines read text = found := by
  have hnil : readLines read "" = [] := by simp [readLines, hread]
  rw [← String.append_empty (s := text), h, hnil, List.append_nil]

/-- What is read from a table: from what opens it, and from its rows. -/
theorem table {head rows tail : String} {opened found : List α} (hhead : Reads read head opened)
    (hrows : Reads read rows found) (htail : Reads read tail []) (hread : read [] = none) :
    readLines read (head ++ rows ++ tail) = opened ++ found := by
  have hreads := (hhead.append hrows).append htail
  rw [List.append_nil] at hreads
  exact hreads.readLines_eq hread

end Reads

/-! ## Sections of members -/

section

variable {m : Members} {text : σ → String}

/-- A section that lists what the blocks give, each behind a comment. -/
theorem reads_blocks {banner : String → σ} {items : MemberBlock → List σ}
    {found : MemberBlock → List α}
    (hbanner : ∀ b ∈ m.blocks, Reads read (text (banner b.interface)) [])
    (hitems : ∀ b ∈ m.blocks, Reads read (String.join ((items b).map text)) (found b)) :
    Reads read
      (String.join ((m.blocks.flatMap fun b => banner b.interface :: items b).map text))
      (m.blocks.flatMap found) := by
  refine Reads.join_flatMap fun b hb => ?_
  rw [List.map_cons, String.join_cons]
  exact (hbanner b hb).append (hitems b hb)

/-- A section that lists what the operations with a name give. -/
theorem reads_operations (banner : String → σ) (item : ResolvedOperation → String → σ)
    (found : ResolvedOperation → String → List α)
    (hbanner : ∀ b ∈ m.blocks, Reads read (text (banner b.interface)) [])
    (hitem : ∀ b ∈ m.blocks, ∀ o ∈ b.operations, ∀ name ∈ o.name?,
      Reads read (text (item o name)) (found o name)) :
    Reads read
      (String.join ((m.blocks.flatMap fun b =>
        banner b.interface :: b.operations.filterMap fun o => o.name?.map (item o)).map text))
      (m.identifiedOperations.flatMap fun p => found p.1 p.2) := by
  have hfound : (m.identifiedOperations.flatMap fun p => found p.1 p.2)
      = m.blocks.flatMap fun b => (b.operations.filterMap fun o =>
        o.name?.map fun name => (o, name)).flatMap fun p => found p.1 p.2 := by
    rw [Members.identifiedOperations, Members.operations, List.filterMap_flatMap,
      List.flatMap_assoc]
  rw [hfound]
  refine reads_blocks hbanner fun b hb => ?_
  have hpairs : (b.operations.filterMap fun o => o.name?.map (item o))
      = (b.operations.filterMap fun o => o.name?.map fun name => (o, name)).map
        fun p => item p.1 p.2 := by
    rw [List.map_filterMap]
    simp only [Option.map_map, Function.comp_def]
  rw [hpairs, List.map_map]
  refine Reads.join fun p hp => ?_
  obtain ⟨o, ho, hsome⟩ := List.mem_filterMap.1 hp
  obtain ⟨name, hname, rfl⟩ := Option.map_eq_some_iff.1 hsome
  exact hitem b hb o ho name hname

/-- A section that lists what the attributes give. -/
theorem reads_attributes (banner : String → σ) (items : ResolvedAttribute → List σ)
    (found : ResolvedAttribute → List α)
    (hbanner : ∀ b ∈ m.blocks, Reads read (text (banner b.interface)) [])
    (hitems : ∀ b ∈ m.blocks, ∀ a ∈ b.attributes,
      Reads read (String.join ((items a).map text)) (found a)) :
    Reads read
      (String.join ((m.blocks.flatMap fun b =>
        banner b.interface :: b.attributes.flatMap items).map text))
      (m.attributes.flatMap found) := by
  rw [Members.attributes, List.flatMap_assoc]
  exact reads_blocks hbanner fun b hb => Reads.join_flatMap (hitems b hb)

end

/-! ## Names in lines -/

/-- What follows the start of a line, if the line has that start. -/
def behind? (start : String) (cs : List Char) : Option (List Char) :=
  if start.toList.isPrefixOf cs then some (cs.drop start.toList.length) else none

/-- The C name with which some characters start. -/
def leadingName (cs : List Char) : String := String.ofList (cs.takeWhile CName.isNameChar)

/-- The C name behind the start of a line, if the line has that start. -/
def nameBehind? (start : String) (cs : List Char) : Option String :=
  (behind? start cs).map leadingName

@[simp] theorem behind?_append (start : String) (cs : List Char) :
    behind? start (start.toList ++ cs) = some cs := by
  rw [behind?, if_pos (by simp), List.drop_left]

theorem leadingName_append {name : String} (h : name.toList.all CName.isNameChar = true)
    {cs : List Char} (hcs : cs.takeWhile CName.isNameChar = []) :
    leadingName (name.toList ++ cs) = name := by
  rw [leadingName, List.takeWhile_append_of_pos (List.all_eq_true.1 h), hcs, List.append_nil,
    String.ofList_toList]

theorem nameBehind?_line (start : String) {name tail : String}
    (h : name.toList.all CName.isNameChar = true)
    (htail : tail.toList.takeWhile CName.isNameChar = []) :
    nameBehind? start (start ++ name ++ tail).toList = some name := by
  rw [nameBehind?, String.toList_append, String.toList_append, List.append_assoc, behind?_append,
    Option.map_some, leadingName_append h htail]

theorem notMem_of_isNameChar {name : String} (h : name.toList.all CName.isNameChar = true)
    {c : Char} (hc : CName.isNameChar c = false) : c ∉ name.toList := fun hmem =>
  absurd (List.all_eq_true.1 h c hmem) (by simp [hc])

theorem notMem_of_isIdentifier {name : String} (h : isIdentifier name = true) {c : Char}
    (hc : Lexer.continuesIdent c = false) : c ∉ name.toList := by
  obtain ⟨d, ds, hname, hstart, hds⟩ := Lexer.isIdentifier_cons h
  have hd : Lexer.continuesIdent d = true := by
    simp only [Lexer.startsIdent, Bool.or_eq_true, beq_iff_eq] at hstart
    rcases hstart with halpha | rfl
    · simp [Lexer.continuesIdent, Char.isAlphanum, halpha]
    · decide
  have hall : (d :: ds).all Lexer.continuesIdent = true := by rw [List.all_cons, hd, hds]; rfl
  rw [hname]
  exact fun hmem => absurd (List.all_eq_true.1 hall c hmem) (by simp [hc])

/-- The comment in front of a block is a line, of which readers make nothing that look at what a
    line starts with. -/
theorem reads_blockBanner {interface : String} (h : isIdentifier interface = true) (start : String)
    (hstart : '\n' ∉ start.toList)
    (hread : ∀ cs, read (start.toList ++ ("/**** ".toList ++ cs)) = none) :
    Reads read (start ++ blockBanner interface) [] := by
  have hline : Reads read (start ++ blockBanner interface) _ :=
    Reads.line (start.toList ++ ("/**** ".toList ++ (interface ++ " ****/").toList))
      (by simp [blockBanner])
      (by simp [hstart, notMem_of_isIdentifier h (c := '\n') (by decide)])
  rwa [hread] at hline

/-! ## Private fields -/

/-- A field whose type and name are on one line is declared on one line. -/
theorem PrivateField.newline_notMem_declaration {f : PrivateField} (hctype : '\n' ∉ f.ctype.toList)
    (hname : '\n' ∉ f.name.toList) : '\n' ∉ f.declaration.toList := by
  unfold declaration CName.declaration
  split <;> simp [hctype, hname]

end IdlBind
