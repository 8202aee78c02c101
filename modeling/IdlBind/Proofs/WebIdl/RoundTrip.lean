import IdlBind.Proofs.WebIdl.PrintedMembers
import IdlBind.Proofs.WebIdl.Splitting
import IdlBind.Proofs.WebIdl.WellFormedTree

set_option autoImplicit false

/-! # Printing and reading WebIDL

Well-formed definitions are read back from their text, and from every other text with the same
tokens (`parse_print`). -/

namespace IdlBind.WebIdl

open TokenParser

/-! ## Printed tokens are tokens -/

theorem isIdentifier_of_isName {name : String} (h : isName name = true) :
    isIdentifier name = true := by
  simp only [isName, Bool.and_eq_true] at h
  exact h.1

theorem TypeFlags.print_isPrintable (flags : TypeFlags) :
    flags.print.all TokenKind.isPrintable = true ∧
      flags.printSuffix.all TokenKind.isPrintable = true := by
  obtain ⟨unsigned, unrestricted, nullable⟩ := flags
  revert unsigned unrestricted nullable
  decide

theorem TypeExpr.print_isPrintable {t : TypeExpr} (ht : t.isWellFormed = true) :
    t.print.all TokenKind.isPrintable = true := by
  have hlist : ∀ {ts : List TypeExpr}, (∀ t ∈ ts, t.print.all TokenKind.isPrintable = true) →
      (printList ts).all TokenKind.isPrintable = true := by
    intro ts hts
    rw [printList_eq_flatMap, List.all_flatMap, List.all_eq_true]
    intro t hmem
    rw [List.all_cons, hts t hmem]
    rfl
  induction t using TypeExpr.induction with
  | basic base flags =>
    obtain ⟨hflags, hsuffix⟩ := flags.print_isPrintable
    have hwords : (base.words.map TokenKind.ident).all TokenKind.isPrintable = true := by
      cases base <;> decide
    rw [print, List.all_append, List.all_append, hflags, hwords, hsuffix]
    rfl
  | sequence first others flags ih =>
    obtain ⟨hflags, hsuffix⟩ := flags.print_isPrintable
    have hinner := fun t hmem => ih t hmem (isWellFormed_sequence.1 ht t hmem)
    have hfirst := hinner first List.mem_cons_self
    have hothers := hlist fun t hmem => hinner t (List.mem_cons_of_mem _ hmem)
    simp only [print, List.all_append, List.all_cons, List.all_nil, hflags, hsuffix, hfirst,
      hothers]
    rfl
  | named name parameters flags ih =>
    obtain ⟨hflags, hsuffix⟩ := flags.print_isPrintable
    obtain ⟨hname, hparameters⟩ := isWellFormed_named.1 ht
    have hinner := fun t hmem => ih t hmem (hparameters t hmem)
    have hname : TokenKind.isPrintable (.ident name) = true := isIdentifier_of_isName hname
    cases parameters with
    | nil =>
      simp only [print, List.all_append, List.all_cons, List.all_nil, hflags, hsuffix, hname]
      rfl
    | cons first others =>
      have hfirst := hinner first List.mem_cons_self
      have hothers := hlist fun t hmem => hinner t (List.mem_cons_of_mem _ hmem)
      simp only [print, List.all_append, List.all_cons, List.all_nil, hflags, hsuffix, hname,
        hfirst, hothers]
      rfl

theorem Argument.print_isPrintable {a : Argument} (ha : a.isWellFormed = true) :
    a.print.all TokenKind.isPrintable = true := by
  obtain ⟨kind, type, name⟩ := a
  simp only [isWellFormed, Bool.and_eq_true] at ha
  have htype := TypeExpr.print_isPrintable ha.1
  have hname : TokenKind.isPrintable (.ident name) = true := isIdentifier_of_isName ha.2
  cases kind with
  | _ =>
    simp only [print, List.all_append, List.all_cons, List.all_nil, htype, hname]
    rfl

theorem Argument.printList_isPrintable {list : List Argument}
    (h : list.all Argument.isWellFormed = true) :
    (printList list).all TokenKind.isPrintable = true := by
  cases list with
  | nil => rfl
  | cons first others =>
    simp only [List.all_cons, Bool.and_eq_true] at h
    have hothers : (others.flatMap fun a => .punct ',' :: a.print).all TokenKind.isPrintable
        = true := by
      rw [List.all_flatMap, List.all_eq_true]
      intro a ha
      rw [List.all_cons, print_isPrintable (List.all_eq_true.1 h.2 a ha)]
      rfl
    rw [printList, List.all_append, print_isPrintable h.1, hothers]
    rfl

theorem Modifier.printList_isPrintable (modifiers : List Modifier) :
    (printList modifiers).all TokenKind.isPrintable = true := by
  rw [printList, List.all_map, List.all_eq_true]
  intro m _
  cases m <;> decide

theorem Member.print_isPrintable {kind : DefinitionKind} {m : Member}
    (hm : m.isWellFormed kind = true) : (m.print kind).all TokenKind.isPrintable = true := by
  rcases m with ⟨modifiers, type, name⟩ | ⟨modifiers, type, name?, list⟩ | _
  · simp only [isWellFormed, Bool.and_eq_true] at hm
    have hmodifiers := Modifier.printList_isPrintable modifiers
    have htype := TypeExpr.print_isPrintable hm.1.2
    have hname : TokenKind.isPrintable (.ident name) = true := isIdentifier_of_isName hm.2
    cases kind with
    | _ =>
      simp only [print, List.all_append, List.all_cons, List.all_nil, hmodifiers, htype, hname]
      rfl
  · simp only [isWellFormed, Bool.and_eq_true] at hm
    obtain ⟨⟨⟨-, htype⟩, hname⟩, hlist⟩ := hm
    have hmodifiers := Modifier.printList_isPrintable modifiers
    have htype := TypeExpr.print_isPrintable htype
    have hlist := Argument.printList_isPrintable hlist
    have hname : (name?.toList.map TokenKind.ident).all TokenKind.isPrintable = true := by
      cases name? with
      | none => rfl
      | some name =>
        have hprint : TokenKind.isPrintable (.ident name) = true := isIdentifier_of_isName hname
        simp [hprint]
    simp only [print, List.all_append, List.all_cons, List.all_nil, hmodifiers, htype, hname, hlist]
    rfl
  · rfl

/-! ## Pieces -/

/-- A definition of one block that can be a piece of a well-formed definition. -/
structure IsPiece (d : Definition) : Prop where
  name : isName d.name = true
  parent : d.parent?.all isName = true
  block : ∃ block, d.blocks = [block] ∧ block.all (Member.isWellFormed d.kind) = true

theorem isPiece_of_mem {d : Definition} (hd : d.isWellFormed = true) :
    ∀ piece ∈ d.pieces, IsPiece piece := by
  obtain ⟨kind, name, parent?, blocks, isPartial⟩ := d
  simp only [Definition.isWellFormed, Bool.and_eq_true] at hd
  obtain ⟨⟨⟨hname, hparent⟩, -⟩, hblocks⟩ := hd
  intro piece hpiece
  cases blocks with
  | nil => exact absurd hpiece (by simp [Definition.pieces])
  | cons first others =>
    simp only [List.all_cons, Bool.and_eq_true, List.all_eq_true (l := others)] at hblocks
    rcases List.mem_cons.1 hpiece with rfl | hpiece
    · exact ⟨hname, hparent, first, rfl, hblocks.1⟩
    · obtain ⟨block, hblock, rfl⟩ := List.mem_map.1 hpiece
      exact ⟨hname, rfl, block, rfl, hblocks.2 block hblock⟩

theorem printPiece_isPrintable {d : Definition} (hd : IsPiece d) :
    d.printPiece.all TokenKind.isPrintable = true := by
  obtain ⟨kind, name, parent?, blocks, isPartial⟩ := d
  obtain ⟨hname, hparent, block, hblocks, hblock⟩ := hd
  dsimp only at hname hparent hblocks hblock
  subst hblocks
  have hname : TokenKind.isPrintable (.ident name) = true := isIdentifier_of_isName hname
  have hparent : (printParent parent?).all TokenKind.isPrintable = true := by
    cases parent? with
    | none => rfl
    | some parent =>
      have hprint : TokenKind.isPrintable (.ident parent) = true := isIdentifier_of_isName hparent
      simp only [printParent, Option.toList_some, List.flatMap_singleton, List.all_cons, hprint]
      rfl
  have hmembers : (block.flatMap (Member.print kind)).all TokenKind.isPrintable = true := by
    rw [List.all_flatMap, List.all_eq_true]
    exact fun m hm => Member.print_isPrintable (List.all_eq_true.1 hblock m hm)
  simp only [Definition.printPiece, printBlock, List.flatMap_singleton, List.all_append,
    List.all_cons, List.all_nil, hname, hparent, hmembers]
  cases isPartial <;> cases kind <;> rfl

/-- Printed pieces are read back. -/
theorem definitions_print {pieces : List Definition} (h : ∀ d ∈ pieces, IsPiece d) :
    definitions (place (pieces.flatMap Definition.printPiece)) = (pieces, .ok ()) := by
  have hitem : ∀ d ∈ pieces, ∀ us,
      statement (place d.printPiece ++ us) = .ok (some (some d), us) := by
    intro d hd us
    obtain ⟨hname, -, block, hblocks, hblock⟩ := h d hd
    exact statement_print hblocks hname hblock us
  have hprint : ∀ d ∈ pieces, d.printPiece ≠ [] := by
    intro d _
    obtain ⟨word, kinds, hprint⟩ := d.exists_printPiece
    simp [hprint]
  have hread := many_print_some statement_nil hitem hprint
  rw [List.append_nil, Parser.many_eq_ok_iff] at hread
  simp [definitions, hread, List.filterMap_map, Except.map]

/-! ## Merging pieces -/

theorem insertInto_of_forall {d : Definition} {es : List Definition}
    (h : ∀ e ∈ es, e.sameKey d = false) : Document.insertInto d es = es ++ [d] := by
  induction es with
  | nil => rfl
  | cons e es ih =>
    rw [Document.insertInto, if_neg (by simp [h e List.mem_cons_self]),
      ih fun f hf => h f (List.mem_cons_of_mem _ hf)]
    rfl

theorem insertInto_append {d e : Definition} {es : List Definition}
    (h : ∀ e ∈ es, e.sameKey d = false) (he : e.sameKey d = true) :
    Document.insertInto d (es ++ [e]) = es ++ [e.merge d] := by
  induction es with
  | nil => exact if_pos he
  | cons f es ih =>
    rw [List.cons_append, Document.insertInto, if_neg (by simp [h f List.mem_cons_self]),
      ih fun g hg => h g (List.mem_cons_of_mem _ hg)]
    rfl

/-- Partial definitions of one block each add their blocks to the definition. -/
theorem insertAll_partial {kind : DefinitionKind} {name : String} {parent? : Option String}
    {es : List Definition} (h : ∀ e ∈ es, ¬(e.kind = kind ∧ e.name = name))
    (first others : List (List Member)) :
    Document.insertAll ⟨es ++ [⟨kind, name, parent?, first, false⟩]⟩
        (others.map fun block => ⟨kind, name, none, [block], true⟩)
      = ⟨es ++ [⟨kind, name, parent?, first ++ others, false⟩]⟩ := by
  induction others generalizing first with
  | nil => rw [List.map_nil, Document.insertAll_nil, List.append_nil]
  | cons block others ih =>
    -- the block goes to the back, as the definition in the document is not partial
    have hother : ∀ e ∈ es, e.sameKey ⟨kind, name, none, [block], true⟩ = false := by
      intro e he
      simpa [Definition.sameKey] using h e he
    have hinsert : Document.insert ⟨es ++ [⟨kind, name, parent?, first, false⟩]⟩
        ⟨kind, name, none, [block], true⟩
        = ⟨es ++ [⟨kind, name, parent?, first ++ [block], false⟩]⟩ := by
      rw [Document.insert, insertInto_append hother (by simp [Definition.sameKey])]
      simp [Definition.merge]
    have hmore := ih (first ++ [block])
    rw [List.append_assoc] at hmore
    rw [List.map_cons, Document.insertAll, List.foldl_cons, hinsert]
    exact hmore

/-- A definition without the mark that it is partial. -/
def Definition.complete (d : Definition) : Definition := { d with isPartial := false }

theorem insertAll_pieces {d : Definition} (hblocks : d.blocks ≠ []) {es : List Definition}
    (h : ∀ e ∈ es, ¬(e.kind = d.kind ∧ e.name = d.name)) :
    Document.insertAll ⟨es⟩ d.pieces = ⟨es ++ [d.complete]⟩ := by
  obtain ⟨kind, name, parent?, blocks, isPartial⟩ := d
  cases blocks with
  | nil => exact absurd rfl hblocks
  | cons first others =>
    have hother : ∀ e ∈ es, e.sameKey ⟨kind, name, parent?, [first], false⟩ = false := by
      intro e he
      simpa [Definition.sameKey] using h e he
    rw [Definition.pieces, Document.insertAll, List.foldl_cons, Document.insert,
      insertInto_of_forall hother]
    exact insertAll_partial h [first] others

/-- The pieces of definitions of different things are merged into these definitions. -/
theorem insertAll_flatMap_pieces {ds es : List Definition} (hblocks : ∀ d ∈ ds, d.blocks ≠ [])
    (hdistinct : ds.Pairwise fun a b => ¬(a.kind = b.kind ∧ a.name = b.name))
    (hnew : ∀ e ∈ es, ∀ d ∈ ds, ¬(e.kind = d.kind ∧ e.name = d.name)) :
    Document.insertAll ⟨es⟩ (ds.flatMap Definition.pieces)
      = ⟨es ++ ds.map Definition.complete⟩ := by
  induction ds generalizing es with
  | nil => rw [List.flatMap_nil, Document.insertAll_nil, List.map_nil, List.append_nil]
  | cons d ds ih =>
    obtain ⟨hd, hds⟩ := List.pairwise_cons.1 hdistinct
    have hfront : ∀ e ∈ es, ¬(e.kind = d.kind ∧ e.name = d.name) :=
      fun e he => hnew e he d List.mem_cons_self
    have hrest : ∀ e ∈ es ++ [d.complete], ∀ f ∈ ds, ¬(e.kind = f.kind ∧ e.name = f.name) := by
      intro e he f hf
      rcases List.mem_append.1 he with he | he
      · exact hnew e he f (List.mem_cons_of_mem _ hf)
      · obtain rfl := List.mem_singleton.1 he
        exact hd f hf
    rw [List.flatMap_cons, Document.insertAll_append,
      insertAll_pieces (hblocks d List.mem_cons_self) hfront,
      ih (fun e he => hblocks e (List.mem_cons_of_mem _ he)) hds hrest, List.append_assoc]
    rfl

/-! ## The round trip -/

theorem isPiece_of_wellFormed {ds : List Definition} (h : WellFormed ds) :
    ∀ piece ∈ ds.flatMap Definition.pieces, IsPiece piece := by
  intro piece hpiece
  obtain ⟨d, hd, hpiece⟩ := List.mem_flatMap.1 hpiece
  exact isPiece_of_mem (h.each d hd) piece hpiece

theorem blocks_ne_nil {ds : List Definition} (h : WellFormed ds) : ∀ d ∈ ds, d.blocks ≠ [] := by
  intro d hd hblocks
  have := h.each d hd
  simp [Definition.isWellFormed, hblocks] at this

theorem flatMap_print (ds : List Definition) :
    ds.flatMap Definition.print = (ds.flatMap Definition.pieces).flatMap Definition.printPiece :=
  List.flatMap_assoc.symm

/-- A text with the tokens of well-formed definitions is read as these definitions. -/
theorem parse_of_kinds {ds : List Definition} (h : WellFormed ds) {source : String}
    {stream : TokenStream} (hstream : TokenStream.ofString source = .ok stream)
    (hkinds : stream.ahead.map (·.kind) = ds.flatMap Definition.print) :
    parse source = .ok (ds.map Definition.toNode) := by
  have hread : readSource source = (ds.flatMap Definition.pieces, .ok ()) := by
    rw [readSource, hstream]
    rw [flatMap_print] at hkinds
    exact definitions_of_kinds (kinds_place _ |>.trans hkinds.symm)
      (definitions_print (isPiece_of_wellFormed h))
  have hinsert : Document.empty.insertAll (ds.flatMap Definition.pieces)
      = ⟨ds.map Definition.complete⟩ :=
    insertAll_flatMap_pieces (blocks_ne_nil h) h.distinct (by simp)
  rw [parse, addSource_eq, hread]
  dsimp only
  rw [hinsert, Document.toNodes, List.map_map]
  rfl

/-- The text of well-formed definitions can be tokenized. -/
theorem ofString_print {ds : List Definition} (h : WellFormed ds) :
    ∃ stream, TokenStream.ofString (print ds) = .ok stream ∧
      stream.ahead.map (·.kind) = ds.flatMap Definition.print := by
  have hprintable : (ds.flatMap Definition.print).all TokenKind.isPrintable = true := by
    rw [flatMap_print, List.all_flatMap, List.all_eq_true]
    exact fun piece hpiece => printPiece_isPrintable (isPiece_of_wellFormed h piece hpiece)
  obtain ⟨ts, finish, htokens, hkinds⟩ := tokenize_textOf hprintable
  refine ⟨⟨ts, finish⟩, ?_, hkinds⟩
  rw [TokenStream.ofString, print, htokens]
  simp only [Except.map, TokenStream.ofTokens_append]

/-- Printing and reading WebIDL. A well-formed tree is the tree of well-formed definitions. Their
    text is read as this tree, and so is every text with the same tokens, whatever stands between
    them. -/
theorem parse_print {nodes : List Node} (h : IsTree nodes) :
    (∃ ds, WellFormed ds ∧ ds.map Definition.toNode = nodes) ∧
    ∀ ds, WellFormed ds → ds.map Definition.toNode = nodes →
      parse (print ds) = .ok nodes ∧
      ∀ source stream, TokenStream.ofString source = .ok stream →
        stream.ahead.map (·.kind) = ds.flatMap Definition.print → parse source = .ok nodes := by
  refine ⟨(isTree_iff nodes).1 h, ?_⟩
  rintro ds hds rfl
  obtain ⟨stream, hstream, hkinds⟩ := ofString_print hds
  exact ⟨parse_of_kinds hds hstream hkinds, fun source stream => parse_of_kinds hds⟩

/-- An interface of two blocks, and a dictionary with the same name. -/
def album : List Definition :=
  [⟨.interface, "Album", some "Base",
    [[.attribute (.readOnly :: [])
        (.sequence (.named "Track" [.basic .longLong ⟨true, false, true⟩] ⟨false, false, false⟩) []
          ⟨false, false, true⟩) "tracks",
      .stringifier],
     [.operation [.stringifier] (.basic .string ⟨false, false, false⟩) none
        [⟨.optional, .basic .long ⟨false, false, false⟩, "index"⟩,
         ⟨.variadic, .basic .any ⟨false, false, false⟩, "rest"⟩]]], false⟩,
   ⟨.dictionary, "Album", none,
    [[.attribute .nil (.basic .double ⟨false, true, false⟩) "length"]], false⟩]

/-- The second block is printed as a partial interface and merged into the first. -/
theorem parse_print_album :
    IsTree (album.map Definition.toNode) ∧
    parse (print album) = .ok (album.map Definition.toNode) := by
  have hwellFormed : WellFormed album := ⟨by decide +kernel, by decide⟩
  have htree : IsTree (album.map Definition.toNode) :=
    (isTree_iff _).2 ⟨album, hwellFormed, rfl⟩
  exact ⟨htree, ((parse_print htree).2 album hwellFormed rfl).1⟩

end IdlBind.WebIdl
