import IdlBind.Proofs.WebIdl.Parts
import IdlBind.Proofs.WebIdl.Replacing
import IdlBind.Proofs.WebIdl.Sources

set_option autoImplicit false

/-! # What leaves the trees alone

Extended attributes in front of any construct, statements that are not supported and members that
are skipped are accepted and make no difference to the trees of a source. -/

namespace IdlBind.WebIdl

open TokenParser

/-! ## Trees of tokens -/

/-- The trees of the definitions among tokens. -/
def treesOf (tokens : List Token) : Except ParseError (List Node) :=
  (definitions tokens).2.map fun _ => (Document.empty.insertAll (definitions tokens).1).toNodes

/-- A source is parsed by way of its tokens. -/
theorem parse_eq_treesOf {source : String} {stream : TokenStream}
    (h : TokenStream.ofString source = .ok stream) : parse source = treesOf stream.ahead := by
  rw [parse, addSource_eq, readSource, h, treesOf]
  dsimp only
  cases (definitions stream.ahead).2 <;> rfl

theorem treesOf_eq_ok {tokens : List Token} {trees : List Node} (h : treesOf tokens = .ok trees) :
    (definitions tokens).2 = .ok () ∧
      (Document.empty.insertAll (definitions tokens).1).toNodes = trees := by
  obtain ⟨⟨⟩, houtcome, htrees⟩ := exists_of_map_eq_ok h
  exact ⟨houtcome, htrees⟩

/-- Tokens with the same definitions have the same trees, wherever they stand. -/
theorem treesOf_of_kinds {ts us us' : List Token} {trees : List Node} (h : treesOf ts = .ok trees)
    (hus : definitions us = definitions ts) (hkinds : us'.map (·.kind) = us.map (·.kind)) :
    treesOf us' = .ok trees := by
  obtain ⟨houtcome, htrees⟩ := treesOf_eq_ok h
  have hfound : definitions us' = ((definitions ts).1, .ok ()) :=
    definitions_of_kinds hkinds.symm (hus.trans (Prod.ext rfl houtcome))
  rw [treesOf, hfound, ← htrees]
  rfl

/-! ## Extended attributes -/

/-- Extended attributes are transparent. In tokens that are accepted, every definition, member and
    argument and every type that becomes a node has a place, and a group in square brackets that are
    balanced, put in front of any place, gives tokens that are accepted with the same trees. -/
theorem attributes_are_transparent {tokens : List Token} {trees : List Node}
    (haccepted : treesOf tokens = .ok trees) :
    (∀ d ∈ (definitions tokens).1, d.HasPlaces tokens) ∧
    ∀ (c : Construct) (before behind : List Token), tokens = before ++ behind →
      Place tokens c behind → ∀ group, IsGroup '[' ']' group → ∀ tokens' : List Token,
        tokens'.map (·.kind) = (before ++ group ++ behind).map (·.kind) →
          treesOf tokens' = .ok trees := by
  refine ⟨fun d hd => hasPlaces_of_mem hd, ?_⟩
  rintro c before behind rfl hplace group hgroup tokens' hkinds
  have hadmits : c.Admits behind (group ++ behind) := by
    cases c with
    | statement => trivial
    | member kind => trivial
    | argument => exact .inr ⟨group, hgroup, rfl⟩
    | type => exact .inr ⟨group, hgroup, rfl⟩
  have hsame := hplace.replace hadmits (read_group c hgroup behind)
  rw [← List.append_assoc] at hsame
  exact treesOf_of_kinds haccepted hsame hkinds

/-- An operation, up to the parameter of a parameter of its type. -/
def lampFront : List Token :=
  place [.ident "interface", .ident "Lamp", .punct '{', .ident "Promise", .punct '<',
    .ident "sequence", .punct '<']

/-- The rest of the operation and of its interface. -/
def lampRest : List Token :=
  place [.ident "long", .punct '>', .punct '>', .ident "blink", .punct '(', .ident "optional",
    .ident "long", .ident "times", .punct ')', .punct ';', .punct '}', .punct ';']

/-- A group with a group in it. -/
def clampGroup : List Token :=
  place [.punct '[', .ident "Clamp", .punct ',', .ident "X", .punct '(', .ident "a", .punct '[',
    .integer 1, .punct ']', .punct ')', .punct ']']

theorem isGroup_clampGroup : IsGroup '[' ']' clampGroup :=
  @IsGroup.intro _ _ _ _ clampGroup.tail.dropLast rfl rfl rfl

theorem exists_treesOf_lamp : ∃ trees, treesOf (lampFront ++ lampRest) = .ok trees := by
  have hok : (treesOf (lampFront ++ lampRest)).isOk = true := by decide +kernel
  cases htrees : treesOf (lampFront ++ lampRest) with
  | error e =>
    rw [htrees] at hok
    exact absurd hok (by simp [Except.isOk, Except.toBool])
  | ok trees => exact ⟨trees, rfl⟩

theorem place_lampMember : Place (lampFront ++ lampRest) (.member .interface)
    (lampFront.drop 3 ++ lampRest) :=
  Place.start.inside (.firstMember (by rfl) (.interface .start rfl) (by rfl))

theorem place_lampRest : Place (lampFront ++ lampRest) .type lampRest := by
  have htype : Place (lampFront ++ lampRest) .type (lampFront.drop 3 ++ lampRest) :=
    place_lampMember.inside (.returnType ⟨rfl, Parser.many_eq_nil rfl, rfl⟩)
  have hparameter : Place (lampFront ++ lampRest) .type (lampFront.drop 5 ++ lampRest) :=
    htype.inside (.parameter rfl rfl rfl (.first _))
  exact hparameter.inside (.parameter rfl rfl rfl (.first _))

theorem attributes_are_transparent_lamp : ∃ trees, treesOf (lampFront ++ lampRest) = .ok trees ∧
    IsGroup '[' ']' clampGroup ∧ Place (lampFront ++ lampRest) .type lampRest ∧
    treesOf (lampFront ++ clampGroup ++ lampRest) = .ok trees := by
  obtain ⟨trees, htrees⟩ := exists_treesOf_lamp
  exact ⟨trees, htrees, isGroup_clampGroup, place_lampRest,
    (attributes_are_transparent htrees).2 .type lampFront lampRest rfl place_lampRest clampGroup
      isGroup_clampGroup _ rfl⟩

/-! ## Unsupported statements -/

/-- How a statement starts that is not supported: with no word of a definition, with `callback` in
    front of no interface, or as a partial namespace. -/
inductive StartsUnsupported : List Token → Prop
  | other {t : Token} {ts : List Token} (hgroup : t.kind ≠ .punct '[')
    (hwords : ∀ word ∈ ["interface", "dictionary", "partial", "callback"], t.kind ≠ .ident word) :
    StartsUnsupported (t :: ts)
  | callback {p : Position} {t : Token} {ts : List Token} (h : t.kind ≠ .ident "interface") :
    StartsUnsupported (⟨.ident "callback", p⟩ :: t :: ts)
  | partialNamespace {p p' : Position} {ts : List Token} :
    StartsUnsupported (⟨.ident "partial", p⟩ :: ⟨.ident "namespace", p'⟩ :: ts)

/-- How a member starts that is skipped: with any number of modifiers in front of its keyword. -/
inductive StartsSkippedMember : List Token → Prop
  | keyword {word : String} {p : Position} {ts : List Token} (h : word ∈ skippedMembers) :
    StartsSkippedMember (⟨.ident word, p⟩ :: ts)
  | modifier {m : Modifier} {p : Position} {ts : List Token} (h : StartsSkippedMember ts) :
    StartsSkippedMember (⟨.ident m.keyword, p⟩ :: ts)

theorem statement_of_not_group {ts : List Token} (hplain : Avoids (.punct '[') ts) (hne : ts ≠ []) :
    statement ts = (some <$> declaration) ts := by
  have hisEmpty : ts.isEmpty = false := by simpa using hne
  rw [statement_of_skipAttributes (skipAttributes_of_avoids hplain), hisEmpty,
    if_neg Bool.false_ne_true]

/-- Behind `partial`, or without it, a statement that starts with no word of a definition is
    skipped; a partial one has to be a namespace. -/
theorem declaration_skips {isPartial isNamespace : Bool} {ts mid us : List Token}
    (hpartial : acceptIdent "partial" ts = .ok (isPartial, mid))
    (havoids : ∀ word ∈ ["callback", "interface", "dictionary"], Avoids (.ident word) mid)
    (hcheck : checkIdent "namespace" mid = .ok (isNamespace, mid))
    (hnamespace : isPartial = true → isNamespace = true) (hskip : skipStatement mid = .ok ((), us)) :
    declaration ts = .ok (none, us) := by
  have hallowed : (isPartial && !isNamespace) = false := by
    cases isPartial with
    | false => rfl
    | true =>
      rw [hnamespace rfl]
      rfl
  unfold declaration
  rw [Parser.bind_apply_of_ok hpartial,
    Parser.bind_apply_of_ok (acceptIdent_of_avoids (havoids "callback" (by decide))),
    if_neg Bool.false_ne_true,
    Parser.bind_apply_of_ok (acceptIdent_of_avoids (havoids "interface" (by decide))),
    if_neg Bool.false_ne_true,
    Parser.bind_apply_of_ok (acceptIdent_of_avoids (havoids "dictionary" (by decide))),
    if_neg Bool.false_ne_true, Parser.bind_apply_of_ok hcheck, hallowed,
    if_neg Bool.false_ne_true, Parser.bind_apply_of_ok hskip]
  rfl

theorem declaration_unsupported {ts : List Token} (hends : EndsStatement 0 ts)
    (h : StartsUnsupported ts) (us : List Token) : declaration (ts ++ us) = .ok (none, us) := by
  cases h with
  | @other t ts _ hwords =>
    have havoids : ∀ word ∈ ["interface", "dictionary", "partial", "callback"],
        Avoids (.ident word) (t :: ts ++ us) :=
      fun word hword => avoids_cons (hwords word hword) _
    refine declaration_skips (acceptIdent_of_avoids (havoids "partial" (by decide)))
      (fun word hword => havoids word ?_) rfl (fun h => absurd h Bool.false_ne_true)
      (skipStatement_statement hends us)
    revert word
    decide
  | @callback p t ts hinterface =>
    have havoids : Avoids (.ident "interface") (t :: ts ++ us) := avoids_cons hinterface _
    unfold declaration
    rw [List.cons_append,
      Parser.bind_apply_of_ok (acceptIdent_of_avoids (avoids_cons (by simp) _)),
      Parser.bind_apply_of_ok (acceptIdent_self "callback" p), if_pos rfl,
      Parser.bind_apply_of_ok (acceptIdent_of_avoids havoids), if_neg Bool.false_ne_true,
      Parser.bind_apply_of_ok (skipStatement_statement hends.behindIdent us)]
    rfl
  | @partialNamespace p p' ts =>
    have hnamespace : ∀ word ∈ ["callback", "interface", "dictionary"], "namespace" ≠ word := by
      decide
    exact declaration_skips (acceptIdent_self "partial" p)
      (fun word hword => avoids_cons (by simpa using hnamespace word hword) _) rfl (fun _ => rfl)
      (skipStatement_statement hends.behindIdent us)

theorem statement_unsupported {ts : List Token} (hends : EndsStatement 0 ts)
    (h : StartsUnsupported ts) (us : List Token) :
    statement (ts ++ us) = .ok (some none, us) := by
  have hplain : Avoids (.punct '[') (ts ++ us) := by
    cases h with
    | other hgroup _ => exact avoids_cons hgroup _
    | callback _ => exact avoids_cons (by simp) _
    | partialNamespace => exact avoids_cons (by simp) _
  have hne : ts ++ us ≠ [] := by cases h <;> simp
  rw [statement_of_not_group hplain hne, Parser.map_apply, declaration_unsupported hends h us]
  rfl

/-! ## Members that are skipped -/

/-- Modifiers lead to the keyword, and the statement from there on is skipped. -/
theorem StartsSkippedMember.exists_keyword {ts : List Token} (hends : EndsStatement 0 ts)
    (h : StartsSkippedMember ts) (us : List Token) :
    ∃ modifiers mid, Parser.many acceptModifier (ts ++ us) = .ok (modifiers, mid) ∧
      checkAnyIdent skippedMembers mid = .ok (true, mid) ∧ skipStatement mid = .ok ((), us) := by
  induction h with
  | @keyword word p ts hword =>
    have hstop : acceptModifier (⟨.ident word, p⟩ :: (ts ++ us))
        = .ok (none, ⟨.ident word, p⟩ :: (ts ++ us)) := by
      have hmodifier : ∀ word ∈ skippedMembers, word ∉ Modifier.all.map Modifier.keyword := by
        decide
      refine acceptModifier_of_mayStartType ?_ (List.Subset.refl _)
      simpa [mayStartType, startsTypeBut] using hmodifier word hword
    exact ⟨[], _, Parser.many_eq_nil hstop, checkAnyIdent_of_mem hword p _,
      skipStatement_statement hends us⟩
  | @modifier m p ts _ ih =>
    obtain ⟨modifiers, mid, hmany, hcheck, hskip⟩ := ih hends.behindIdent
    exact ⟨m :: modifiers, mid, Parser.many_cons (acceptModifier_keyword m p _)
      (Nat.lt_succ_self _) hmany, hcheck, hskip⟩

theorem StartsSkippedMember.avoids {ts : List Token} (h : StartsSkippedMember ts) (c : Char)
    (us : List Token) : Avoids (.punct c) (ts ++ us) := by
  cases h with
  | keyword _ => exact avoids_cons (by simp) _
  | modifier _ => exact avoids_cons (by simp) _

theorem interfaceMember_skipped {ts : List Token} (hends : EndsStatement 0 ts)
    (h : StartsSkippedMember ts) (us : List Token) :
    interfaceMember (ts ++ us) = .ok (none, us) := by
  unfold interfaceMember
  cases h with
  | @keyword word p ts hword =>
    rw [List.cons_append, Parser.bind_apply_of_ok (checkAnyIdent_of_mem hword p _), if_pos rfl,
      ← List.cons_append, Parser.bind_apply_of_ok (skipStatement_statement hends us)]
    rfl
  | @modifier m p ts h =>
    have hsecond : (ts ++ us).head?.any (·.isPunct ';') = false := h.avoids ';' us
    have hpair : startsPair (.ident "stringifier") ';' (⟨.ident m.keyword, p⟩ :: (ts ++ us))
        = false := by
      rw [startsPair, List.tail_cons, hsecond, Bool.and_false]
    obtain ⟨modifiers, mid, hmany, hcheck, hskip⟩ :=
      StartsSkippedMember.exists_keyword hends (.modifier h) us
    rw [List.cons_append, Parser.bind_apply_of_ok (checkAnyIdent_of_mayStartType
        (mayStartType_modifier m p _) (List.Subset.refl _)), if_neg Bool.false_ne_true,
      pair_apply (checkIdent "stringifier") (fun _ => rfl), hpair, if_neg Bool.false_ne_true]
    unfold modifiedMember
    rw [← List.cons_append, Parser.bind_apply_of_ok hmany, Parser.bind_apply_of_ok hcheck,
      if_pos rfl, Parser.bind_apply_of_ok hskip]
    rfl

theorem blockItem_skipped {ts : List Token} (hends : EndsStatement 0 ts)
    (h : StartsSkippedMember ts) (us : List Token) :
    blockItem .interface (ts ++ us) = .ok (some none, us) := by
  have hatEnd : atEnd (ts ++ us) = .ok (false, ts ++ us) := by cases h <;> rfl
  unfold blockItem
  rw [Parser.bind_apply_of_ok (skipAttributes_of_avoids (h.avoids '[' us)),
    Parser.bind_apply_of_ok (acceptPunct_of_avoids (h.avoids '}' us)), if_neg Bool.false_ne_true,
    Parser.bind_apply_of_ok hatEnd, if_neg Bool.false_ne_true, member,
    Parser.bind_apply_of_ok (interfaceMember_skipped hends h us)]
  rfl

/-- Unsupported statements are transparent. In tokens that are accepted, a statement that ends with
    its only semicolon outside brackets may be put in front of any statement, or behind the last
    one, if it is not supported, and in front of any member of an interface, or behind the last one,
    if it is a member that is skipped: the tokens are accepted with the same trees. -/
theorem unsupported_statements_are_transparent {tokens : List Token} {trees : List Node}
    (haccepted : treesOf tokens = .ok trees) {before behind inserted : List Token}
    (htokens : tokens = before ++ behind) (hends : EndsStatement 0 inserted)
    (hinserted : Place tokens .statement behind ∧ StartsUnsupported inserted ∨
      Place tokens (.member .interface) behind ∧ StartsSkippedMember inserted)
    {tokens' : List Token}
    (hkinds : tokens'.map (·.kind) = (before ++ inserted ++ behind).map (·.kind)) :
    treesOf tokens' = .ok trees := by
  subst htokens
  refine treesOf_of_kinds haccepted ?_ hkinds
  rw [List.append_assoc]
  rcases hinserted with ⟨hplace, hstart⟩ | ⟨hplace, hstart⟩
  · refine hplace.replace trivial ?_
    show definitions (inserted ++ behind) = definitions behind
    rw [definitions_cons (statement_unsupported hends hstart behind)]
    rfl
  · refine hplace.replace trivial ?_
    show memberItems .interface (inserted ++ behind) = memberItems .interface behind
    rw [memberItems_cons (blockItem_skipped hends hstart behind)]
    cases memberItems .interface behind <;> rfl

/-- A statement with a semicolon in brackets. -/
def constants : List Token :=
  place [.ident "partial", .ident "namespace", .ident "N", .punct '{', .ident "const",
    .ident "long", .ident "a", .punct '=', .integer 1, .punct ';', .punct '}', .punct ';']

/-- A member that starts with a modifier. -/
def pairs : List Token :=
  place [.ident "readonly", .ident "maplike", .punct '<', .ident "long", .punct ',',
    .ident "long", .punct '>', .punct ';']

theorem unsupported_statements_are_transparent_lamp :
    ∃ trees, treesOf (lampFront ++ lampRest) = .ok trees ∧
    (EndsStatement 0 constants ∧ StartsUnsupported constants ∧
      Place (lampFront ++ lampRest) .statement (lampFront ++ lampRest) ∧
      treesOf (constants ++ (lampFront ++ lampRest)) = .ok trees) ∧
    (EndsStatement 0 pairs ∧ StartsSkippedMember pairs ∧
      Place (lampFront ++ lampRest) (.member .interface) (lampFront.drop 3 ++ lampRest) ∧
      treesOf (lampFront.take 3 ++ pairs ++ (lampFront.drop 3 ++ lampRest)) = .ok trees) := by
  obtain ⟨trees, htrees⟩ := exists_treesOf_lamp
  have hconstants : EndsStatement 0 constants := by decide
  have hstatement : StartsUnsupported constants := .partialNamespace
  have hpairs : EndsStatement 0 pairs := by decide
  have hmember : StartsSkippedMember pairs :=
    .modifier (m := .readOnly) (.keyword (by decide))
  refine ⟨trees, htrees, ⟨hconstants, hstatement, .start, ?_⟩,
    ⟨hpairs, hmember, place_lampMember, ?_⟩⟩
  · exact unsupported_statements_are_transparent htrees (List.nil_append _).symm hconstants
      (.inl ⟨.start, hstatement⟩) rfl
  · have hsplit : lampFront ++ lampRest = lampFront.take 3 ++ (lampFront.drop 3 ++ lampRest) := rfl
    exact unsupported_statements_are_transparent htrees hsplit hpairs
      (.inr ⟨place_lampMember, hmember⟩) rfl

end IdlBind.WebIdl
