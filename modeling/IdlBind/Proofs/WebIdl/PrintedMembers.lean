import IdlBind.Proofs.WebIdl.PrintedTypes

set_option autoImplicit false

/-! # Reading printed definitions

Printed arguments, members and blocks are read back, and so is every piece of a definition
(`statement_print`). What a construct is follows from its first word, which is a keyword of its own,
a word that starts a type, or a name. -/

namespace IdlBind.WebIdl

open TokenParser

variable {rest : List Token}

/-! ## First words -/

/-- Can a type start with this word? -/
def StartsType (word : String) : Prop := word ∈ typeKeywords ∨ isName word = true

theorem StartsType.ne {word keyword : String} (h : StartsType word) (hk : keyword ∈ keywords)
    (hother : keyword ∉ typeKeywords) : word ≠ keyword := by
  rintro rfl
  rcases h with h | h
  · exact hother h
  · exact ne_of_isName h hk rfl

theorem startsType_notMem {word : String} (h : StartsType word) {words : List String}
    (hwords : ∀ keyword ∈ words, keyword ∈ keywords ∧ keyword ∉ typeKeywords) : word ∉ words :=
  fun hmem => h.ne (hwords word hmem).1 (hwords word hmem).2 rfl

/-- A printed type starts with the words in front of it, a basic type or a name. -/
theorem TypeExpr.exists_print {t : TypeExpr} (ht : t.isWellFormed = true) :
    ∃ word kinds, t.print = .ident word :: kinds ∧ StartsType word := by
  have hflags : ∀ (flags : TypeFlags) (word : String) (kinds : List TokenKind), StartsType word →
      ∃ first more, flags.print ++ .ident word :: kinds = .ident first :: more ∧
        StartsType first := by
    intro flags word kinds hword
    unfold TypeFlags.print
    cases flags.unsigned with
    | true => exact ⟨"unsigned", _, rfl, .inl (by decide)⟩
    | false =>
      cases flags.unrestricted with
      | true => exact ⟨"unrestricted", _, rfl, .inl (by decide)⟩
      | false => exact ⟨word, _, rfl, hword⟩
  cases t with
  | basic base flags =>
    obtain ⟨word, words, first, hwords, hmem, -⟩ := exists_words base
    rw [print, hwords, List.map_cons, List.append_assoc]
    exact hflags flags word _ (.inl hmem)
  | sequence first others flags =>
    simp only [print, List.append_assoc, List.cons_append]
    exact hflags flags "sequence" _ (.inl (by decide))
  | named name parameters flags =>
    have hname : StartsType name := by
      simp only [isWellFormed, Bool.and_eq_true] at ht
      exact .inr ht.1
    cases parameters with
    | nil =>
      simp only [print, List.append_assoc, List.cons_append]
      exact hflags flags name _ hname
    | cons first others =>
      simp only [print, List.append_assoc, List.cons_append]
      exact hflags flags name _ hname

theorem avoids_type {kind : TokenKind} {t : TypeExpr} (ht : t.isWellFormed = true)
    (hkind : ∀ word, StartsType word → TokenKind.ident word ≠ kind) (ts : List Token) :
    Avoids kind (place t.print ++ ts) := by
  obtain ⟨word, kinds, hprint, hword⟩ := t.exists_print ht
  rw [hprint, place_cons, List.cons_append]
  exact avoids_cons (hkind word hword) _

theorem avoids_type_ident {keyword : String} {t : TypeExpr} (ht : t.isWellFormed = true)
    (hk : keyword ∈ keywords) (hother : keyword ∉ typeKeywords) (ts : List Token) :
    Avoids (.ident keyword) (place t.print ++ ts) :=
  avoids_type ht (fun word hword => by simpa using hword.ne hk hother) ts

/-! ## Arguments -/

theorem optionalDefault_of_avoids {ts : List Token} (h : Avoids (.punct '=') ts) :
    optionalDefault ts = .ok ((), ts) := by
  unfold optionalDefault
  rw [Parser.bind_apply_of_ok (acceptPunct_of_avoids h)]
  rfl

theorem acceptEllipsis_print (b : Bool) (name : String) (ts : List Token) :
    acceptEllipsis (place (if b then [.ellipsis] else []) ++ ⟨.ident name, .start⟩ :: ts)
      = .ok (b, ⟨.ident name, .start⟩ :: ts) := by
  cases b <;> rfl

theorem Argument.exists_print {a : Argument} (ha : a.isWellFormed = true) :
    ∃ word kinds, a.print = .ident word :: kinds := by
  obtain ⟨kind, type, name⟩ := a
  simp only [isWellFormed, Bool.and_eq_true] at ha
  obtain ⟨word, kinds, hprint, -⟩ := type.exists_print ha.1
  cases kind with
  | optional => exact ⟨"optional", _, rfl⟩
  | _ =>
    simp only [print, hprint]
    exact ⟨word, _, rfl⟩

/-- A printed argument is read back unless a default value follows. -/
theorem argument_print {a : Argument} (ha : a.isWellFormed = true)
    (hrest : Avoids (.punct '=') rest) : argument (place a.print ++ rest) = .ok (a, rest) := by
  obtain ⟨kind, type, name⟩ := a
  simp only [Argument.isWellFormed, Bool.and_eq_true] at ha
  obtain ⟨htype, hname⟩ := ha
  -- the kinds of arguments differ in the word in front and the dots behind the type
  have hread : ∀ isOptional isVariadic : Bool,
      argument (place ((if isOptional then [.ident "optional"] else []) ++ type.print ++
        (if isVariadic then [.ellipsis] else []) ++ [.ident name]) ++ rest)
      = .ok (⟨if isVariadic then .variadic else if isOptional then .optional else .required, type,
          name⟩, rest) := by
    intro isOptional isVariadic
    have hends : EndsType (place (if isVariadic then [.ellipsis] else []) ++
        ⟨.ident name, .start⟩ :: rest) := by
      cases isVariadic with
      | true => exact endsType_cons (by simp) _
      | false => exact endsType_name hname _ _
    simp only [place_append, place_cons, place_nil, List.append_assoc, List.cons_append,
      List.nil_append]
    unfold argument
    rw [Parser.bind_apply_of_ok (skipAttributes_of_avoids
        (avoids_word (by simp) _ (avoids_type htype (by simp) _))),
      Parser.bind_apply_of_ok (acceptIdent_print _
        (avoids_type_ident htype (by decide) (by decide) _)),
      Parser.bind_apply_of_ok (typeExpr_print htype hends),
      Parser.bind_apply_of_ok (acceptEllipsis_print _ _ _),
      Parser.bind_apply_of_ok (expectIdent_ident _ _),
      Parser.bind_apply_of_ok (optionalDefault_of_avoids hrest)]
    rfl
  cases kind with
  | required => simpa [Argument.print] using hread false false
  | optional => simpa [Argument.print] using hread true false
  | variadic => simpa [Argument.print] using hread false true

theorem arguments_print {list : List Argument} (h : list.all Argument.isWellFormed = true)
    (rest : List Token) :
    arguments (place (.punct '(' :: Argument.printList list ++ [.punct ')']) ++ rest)
      = .ok (list, rest) := by
  have hlist : argumentList (place (Argument.printList list) ++ ⟨.punct ')', .start⟩ :: rest)
      = .ok (list, ⟨.punct ')', .start⟩ :: rest) := by
    unfold argumentList
    cases list with
    | nil =>
      rw [Argument.printList, place_nil, List.nil_append,
        Parser.bind_apply_of_ok (checkPunct_self ')' _)]
      rfl
    | cons first others =>
      have hfirst : Avoids (.punct ')') (place (Argument.printList (first :: others)) ++
          ⟨.punct ')', .start⟩ :: rest) := by
        obtain ⟨word, kinds, hprint⟩ :=
          Argument.exists_print (List.all_eq_true.1 h first List.mem_cons_self)
        rw [Argument.printList, hprint]
        exact avoids_cons (by simp) _
      have hitem : ∀ a ∈ first :: others, ∀ ts, Avoids (.punct '=') ts →
          argument (place a.print ++ ts) = .ok (a, ts) :=
        fun a ha ts hts => argument_print (List.all_eq_true.1 h a ha) hts
      have hread := separated_print hitem (fun ts => avoids_cons (by simp) ts)
        (avoids_cons (t := ⟨.punct ')', .start⟩) (by simp) rest) (avoids_cons (by simp) _)
      rw [Parser.bind_apply_of_ok (checkPunct_of_avoids hfirst), if_neg (by simp),
        Argument.printList, place_append, Parser.bind_apply_of_ok hread]
      rfl
  unfold arguments
  simp only [place_append, place_cons, place_nil, List.append_assoc, List.cons_append,
    List.nil_append]
  rw [Parser.bind_apply_of_ok (expectPunct_self '(' _), Parser.bind_apply_of_ok hlist,
    Parser.bind_apply_of_ok (expectPunct_self ')' _)]
  rfl

/-! ## Members -/

theorem checkAnyIdent_of_notMem {names : List String} {word : String} (h : word ∉ names)
    (ts : List Token) :
    checkAnyIdent names (⟨.ident word, .start⟩ :: ts)
      = .ok (false, ⟨.ident word, .start⟩ :: ts) := by
  have hany : (names.any fun name => Token.isIdent name ⟨.ident word, .start⟩) = false := by
    rw [List.any_eq_false]
    rintro name hname hsame
    simp only [Token.isIdent, beq_iff_eq, TokenKind.ident.injEq] at hsame
    exact h (hsame ▸ hname)
  show Except.ok (names.any fun name => Token.isIdent name ⟨.ident word, .start⟩, _) = _
  rw [hany]

theorem acceptModifier_of_notMem {word : String} (h : word ∉ Modifier.all.map Modifier.keyword)
    (ts : List Token) :
    acceptModifier (⟨.ident word, .start⟩ :: ts) = .ok (none, ⟨.ident word, .start⟩ :: ts) := by
  have hnone : Modifier.ofKeyword? word = none := by
    unfold Modifier.ofKeyword?
    rw [List.find?_eq_none]
    intro m hm hsame
    exact h (of_decide_eq_true hsame ▸ List.mem_map_of_mem hm)
  unfold acceptModifier
  dsimp only
  rw [hnone]

/-- Printed modifiers are read back in front of a word that is none. -/
theorem modifiers_print (modifiers : List Modifier) {word : String}
    (h : word ∉ Modifier.all.map Modifier.keyword) (ts : List Token) :
    Parser.many acceptModifier
        (place (Modifier.printList modifiers) ++ ⟨.ident word, .start⟩ :: ts)
      = .ok (modifiers, ⟨.ident word, .start⟩ :: ts) := by
  have hprint : place (Modifier.printList modifiers)
      = modifiers.flatMap fun m => [⟨.ident m.keyword, .start⟩] := by
    rw [place, Modifier.printList, List.map_map, List.map_eq_flatMap]
    rfl
  rw [hprint]
  refine Parser.many_print (P := fun _ => True) (acceptModifier_of_notMem h ts) trivial
    (fun _ _ => trivial) (fun m _ ts _ => ?_) (by simp)
  unfold acceptModifier
  dsimp only [List.cons_append, List.nil_append]
  rw [Modifier.ofKeyword?_keyword]

/-- A member of an interface that starts with modifiers, in front of a word that is neither a
    modifier nor starts a member that is skipped, is an attribute or an operation. -/
theorem interfaceMember_modifiers (modifiers : List Modifier) {word : String}
    (hskipped : word ∉ skippedMembers) (hmodifier : word ∉ Modifier.all.map Modifier.keyword)
    (ts : List Token) :
    interfaceMember (place (Modifier.printList modifiers) ++ ⟨.ident word, .start⟩ :: ts)
      = (do
          if ← acceptIdent "attribute" then some <$> attributeBody modifiers
          else some <$> operationBody modifiers) (⟨.ident word, .start⟩ :: ts) := by
  have hmodified : modifiedMember
      (place (Modifier.printList modifiers) ++ ⟨.ident word, .start⟩ :: ts)
      = (do
          if ← acceptIdent "attribute" then some <$> attributeBody modifiers
          else some <$> operationBody modifiers) (⟨.ident word, .start⟩ :: ts) := by
    unfold modifiedMember
    rw [Parser.bind_apply_of_ok (modifiers_print modifiers hmodifier ts),
      Parser.bind_apply_of_ok (checkAnyIdent_of_notMem hskipped ts), if_neg (by simp)]
  rw [← hmodified]
  unfold interfaceMember
  cases modifiers with
  | nil =>
    have hstringifier : word ≠ "stringifier" := by
      rintro rfl
      exact hmodifier (by decide)
    rw [Modifier.printList, List.map_nil, place_nil, List.nil_append,
      Parser.bind_apply_of_ok (checkAnyIdent_of_notMem hskipped ts), if_neg (by simp),
      Parser.bind_apply_of_ok (checkIdent_of_avoids (avoids_cons (by simpa using hstringifier) ts))]
    rfl
  | cons m modifiers =>
    have hkeyword : m.keyword ∉ skippedMembers := by cases m <;> decide
    -- the bare stringifier has a semicolon as its second token, where this has an identifier
    have hsecond : ∀ c, Avoids (.punct c)
        (place (Modifier.printList modifiers) ++ ⟨.ident word, .start⟩ :: ts) := by
      intro c
      cases modifiers <;> exact avoids_cons (by simp) _
    rw [Modifier.printList_cons, place_cons, List.cons_append,
      Parser.bind_apply_of_ok (checkAnyIdent_of_notMem hkeyword _), if_neg (by simp),
      Parser.bind_apply_of_ok (rfl : checkIdent "stringifier" _ = .ok (_, _)),
      Parser.bind_apply_of_ok (checkSecondPunct_of_avoids (hsecond ';') _), if_neg (by simp)]

theorem attributeBody_print (modifiers : List Modifier) {type : TypeExpr} {name : String}
    (htype : type.isWellFormed = true) (hname : isName name = true) (rest : List Token) :
    attributeBody modifiers (place (type.print ++ [.ident name, .punct ';']) ++ rest)
      = .ok (.attribute modifiers type name, rest) := by
  simp only [place_append, place_cons, place_nil, List.append_assoc, List.cons_append,
    List.nil_append]
  unfold attributeBody
  rw [Parser.bind_apply_of_ok (typeExpr_print htype (endsType_name hname _ _)),
    Parser.bind_apply_of_ok (expectIdent_ident _ _),
    Parser.bind_apply_of_ok (expectPunct_self ';' _)]
  rfl

theorem operationBody_print (modifiers : List Modifier) {type : TypeExpr} {name? : Option String}
    {list : List Argument} (htype : type.isWellFormed = true) (hname : name?.all isName = true)
    (hlist : list.all Argument.isWellFormed = true) (rest : List Token) :
    operationBody modifiers (place (type.print ++ name?.toList.map .ident ++ [.punct '('] ++
        Argument.printList list ++ [.punct ')', .punct ';']) ++ rest)
      = .ok (.operation modifiers type name? list, rest) := by
  have hread := arguments_print hlist (⟨.punct ';', .start⟩ :: rest)
  simp only [place_append, place_cons, place_nil, List.append_assoc, List.cons_append,
    List.nil_append] at hread ⊢
  have hends : ∀ ts, EndsType (place (name?.toList.map .ident) ++ ⟨.punct '(', .start⟩ :: ts) := by
    intro ts
    cases name? with
    | none => exact endsType_cons (by simp) _
    | some name => exact endsType_name hname _ _
  have hacceptName : ∀ ts,
      acceptName (place (name?.toList.map .ident) ++ ⟨.punct '(', .start⟩ :: ts)
        = .ok (name?, ⟨.punct '(', .start⟩ :: ts) := by
    intro ts
    cases name? <;> rfl
  unfold operationBody
  rw [Parser.bind_apply_of_ok (typeExpr_print htype (hends _)),
    Parser.bind_apply_of_ok (hacceptName _), Parser.bind_apply_of_ok hread,
    Parser.bind_apply_of_ok (expectPunct_self ';' _)]
  rfl

theorem map_some_apply {α : Type} {p : TokenParser α} {ts rest : List Token} {a : α}
    (h : p ts = .ok (a, rest)) : (some <$> p) ts = .ok (some a, rest) := by
  rw [map_eq_pure_bind, Parser.bind_apply_of_ok h]
  rfl

theorem interfaceMember_print {m : Member} (hm : m.isWellFormed .interface = true)
    (rest : List Token) :
    interfaceMember (place (m.print .interface) ++ rest) = .ok (some m, rest) := by
  rcases m with ⟨modifiers, type, name⟩ | ⟨modifiers, type, name?, list⟩ | _
  · simp only [Member.isWellFormed, Bool.and_eq_true] at hm
    obtain ⟨⟨-, htype⟩, hname⟩ := hm
    have hread := attributeBody_print modifiers htype hname rest
    simp only [Member.print, place_append, place_cons, place_nil, List.append_assoc,
      List.cons_append, List.nil_append] at hread ⊢
    rw [interfaceMember_modifiers modifiers (by decide) (by decide),
      Parser.bind_apply_of_ok (acceptIdent_self "attribute" _), if_pos rfl, map_some_apply hread]
  · simp only [Member.isWellFormed, Bool.and_eq_true] at hm
    obtain ⟨⟨⟨-, htype⟩, hname⟩, hlist⟩ := hm
    obtain ⟨word, kinds, hprint, hword⟩ := type.exists_print htype
    have hattribute : word ≠ "attribute" := hword.ne (by decide) (by decide)
    have hread := operationBody_print modifiers htype hname hlist rest
    simp only [Member.print, hprint, place_append, place_cons, place_nil, List.append_assoc,
      List.cons_append, List.nil_append] at hread ⊢
    rw [interfaceMember_modifiers modifiers (startsType_notMem hword (by decide))
        (startsType_notMem hword (by decide)),
      Parser.bind_apply_of_ok (acceptIdent_of_avoids
        (avoids_cons (by simpa using hattribute) _)), if_neg (by simp), map_some_apply hread]
  · rfl

theorem dictionaryMember_print {m : Member} (hm : m.isWellFormed .dictionary = true)
    (rest : List Token) :
    dictionaryMember (place (m.print .dictionary) ++ rest) = .ok (some m, rest) := by
  rcases m with ⟨modifiers, type, name⟩ | ⟨modifiers, type, name?, list⟩ | _
  · simp only [Member.isWellFormed, Bool.and_eq_true] at hm
    obtain ⟨⟨hmodifiers, htype⟩, hname⟩ := hm
    obtain rfl : modifiers = [] := by simpa using hmodifiers
    simp only [Member.print, place_append, place_cons, place_nil, List.append_assoc,
      List.cons_append, List.nil_append]
    unfold dictionaryMember
    rw [Parser.bind_apply_of_ok (acceptIdent_of_avoids
        (avoids_type_ident htype (by decide) (by decide) _)),
      Parser.bind_apply_of_ok (typeExpr_print htype (endsType_name hname _ _)),
      Parser.bind_apply_of_ok (expectIdent_ident _ _),
      Parser.bind_apply_of_ok (optionalDefault_of_avoids (avoids_cons (by simp) _)),
      Parser.bind_apply_of_ok (expectPunct_self ';' _)]
    rfl
  · exact absurd hm (by simp [Member.isWellFormed])
  · exact absurd hm (by decide)

theorem member_print {kind : DefinitionKind} {m : Member} (hm : m.isWellFormed kind = true)
    (rest : List Token) : member kind (place (m.print kind) ++ rest) = .ok (some m, rest) := by
  cases kind with
  | interface => exact interfaceMember_print hm rest
  | dictionary => exact dictionaryMember_print hm rest

theorem Modifier.exists_printList (modifiers : List Modifier) (word : String)
    (kinds : List TokenKind) :
    ∃ first more, printList modifiers ++ .ident word :: kinds = .ident first :: more := by
  cases modifiers with
  | nil => exact ⟨word, kinds, rfl⟩
  | cons m modifiers => exact ⟨m.keyword, _, rfl⟩

theorem Member.exists_print {kind : DefinitionKind} {m : Member}
    (hm : m.isWellFormed kind = true) : ∃ word kinds, m.print kind = .ident word :: kinds := by
  rcases m with ⟨modifiers, type, name⟩ | ⟨modifiers, type, name?, list⟩ | _
  · simp only [isWellFormed, Bool.and_eq_true] at hm
    obtain ⟨word, kinds, hprint, -⟩ := type.exists_print hm.1.2
    cases kind with
    | interface =>
      simp only [print, List.append_assoc, List.cons_append]
      exact Modifier.exists_printList _ _ _
    | dictionary =>
      simp only [print, hprint]
      exact ⟨word, _, rfl⟩
  · simp only [isWellFormed, Bool.and_eq_true] at hm
    obtain ⟨word, kinds, hprint, -⟩ := type.exists_print hm.1.1.2
    simp only [print, hprint, List.append_assoc, List.cons_append]
    exact Modifier.exists_printList _ _ _
  · exact ⟨"stringifier", _, rfl⟩

/-! ## Blocks -/

theorem atEnd_cons (t : Token) (ts : List Token) : atEnd (t :: ts) = .ok (false, t :: ts) := rfl

theorem blockItem_print {kind : DefinitionKind} {m : Member} (hm : m.isWellFormed kind = true)
    (rest : List Token) :
    blockItem kind (place (m.print kind) ++ rest) = .ok (some (some m), rest) := by
  have hread := member_print hm rest
  obtain ⟨word, kinds, hprint⟩ := Member.exists_print hm
  rw [hprint, place_cons, List.cons_append] at hread ⊢
  unfold blockItem
  rw [Parser.bind_apply_of_ok (skipAttributes_of_avoids (avoids_cons (by simp) _)),
    Parser.bind_apply_of_ok (acceptPunct_of_avoids (avoids_cons (by simp) _)), if_neg (by simp),
    Parser.bind_apply_of_ok (atEnd_cons _ _), if_neg (by simp), Parser.bind_apply_of_ok hread]
  rfl

theorem blockItem_end (kind : DefinitionKind) (rest : List Token) :
    blockItem kind (⟨.punct '}', .start⟩ :: rest) = .ok (none, rest) := by
  unfold blockItem
  rw [Parser.bind_apply_of_ok (skipAttributes_of_avoids (avoids_cons (by simp) _)),
    Parser.bind_apply_of_ok (acceptPunct_self '}' _), if_pos rfl]
  rfl

/-- A printed block of members is read back. -/
theorem memberBlock_print {kind : DefinitionKind} {block : List Member}
    (h : block.all (Member.isWellFormed kind) = true) (rest : List Token) :
    memberBlock kind (place (printBlock kind block) ++ rest) = .ok (block, rest) := by
  have hitems : Parser.many (blockItem kind)
      (place (block.flatMap (Member.print kind)) ++
        ⟨.punct '}', .start⟩ :: ⟨.punct ';', .start⟩ :: rest)
      = .ok (block.map some, ⟨.punct ';', .start⟩ :: rest) := by
    refine many_print_some (blockItem_end kind _) ?_ ?_
    · intro m hm us
      exact blockItem_print (List.all_eq_true.1 h m hm) us
    · intro m hm
      obtain ⟨word, kinds, hprint⟩ := Member.exists_print (List.all_eq_true.1 h m hm)
      simp [hprint]
  unfold memberBlock printBlock
  simp only [place_append, place_cons, place_nil, List.append_assoc, List.cons_append,
    List.nil_append]
  rw [Parser.bind_apply_of_ok (expectPunct_self '{' _), Parser.bind_apply_of_ok hitems,
    Parser.bind_apply_of_ok (expectPunct_self ';' _), List.filterMap_map]
  simp

/-! ## Definitions -/

theorem inheritance_print (parent? : Option String) {ts : List Token}
    (h : Avoids (.punct ':') ts) :
    inheritance (place (printParent parent?) ++ ts) = .ok (parent?, ts) := by
  unfold inheritance
  cases parent? with
  | none =>
    rw [printParent, Option.toList_none, List.flatMap_nil, place_nil, List.nil_append,
      Parser.bind_apply_of_ok (acceptPunct_of_avoids h)]
    rfl
  | some parent => rfl

theorem definitionBody_print (kind : DefinitionKind) (isPartial : Bool) (name : String)
    (parent? : Option String) {block : List Member}
    (h : block.all (Member.isWellFormed kind) = true) (rest : List Token) :
    definitionBody kind isPartial (⟨.ident name, .start⟩ ::
        (place (printParent parent?) ++ (place (printBlock kind block) ++ rest)))
      = .ok (⟨kind, name, parent?, [block], isPartial⟩, rest) := by
  have hbrace : Avoids (.punct ':') (place (printBlock kind block) ++ rest) :=
    avoids_cons (by simp) _
  unfold definitionBody
  rw [Parser.bind_apply_of_ok (expectIdent_ident name _),
    Parser.bind_apply_of_ok (inheritance_print parent? hbrace),
    Parser.bind_apply_of_ok (memberBlock_print h rest)]
  rfl

theorem declaration_print (kind : DefinitionKind) (isPartial : Bool) {name : String}
    (parent? : Option String) {block : List Member} (hname : isName name = true)
    (h : block.all (Member.isWellFormed kind) = true) (rest : List Token) :
    declaration (place (Definition.printPiece ⟨kind, name, parent?, [block], isPartial⟩) ++ rest)
      = .ok (some ⟨kind, name, parent?, [block], isPartial⟩, rest) := by
  have hbody := map_some_apply (definitionBody_print kind isPartial name parent? h rest)
  simp only [Definition.printPiece, List.flatMap_singleton, place_append, place_cons,
    List.append_assoc, List.cons_append, List.nil_append]
  unfold declaration
  cases kind with
  | interface =>
    have hmixin : name ≠ "mixin" := ne_of_isName hname (by decide)
    rw [Parser.bind_apply_of_ok (acceptIdent_print _ (avoids_cons (by decide) _)),
      Parser.bind_apply_of_ok (acceptIdent_of_avoids (avoids_cons (by decide) _)),
      if_neg (by simp), DefinitionKind.keyword,
      Parser.bind_apply_of_ok (acceptIdent_self "interface" _), if_pos rfl,
      Parser.bind_apply_of_ok (acceptIdent_of_avoids (avoids_cons (by simpa using hmixin) _)),
      hbody]
  | dictionary =>
    rw [Parser.bind_apply_of_ok (acceptIdent_print _ (avoids_cons (by decide) _)),
      Parser.bind_apply_of_ok (acceptIdent_of_avoids (avoids_cons (by decide) _)),
      if_neg (by simp),
      Parser.bind_apply_of_ok (acceptIdent_of_avoids (avoids_cons (by decide) _)),
      if_neg (by simp), DefinitionKind.keyword,
      Parser.bind_apply_of_ok (acceptIdent_self "dictionary" _), if_pos rfl, hbody]

theorem Definition.exists_printPiece (d : Definition) :
    ∃ word kinds, d.printPiece = .ident word :: kinds := by
  unfold printPiece
  cases d.isPartial with
  | true => exact ⟨"partial", _, rfl⟩
  | false => exact ⟨d.kind.keyword, _, rfl⟩

/-- A printed piece of a definition is read back. -/
theorem statement_print {d : Definition} {block : List Member} (hblocks : d.blocks = [block])
    (hname : isName d.name = true) (h : block.all (Member.isWellFormed d.kind) = true)
    (rest : List Token) :
    statement (place d.printPiece ++ rest) = .ok (some (some d), rest) := by
  obtain ⟨kind, name, parent?, blocks, isPartial⟩ := d
  dsimp only at hblocks hname h
  subst hblocks
  have hread := map_some_apply (declaration_print kind isPartial parent? hname h rest)
  obtain ⟨word, kinds, hprint⟩ := Definition.exists_printPiece ⟨kind, name, parent?, [block],
    isPartial⟩
  rw [hprint, place_cons, List.cons_append] at hread ⊢
  unfold statement
  rw [Parser.bind_apply_of_ok (skipAttributes_of_avoids (avoids_cons (by simp) _)),
    Parser.bind_apply_of_ok (atEnd_cons _ _), if_neg (by simp), hread]

end IdlBind.WebIdl
