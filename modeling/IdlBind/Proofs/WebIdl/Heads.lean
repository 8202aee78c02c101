import IdlBind.Proofs.WebIdl.Places

set_option autoImplicit false

/-! # The first tokens of a construct

How the readers of statements, members, arguments and types go on behind the first tokens of each:
the keywords of a definition, the modifiers of a member, the name of a type with parameters. -/

namespace IdlBind.WebIdl

open TokenParser

variable {ts us : List Token}

/-! ## Words -/

theorem avoids_of_acceptIdent {word : String} {found : Bool} {c : Char}
    (h : acceptIdent word ts = .ok (found, us)) (hus : Avoids (.punct c) us) :
    Avoids (.punct c) ts := by
  rcases acceptIdent_eq_ok_iff.1 h with ⟨-, p, rfl⟩ | ⟨-, rfl, -⟩
  · exact avoids_cons (by simp) us
  · exact hus

theorem mayStartType_congr {words : List String} (h : Alike 1 ts us) :
    mayStartType words us = mayStartType words ts :=
  (h.head?_any (Nat.le_refl 1) (startsTypeBut words)).symm

theorem exists_cons_of_mayStartType {words : List String} (h : mayStartType words ts = true) :
    ∃ t rest, ts = t :: rest := by
  cases ts with
  | nil => exact absurd h (by simp [mayStartType, startsTypeBut])
  | cons t rest => exact ⟨t, rest, rfl⟩

theorem avoids_punct_of_mayStartType {words : List String} (h : mayStartType words ts = true)
    {c : Char} (hgroup : c ≠ '[') (hunion : c ≠ '(') : Avoids (.punct c) ts := by
  obtain ⟨⟨kind, p⟩, rest, rfl⟩ := exists_cons_of_mayStartType h
  refine avoids_cons ?_ rest
  rintro rfl
  exact absurd h (by simp [mayStartType, startsTypeBut, hgroup, hunion])

theorem avoids_ident_of_mayStartType {words : List String} (h : mayStartType words ts = true)
    {word : String} (hword : word ∈ words) : Avoids (.ident word) ts := by
  obtain ⟨⟨kind, p⟩, rest, rfl⟩ := exists_cons_of_mayStartType h
  refine avoids_cons ?_ rest
  rintro rfl
  exact absurd h (by simp [mayStartType, startsTypeBut, hword])

theorem mayStartType_mono {words words' : List String} (h : mayStartType words ts = true)
    (hwords : words' ⊆ words) : mayStartType words' ts = true := by
  obtain ⟨⟨kind, p⟩, rest, rfl⟩ := exists_cons_of_mayStartType h
  cases kind with
  | ident name =>
    have hname : name ∉ words := by simpa [mayStartType, startsTypeBut] using h
    simpa [mayStartType, startsTypeBut] using fun hname' => hname (hwords hname')
  | _ => exact h

/-- An opening square bracket starts a group in front of a type. -/
theorem mayStartType_of_bracket (words : List String) (h : ts.head?.any (·.isPunct '[') = true) :
    mayStartType words ts = true := by
  cases ts with
  | nil => exact absurd h (by simp)
  | cons t rest =>
    have hkind : t.kind = .punct '[' := by simpa [Token.isPunct] using h
    simp [mayStartType, startsTypeBut, hkind]

theorem checkAnyIdent_of_mayStartType {words names : List String} (h : mayStartType words ts = true)
    (hnames : names ⊆ words) : checkAnyIdent names ts = .ok (false, ts) := by
  have hany : (names.any fun name => ts.head?.any (·.isIdent name)) = false := by
    rw [List.any_eq_false]
    intro name hname
    have havoids := avoids_ident_of_mayStartType h (hnames hname)
    exact Bool.eq_false_iff.1 havoids
  show Except.ok (names.any fun name => ts.head?.any (·.isIdent name), ts) = _
  rw [hany]

theorem checkAnyIdent_of_mem {names : List String} {word : String} (h : word ∈ names)
    (p : Position) (ts : List Token) :
    checkAnyIdent names (⟨.ident word, p⟩ :: ts) = .ok (true, ⟨.ident word, p⟩ :: ts) := by
  have hany : (names.any fun name => Token.isIdent name ⟨.ident word, p⟩) = true :=
    List.any_eq_true.2 ⟨word, h, by simp [Token.isIdent]⟩
  show Except.ok (names.any fun name => Token.isIdent name ⟨.ident word, p⟩, _) = _
  rw [hany]

/-! ## Modifiers -/

theorem acceptModifier_cases {m? : Option Modifier} (h : acceptModifier ts = .ok (m?, us)) :
    (m? = none ∧ us = ts) ∨ ∃ m p, m? = some m ∧ ts = ⟨.ident m.keyword, p⟩ :: us := by
  unfold acceptModifier at h
  split at h
  · rename_i keyword p rest
    split at h
    · rename_i m hm
      obtain ⟨rfl, rfl⟩ := Prod.mk.inj (Except.ok.inj h)
      obtain rfl : m.keyword = keyword := by simpa using List.find?_some hm
      exact .inr ⟨m, p, rfl, rfl⟩
    · obtain ⟨rfl, rfl⟩ := Prod.mk.inj (Except.ok.inj h)
      exact .inl ⟨rfl, rfl⟩
  · obtain ⟨rfl, rfl⟩ := Prod.mk.inj (Except.ok.inj h)
    exact .inl ⟨rfl, rfl⟩

theorem acceptModifier_keyword (m : Modifier) (p : Position) (us : List Token) :
    acceptModifier (⟨.ident m.keyword, p⟩ :: us) = .ok (some m, us) := by
  unfold acceptModifier
  dsimp only
  rw [Modifier.ofKeyword?_keyword]

theorem acceptModifier_stop (h : acceptModifier ts = .ok (none, us)) : us = ts := by
  rcases acceptModifier_cases h with ⟨-, rfl⟩ | ⟨m, p, hm, -⟩
  · rfl
  · exact absurd hm (by simp)

theorem acceptModifier_settled : Parser.Settled acceptModifier := by
  constructor
  intro ts us m h
  rcases acceptModifier_cases h with ⟨hm, -⟩ | ⟨m', p, hm, rfl⟩
  · exact absurd hm (by simp)
  · obtain rfl := Option.some.inj hm
    exact ⟨[⟨.ident m.keyword, p⟩], rfl, Nat.le_refl _, acceptModifier_keyword m p⟩

/-- No modifier starts a type. -/
theorem acceptModifier_of_mayStartType {words : List String} (h : mayStartType words ts = true)
    (hwords : Modifier.all.map Modifier.keyword ⊆ words) :
    acceptModifier ts = .ok (none, ts) := by
  rcases hm : acceptModifier ts with e | ⟨m?, us⟩
  · unfold acceptModifier at hm
    split at hm
    · split at hm <;> exact absurd hm (by simp)
    · exact absurd hm (by simp)
  · rcases acceptModifier_cases hm with ⟨rfl, rfl⟩ | ⟨m, p, -, rfl⟩
    · rfl
    · have hmem : m.keyword ∈ words :=
        hwords (List.mem_map_of_mem (by cases m <;> decide))
      have havoids := avoids_ident_of_mayStartType h hmem
      exact absurd havoids (by simp [Avoids])

/-- Modifiers are in front of what stands behind them, or there are none. -/
theorem modifiers_cases {modifiers : List Modifier}
    (h : Parser.many acceptModifier ts = .ok (modifiers, us)) :
    ts = us ∨ ∃ (m : Modifier) (p : Position) (rest : List Token),
      ts = ⟨.ident m.keyword, p⟩ :: rest := by
  cases modifiers with
  | nil => exact .inl (acceptModifier_stop (Parser.item_of_many_eq_nil h)).symm
  | cons m modifiers =>
    obtain ⟨mid, hm, -⟩ := Parser.exists_of_many_eq_cons acceptModifier_settled.length_lt h
    rcases acceptModifier_cases hm with ⟨hm, -⟩ | ⟨m', p, -, rfl⟩
    · exact absurd hm (by simp)
    · exact .inr ⟨m', p, mid, rfl⟩

/-- A modifier is no keyword of a member that is skipped. -/
theorem mayStartType_modifier (m : Modifier) (p : Position) (ts : List Token) :
    mayStartType skippedMembers (⟨.ident m.keyword, p⟩ :: ts) = true := by
  have hkeyword : m.keyword ∉ skippedMembers := by cases m <;> decide
  simp [mayStartType, startsTypeBut, hkeyword]

theorem mayStartType_of_modifiers {modifiers : List Modifier}
    (h : Parser.many acceptModifier ts = .ok (modifiers, us))
    (hus : mayStartType skippedMembers us = true) : mayStartType skippedMembers ts = true := by
  rcases modifiers_cases h with rfl | ⟨m, p, rest, rfl⟩
  · exact hus
  · exact mayStartType_modifier m p rest

theorem avoids_of_modifiers {modifiers : List Modifier} {c : Char}
    (h : Parser.many acceptModifier ts = .ok (modifiers, us)) (hus : Avoids (.punct c) us) :
    Avoids (.punct c) ts := by
  rcases modifiers_cases h with rfl | ⟨m, p, rest, rfl⟩
  · exact hus
  · exact avoids_cons (by simp) rest

/-- A type does not start with the semicolon of a bare `stringifier`. -/
theorem startsPair_of_modifiers {modifiers : List Modifier}
    (h : Parser.many acceptModifier ts = .ok (modifiers, us))
    (hus : mayStartType skippedMembers us = true) :
    startsPair (.ident "stringifier") ';' ts = false := by
  rw [← Bool.not_eq_true]
  intro hpair
  obtain ⟨⟨kind, p⟩, t', rest, rfl⟩ := exists_of_startsPair hpair
  rw [startsPair, Bool.and_eq_true] at hpair
  obtain ⟨hkind, hsemicolon⟩ := hpair
  obtain rfl : kind = .ident "stringifier" := by simpa using hkind
  have hstop : acceptModifier (t' :: rest) = .ok (none, t' :: rest) := by
    obtain ⟨kind', p'⟩ := t'
    obtain rfl : kind' = .punct ';' := by simpa [Token.isPunct] using hsemicolon
    rfl
  have hfirst : acceptModifier (⟨.ident "stringifier", p⟩ :: t' :: rest)
      = .ok (some .stringifier, t' :: rest) := acceptModifier_keyword .stringifier p _
  have hmany := Parser.many_cons hfirst (by simp) (Parser.many_eq_nil hstop)
  obtain ⟨-, rfl⟩ := Prod.mk.inj (Except.ok.inj (h.symm.trans hmany))
  have havoids := avoids_punct_of_mayStartType hus (c := ';') (by decide) (by decide)
  exact absurd havoids (by simpa [Avoids, Token.isPunct] using hsemicolon)

/-! ## Statements -/

theorem BehindKeywords.avoids {kind : DefinitionKind} (h : BehindKeywords kind ts us) (c : Char) :
    Avoids (.punct c) ts := by
  cases h with
  | callback p p' us => exact avoids_cons (by simp) _
  | interface p hmixin => exact avoids_cons (by simp) _
  | dictionary p us => exact avoids_cons (by simp) _

/-- The keywords of a definition say how it is read behind them. -/
theorem declaration_of_keywords {kind : DefinitionKind} {isPartial : Bool} {mid : List Token}
    (hpartial : acceptIdent "partial" ts = .ok (isPartial, mid))
    (hkeywords : BehindKeywords kind mid us) :
    declaration ts = (some <$> definitionBody kind isPartial) us := by
  unfold declaration
  rw [Parser.bind_apply_of_ok hpartial]
  cases hkeywords with
  | callback p p' us =>
    rw [Parser.bind_apply_of_ok (acceptIdent_self "callback" p), if_pos rfl,
      Parser.bind_apply_of_ok (acceptIdent_self "interface" p'), if_pos rfl]
  | interface p hmixin =>
    rw [Parser.bind_apply_of_ok (acceptIdent_of_avoids (avoids_cons (by simp) _)),
      if_neg Bool.false_ne_true, Parser.bind_apply_of_ok (acceptIdent_self "interface" p),
      if_pos rfl, Parser.bind_apply_of_ok hmixin]
  | dictionary p us =>
    rw [Parser.bind_apply_of_ok (acceptIdent_of_avoids (avoids_cons (by simp) _)),
      if_neg Bool.false_ne_true,
      Parser.bind_apply_of_ok (acceptIdent_of_avoids (avoids_cons (by simp) _)),
      if_neg Bool.false_ne_true, Parser.bind_apply_of_ok (acceptIdent_self "dictionary" p),
      if_pos rfl]

theorem memberBlock_eq (kind : DefinitionKind) : memberBlock kind = (do
    expectPunct '{'
    let members ← memberItems kind
    expectPunct ';'
    pure members) := by
  unfold memberBlock memberItems
  simp only [map_eq_pure_bind, bind_assoc, pure_bind]

/-- A definition behind its opening brace. -/
theorem statement_open {kind : DefinitionKind} {isPartial : Bool} {mid behind : List Token}
    {name : String} {parent? : Option String} {p p' : Position}
    (hpartial : acceptIdent "partial" ts = .ok (isPartial, mid))
    (hkeywords : BehindKeywords kind mid (⟨.ident name, p⟩ :: behind))
    (hparent : inheritance behind = .ok (parent?, ⟨.punct '{', p'⟩ :: us)) :
    statement ts = ((do
      let members ← memberItems kind
      expectPunct ';'
      pure ⟨kind, name, parent?, [members], isPartial⟩ : TokenParser Definition) us).map
        fun r => (some (some r.1), r.2) := by
  have hskip := skipAttributes_of_avoids (avoids_of_acceptIdent hpartial (hkeywords.avoids '['))
  have hne : ts.isEmpty = false := by
    cases ts with
    | nil =>
      obtain ⟨-, rfl⟩ := Prod.mk.inj (Except.ok.inj hpartial)
      cases hkeywords
    | cons t ts => rfl
  have hbody : definitionBody kind isPartial (⟨.ident name, p⟩ :: behind) = (do
      let members ← memberItems kind
      expectPunct ';'
      pure ⟨kind, name, parent?, [members], isPartial⟩ : TokenParser Definition) us := by
    unfold definitionBody
    rw [Parser.bind_apply_of_ok (expectIdent_ident name p), Parser.bind_apply_of_ok hparent,
      memberBlock_eq]
    simp only [bind_assoc, pure_bind]
    rw [Parser.bind_apply_of_ok (expectPunct_self '{' p')]
  rw [statement_of_skipAttributes hskip, hne, if_neg Bool.false_ne_true, Parser.map_apply,
    declaration_of_keywords hpartial hkeywords, Parser.map_apply, hbody]
  generalize (do
      let members ← memberItems kind
      expectPunct ';'
      pure ⟨kind, name, parent?, [members], isPartial⟩ : TokenParser Definition) us = result
  cases result <;> rfl

/-! ## Members -/

theorem blockItem_of_mayStartType {words : List String} (kind : DefinitionKind)
    (hplain : Avoids (.punct '[') ts) (h : mayStartType words ts = true) :
    blockItem kind ts = (member kind >>= fun next => pure (some next)) ts := by
  obtain ⟨t, rest, hts⟩ := exists_cons_of_mayStartType h
  have hend : atEnd ts = .ok (false, ts) := by rw [hts]; rfl
  unfold blockItem
  rw [Parser.bind_apply_of_ok (skipAttributes_of_avoids hplain), Parser.bind_apply_of_ok
    (acceptPunct_of_avoids (avoids_punct_of_mayStartType h (by decide) (by decide))),
    if_neg Bool.false_ne_true, Parser.bind_apply_of_ok hend, if_neg Bool.false_ne_true]

/-- A member of an interface that is neither skipped nor a bare `stringifier`, behind its
    modifiers. -/
theorem interfaceMember_of_modifiers {modifiers : List Modifier}
    (h : Parser.many acceptModifier ts = .ok (modifiers, us))
    (hus : mayStartType skippedMembers us = true) :
    interfaceMember ts = (do
      if ← acceptIdent "attribute" then some <$> attributeBody modifiers
      else some <$> operationBody modifiers : TokenParser (Option Member)) us := by
  have hts := mayStartType_of_modifiers h hus
  unfold interfaceMember
  rw [Parser.bind_apply_of_ok (checkAnyIdent_of_mayStartType hts (List.Subset.refl _)),
    if_neg Bool.false_ne_true, pair_apply (checkIdent "stringifier") (fun _ => rfl),
    startsPair_of_modifiers h hus,
    if_neg Bool.false_ne_true]
  unfold modifiedMember
  rw [Parser.bind_apply_of_ok h, Parser.bind_apply_of_ok
    (checkAnyIdent_of_mayStartType hus (List.Subset.refl _)), if_neg Bool.false_ne_true]

/-- An attribute behind its keyword. -/
theorem blockItem_attribute {modifiers : List Modifier} {p : Position}
    (h : Parser.many acceptModifier ts = .ok (modifiers, ⟨.ident "attribute", p⟩ :: us)) :
    blockItem .interface ts
      = (some <$> attributeBody modifiers >>= fun next => pure (some next)) us := by
  have hus : mayStartType skippedMembers (⟨.ident "attribute", p⟩ :: us) = true := by
    simp [mayStartType, startsTypeBut, skippedMembers]
  have hplain := avoids_of_modifiers h (c := '[') (avoids_cons (by simp) us)
  rw [blockItem_of_mayStartType .interface hplain (mayStartType_of_modifiers h hus), member,
    Parser.bind_apply, Parser.bind_apply, interfaceMember_of_modifiers h hus,
    Parser.bind_apply_of_ok (acceptIdent_self "attribute" p), if_pos rfl]

/-- An operation behind its modifiers. -/
theorem blockItem_operation {modifiers : List Modifier} (h : StartsOperation modifiers ts us) :
    blockItem .interface ts
      = (some <$> operationBody modifiers >>= fun next => pure (some next)) us := by
  have hus : mayStartType skippedMembers us = true :=
    mayStartType_mono h.type fun word hword =>
      List.mem_cons_of_mem _ (List.mem_append_left _ hword)
  rw [blockItem_of_mayStartType .interface h.plain (mayStartType_of_modifiers h.modifiers hus),
    member, Parser.bind_apply, Parser.bind_apply, interfaceMember_of_modifiers h.modifiers hus,
    Parser.bind_apply_of_ok (acceptIdent_of_avoids
      (avoids_ident_of_mayStartType h.type (by decide))), if_neg Bool.false_ne_true]

/-- An operation with arguments behind its opening parenthesis. -/
theorem blockItem_arguments {modifiers : List Modifier} {mid behind : List Token}
    {type : TypeExpr} {name? : Option String} {p : Position}
    (h : StartsOperation modifiers ts mid) (htype : typeExpr mid = .ok (type, behind))
    (hname : acceptName behind = .ok (name?, ⟨.punct '(', p⟩ :: us))
    (hus : Avoids (.punct ')') us) :
    blockItem .interface ts = (some <$> (do
      let (first, others) ← separated WebIdl.argument
      expectPunct ')'
      expectPunct ';'
      pure (.operation modifiers type name? (first :: others)) : TokenParser Member)
        >>= fun next => pure (some next)) us := by
  have hbody : operationBody modifiers mid = (do
      let (first, others) ← separated WebIdl.argument
      expectPunct ')'
      expectPunct ';'
      pure (.operation modifiers type name? (first :: others)) : TokenParser Member) us := by
    unfold operationBody
    rw [Parser.bind_apply_of_ok htype, Parser.bind_apply_of_ok hname]
    unfold arguments
    rw [bind_assoc, Parser.bind_apply_of_ok (expectPunct_self '(' p)]
    unfold argumentList
    rw [bind_assoc, bind_assoc, Parser.bind_apply_of_ok (checkPunct_of_avoids hus),
      if_neg Bool.false_ne_true]
    simp only [bind_assoc, pure_bind]
  rw [blockItem_operation h, Parser.bind_apply, Parser.bind_apply, Parser.map_apply,
    Parser.map_apply, hbody]

theorem blockItem_field {isRequired : Bool} (hplain : Avoids (.punct '[') ts)
    (h : acceptIdent "required" ts = .ok (isRequired, us)) (htype : mayStartType [] us = true) :
    blockItem .dictionary ts = (do
      let type ← typeExpr
      let name ← expectIdent
      optionalDefault
      expectPunct ';'
      pure (some (some (.attribute [] type name))) : TokenParser (Option (Option Member))) us := by
  have hts : mayStartType [] ts = true := by
    rcases acceptIdent_eq_ok_iff.1 h with ⟨-, p, rfl⟩ | ⟨-, rfl, -⟩
    · simp [mayStartType, startsTypeBut]
    · exact htype
  rw [blockItem_of_mayStartType .dictionary hplain hts, member]
  unfold dictionaryMember
  rw [bind_assoc, Parser.bind_apply_of_ok h]
  simp only [bind_assoc, pure_bind]

/-! ## Arguments and types -/

/-- An argument behind `optional`, if that is there. -/
theorem argument_type {isOptional : Bool} (hplain : Avoids (.punct '[') ts)
    (h : acceptIdent "optional" ts = .ok (isOptional, us)) :
    WebIdl.argument ts = (do
      let type ← typeExpr
      let isVariadic ← acceptEllipsis
      let name ← expectIdent
      optionalDefault
      pure ⟨if isVariadic then .variadic else if isOptional then .optional else .required, type,
        name⟩ : TokenParser Argument) us := by
  unfold WebIdl.argument
  rw [Parser.bind_apply_of_ok (skipAttributes_of_avoids hplain), Parser.bind_apply_of_ok h]

theorem typeExpr_named {mid : List Token} {unsigned unrestricted : Bool} {name : String}
    {p : Position} (hunsigned : acceptIdent "unsigned" ts = .ok (unsigned, mid))
    (hunrestricted : acceptIdent "unrestricted" mid = .ok (unrestricted, ⟨.ident name, p⟩ :: us)) :
    typeExpr ts = typeBehind typeExpr unsigned unrestricted name us := by
  have havoids : ∀ c, Avoids (.punct c) ts := fun c => avoids_of_acceptIdent hunsigned
    (avoids_of_acceptIdent hunrestricted (avoids_cons (by simp) us))
  rw [congrFun typeExpr_eq ts]
  unfold typeBody
  rw [Parser.bind_apply_of_ok (skipAttributes_of_avoids (havoids '[')),
    Parser.bind_apply_of_ok (checkPunct_of_avoids (havoids '(')), if_neg Bool.false_ne_true,
    Parser.bind_apply_of_ok hunsigned, Parser.bind_apply_of_ok hunrestricted,
    Parser.bind_apply_of_ok (expectIdent_ident name p)]

/-- A type with parameters behind their opening bracket. -/
theorem typeBehind_congr {name : String} {unsigned unrestricted : Bool} {p : Position}
    {us' : List Token} (hname : BasicType.ofName? name = none)
    (h : separated typeExpr us' = separated typeExpr us) :
    typeBehind typeExpr unsigned unrestricted name (⟨.punct '<', p⟩ :: us')
      = typeBehind typeExpr unsigned unrestricted name (⟨.punct '<', p⟩ :: us) := by
  have hparameters : typeParameters typeExpr (⟨.punct '<', p⟩ :: us')
      = typeParameters typeExpr (⟨.punct '<', p⟩ :: us) := by
    unfold typeParameters
    rw [Parser.bind_apply_of_ok (expectPunct_self '<' p),
      Parser.bind_apply_of_ok (expectPunct_self '<' p)]
    exact Parser.bind_congr h _
  have hoptional : optionalParameters typeExpr (⟨.punct '<', p⟩ :: us')
      = optionalParameters typeExpr (⟨.punct '<', p⟩ :: us) := by
    unfold optionalParameters
    rw [Parser.bind_apply_of_ok (checkPunct_self '<' p), if_pos rfl,
      Parser.bind_apply_of_ok (checkPunct_self '<' p), if_pos rfl]
    exact Parser.bind_congr hparameters _
  unfold typeBehind
  rw [hname]
  dsimp only
  split
  · exact Parser.bind_congr hparameters _
  · exact Parser.bind_congr hoptional _

end IdlBind.WebIdl
