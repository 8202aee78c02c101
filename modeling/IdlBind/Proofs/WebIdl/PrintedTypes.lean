import IdlBind.Proofs.Parsing.Printed
import IdlBind.Proofs.WebIdl.Skipping
import IdlBind.Proofs.WebIdl.Printer

set_option autoImplicit false

/-! # Reading printed types

A printed type is read back in front of every token that cannot be part of it
(`typeExpr_print`). -/

namespace IdlBind.WebIdl

open TokenParser

variable {rest : List Token}

/-! ## Names -/

theorem ne_of_isName {name keyword : String} (h : isName name = true) (hk : keyword ∈ keywords) :
    name ≠ keyword := by
  rintro rfl
  simp only [isName, Bool.and_eq_true, Bool.not_eq_true'] at h
  have := List.contains_iff_mem.2 hk
  simp_all

theorem mem_typeKeywords_of_ofName? {name : String} {base : BasicType}
    (h : BasicType.ofName? name = some base) : name ∈ typeKeywords := by
  unfold BasicType.ofName? at h
  split at h
  all_goals first
    | decide
    | simp at h

theorem ofName?_eq_none {name : String} (h : isName name = true) :
    BasicType.ofName? name = none := by
  cases hbase : BasicType.ofName? name with
  | none => rfl
  | some base =>
    have hmem := mem_typeKeywords_of_ofName? hbase
    exact absurd rfl (ne_of_isName h (by simp [keywords, hmem]))

/-! ## What follows a type -/

/-- The next token, if there is one, cannot be part of a type that ends in front of it. -/
structure EndsType (ts : List Token) : Prop where
  long : Avoids (.ident "long") ts
  nullable : Avoids (.punct '?') ts
  brackets : Avoids (.punct '[') ts
  parameters : Avoids (.punct '<') ts

theorem endsType_cons {t : Token}
    (h : t.kind ∉ [.ident "long", .punct '?', .punct '[', .punct '<']) (rest : List Token) :
    EndsType (t :: rest) := by
  simp only [List.mem_cons, List.not_mem_nil, or_false, not_or] at h
  exact ⟨avoids_cons h.1 _, avoids_cons h.2.1 _, avoids_cons h.2.2.1 _, avoids_cons h.2.2.2 _⟩

theorem endsType_name {name : String} (h : isName name = true) (p : Position) (rest : List Token) :
    EndsType (⟨.ident name, p⟩ :: rest) := by
  refine endsType_cons ?_ rest
  have hlong : name ≠ "long" := ne_of_isName h (by decide)
  simp [hlong]

theorem typeSuffix_print (flags : TypeFlags) (h : EndsType rest) :
    typeSuffix (place flags.printSuffix ++ rest) = .ok (flags.nullable, rest) := by
  have hbrackets : Parser.many emptyBrackets rest = .ok ([], rest) := by
    refine Parser.many_eq_nil ?_
    unfold emptyBrackets
    rw [Parser.bind_apply_of_ok (checkPunct_of_avoids h.brackets)]
    rfl
  unfold typeSuffix TypeFlags.printSuffix
  cases flags.nullable with
  | true =>
    rw [if_pos rfl, place_cons, List.cons_append, Parser.bind_apply_of_ok (acceptPunct_self '?' _),
      place_nil, List.nil_append, Parser.bind_apply_of_ok hbrackets]
    rfl
  | false =>
    rw [if_neg (by simp), place_nil, List.nil_append,
      Parser.bind_apply_of_ok (acceptPunct_of_avoids h.nullable),
      Parser.bind_apply_of_ok hbrackets]
    rfl

theorem avoids_printSuffix {kind : TokenKind} (hkind : kind ≠ .punct '?') (flags : TypeFlags)
    (h : Avoids kind rest) : Avoids kind (place flags.printSuffix ++ rest) := by
  unfold TypeFlags.printSuffix
  split
  · exact avoids_cons hkind.symm _
  · exact h

/-! ## Basic types -/

/-- The first word of a basic type decides which one it is, up to the second word of
    `long long`. -/
theorem exists_words (base : BasicType) :
    ∃ word words first, base.words = word :: words ∧ word ∈ typeKeywords ∧
      word ≠ "unsigned" ∧ word ≠ "unrestricted" ∧ BasicType.ofName? word = some first ∧
      ∀ ts, Avoids (.ident "long") ts →
        acceptLong first (place (words.map .ident) ++ ts) = .ok (base, ts) := by
  -- a second word is looked for only behind `long`
  have hother : ∀ {base : BasicType}, base ≠ .long → ∀ ts, acceptLong base ts = .ok (base, ts) := by
    intro base hbase ts
    unfold acceptLong
    rw [if_neg hbase]
    rfl
  cases base with
  | long =>
    refine ⟨"long", [], .long, rfl, by decide, by decide, by decide, rfl, fun ts hts => ?_⟩
    unfold acceptLong
    rw [if_pos rfl, List.map_nil, place_nil, List.nil_append,
      Parser.bind_apply_of_ok (acceptIdent_of_avoids hts)]
    rfl
  | longLong =>
    refine ⟨"long", ["long"], .long, rfl, by decide, by decide, by decide, rfl, fun ts hts => ?_⟩
    unfold acceptLong
    rw [if_pos rfl, List.map_cons, place_cons, List.cons_append,
      Parser.bind_apply_of_ok (acceptIdent_self "long" _)]
    rfl
  | _ =>
    exact ⟨_, [], _, rfl, by decide, by decide, by decide, rfl, fun ts _ => hother (by decide) ts⟩

/-! ## Types inside types -/

theorem TypeExpr.printList_eq_flatMap (ts : List TypeExpr) :
    TypeExpr.printList ts = ts.flatMap fun t => .punct ',' :: t.print := by
  induction ts with
  | nil => rfl
  | cons t ts ih => rw [printList, ih, List.flatMap_cons]

/-- The tokens of types in angle brackets. -/
theorem typeParameters_print {first : TypeExpr} {others : List TypeExpr}
    (h : ∀ t ∈ first :: others, ∀ ts, EndsType ts →
      typeExpr (place t.print ++ ts) = .ok (t, ts)) (rest : List Token) :
    typeParameters typeExpr (place ([.punct '<'] ++ first.print ++ TypeExpr.printList others
        ++ [.punct '>']) ++ rest)
      = .ok ((first, others), rest) := by
  have hend : ∀ ts, EndsType (⟨.punct '>', .start⟩ :: ts) := fun ts => endsType_cons (by simp) ts
  have htypes := separated_print h (fun ts => endsType_cons (by simp) ts) (hend rest)
    (avoids_cons (by simp) _)
  rw [← TypeExpr.printList_eq_flatMap] at htypes
  unfold typeParameters
  simp only [place_append, place_cons, place_nil, List.append_assoc, List.cons_append,
    List.nil_append] at htypes ⊢
  rw [Parser.bind_apply_of_ok (expectPunct_self '<' _), Parser.bind_apply_of_ok htypes,
    Parser.bind_apply_of_ok (expectPunct_self '>' _)]
  rfl

/-! ## Types -/

theorem acceptIdent_print {word : String} (b : Bool) {ts : List Token}
    (h : Avoids (.ident word) ts) :
    acceptIdent word (place (if b then [.ident word] else []) ++ ts) = .ok (b, ts) := by
  cases b with
  | true => exact acceptIdent_self word _
  | false => exact acceptIdent_of_avoids h

theorem avoids_word {kind : TokenKind} {word : String} (hword : kind ≠ .ident word) (b : Bool)
    {ts : List Token} (h : Avoids kind ts) :
    Avoids kind (place (if b then [.ident word] else []) ++ ts) := by
  cases b with
  | true => exact avoids_cons hword.symm _
  | false => exact h

/-- The words in front of a type are read as what they stand for. -/
theorem typeBody_print (flags : TypeFlags) {name : String} (hunsigned : name ≠ "unsigned")
    (hunrestricted : name ≠ "unrestricted") (ts : List Token) :
    typeBody typeExpr (place flags.print ++ ⟨.ident name, .start⟩ :: ts)
      = typeBehind typeExpr flags.unsigned flags.unrestricted name ts := by
  -- a type does not start with a bracket, whatever words stand in front
  have hpunct : ∀ c, Avoids (.punct c) (place flags.print ++ ⟨.ident name, .start⟩ :: ts) := by
    intro c
    unfold TypeFlags.print
    rw [place_append, List.append_assoc]
    exact avoids_word (by simp) _ (avoids_word (by simp) _ (avoids_cons (by simp) _))
  unfold typeBody
  rw [Parser.bind_apply_of_ok (skipAttributes_of_avoids (hpunct '[')),
    Parser.bind_apply_of_ok (checkPunct_of_avoids (hpunct '(')), if_neg (by simp),
    TypeFlags.print, place_append, List.append_assoc]
  have hname : Avoids (.ident "unsigned") (⟨.ident name, .start⟩ :: ts) :=
    avoids_cons (by simpa using hunsigned) _
  rw [Parser.bind_apply_of_ok (acceptIdent_print _ (avoids_word (by decide) _ hname)),
    Parser.bind_apply_of_ok (acceptIdent_print _ (avoids_cons (by simpa using hunrestricted) _)),
    Parser.bind_apply_of_ok (expectIdent_ident name _)]

/-- A printed type is read back in front of everything that cannot be part of it. -/
theorem typeExpr_print {t : TypeExpr} (ht : t.isWellFormed = true) (hrest : EndsType rest) :
    typeExpr (place t.print ++ rest) = .ok (t, rest) := by
  induction t using TypeExpr.induction generalizing rest with
  | basic base flags =>
    obtain ⟨word, words, first, hwords, -, hunsigned, hunrestricted, hfirst, hlong⟩ :=
      exists_words base
    have hsuffix := avoids_printSuffix (by simp) flags hrest.long
    rw [typeExpr_eq, TypeExpr.print, hwords]
    simp only [List.map_cons, place_append, place_cons, List.append_assoc, List.cons_append]
    rw [typeBody_print flags hunsigned hunrestricted, typeBehind, hfirst]
    dsimp only
    rw [Parser.bind_apply_of_ok (hlong _ hsuffix),
      Parser.bind_apply_of_ok (typeSuffix_print flags hrest)]
    rfl
  | sequence first others flags ih =>
    have hinner : ∀ t ∈ first :: others, ∀ ts, EndsType ts →
        typeExpr (place t.print ++ ts) = .ok (t, ts) :=
      fun t hmem ts hts => ih t hmem (TypeExpr.isWellFormed_sequence.1 ht t hmem) hts
    have htypes := typeParameters_print hinner (place flags.printSuffix ++ rest)
    rw [typeExpr_eq, TypeExpr.print]
    simp only [place_append, place_cons, place_nil, List.append_assoc, List.cons_append,
      List.nil_append] at htypes ⊢
    rw [typeBody_print flags (by decide) (by decide), typeBehind,
      show BasicType.ofName? "sequence" = none from rfl]
    dsimp only
    rw [if_pos (by simp), Parser.bind_apply_of_ok htypes]
    dsimp only
    rw [Parser.bind_apply_of_ok (typeSuffix_print flags hrest)]
    rfl
  | named name parameters flags ih =>
    obtain ⟨hname, hparameters⟩ := TypeExpr.isWellFormed_named.1 ht
    have hinner : ∀ t ∈ parameters, ∀ ts, EndsType ts →
        typeExpr (place t.print ++ ts) = .ok (t, ts) :=
      fun t hmem ts hts => ih t hmem (hparameters t hmem) hts
    have hplain : ¬(decide (name = "sequence") || decide (name = "FrozenArray")) = true := by
      have hsequence : name ≠ "sequence" := ne_of_isName hname (by decide)
      have harray : name ≠ "FrozenArray" := ne_of_isName hname (by decide)
      simp [hsequence, harray]
    -- what stands behind the name is the list of parameters, if there is one, and the suffix
    have hbehind : ∀ kinds, (TypeExpr.named name parameters flags).print
        = flags.print ++ .ident name :: kinds ++ flags.printSuffix →
        optionalParameters typeExpr (place kinds ++ (place flags.printSuffix ++ rest))
          = .ok (parameters, place flags.printSuffix ++ rest) →
        typeExpr (place (TypeExpr.named name parameters flags).print ++ rest)
          = .ok (.named name parameters flags, rest) := by
      intro kinds hkinds hread
      rw [typeExpr_eq, hkinds]
      simp only [place_append, place_cons, List.append_assoc, List.cons_append]
      rw [typeBody_print flags (ne_of_isName hname (by decide)) (ne_of_isName hname (by decide)),
        typeBehind, ofName?_eq_none hname]
      dsimp only
      rw [if_neg hplain, Parser.bind_apply_of_ok hread,
        Parser.bind_apply_of_ok (typeSuffix_print flags hrest)]
      rfl
    cases parameters with
    | nil =>
      refine hbehind [] (by simp [TypeExpr.print]) ?_
      unfold optionalParameters
      rw [place_nil, List.nil_append, Parser.bind_apply_of_ok (checkPunct_of_avoids
        (avoids_printSuffix (by simp) flags hrest.parameters))]
      rfl
    | cons first others =>
      have htypes := typeParameters_print hinner (place flags.printSuffix ++ rest)
      refine hbehind ([.punct '<'] ++ first.print ++ TypeExpr.printList others ++ [.punct '>'])
        (by simp [TypeExpr.print]) ?_
      simp only [place_append, place_cons, place_nil, List.append_assoc, List.cons_append,
        List.nil_append] at htypes ⊢
      unfold optionalParameters
      rw [Parser.bind_apply_of_ok (checkPunct_self '<' _), if_pos rfl,
        Parser.bind_apply_of_ok htypes]
      rfl

end IdlBind.WebIdl
