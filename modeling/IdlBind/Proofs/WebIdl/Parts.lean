import IdlBind.Proofs.Parsing.Grammar
import IdlBind.Proofs.WebIdl.Heads

set_option autoImplicit false

/-! # Every part of a definition has a place

The definitions that are read, their members, the arguments of these and all types that become nodes
are read at places of the source (`hasPlaces_of_mem`): reader by reader, what a success says of the
tokens. -/

namespace IdlBind.WebIdl

open TokenParser

/-! ## Parts -/

/-- What is read at a place of a construct. -/
abbrev Construct.Part : Construct → Type
  | .statement => Definition
  | .member _ => Member
  | .argument => Argument
  | .type => TypeExpr

/-- The part is read in front of the tokens, up to `rest`. -/
def Construct.Reads : (c : Construct) → List Token → c.Part → List Token → Prop
  | .statement, ts, d, rest => WebIdl.statement ts = .ok (some (some d), rest)
  | .member kind, ts, m, rest => blockItem kind ts = .ok (some (some m), rest)
  | .argument, ts, a, rest => WebIdl.argument ts = .ok (a, rest)
  | .type, ts, t, rest => typeExpr ts = .ok (t, rest)

/-- The part is read at a place of the tokens. -/
def HasPlace (tokens : List Token) (c : Construct) (x : c.Part) : Prop :=
  ∃ ts rest, Place tokens c ts ∧ c.Reads ts x rest

/-- The types between the angle brackets of a type. -/
def TypeExpr.parameters : TypeExpr → List TypeExpr
  | .basic _ _ => []
  | .sequence first others _ => first :: others
  | .named _ parameters _ => parameters

/-- A type that is part of a type, or the type itself. -/
inductive TypeExpr.Within : TypeExpr → TypeExpr → Prop
  | self (t : TypeExpr) : Within t t
  | parameter {s p t : TypeExpr} (hp : p ∈ t.parameters) (h : Within s p) : Within s t

/-- The arguments of a member. -/
def Member.arguments : Member → List Argument
  | .operation _ _ _ list => list
  | _ => []

/-- The type of an attribute, the return type of an operation. -/
def Member.type? : Member → Option TypeExpr
  | .attribute _ type _ => some type
  | .operation _ type _ _ => some type
  | .stringifier => none

/-- A definition and all its parts are read at places of the tokens. -/
structure Definition.HasPlaces (tokens : List Token) (d : Definition) : Prop where
  definition : HasPlace tokens .statement d
  members : ∀ m ∈ d.blocks.flatten, HasPlace tokens (.member d.kind) m
  arguments : ∀ m ∈ d.blocks.flatten, ∀ a ∈ m.arguments, HasPlace tokens .argument a
  types : ∀ m ∈ d.blocks.flatten, ∀ t ∈ m.type?.toList ++ m.arguments.map Argument.type,
    ∀ s, s.Within t → HasPlace tokens .type s

variable {tokens ts us rest : List Token}

/-! ## Behind extended attributes -/

theorem attributeGroup_stop (h : attributeGroup ts = .ok (none, us)) : Avoids (.punct '[') ts := by
  rw [attributeGroup_apply] at h
  split at h
  · obtain ⟨_, mid, -, h⟩ := Parser.bind_eq_ok_iff.1 h
    exact absurd h (by simp)
  · exact Bool.eq_false_iff.2 ‹_›

theorem Place.behindAttributes {c : Construct} (h : Place tokens c ts)
    (hskip : skipAttributes ts = .ok ((), us)) :
    Place tokens c us ∧ Avoids (.punct '[') us := by
  rw [skipAttributes_eq] at hskip
  fun_induction Parser.collect attributeGroup ts with
  | case1 ts e hitem => exact absurd hskip (by simp [Except.map])
  | case2 ts rest hitem =>
    obtain rfl : rest = us := (Prod.mk.inj (Except.ok.inj hskip)).2
    obtain rfl := attributeGroup_none hitem
    exact ⟨h, attributeGroup_stop hitem⟩
  | case3 ts group mid hitem hlt found outcome hmore ih =>
    rw [hmore] at ih
    exact ih (h.inside (.attributes hitem)) hskip
  | case4 ts group mid hitem hlt => exact absurd (attributeGroup_settled.length_lt hitem) hlt

theorem exists_behindAttributes {β : Type} {c : Construct} {k : Unit → TokenParser β} {b : β}
    (hplace : Place tokens c ts) (h : (skipAttributes >>= k) ts = .ok (b, rest)) :
    ∃ us, Place tokens c us ∧ Avoids (.punct '[') us ∧
      (skipAttributes >>= k) us = .ok (b, rest) := by
  obtain ⟨⟨⟩, us, hskip, hk⟩ := Parser.bind_eq_ok_iff.1 h
  obtain ⟨hplace', hplain⟩ := hplace.behindAttributes hskip
  refine ⟨us, hplace', hplain, ?_⟩
  rw [Parser.bind_apply_of_ok (skipAttributes_of_avoids hplain)]
  exact hk

/-- A part is also read behind its extended attributes. -/
theorem HasPlace.behindAttributes {c : Construct} {x : c.Part} (h : HasPlace tokens c x) :
    ∃ ts rest, Place tokens c ts ∧ Avoids (.punct '[') ts ∧ c.Reads ts x rest := by
  obtain ⟨ts, rest, hplace, hread⟩ := h
  have hbehind : ∃ us, Place tokens c us ∧ Avoids (.punct '[') us ∧ c.Reads us x rest := by
    cases c with
    | statement => exact exists_behindAttributes hplace hread
    | member kind => exact exists_behindAttributes hplace hread
    | argument => exact exists_behindAttributes hplace hread
    | type =>
      unfold Construct.Reads at hread ⊢
      rw [typeExpr_eq] at hread ⊢
      exact exists_behindAttributes hplace hread
  obtain ⟨us, hbehind⟩ := hbehind
  exact ⟨us, rest, hbehind⟩

/-! ## Types -/

/-- A type behind its extended attributes is a union, or there is a name behind the words in front
    of it. -/
theorem typeExpr_cases {t : TypeExpr} (hplain : Avoids (.punct '[') ts)
    (h : typeExpr ts = .ok (t, rest)) :
    ((∃ p us, ts = ⟨.punct '(', p⟩ :: us) ∧ t.parameters = []) ∨
      ∃ unsigned mid unrestricted name p us, acceptIdent "unsigned" ts = .ok (unsigned, mid) ∧
        acceptIdent "unrestricted" mid = .ok (unrestricted, ⟨.ident name, p⟩ :: us) ∧
        typeBehind typeExpr unsigned unrestricted name us = .ok (t, rest) := by
  rw [congrFun typeExpr_eq ts] at h
  unfold typeBody at h
  rw [Parser.bind_apply_of_ok (skipAttributes_of_avoids hplain)] at h
  obtain ⟨isUnion, _, hcheck, h⟩ := Parser.bind_eq_ok_iff.1 h
  obtain ⟨hunion, rfl⟩ := Prod.mk.inj (Except.ok.inj hcheck)
  split at h
  · rename_i hisUnion
    rw [hisUnion] at hunion
    obtain ⟨⟨⟩, mid, -, h⟩ := Parser.bind_eq_ok_iff.1 h
    obtain ⟨nullable, mid', -, h⟩ := Parser.bind_eq_ok_iff.1 h
    obtain ⟨rfl, -⟩ := Prod.mk.inj (Except.ok.inj h)
    cases ts with
    | nil => exact absurd hunion (by simp)
    | cons u us =>
      obtain ⟨kind, p⟩ := u
      obtain rfl : kind = .punct '(' := by simpa [Token.isPunct] using hunion
      exact .inl ⟨⟨p, us, rfl⟩, rfl⟩
  · obtain ⟨unsigned, mid, hunsigned, h⟩ := Parser.bind_eq_ok_iff.1 h
    obtain ⟨unrestricted, mid', hunrestricted, h⟩ := Parser.bind_eq_ok_iff.1 h
    obtain ⟨name, us, hname, h⟩ := Parser.bind_eq_ok_iff.1 h
    obtain ⟨p, rfl⟩ := expectIdent_eq_ok_iff.1 hname
    exact .inr ⟨unsigned, mid, unrestricted, name, p, us, hunsigned, hunrestricted, h⟩

theorem mayStartType_of_acceptIdent {word : String} {found : Bool}
    (h : acceptIdent word ts = .ok (found, us)) (hus : mayStartType [] us = true) :
    mayStartType [] ts = true := by
  rcases acceptIdent_eq_ok_iff.1 h with ⟨-, p, rfl⟩ | ⟨-, rfl, -⟩
  · simp [mayStartType, startsTypeBut]
  · exact hus

theorem mayStartType_of_typeExpr {t : TypeExpr} (h : typeExpr ts = .ok (t, rest)) :
    mayStartType [] ts = true := by
  cases hplain : ts.head?.any (·.isPunct '[') with
  | true => exact mayStartType_of_bracket [] hplain
  | false =>
    rcases typeExpr_cases hplain h with
      ⟨⟨p, us, rfl⟩, -⟩ | ⟨unsigned, mid, unrestricted, name, p, us, hunsigned, hunrestricted, -⟩
    · simp [mayStartType, startsTypeBut]
    · exact mayStartType_of_acceptIdent hunsigned
        (mayStartType_of_acceptIdent hunrestricted (by simp [mayStartType, startsTypeBut]))

/-! ## Lists -/

section

variable {α : Type} {item : TokenParser α}

variable (hlt : ∀ {ts : List Token} {a : α} {rest}, item ts = .ok (a, rest) →
  rest.length ≤ ts.length)

include hlt

theorem exists_itemStart_of_many {a : α} {as : List α} (hitem : item ts = .ok (a, us))
    (hmany : Parser.many (commaItem item) us = .ok (as, rest)) :
    ∀ b ∈ a :: as, ∃ us rest', ItemStart item ts us ∧ item us = .ok (b, rest') := by
  induction as generalizing a ts us with
  | nil =>
    intro b hb
    obtain rfl := List.mem_singleton.1 hb
    exact ⟨ts, us, .first ts, hitem⟩
  | cons a' as ih =>
    have hlt' : ∀ {ts a rest}, commaItem item ts = .ok (some a, rest) →
        rest.length < ts.length := by
      intro ts a rest hcomma
      obtain ⟨p, us, rfl, hread⟩ := commaItem_eq_ok_some hcomma
      exact Nat.lt_succ_of_le (hlt hread)
    obtain ⟨mid, hcomma, hmore⟩ := Parser.exists_of_many_eq_cons hlt' hmany
    obtain ⟨p, behind, rfl, hread⟩ := commaItem_eq_ok_some hcomma
    intro b hb
    rcases List.mem_cons.1 hb with rfl | hb
    · exact ⟨ts, _, .first ts, hitem⟩
    · obtain ⟨us', rest', hstart, hitem'⟩ := ih hread hmore b hb
      exact ⟨us', rest', .next hitem hstart, hitem'⟩

/-- The items of a list start where items start. -/
theorem exists_itemStart {first : α} {others : List α}
    (h : separated item ts = .ok ((first, others), rest)) :
    ∀ a ∈ first :: others, ∃ us rest', ItemStart item ts us ∧ item us = .ok (a, rest') := by
  unfold separated at h
  obtain ⟨a, mid, hitem, hmore⟩ := Parser.bind_eq_ok_iff.1 h
  obtain ⟨as, mid', hmany, heq⟩ := Parser.bind_eq_ok_iff.1 hmore
  obtain ⟨heq, -⟩ := Prod.mk.inj (Except.ok.inj heq)
  obtain ⟨rfl, rfl⟩ := Prod.mk.inj heq
  exact exists_itemStart_of_many hlt hitem hmany

end

theorem typeExpr_le {t : TypeExpr} (h : typeExpr ts = .ok (t, rest)) : rest.length ≤ ts.length := by
  have := (typeExpr_local (g := id) (M := 0)).length_le (Nat.lt_succ_self _) h
  omega

theorem argument_le {a : Argument} (h : WebIdl.argument ts = .ok (a, rest)) :
    rest.length ≤ ts.length := by
  have := (argument_local (g := id) (M := 0)).length_le (Nat.lt_succ_self _) h
  omega

/-! ## Types -/

theorem exists_list_of_typeParameters {first : TypeExpr} {others : List TypeExpr}
    (h : typeParameters typeExpr ts = .ok ((first, others), rest)) {s : TypeExpr}
    (hs : s ∈ first :: others) : ∃ p list us rest',
      ts = ⟨.punct '<', p⟩ :: list ∧ ItemStart typeExpr list us ∧ typeExpr us = .ok (s, rest') := by
  unfold typeParameters at h
  obtain ⟨⟨⟩, list, hopening, hmore⟩ := Parser.bind_eq_ok_iff.1 h
  obtain ⟨p, rfl⟩ := expectPunct_eq_ok_iff.1 hopening
  obtain ⟨types, mid, hseparated, hmore⟩ := Parser.bind_eq_ok_iff.1 hmore
  obtain ⟨⟨⟩, mid', -, hmore⟩ := Parser.bind_eq_ok_iff.1 hmore
  obtain ⟨rfl, -⟩ := Prod.mk.inj (Except.ok.inj hmore)
  obtain ⟨us, rest', hstart, hread⟩ := exists_itemStart typeExpr_le hseparated s hs
  exact ⟨p, list, us, rest', rfl, hstart, hread⟩

/-- The parameters of a type stand between angle brackets behind its name. -/
theorem exists_list_of_mem_parameters {unsigned unrestricted : Bool} {name : String}
    {s t : TypeExpr} (h : typeBehind typeExpr unsigned unrestricted name ts = .ok (t, rest))
    (hs : s ∈ t.parameters) : BasicType.ofName? name = none ∧ ∃ p list us rest',
      ts = ⟨.punct '<', p⟩ :: list ∧ ItemStart typeExpr list us ∧
        typeExpr us = .ok (s, rest') := by
  unfold typeBehind at h
  cases hname : BasicType.ofName? name with
  | some base =>
    rw [hname] at h
    obtain ⟨base, mid, -, hmore⟩ := Parser.bind_eq_ok_iff.1 h
    obtain ⟨nullable, mid', -, hmore⟩ := Parser.bind_eq_ok_iff.1 hmore
    obtain ⟨rfl, -⟩ := Prod.mk.inj (Except.ok.inj hmore)
    exact absurd hs (by simp [TypeExpr.parameters])
  | none =>
    rw [hname] at h
    dsimp only at h
    refine ⟨rfl, ?_⟩
    split at h
    · obtain ⟨⟨first, others⟩, mid, htypes, hmore⟩ := Parser.bind_eq_ok_iff.1 h
      obtain ⟨nullable, mid', -, hmore⟩ := Parser.bind_eq_ok_iff.1 hmore
      obtain ⟨rfl, -⟩ := Prod.mk.inj (Except.ok.inj hmore)
      exact exists_list_of_typeParameters htypes hs
    · obtain ⟨parameters, mid, hoptional, hmore⟩ := Parser.bind_eq_ok_iff.1 h
      obtain ⟨nullable, mid', -, hmore⟩ := Parser.bind_eq_ok_iff.1 hmore
      obtain ⟨rfl, -⟩ := Prod.mk.inj (Except.ok.inj hmore)
      unfold optionalParameters at hoptional
      obtain ⟨isOpening, mid'', hcheck, hmore⟩ := Parser.bind_eq_ok_iff.1 hoptional
      obtain ⟨-, rfl⟩ := Prod.mk.inj (Except.ok.inj hcheck)
      split at hmore
      · obtain ⟨⟨first, others⟩, mid', htypes, hmore⟩ := Parser.bind_eq_ok_iff.1 hmore
        obtain ⟨rfl, -⟩ := Prod.mk.inj (Except.ok.inj hmore)
        exact exists_list_of_typeParameters htypes hs
      · obtain ⟨rfl, -⟩ := Prod.mk.inj (Except.ok.inj hmore)
        exact absurd hs (by simp [TypeExpr.parameters])

theorem hasPlace_parameter {s t : TypeExpr} (h : HasPlace tokens .type t)
    (hs : s ∈ t.parameters) : HasPlace tokens .type s := by
  obtain ⟨ts, rest, hplace, hplain, hread⟩ := h.behindAttributes
  rcases typeExpr_cases hplain hread with
    ⟨-, hnone⟩ | ⟨unsigned, mid, unrestricted, name, p, behind, hunsigned, hunrestricted, hbehind⟩
  · rw [hnone] at hs
    exact absurd hs (List.not_mem_nil)
  · obtain ⟨hname, p', list, us', rest', rfl, hstart, hread'⟩ :=
      exists_list_of_mem_parameters hbehind hs
    exact ⟨us', rest', hplace.inside (.parameter hunsigned hunrestricted hname hstart), hread'⟩

theorem hasPlace_within {s t : TypeExpr} (h : HasPlace tokens .type t) (hs : s.Within t) :
    HasPlace tokens .type s := by
  induction hs with
  | self => exact h
  | parameter hp _ ih => exact ih (hasPlace_parameter h hp)

/-! ## Arguments -/

theorem hasPlace_argument_type {a : Argument} (h : HasPlace tokens .argument a) :
    HasPlace tokens .type a.type := by
  obtain ⟨ts, rest, hplace, hplain, hread⟩ := h.behindAttributes
  have hread : WebIdl.argument ts = .ok (a, rest) := hread
  unfold WebIdl.argument at hread
  rw [Parser.bind_apply_of_ok (skipAttributes_of_avoids hplain)] at hread
  obtain ⟨isOptional, us, hoptional, hread⟩ := Parser.bind_eq_ok_iff.1 hread
  obtain ⟨type, mid, htype, hread⟩ := Parser.bind_eq_ok_iff.1 hread
  obtain ⟨isVariadic, _, -, hread⟩ := Parser.bind_eq_ok_iff.1 hread
  obtain ⟨name, _, -, hread⟩ := Parser.bind_eq_ok_iff.1 hread
  obtain ⟨⟨⟩, _, -, hread⟩ := Parser.bind_eq_ok_iff.1 hread
  obtain ⟨rfl, -⟩ := Prod.mk.inj (Except.ok.inj hread)
  exact ⟨us, mid, hplace.inside (.argumentType hplain hoptional), htype⟩

/-- Arguments stand between parentheses. -/
theorem exists_list_of_mem_arguments {list : List Argument} (h : arguments ts = .ok (list, rest))
    {a : Argument} (ha : a ∈ list) : ∃ p inner us rest', ts = ⟨.punct '(', p⟩ :: inner ∧
      Avoids (.punct ')') inner ∧ ItemStart WebIdl.argument inner us ∧
        WebIdl.argument us = .ok (a, rest') := by
  unfold arguments at h
  obtain ⟨⟨⟩, inner, hopening, hmore⟩ := Parser.bind_eq_ok_iff.1 h
  obtain ⟨p, rfl⟩ := expectPunct_eq_ok_iff.1 hopening
  obtain ⟨found, behind, hfound, hclosing⟩ := Parser.bind_eq_ok_iff.1 hmore
  obtain ⟨⟨⟩, mid, -, hclosing⟩ := Parser.bind_eq_ok_iff.1 hclosing
  obtain ⟨rfl, -⟩ := Prod.mk.inj (Except.ok.inj hclosing)
  unfold argumentList at hfound
  obtain ⟨isEnd, mid', hend, hitems⟩ := Parser.bind_eq_ok_iff.1 hfound
  obtain ⟨hisEnd, rfl⟩ := Prod.mk.inj (Except.ok.inj hend)
  cases isEnd with
  | true =>
    obtain ⟨rfl, -⟩ := Prod.mk.inj (Except.ok.inj hitems)
    exact absurd ha (List.not_mem_nil)
  | false =>
    obtain ⟨⟨first, others⟩, _, hseparated, hitems⟩ := Parser.bind_eq_ok_iff.1 hitems
    obtain ⟨rfl, -⟩ := Prod.mk.inj (Except.ok.inj hitems)
    obtain ⟨us, rest', hstart, hread⟩ := exists_itemStart argument_le hseparated a ha
    exact ⟨p, inner, us, rest', rfl, hisEnd, hstart, hread⟩

/-! ## Members -/

theorem member_of_blockItem {kind : DefinitionKind} {m : Member} (hplain : Avoids (.punct '[') ts)
    (h : blockItem kind ts = .ok (some (some m), rest)) : member kind ts = .ok (some m, rest) := by
  unfold blockItem at h
  rw [Parser.bind_apply_of_ok (skipAttributes_of_avoids hplain)] at h
  obtain ⟨isEnd, mid, hend, hnext⟩ := Parser.bind_eq_ok_iff.1 h
  rcases acceptPunct_eq_ok_iff.1 hend with ⟨rfl, -⟩ | ⟨rfl, rfl, -⟩
  · exact absurd (Prod.mk.inj (Except.ok.inj hnext)).1 (by simp)
  · rw [if_neg Bool.false_ne_true] at hnext
    obtain ⟨ended, mid', hatEnd, hread⟩ := Parser.bind_eq_ok_iff.1 hnext
    obtain ⟨-, rfl⟩ := Prod.mk.inj (Except.ok.inj hatEnd)
    split at hread
    · exact absurd hread (by simp [unexpected])
    · obtain ⟨next, _, hmember, hread⟩ := Parser.bind_eq_ok_iff.1 hread
      obtain ⟨hsome, rfl⟩ := Prod.mk.inj (Except.ok.inj hread)
      rwa [Option.some.inj hsome] at hmember

theorem skip_ne_some {m : Member} : (skipStatement >>= fun _ => pure none :
    TokenParser (Option Member)) ts ≠ .ok (some m, rest) := by
  intro hskip
  obtain ⟨⟨⟩, mid, -, hskip⟩ := Parser.bind_eq_ok_iff.1 hskip
  exact absurd hskip (by simp)

/-- A member of an interface that is not skipped is a bare `stringifier`, or an attribute or an
    operation behind its modifiers. -/
theorem interfaceMember_cases {m : Member} (h : interfaceMember ts = .ok (some m, rest)) :
    m = .stringifier ∨ ∃ modifiers us, Parser.many acceptModifier ts = .ok (modifiers, us) ∧
      ((∃ p behind, us = ⟨.ident "attribute", p⟩ :: behind ∧
          attributeBody modifiers behind = .ok (m, rest)) ∨
        checkAnyIdent skippedMembers us = .ok (false, us) ∧ Avoids (.ident "attribute") us ∧
          operationBody modifiers us = .ok (m, rest)) := by
  unfold interfaceMember at h
  obtain ⟨isSkipped, _, hcheck, h⟩ := Parser.bind_eq_ok_iff.1 h
  obtain ⟨-, rfl⟩ := Prod.mk.inj (Except.ok.inj hcheck)
  split at h
  · exact absurd h skip_ne_some
  rw [pair_apply (checkIdent "stringifier") (fun _ => rfl)] at h
  split at h
  · exact .inl (Option.some.inj (Prod.mk.inj (Except.ok.inj h)).1).symm
  unfold modifiedMember at h
  obtain ⟨modifiers, us, hmodifiers, h⟩ := Parser.bind_eq_ok_iff.1 h
  refine .inr ⟨modifiers, us, hmodifiers, ?_⟩
  obtain ⟨isSkipped, mid, hcheck', h⟩ := Parser.bind_eq_ok_iff.1 h
  obtain ⟨-, rfl⟩ := Prod.mk.inj (Except.ok.inj hcheck')
  cases isSkipped with
  | true => exact absurd h skip_ne_some
  | false =>
    rw [if_neg Bool.false_ne_true] at h
    obtain ⟨isAttribute, behind, hattribute, hread⟩ := Parser.bind_eq_ok_iff.1 h
    rcases acceptIdent_eq_ok_iff.1 hattribute with ⟨rfl, p, rfl⟩ | ⟨rfl, rfl, havoids⟩
    · rw [if_pos rfl] at hread
      obtain ⟨m', hm', hbody⟩ := Parser.map_eq_ok_iff.1 hread
      rw [Option.some.inj hm'] at hbody
      exact .inl ⟨p, behind, rfl, hbody⟩
    · rw [if_neg Bool.false_ne_true] at hread
      obtain ⟨m', hm', hbody⟩ := Parser.map_eq_ok_iff.1 hread
      rw [Option.some.inj hm'] at hbody
      exact .inr ⟨hcheck', havoids, hbody⟩

/-- A type that is read where no other word of a member stands. -/
theorem mayStartType_memberWords {t : TypeExpr} (htype : typeExpr ts = .ok (t, rest))
    (hskipped : checkAnyIdent skippedMembers ts = .ok (false, ts))
    (hattribute : Avoids (.ident "attribute") ts)
    (hmodifier : acceptModifier ts = .ok (none, ts)) : mayStartType memberWords ts = true := by
  have hstart := mayStartType_of_typeExpr htype
  obtain ⟨⟨kind, p⟩, us, rfl⟩ := exists_cons_of_mayStartType hstart
  cases kind with
  | ident name =>
    have hname : name ∉ memberWords := by
      intro hmem
      rcases List.mem_append.1 hmem with hmem | hmem
      · rcases List.mem_cons.1 hmem with rfl | hmem
        · exact absurd hattribute (by simp [Avoids])
        · have hany := (Prod.mk.inj (Except.ok.inj hskipped)).1
          rw [List.any_eq_false] at hany
          exact hany name hmem (by simp [Token.isIdent])
      · obtain ⟨m, -, rfl⟩ := List.mem_map.1 hmem
        rw [acceptModifier_keyword] at hmodifier
        exact absurd hmodifier (by simp)
    simpa [mayStartType, startsTypeBut] using hname
  | _ => exact hstart

theorem exists_type_of_attributeBody {modifiers : List Modifier} {m : Member}
    (h : attributeBody modifiers ts = .ok (m, rest)) :
    ∃ type name mid, m = .attribute modifiers type name ∧ typeExpr ts = .ok (type, mid) := by
  unfold attributeBody at h
  obtain ⟨type, mid, htype, h⟩ := Parser.bind_eq_ok_iff.1 h
  obtain ⟨name, _, -, h⟩ := Parser.bind_eq_ok_iff.1 h
  obtain ⟨⟨⟩, _, -, h⟩ := Parser.bind_eq_ok_iff.1 h
  obtain ⟨rfl, -⟩ := Prod.mk.inj (Except.ok.inj h)
  exact ⟨type, name, mid, rfl, htype⟩

/-- An operation is read behind its modifiers: its type, its name if it has one, its arguments. -/
theorem startsOperation_of_operationBody {modifiers : List Modifier} {m : Member}
    (hplain : Avoids (.punct '[') ts)
    (hmodifiers : Parser.many acceptModifier ts = .ok (modifiers, us))
    (hskipped : checkAnyIdent skippedMembers us = .ok (false, us))
    (hattribute : Avoids (.ident "attribute") us)
    (hbody : operationBody modifiers us = .ok (m, rest)) :
    StartsOperation modifiers ts us ∧ ∃ type name? list mid behind rest',
      m = .operation modifiers type name? list ∧ typeExpr us = .ok (type, mid) ∧
        acceptName mid = .ok (name?, behind) ∧ WebIdl.arguments behind = .ok (list, rest') := by
  unfold operationBody at hbody
  obtain ⟨type, mid, htype, hbody⟩ := Parser.bind_eq_ok_iff.1 hbody
  obtain ⟨name?, behind, hname, hbody⟩ := Parser.bind_eq_ok_iff.1 hbody
  obtain ⟨list, rest', hlist, hbody⟩ := Parser.bind_eq_ok_iff.1 hbody
  obtain ⟨⟨⟩, _, -, hbody⟩ := Parser.bind_eq_ok_iff.1 hbody
  obtain ⟨rfl, -⟩ := Prod.mk.inj (Except.ok.inj hbody)
  have hstop := Parser.item_of_many acceptModifier_settled.length_lt acceptModifier_stop hmodifiers
  exact ⟨⟨hplain, hmodifiers, mayStartType_memberWords htype hskipped hattribute hstop⟩,
    type, name?, list, mid, behind, rest', rfl, htype, hname, hlist⟩

/-- The parts of an attribute or an operation that stand in front of its identifier or behind it. -/
theorem hasPlaces_interfaceMember {m : Member} (h : HasPlace tokens (.member .interface) m) :
    (∀ t ∈ m.type?, HasPlace tokens .type t) ∧ ∀ a ∈ m.arguments, HasPlace tokens .argument a := by
  obtain ⟨ts, rest, hplace, hplain, hread⟩ := h.behindAttributes
  rcases interfaceMember_cases (member_of_blockItem hplain hread) with
    rfl | ⟨modifiers, us, hmodifiers, ⟨p, behind, rfl, hbody⟩ | ⟨hskipped, hattribute, hbody⟩⟩
  · exact ⟨by simp [Member.type?], by simp [Member.arguments]⟩
  · obtain ⟨type, name, mid, rfl, htype⟩ := exists_type_of_attributeBody hbody
    refine ⟨?_, by simp [Member.arguments]⟩
    rintro t ht
    obtain rfl := Option.some.inj ht
    exact ⟨behind, mid, hplace.inside (.attributeType hmodifiers), htype⟩
  · obtain ⟨hstarts, type, name?, list, mid, behind, _, rfl, htype, hname, hlist⟩ :=
      startsOperation_of_operationBody hplain hmodifiers hskipped hattribute hbody
    constructor
    · rintro t ht
      obtain rfl := Option.some.inj ht
      exact ⟨us, mid, hplace.inside (.returnType hstarts), htype⟩
    · intro a ha
      obtain ⟨p, list', behind', rest', rfl, hend, hstart, hread⟩ :=
        exists_list_of_mem_arguments hlist ha
      exact ⟨behind', rest', hplace.inside (.argument hstarts htype hname hend hstart), hread⟩

/-- A member of a dictionary is an attribute. -/
theorem hasPlace_field_type {m : Member} (h : HasPlace tokens (.member .dictionary) m) :
    ∃ type name, m = .attribute [] type name ∧ HasPlace tokens .type type := by
  obtain ⟨ts, rest, hplace, hplain, hread⟩ := h.behindAttributes
  have hread : dictionaryMember ts = .ok (some m, rest) := member_of_blockItem hplain hread
  unfold dictionaryMember at hread
  obtain ⟨isRequired, us, hrequired, hread⟩ := Parser.bind_eq_ok_iff.1 hread
  obtain ⟨type, mid, htype, hread⟩ := Parser.bind_eq_ok_iff.1 hread
  obtain ⟨name, _, -, hread⟩ := Parser.bind_eq_ok_iff.1 hread
  obtain ⟨⟨⟩, _, -, hread⟩ := Parser.bind_eq_ok_iff.1 hread
  obtain ⟨⟨⟩, _, -, hread⟩ := Parser.bind_eq_ok_iff.1 hread
  obtain ⟨hm, -⟩ := Prod.mk.inj (Except.ok.inj hread)
  have hstarts := Leads.fieldType hplain hrequired (mayStartType_of_typeExpr htype)
  exact ⟨type, name, (Option.some.inj hm).symm, us, mid, hplace.inside hstarts, htype⟩

/-! ## Definitions -/

theorem BehindKeywords.of_declaration {d : Definition} (h : declaration ts = .ok (some d, rest)) :
    ∃ isPartial mid kind us, acceptIdent "partial" ts = .ok (isPartial, mid) ∧
      BehindKeywords kind mid us ∧ definitionBody kind isPartial us = .ok (d, rest) := by
  have hskip : ∀ {ts : List Token}, (skipStatement >>= fun _ => pure none :
      TokenParser (Option Definition)) ts ≠ .ok (some d, rest) := by
    intro ts hskip
    obtain ⟨⟨⟩, mid, -, hskip⟩ := Parser.bind_eq_ok_iff.1 hskip
    exact absurd hskip (by simp)
  have hbody : ∀ {kind isPartial us}, (some <$> definitionBody kind isPartial) us
      = .ok (some d, rest) → definitionBody kind isPartial us = .ok (d, rest) := by
    intro kind isPartial us hmap
    obtain ⟨d', hd', hread⟩ := Parser.map_eq_ok_iff.1 hmap
    rwa [Option.some.inj hd'] at hread
  unfold declaration at h
  obtain ⟨isPartial, mid, hpartial, hmid⟩ := Parser.bind_eq_ok_iff.1 h
  refine ⟨isPartial, mid, ?_⟩
  obtain ⟨isCallback, behind, hcallback, hbehind⟩ := Parser.bind_eq_ok_iff.1 hmid
  rcases acceptIdent_eq_ok_iff.1 hcallback with ⟨rfl, p, rfl⟩ | ⟨rfl, rfl, -⟩
  · obtain ⟨isInterface, us, hinterface, hus⟩ := Parser.bind_eq_ok_iff.1 hbehind
    rcases acceptIdent_eq_ok_iff.1 hinterface with ⟨rfl, p', rfl⟩ | ⟨rfl, -⟩
    · exact ⟨.interface, us, hpartial, .callback p p' us, hbody hus⟩
    · exact absurd hus hskip
  obtain ⟨isInterface, us, hinterface, hus⟩ := Parser.bind_eq_ok_iff.1 hbehind
  rcases acceptIdent_eq_ok_iff.1 hinterface with ⟨rfl, p, rfl⟩ | ⟨rfl, rfl, -⟩
  · obtain ⟨isMixin, us', hmixin, hread⟩ := Parser.bind_eq_ok_iff.1 hus
    exact ⟨.interface, us', hpartial, .interface p hmixin, hbody hread⟩
  obtain ⟨isDictionary, us', hdictionary, hus'⟩ := Parser.bind_eq_ok_iff.1 hus
  rcases acceptIdent_eq_ok_iff.1 hdictionary with ⟨rfl, p, rfl⟩ | ⟨rfl, rfl, -⟩
  · exact ⟨.dictionary, us', hpartial, .dictionary p us', hbody hus'⟩
  obtain ⟨isNamespace, us, -, hread⟩ := Parser.bind_eq_ok_iff.1 hus'
  split at hread
  · exact absurd hread (by simp [unexpected])
  · exact absurd hread hskip

/-- The members of a block are read at places if the first of them would be. -/
theorem hasPlace_of_mem_memberItems {kind : DefinitionKind} {found : List Member}
    (hplace : Place tokens (.member kind) ts) (h : memberItems kind ts = .ok (found, rest)) :
    ∀ m ∈ found, HasPlace tokens (.member kind) m := by
  unfold memberItems at h
  obtain ⟨items, rfl, hmany⟩ := Parser.map_eq_ok_iff.1 h
  intro m hm
  have hmem : some m ∈ (Parser.collect (blockItem kind) ts).1 := by
    rw [Parser.many_eq_ok_iff.1 hmany]
    simpa using hm
  obtain ⟨us, rest', hus, hread⟩ := Parser.exists_of_mem_collect
    (fun hts hitem => hts.inside (.nextMember hitem)) hplace (some m) hmem
  exact ⟨us, rest', hus, hread⟩

theorem hasPlace_member {d : Definition} (h : HasPlace tokens .statement d) :
    ∀ m ∈ d.blocks.flatten, HasPlace tokens (.member d.kind) m := by
  obtain ⟨ts, rest, hplace, hplain, hread⟩ := h.behindAttributes
  have hread : WebIdl.statement ts = .ok (some (some d), rest) := hread
  rw [statement_of_skipAttributes (skipAttributes_of_avoids hplain)] at hread
  split at hread
  · exact absurd hread (by simp)
  obtain ⟨d?, hd, hdeclaration⟩ := Parser.map_eq_ok_iff.1 hread
  obtain rfl := Option.some.inj hd
  obtain ⟨isPartial, mid, kind, us, hpartial, hkeywords, hbody⟩ :=
    BehindKeywords.of_declaration hdeclaration
  unfold definitionBody at hbody
  obtain ⟨name, behind, hname, hbehind⟩ := Parser.bind_eq_ok_iff.1 hbody
  obtain ⟨p, rfl⟩ := expectIdent_eq_ok_iff.1 hname
  obtain ⟨parent?, mid', hparent, hmid'⟩ := Parser.bind_eq_ok_iff.1 hbehind
  obtain ⟨block, rest', hblock, hrest'⟩ := Parser.bind_eq_ok_iff.1 hmid'
  obtain ⟨rfl, -⟩ := Prod.mk.inj (Except.ok.inj hrest')
  rw [memberBlock_eq] at hblock
  obtain ⟨⟨⟩, inner, hopening, hinner⟩ := Parser.bind_eq_ok_iff.1 hblock
  obtain ⟨p', rfl⟩ := expectPunct_eq_ok_iff.1 hopening
  obtain ⟨found, closing, hfound, hclosing⟩ := Parser.bind_eq_ok_iff.1 hinner
  obtain ⟨⟨⟩, behind', -, hbehind'⟩ := Parser.bind_eq_ok_iff.1 hclosing
  obtain ⟨rfl, -⟩ := Prod.mk.inj (Except.ok.inj hbehind')
  have hfirst := hplace.inside (.firstMember hpartial hkeywords hparent)
  simpa using hasPlace_of_mem_memberItems hfirst hfound

/-- What is read from a source has places in it. -/
theorem hasPlaces_of_mem {d : Definition} (h : d ∈ (definitions tokens).1) :
    d.HasPlaces tokens := by
  have hmem : some d ∈ (Parser.collect WebIdl.statement tokens).1 := by
    simpa [definitions] using h
  obtain ⟨us, rest, hplace, hread⟩ := Parser.exists_of_mem_collect
    (fun hts hitem => hts.inside (.nextStatement hitem)) Place.start (some d) hmem
  have hdefinition : HasPlace tokens .statement d := ⟨us, rest, hplace, hread⟩
  have hmembers := hasPlace_member hdefinition
  have hparts : ∀ m ∈ d.blocks.flatten, (∀ t ∈ m.type?, HasPlace tokens .type t) ∧
      ∀ a ∈ m.arguments, HasPlace tokens .argument a := by
    intro m hm
    have hmember := hmembers m hm
    cases hkind : d.kind with
    | interface => exact hasPlaces_interfaceMember (hkind ▸ hmember)
    | dictionary =>
      obtain ⟨type, name, rfl, htype⟩ := hasPlace_field_type (hkind ▸ hmember)
      exact ⟨by simpa [Member.type?] using htype, by simp [Member.arguments]⟩
  refine ⟨hdefinition, hmembers, fun m hm => (hparts m hm).2, fun m hm t ht s hs => ?_⟩
  refine hasPlace_within ?_ hs
  rcases List.mem_append.1 ht with ht | ht
  · exact (hparts m hm).1 t (Option.mem_toList.1 ht)
  · obtain ⟨a, ha, rfl⟩ := List.mem_map.1 ht
    exact hasPlace_argument_type ((hparts m hm).2 a ha)

end IdlBind.WebIdl
