import IdlBind.Proofs.WebIdl.Heads

set_option autoImplicit false

/-! # Replacing what follows a place

Construct by construct: reading one does not depend on what stands behind a place in it, except
through what is read from that place on. -/

namespace IdlBind.WebIdl

open TokenParser

variable {ts us : List Token}

/-! ## Modifiers -/

theorem modifiers_replace {modifiers : List Modifier}
    (h : Parser.many acceptModifier ts = .ok (modifiers, us)) :
    ∃ front, ts = front ++ us ∧ ∀ us', acceptModifier us' = .ok (none, us') →
      Parser.many acceptModifier (front ++ us') = .ok (modifiers, us') :=
  acceptModifier_settled.many_replace acceptModifier_stop h

/-! ## Lists -/

/-- Behind an item and a comma stands a list of the other items. -/
theorem separated_next {α : Type} {item : TokenParser α} {mid : List Token} {a : α} {p : Position}
    (hlt : ∀ {b rest}, item mid = .ok (b, rest) → rest.length ≤ mid.length)
    (h : item ts = .ok (a, ⟨.punct ',', p⟩ :: mid)) :
    separated item ts = (separated item mid).map fun r => ((a, r.1.1 :: r.1.2), r.2) := by
  have hcomma : commaItem item (⟨.punct ',', p⟩ :: mid) = (some <$> item) mid := by
    unfold commaItem
    rw [Parser.bind_apply_of_ok (acceptPunct_self ',' p), if_pos rfl]
  unfold separated
  rw [Parser.bind_apply_of_ok h, Parser.bind_apply, Parser.bind_apply]
  unfold Parser.many
  rw [Parser.collect, hcomma, map_eq_pure_bind, Parser.bind_apply]
  rcases hitem : item mid with e | ⟨b, rest⟩
  · rfl
  · have hlt' : rest.length < (⟨.punct ',', p⟩ :: mid : List Token).length :=
      Nat.lt_succ_of_le (hlt hitem)
    simp only [Parser.pure_apply, hlt', if_true, Parser.bind_apply]
    rcases Parser.collect (commaItem item) rest with ⟨others, e | rest'⟩ <;> rfl

/-- A list depends on what starts with one of its items only through that item. -/
theorem ItemStart.replace {α : Type} {item : TokenParser α} {n k : Nat}
    (hlocal : ∀ {N M}, Local id N M n k item item) (hk : k ≤ 2) (h : ItemStart item ts us) :
    ∃ front, ts = front ++ us ∧
      ∀ us', item us' = item us → separated item (front ++ us') = separated item ts := by
  have hlt : ∀ {ts : List Token} {b rest}, item ts = .ok (b, rest) → rest.length ≤ ts.length := by
    intro ts b rest hitem
    have := (hlocal (M := 0)).length_le (Nat.lt_succ_self _) hitem
    omega
  induction h with
  | first ts => exact ⟨[], rfl, fun us' hus' => Parser.bind_congr hus' _⟩
  | next hitem hmore ih =>
    rename_i mid us a p
    obtain ⟨front, rfl, hfront⟩ := ih
    obtain ⟨first, rfl, -, hfirst⟩ := Local.replace hlocal hitem
    refine ⟨first ++ ⟨.punct ',', p⟩ :: front, by simp, fun us' hus' => ?_⟩
    have halike : Alike k (⟨.punct ',', p⟩ :: (front ++ us)) (⟨.punct ',', p⟩ :: (front ++ us')) :=
      (Alike.cons rfl rfl _ _).mono hk
    rw [List.append_assoc, List.cons_append, separated_next hlt (hfirst _ halike),
      hfront us' hus', separated_next hlt hitem]

/-! ## From a place on -/

theorem memberItems_apply (kind : DefinitionKind) (ts : List Token) :
    memberItems kind ts = (Parser.collect (blockItem kind) ts).2.map fun rest =>
      ((Parser.collect (blockItem kind) ts).1.filterMap id, rest) := by
  unfold memberItems
  rw [map_eq_pure_bind, Parser.bind_apply]
  unfold Parser.many
  rcases Parser.collect (blockItem kind) ts with ⟨found, e | rest⟩ <;> rfl

theorem memberItems_congr {kind : DefinitionKind} (h : blockItem kind ts = blockItem kind us) :
    memberItems kind ts = memberItems kind us := by
  rw [memberItems_apply, memberItems_apply, (blockItem_settled kind).collect_congr h]

theorem memberItems_cons {kind : DefinitionKind} {m? : Option Member}
    (h : blockItem kind ts = .ok (some m?, us)) :
    memberItems kind ts = (memberItems kind us).map fun r => (m?.toList ++ r.1, r.2) := by
  rw [memberItems_apply, memberItems_apply, (blockItem_settled kind).collect_cons h]
  rcases Parser.collect (blockItem kind) us with ⟨found, e | rest⟩ <;> cases m? <;> rfl

/-- What is read behind a group is read in front of it. -/
theorem read_of_group (c : Construct) (h : attributeGroup ts = .ok (some (), us)) :
    c.read ts = c.read us := by
  have hskip := skipAttributes_of_group h
  cases c with
  | statement => exact definitions_congr (Parser.bind_congr hskip _)
  | member kind => exact memberItems_congr (Parser.bind_congr hskip _)
  | argument => exact Parser.bind_congr hskip _
  | type =>
    show typeExpr ts = typeExpr us
    rw [typeExpr_eq]
    exact Parser.bind_congr hskip _

theorem read_group (c : Construct) {group : List Token} (h : IsGroup '[' ']' group)
    (us : List Token) : c.read (group ++ us) = c.read us :=
  read_of_group c (attributeGroup_group h us)

/-! ## Replacing -/

/-- What may stand in place of `us` where a construct starts: anything for statements and members,
    which always start afresh; for an argument or a type tokens that start alike, or the same tokens
    behind a group. -/
def Construct.Admits (c : Construct) (us us' : List Token) : Prop :=
  match c with
  | .statement | .member _ => True
  | .argument | .type => Alike 1 us us' ∨ ∃ group, IsGroup '[' ']' group ∧ us' = group ++ us

theorem Construct.admits_of_alike (c : Construct) {us' : List Token} (h : Alike 1 us us') :
    c.Admits us us' := by
  cases c with
  | statement => trivial
  | member kind => trivial
  | argument => exact .inl h
  | type => exact .inl h

/-- All that reading a construct in front of `ts` depends on from `us` on is what is read there. -/
def DependsThrough (c : Construct) (ts : List Token) (c' : Construct) (us : List Token) : Prop :=
  ∃ front, ts = front ++ us ∧ ∀ us', c'.Admits us us' → c'.read us' = c'.read us →
    c.Admits ts (front ++ us') ∧ c.read (front ++ us') = c.read ts

/-- What may stand behind `front` in place of `us`: tokens that start alike, or a group if there is
    something in front. -/
def Resumes (front us us' : List Token) : Prop :=
  Alike 1 us us' ∨ (front ≠ [] ∧ us'.head?.any (·.isPunct '[') = true)

/-- A group in front of everything is skipped with it, so that it is enough to look at what may
    stand in place of an argument or a type. -/
theorem dependsThrough_of {c c' : Construct} {front : List Token}
    (h : ∀ us', Resumes front us us' → c'.read us' = c'.read us →
      c.read (front ++ us') = c.read (front ++ us))
    (hc' : c' = .argument ∨ c' = .type) : DependsThrough c (front ++ us) c' us := by
  refine ⟨front, rfl, fun us' hadmits hread => ?_⟩
  have hadmits : Alike 1 us us' ∨ ∃ group, IsGroup '[' ']' group ∧ us' = group ++ us := by
    rcases hc' with rfl | rfl <;> exact hadmits
  by_cases hfront : front = []
  · subst hfront
    rcases hadmits with halike | ⟨group, hgroup, rfl⟩
    · exact ⟨c.admits_of_alike halike, h us' (.inl halike) hread⟩
    · refine ⟨?_, read_group c hgroup us⟩
      cases c with
      | statement => trivial
      | member kind => trivial
      | argument => exact .inr ⟨group, hgroup, rfl⟩
      | type => exact .inr ⟨group, hgroup, rfl⟩
  · refine ⟨c.admits_of_alike (Alike.of_front hfront us us'), h us' ?_ hread⟩
    rcases hadmits with halike | ⟨group, ⟨hfirst, -, -⟩, rfl⟩
    · exact .inl halike
    · exact .inr ⟨hfront, hfirst⟩

namespace Resumes

variable {front us' : List Token}

theorem mayStartType {words : List String} (h : Resumes front us us')
    (hus : mayStartType words us = true) : mayStartType words us' = true := by
  rcases h with halike | ⟨-, hbracket⟩
  · rw [mayStartType_congr halike]
    exact hus
  · exact mayStartType_of_bracket words hbracket

theorem avoids {kind : TokenKind} (h : Resumes front us us') (hkind : kind ≠ .punct '[')
    (hus : Avoids kind us) : Avoids kind us' := by
  rcases h with halike | ⟨-, hbracket⟩
  · exact avoids_congr halike hus
  · cases us' with
    | nil => rfl
    | cons t us' =>
      have ht : t.kind = .punct '[' := by simpa [Token.isPunct] using hbracket
      exact avoids_cons (by rw [ht]; exact hkind.symm) us'

theorem avoids_append {kind : TokenKind} {behind : List Token} (h : Resumes front us us')
    (hkind : kind ≠ .punct '[') (hus : Avoids kind (behind ++ us)) :
    Avoids kind (behind ++ us') := by
  cases behind with
  | nil => exact h.avoids hkind hus
  | cons t behind => exact avoids_congr (Alike.of_front (List.cons_ne_nil t behind) us us') hus

/-- A word is taken, or it is missing there as well. -/
theorem acceptIdent {word : String} {found : Bool}
    (h : TokenParser.acceptIdent word ts = .ok (found, us)) :
    ∃ front, ts = front ++ us ∧ ∀ us', Resumes front us us' →
      TokenParser.acceptIdent word (front ++ us') = .ok (found, us') := by
  rcases acceptIdent_eq_ok_iff.1 h with ⟨rfl, p, rfl⟩ | ⟨rfl, rfl, havoids⟩
  · exact ⟨[⟨.ident word, p⟩], rfl, fun us' _ => acceptIdent_self word p⟩
  · exact ⟨[], rfl, fun us' hus' => acceptIdent_of_avoids (hus'.avoids (by simp) havoids)⟩

/-- Where nothing is in front, tokens that avoid an opening bracket are followed by such tokens. -/
theorem avoids_bracket (h : Resumes front us us') (hplain : Avoids (.punct '[') (front ++ us)) :
    Avoids (.punct '[') (front ++ us') := by
  rcases h with halike | ⟨hne, -⟩
  · exact avoids_congr (halike.append_left front) hplain
  · exact avoids_congr (Alike.of_front hne us us') hplain

end Resumes

/-! ### Statements -/

theorem dependsThrough_attributes {c : Construct} (h : attributeGroup ts = .ok (some (), us)) :
    DependsThrough c ts c us := by
  obtain ⟨front, rfl, hpos, hfront⟩ := attributeGroup_settled.replace h
  have hne : front ≠ [] := List.length_pos_iff.1 hpos
  refine ⟨front, rfl, fun us' _ hread => ⟨c.admits_of_alike (Alike.of_front hne us us'), ?_⟩⟩
  rw [read_of_group c (hfront us'), read_of_group c h, hread]

theorem dependsThrough_nextStatement {d? : Option Definition}
    (h : statement ts = .ok (some d?, us)) : DependsThrough .statement ts .statement us := by
  obtain ⟨front, rfl, -, hfront⟩ := statement_settled.replace h
  refine ⟨front, rfl, fun us' _ hread => ⟨trivial, ?_⟩⟩
  have hread : definitions us' = definitions us := hread
  show definitions (front ++ us') = definitions (front ++ us)
  rw [definitions_cons (hfront us'), definitions_cons h, hread]

theorem dependsThrough_nextMember {kind : DefinitionKind} {m? : Option Member}
    (h : blockItem kind ts = .ok (some m?, us)) :
    DependsThrough (.member kind) ts (.member kind) us := by
  obtain ⟨front, rfl, -, hfront⟩ := (blockItem_settled kind).replace h
  refine ⟨front, rfl, fun us' _ hread => ⟨trivial, ?_⟩⟩
  have hread : memberItems kind us' = memberItems kind us := hread
  show memberItems kind (front ++ us') = memberItems kind (front ++ us)
  rw [memberItems_cons (hfront us'), memberItems_cons h, hread]

theorem BehindKeywords.replace {kind : DefinitionKind} (h : BehindKeywords kind ts us) :
    ∃ front, ts = front ++ us ∧ front ≠ [] ∧
      ∀ us', Alike 1 us us' → BehindKeywords kind (front ++ us') us' := by
  cases h with
  | callback p p' us => exact ⟨[_, _], rfl, by simp, fun us' _ => .callback p p' us'⟩
  | interface p hmixin =>
    obtain ⟨front, rfl, -, hfront⟩ := Local.replace (acceptIdent_local "mixin") hmixin
    exact ⟨_ :: front, rfl, by simp, fun us' halike => .interface p (hfront us' halike)⟩
  | dictionary p us => exact ⟨[_], rfl, by simp, fun us' _ => .dictionary p us'⟩

theorem dependsThrough_firstMember {kind : DefinitionKind} {isPartial : Bool}
    {mid behind : List Token} {name : String} {parent? : Option String} {p p' : Position}
    (hpartial : acceptIdent "partial" ts = .ok (isPartial, mid))
    (hkeywords : BehindKeywords kind mid (⟨.ident name, p⟩ :: behind))
    (hparent : inheritance behind = .ok (parent?, ⟨.punct '{', p'⟩ :: us)) :
    DependsThrough .statement ts (.member kind) us := by
  have hts := statement_open hpartial hkeywords hparent
  obtain ⟨third, rfl, -, hthird⟩ := Local.replace inheritance_local hparent
  obtain ⟨second, rfl, hsecond, hsecond'⟩ := hkeywords.replace
  obtain ⟨first, rfl, -, hfirst⟩ := Local.replace (acceptIdent_local "partial") hpartial
  refine ⟨first ++ second ++ ⟨.ident name, p⟩ :: (third ++ [⟨.punct '{', p'⟩]), by simp,
    fun us' _ hus' => ⟨trivial, definitions_congr ?_⟩⟩
  have hparent' := hthird (⟨.punct '{', p'⟩ :: us') (Alike.of_front (List.cons_ne_nil _ []) us us')
  have hkeywords' := hsecond' (⟨.ident name, p⟩ :: (third ++ ⟨.punct '{', p'⟩ :: us'))
    (Alike.of_front (List.cons_ne_nil _ []) _ _)
  have hpartial' := hfirst _ (Alike.of_front hsecond _
    (⟨.ident name, p⟩ :: (third ++ ⟨.punct '{', p'⟩ :: us')))
  have hread : memberItems kind us' = memberItems kind us := hus'
  simp only [List.append_assoc, List.cons_append, List.nil_append]
  rw [statement_open hpartial' hkeywords' hparent', Parser.bind_congr hread, hts]

/-! ### Members of interfaces -/

theorem StartsOperation.replace {modifiers : List Modifier} (h : StartsOperation modifiers ts us) :
    ∃ front, ts = front ++ us ∧ ∀ us', Resumes front us us' →
      StartsOperation modifiers (front ++ us') us' := by
  obtain ⟨front, rfl, hfront⟩ := modifiers_replace h.modifiers
  refine ⟨front, rfl, fun us' hus' => ?_⟩
  have htype := hus'.mayStartType h.type
  exact ⟨hus'.avoids_bracket h.plain,
    hfront us' (acceptModifier_of_mayStartType htype (List.subset_append_right _ _)), htype⟩

theorem dependsThrough_attributeType {modifiers : List Modifier} {p : Position}
    (h : Parser.many acceptModifier ts = .ok (modifiers, ⟨.ident "attribute", p⟩ :: us)) :
    DependsThrough (.member .interface) ts .type us := by
  obtain ⟨front, rfl, hfront⟩ := modifiers_replace h
  have hdepends : DependsThrough (.member .interface) ((front ++ [⟨.ident "attribute", p⟩]) ++ us)
      .type us := by
    refine dependsThrough_of (fun us' _ hread => memberItems_congr ?_) (.inr rfl)
    have hread : typeExpr us' = typeExpr us := hread
    have h' := hfront (⟨.ident "attribute", p⟩ :: us') rfl
    rw [List.append_assoc, List.append_assoc, List.singleton_append, List.singleton_append,
      blockItem_attribute h', blockItem_attribute h]
    exact Parser.bind_congr (Parser.map_congr (Parser.bind_congr hread _) some) _
  simpa using hdepends

theorem dependsThrough_returnType {modifiers : List Modifier}
    (h : StartsOperation modifiers ts us) : DependsThrough (.member .interface) ts .type us := by
  obtain ⟨front, rfl, hfront⟩ := h.replace
  refine dependsThrough_of (fun us' hus' hread => memberItems_congr ?_) (.inr rfl)
  have hread : typeExpr us' = typeExpr us := hread
  rw [blockItem_operation (hfront us' hus'), blockItem_operation h]
  exact Parser.bind_congr (Parser.map_congr (Parser.bind_congr hread _) some) _

theorem dependsThrough_argument {modifiers : List Modifier} {mid behind list : List Token}
    {type : TypeExpr} {name? : Option String} {p : Position}
    (h : StartsOperation modifiers ts mid) (htype : typeExpr mid = .ok (type, behind))
    (hname : acceptName behind = .ok (name?, ⟨.punct '(', p⟩ :: list))
    (hlist : Avoids (.punct ')') list) (hitem : ItemStart WebIdl.argument list us) :
    DependsThrough (.member .interface) ts .argument us := by
  have hts := blockItem_arguments h htype hname hlist
  obtain ⟨fourth, rfl, hfourth⟩ := hitem.replace argument_local (by omega)
  obtain ⟨third, rfl, -, hthird⟩ := Local.replace acceptName_local hname
  obtain ⟨second, rfl, hsecond, hsecond'⟩ := Local.replace typeExpr_local htype
  obtain ⟨first, rfl, hfirst⟩ := h.replace
  have hdepends : DependsThrough (.member .interface)
      ((first ++ second ++ third ++ ⟨.punct '(', p⟩ :: fourth) ++ us) .argument us := by
    refine dependsThrough_of (fun us' hus' hread => memberItems_congr ?_) (.inl rfl)
    have hopen : Alike 2 (⟨.punct '(', p⟩ :: (fourth ++ us)) (⟨.punct '(', p⟩ :: (fourth ++ us')) :=
      .cons rfl rfl _ _
    have hname' := hthird _ (hopen.mono (by omega))
    have htype' := hsecond' _ (hopen.append_left third)
    have h' := hfirst _ (.inl (Alike.of_front (List.length_pos_iff.1 hsecond) _
      (third ++ ⟨.punct '(', p⟩ :: (fourth ++ us'))))
    have hlist' := hus'.avoids_append (by simp) hlist
    simp only [List.append_assoc, List.cons_append]
    rw [blockItem_arguments h' htype' hname' hlist', hts]
    exact Parser.bind_congr (Parser.map_congr (Parser.bind_congr (hfourth us' hread) _) some) _
  simpa using hdepends

/-! ### Members of dictionaries, arguments and types -/

theorem dependsThrough_fieldType {isRequired : Bool} (hplain : Avoids (.punct '[') ts)
    (h : acceptIdent "required" ts = .ok (isRequired, us)) (htype : mayStartType [] us = true) :
    DependsThrough (.member .dictionary) ts .type us := by
  obtain ⟨front, rfl, hfront⟩ := Resumes.acceptIdent h
  refine dependsThrough_of (fun us' hus' hread => memberItems_congr ?_) (.inr rfl)
  rw [blockItem_field (hus'.avoids_bracket hplain) (hfront us' hus') (hus'.mayStartType htype),
    blockItem_field hplain h htype]
  exact Parser.bind_congr hread _

theorem dependsThrough_argumentType {isOptional : Bool} (hplain : Avoids (.punct '[') ts)
    (h : acceptIdent "optional" ts = .ok (isOptional, us)) :
    DependsThrough .argument ts .type us := by
  obtain ⟨front, rfl, hfront⟩ := Resumes.acceptIdent h
  refine dependsThrough_of (fun us' hus' hread => ?_) (.inr rfl)
  have hread : typeExpr us' = typeExpr us := hread
  show WebIdl.argument (front ++ us') = WebIdl.argument (front ++ us)
  rw [argument_type (hus'.avoids_bracket hplain) (hfront us' hus'), argument_type hplain h]
  exact Parser.bind_congr hread _

theorem dependsThrough_parameter {mid list : List Token} {unsigned unrestricted : Bool}
    {name : String} {p p' : Position} (hunsigned : acceptIdent "unsigned" ts = .ok (unsigned, mid))
    (hunrestricted : acceptIdent "unrestricted" mid
      = .ok (unrestricted, ⟨.ident name, p⟩ :: ⟨.punct '<', p'⟩ :: list))
    (hname : BasicType.ofName? name = none) (hitem : ItemStart typeExpr list us) :
    DependsThrough .type ts .type us := by
  have hts := typeExpr_named hunsigned hunrestricted
  obtain ⟨third, rfl, hthird⟩ := hitem.replace typeExpr_local (Nat.le_refl 2)
  obtain ⟨second, rfl, -, hsecond⟩ :=
    Local.replace (acceptIdent_local "unrestricted") hunrestricted
  obtain ⟨first, rfl, -, hfirst⟩ := Local.replace (acceptIdent_local "unsigned") hunsigned
  have hdepends : DependsThrough .type
      ((first ++ second ++ ⟨.ident name, p⟩ :: ⟨.punct '<', p'⟩ :: third) ++ us) .type us := by
    refine dependsThrough_of (fun us' _ hread => ?_) (.inr rfl)
    have hname' : Alike 1 (⟨.ident name, p⟩ :: ⟨.punct '<', p'⟩ :: (third ++ us))
        (⟨.ident name, p⟩ :: ⟨.punct '<', p'⟩ :: (third ++ us')) :=
      .of_front (List.cons_ne_nil _ []) _ _
    have hunrestricted' := hsecond _ hname'
    have hunsigned' := hfirst _ (hname'.append_left second)
    simp only [List.append_assoc, List.cons_append]
    show typeExpr _ = typeExpr _
    rw [typeExpr_named hunsigned' hunrestricted', hts]
    exact typeBehind_congr hname (hthird us' hread)
  simpa using hdepends

/-! ### Places -/

theorem Leads.dependsThrough {c c' : Construct} (h : Leads c ts c' us) :
    DependsThrough c ts c' us := by
  cases h with
  | attributes h => exact dependsThrough_attributes h
  | nextStatement h => exact dependsThrough_nextStatement h
  | firstMember hpartial hkeywords hparent =>
    exact dependsThrough_firstMember hpartial hkeywords hparent
  | nextMember h => exact dependsThrough_nextMember h
  | attributeType h => exact dependsThrough_attributeType h
  | returnType h => exact dependsThrough_returnType h
  | argument h htype hname hlist hitem => exact dependsThrough_argument h htype hname hlist hitem
  | fieldType hplain h htype => exact dependsThrough_fieldType hplain h htype
  | argumentType hplain h => exact dependsThrough_argumentType hplain h
  | parameter hunsigned hunrestricted hname hitem =>
    exact dependsThrough_parameter hunsigned hunrestricted hname hitem

/-- All that the definitions of a source depend on from a place on is what is read there. -/
theorem Place.dependsThrough {c : Construct} (h : Place ts c us) :
    DependsThrough .statement ts c us := by
  induction h with
  | start => exact ⟨[], rfl, fun us' hadmits hread => ⟨hadmits, hread⟩⟩
  | inside _ hleads ih =>
    obtain ⟨front, rfl, hfront⟩ := ih
    obtain ⟨front', rfl, hfront'⟩ := hleads.dependsThrough
    refine ⟨front ++ front', (List.append_assoc ..).symm, fun us' hadmits hread => ?_⟩
    obtain ⟨hadmits', hread'⟩ := hfront' us' hadmits hread
    rw [List.append_assoc]
    exact hfront _ hadmits' hread'

/-- What may stand at a place, and is read there like what stands there, may be put in its stead. -/
theorem Place.replace {c : Construct} {before us' : List Token} (h : Place (before ++ us) c us)
    (hadmits : c.Admits us us') (hread : c.read us' = c.read us) :
    definitions (before ++ us') = definitions (before ++ us) := by
  obtain ⟨front, hfront, hdepends⟩ := h.dependsThrough
  obtain rfl := List.append_cancel_right hfront
  exact (hdepends us' hadmits hread).2

end IdlBind.WebIdl
