import IdlBind.Proofs.Parsing.Steps
import IdlBind.WebIdl.Parser

set_option autoImplicit false

/-! # The WebIDL reader is local

A type looks two tokens ahead, for a pair of brackets behind it. A member, a block and a definition
end with a semicolon and look at nothing behind it, so that what follows a definition does not
change it (`declaration_local`). -/

namespace IdlBind.WebIdl

open TokenParser

variable {α : Type} {g : Position → Position} {N M : Nat}

/-! ## Skipped parts -/

theorem attributeGroup_local : Local g N M 0 1 attributeGroup attributeGroup := by
  refine (checkPunct_local '[').bind (m := 0) (by omega) fun isGroup => ?_
  refine Local.ite (fun _ => ?_) fun _ => Local.pure _
  exact (skipGroup_local '[' ']').bind (by omega) fun _ => Local.pure _

theorem skipAttributes_local : Local g N M 0 1 skipAttributes skipAttributes :=
  attributeGroup_local.many.bind (by omega) fun _ => Local.pure ()

theorem skipDefault_local : Local g N M 0 1 skipDefault skipDefault := by
  refine (checkPunct_local '[').bind (m := 0) (by omega) fun isList => ?_
  refine Local.ite (fun _ => (skipGroup_local '[' ']').mono (by omega)) fun _ => ?_
  refine (checkPunct_local '{').bind (m := 0) (by omega) fun isRecord => ?_
  refine Local.ite (fun _ => (skipGroup_local '{' '}').mono (by omega)) fun _ => ?_
  refine (acceptPunct_local '-').bind (m := 0) (by omega) fun isMinus => ?_
  refine Local.ite (fun _ => expectIdent_local.bind (by omega) fun _ => Local.pure ()) fun _ => ?_
  refine atEnd_local.bind (m := 0) (by omega) fun ended => ?_
  exact Local.ite (fun _ => unexpected_local .defaultValue) fun _ => skip_local

theorem checkAnyIdent_local (names : List String) :
    Local g N M 0 1 (checkAnyIdent names) (checkAnyIdent names) := by
  refine Local.look fun {ts us} halike => ?_
  have hname : (fun name => ts.head?.any (·.isIdent name))
      = fun name => us.head?.any (·.isIdent name) :=
    funext fun name => halike.head?_any (Nat.le_refl 1) (· == .ident name)
  rw [hname]

/-! ## Pairs of tokens -/

/-- Do the tokens start with one of a kind and a character? -/
def startsPair (kind : TokenKind) (c : Char) (ts : List Token) : Bool :=
  ts.head?.any (·.kind == kind) && ts.tail.head?.any (·.isPunct c)

theorem exists_of_startsPair {kind : TokenKind} {c : Char} {ts : List Token}
    (h : startsPair kind c ts = true) :
    ∃ t t' rest, ts = t :: t' :: rest := by
  rcases ts with _ | ⟨t, _ | ⟨t', rest⟩⟩
  · exact absurd h (by simp [startsPair])
  · exact absurd h (by simp [startsPair])
  · exact ⟨t, t', rest, rfl⟩

theorem startsPair_moved (kind : TokenKind) (c : Char) (ts : List Token) :
    startsPair kind c (moved g ts) = startsPair kind c ts := by
  rcases ts with _ | ⟨t, _ | ⟨t', ts⟩⟩ <;> rfl

/-- A pair is seen in what is taken and looked at, provided that something is taken or its first
    token is an opening bracket. -/
theorem startsPair_append {kind : TokenKind} {c : Char} {n k : Nat} {front rest rest' : List Token}
    (hn : n ≤ front.length) (hk : 2 ≤ n + k) (hkind : n = 0 → kind = .punct '[')
    (halike : Alike k rest rest') :
    startsPair kind c (moved g front ++ rest') = startsPair kind c (front ++ rest) := by
  rcases front with _ | ⟨t, _ | ⟨t', front⟩⟩
  · obtain rfl : n = 0 := Nat.le_zero.1 hn
    obtain rfl := hkind rfl
    have hhead := halike.head?_any (by omega) (· == .punct '[')
    unfold startsPair
    rw [moved_nil, List.nil_append, List.nil_append, ← hhead]
    cases hopening : rest.head?.any (·.kind == .punct '[') with
    | false => rfl
    | true =>
      rw [Bool.true_and, Bool.true_and]
      exact (any_head?_congr (halike.second (by omega) hopening) (· == .punct c)).symm
  · have hn : n ≤ 1 := hn
    have hhead := halike.head?_any (by omega) (· == .punct c)
    exact congrArg (t.kind == kind && ·) hhead.symm
  · rfl

/-- Both looks come before anything is taken, so that they make up one condition. -/
theorem pair_apply {kind : TokenKind} (check : TokenParser Bool)
    (hcheck : ∀ ts, check ts = .ok (ts.head?.any (·.kind == kind), ts)) (c : Char)
    (found other : TokenParser α) (ts : List Token) :
    (do
      if (← check) && (← checkSecondPunct c) then
        skip
        skip
        found
      else other : TokenParser α) ts
      = if startsPair kind c ts then found ts.tail.tail else other ts := by
  rw [Parser.bind_apply_of_ok (hcheck ts)]
  show (if startsPair kind c ts then _ else _ : TokenParser α) ts = _
  split <;> rfl

/-- Two tokens are looked at, and taken if both are wanted. What is read if the second is missing
    cannot end in front of it, unless the first is an opening bracket. -/
theorem pair_local (kind : TokenKind) {c : Char} {n k m : Nat} {check : TokenParser Bool}
    {found other : TokenParser α}
    (hcheck : ∀ ts, check ts = .ok (ts.head?.any (·.kind == kind), ts))
    (hfound : Local g (N - 2) (M - 2) m k found found) (hother : Local g N M n k other other)
    (hn : n ≤ m + 2) (hk : 2 ≤ n + k) (hkind : n = 0 → kind = .punct '[') :
    let pair : TokenParser α := do
      if (← check) && (← checkSecondPunct c) then
        skip
        skip
        found
      else other
    Local g N M n k pair pair := by
  intro pair
  have hpair : ∀ ts, pair ts = if startsPair kind c ts then found ts.tail.tail else other ts :=
    pair_apply check hcheck c found other
  constructor
  · intro ts a rest hts h
    rw [hpair] at h
    split at h
    · rename_i hstarts
      obtain ⟨t, t', ts, rfl⟩ := exists_of_startsPair hstarts
      simp only [List.length_cons] at hts
      obtain ⟨front, hfront, hm⟩ := hfound.taken (by simp only [List.tail_cons]; omega) h
      exact ⟨t :: t' :: front, congrArg (t :: t' :: ·) hfront,
        by simp only [List.length_cons]; omega⟩
    · exact hother.taken hts h
  · intro front rest rest' a hN hM halike h
    rw [hpair] at h ⊢
    split at h
    · rename_i hstarts
      obtain ⟨t, t', ts, hts⟩ := exists_of_startsPair hstarts
      rw [hts] at hN hstarts h
      simp only [List.length_cons] at hN
      obtain ⟨front', hfront', -⟩ := hfound.taken (by simp only [List.tail_cons]; omega) h
      obtain rfl : ts = front' ++ rest := hfront'
      obtain rfl : front = t :: t' :: front' := List.append_cancel_right hts
      simp only [List.cons_append, List.length_cons] at hM
      rw [if_pos (by exact hstarts)]
      exact hfound.ok (by omega) (by omega) halike h
    · rename_i hstarts
      -- the second token, if it was missing, cannot be one that follows
      have htaken := hother.length_le hN h
      rw [List.length_append] at htaken
      rw [startsPair_append (by omega) hk hkind halike, if_neg hstarts]
      exact hother.ok hN hM halike h
  · intro ts e hN hM h
    rw [hpair] at h ⊢
    rw [startsPair_moved]
    split at h
    · rename_i hstarts
      obtain ⟨t, t', ts, rfl⟩ := exists_of_startsPair hstarts
      simp only [List.length_cons] at hN hM
      rw [if_pos hstarts]
      have h : found ts = .error e := h
      exact hfound.error (by omega) (by omega) h
    · rename_i hstarts
      rw [if_neg hstarts]
      exact hother.error hN hM h

/-! ## Types -/

theorem emptyBrackets_local : Local g N M 0 2 emptyBrackets emptyBrackets :=
  pair_local (.punct '[') (fun _ => rfl) (Local.pure _) (Local.pure _) (by omega) (by omega)
    fun _ => rfl

theorem typeSuffix_local : Local g N M 0 2 typeSuffix typeSuffix := by
  refine (acceptPunct_local '?').bind (m := 0) (by omega) fun nullable => ?_
  exact emptyBrackets_local.many.bind (by omega) fun _ => Local.pure _

theorem typeParameters_local {p q : TokenParser TypeExpr} (h : Local g (N - 1) (M - 1) 1 2 p q) :
    Local g N M 2 1 (typeParameters p) (typeParameters q) := by
  refine (expectPunct_local '<').bind (m := 2) (by omega) fun _ => ?_
  refine (separated_local h (by omega)).bind (m := 1) (by omega) fun types => ?_
  exact (expectPunct_local '>').bind (by omega) fun _ => Local.pure _

theorem optionalParameters_local {p q : TokenParser TypeExpr} (h : Local g (N - 1) (M - 1) 1 2 p q) :
    Local g N M 0 1 (optionalParameters p) (optionalParameters q) := by
  refine (checkPunct_local '<').bind (m := 0) (by omega) fun isOpening => ?_
  refine Local.ite (fun _ => ?_) fun _ => Local.pure _
  exact (typeParameters_local h).bind (by omega) fun types => Local.pure _

theorem acceptLong_local (base : BasicType) :
    Local g N M 0 1 (acceptLong base) (acceptLong base) := by
  refine Local.ite (fun _ => ?_) fun _ => Local.pure _
  refine (acceptIdent_local "long").bind (m := 0) (by omega) fun isLong => ?_
  exact Local.ite (fun _ => Local.pure _) fun _ => Local.pure _

theorem typeBehind_local {p q : TokenParser TypeExpr} (h : Local g (N - 1) (M - 1) 1 2 p q)
    (unsigned unrestricted : Bool) (name : String) :
    Local g N M 0 2 (typeBehind p unsigned unrestricted name)
      (typeBehind q unsigned unrestricted name) := by
  have hsuffix : ∀ {N M} (f : Bool → TypeExpr),
      Local g N M 0 2 (typeSuffix >>= fun nullable => pure (f nullable))
        (typeSuffix >>= fun nullable => pure (f nullable)) :=
    fun f => typeSuffix_local.bind (by omega) fun nullable => Local.pure _
  unfold typeBehind
  cases BasicType.ofName? name with
  | some base => exact (acceptLong_local base).bind (by omega) fun base => hsuffix _
  | none =>
    refine Local.ite (fun _ => ?_) fun _ => ?_
    · exact (typeParameters_local h).bind (m := 0) (by omega) fun types => hsuffix _
    · exact (optionalParameters_local h).bind (by omega) fun parameters => hsuffix _

/-- Within a type, other types are read only behind an opening bracket. -/
theorem typeBody_local {p q : TokenParser TypeExpr} (h : Local g (N - 1) (M - 1) 1 2 p q) :
    Local g N M 1 2 (typeBody p) (typeBody q) := by
  refine skipAttributes_local.bind (m := 1) (by omega) fun _ => ?_
  refine (checkPunct_local '(').bind (m := 1) (by omega) fun isUnion => ?_
  refine Local.ite (fun _ => ?_) fun _ => ?_
  · refine (skipGroup_local '(' ')').bind (m := 0) (by omega) fun _ => ?_
    exact typeSuffix_local.bind (by omega) fun nullable => Local.pure _
  refine (acceptIdent_local "unsigned").bind (m := 1) (by omega) fun unsigned => ?_
  refine (acceptIdent_local "unrestricted").bind (m := 1) (by omega) fun unrestricted => ?_
  refine expectIdent_local.bind (m := 0) (by omega) fun name => ?_
  exact typeBehind_local (h.shorten (by omega)) unsigned unrestricted name

theorem typeExpr_local : Local g N M 1 2 typeExpr typeExpr :=
  Local.recursive fun h => typeBody_local h

theorem typeExpr_eq : typeExpr = typeBody typeExpr :=
  Local.recursive_eq fun h => typeBody_local h

/-! ## Members -/

theorem optionalDefault_local : Local g N M 0 1 optionalDefault optionalDefault := by
  refine (acceptPunct_local '=').bind (m := 0) (by omega) fun isEquals => ?_
  exact Local.ite (fun _ => skipDefault_local) fun _ => Local.pure _

theorem acceptEllipsis_accepts : Accepts acceptEllipsis
    (fun kind => if kind = .ellipsis then some true else none) false := by
  refine ⟨rfl, ?_⟩
  rintro ⟨kind, position⟩ rest
  cases kind <;> rfl

theorem acceptEllipsis_local : Local g N M 0 1 acceptEllipsis acceptEllipsis :=
  Local.accept acceptEllipsis_accepts

theorem acceptModifier_accepts : Accepts acceptModifier (fun kind => kind.ident?.bind fun keyword =>
    (Modifier.ofKeyword? keyword).map some) none := by
  refine ⟨rfl, ?_⟩
  rintro ⟨kind, position⟩ rest
  cases kind with
  | ident keyword =>
    unfold acceptModifier
    dsimp only [TokenKind.ident?, Option.bind_some]
    cases Modifier.ofKeyword? keyword <;> rfl
  | _ => rfl

theorem acceptModifier_local : Local g N M 0 1 acceptModifier acceptModifier :=
  Local.accept acceptModifier_accepts

theorem acceptName_accepts : Accepts acceptName (fun kind => kind.ident?.map some) none := by
  refine ⟨rfl, ?_⟩
  rintro ⟨kind, position⟩ rest
  cases kind <;> rfl

theorem acceptName_local : Local g N M 0 1 acceptName acceptName :=
  Local.accept acceptName_accepts

theorem argument_local : Local g N M 1 1 argument argument := by
  refine skipAttributes_local.bind (m := 1) (by omega) fun _ => ?_
  refine (acceptIdent_local "optional").bind (m := 1) (by omega) fun isOptional => ?_
  refine typeExpr_local.bind (m := 1) (by omega) fun type => ?_
  refine acceptEllipsis_local.bind (m := 1) (by omega) fun isVariadic => ?_
  refine expectIdent_local.bind (m := 0) (by omega) fun name => ?_
  exact optionalDefault_local.bind (by omega) fun _ => Local.pure _

theorem arguments_local : Local g N M 2 0 arguments arguments := by
  have hlist : ∀ {N M}, Local g N M 0 1 argumentList argumentList := by
    intro N M
    refine (checkPunct_local ')').bind (m := 0) (by omega) fun isClosing => ?_
    refine Local.ite (fun _ => Local.pure _) fun _ => ?_
    exact (separated_local argument_local (Nat.le_refl 1)).bind (by omega) fun list => Local.pure _
  refine (expectPunct_local '(').bind (m := 1) (by omega) fun _ => ?_
  refine hlist.bind (m := 1) (by omega) fun list => ?_
  exact (expectPunct_local ')').bind (by omega) fun _ => Local.pure _

theorem attributeBody_local (modifiers : List Modifier) :
    Local g N M 3 0 (attributeBody modifiers) (attributeBody modifiers) := by
  refine typeExpr_local.bind (m := 2) (by omega) fun type => ?_
  refine expectIdent_local.bind (m := 1) (by omega) fun name => ?_
  exact (expectPunct_local ';').bind (by omega) fun _ => Local.pure _

theorem operationBody_local (modifiers : List Modifier) :
    Local g N M 4 0 (operationBody modifiers) (operationBody modifiers) := by
  refine typeExpr_local.bind (m := 3) (by omega) fun type => ?_
  refine acceptName_local.bind (m := 3) (by omega) fun name? => ?_
  refine arguments_local.bind (m := 1) (by omega) fun list => ?_
  exact (expectPunct_local ';').bind (by omega) fun _ => Local.pure _

theorem skip_none_local : Local g N M 1 0
    (skipStatement >>= fun _ => pure none : TokenParser (Option α))
    (skipStatement >>= fun _ => pure none) :=
  skipStatement_local.bind (by omega) fun _ => Local.pure _

/-- A member that is skipped has a keyword and a semicolon. -/
theorem length_of_skipped {names : List String} {ts rest : List Token}
    (hnames : checkAnyIdent names ts = .ok (true, ts)) (h : skipStatement ts = .ok ((), rest)) :
    rest.length + 2 ≤ ts.length := by
  cases ts with
  | nil => exact absurd h (by simp [skipStatement, closeStatement, Except.map])
  | cons t ts =>
    obtain ⟨name, -, hname⟩ := List.any_eq_true.1 (Prod.mk.inj (Except.ok.inj hnames)).1
    have hkind : t.kind = .ident name := by simpa [Token.isIdent] using hname
    -- an identifier is neither a bracket nor a semicolon
    have hskip : skipStatement (t :: ts) = skipStatement ts := by
      simp [skipStatement, closeStatement, opensBracket, closesBracket, Token.isPunct, hkind]
    rw [hskip] at h
    have htaken := (skipStatement_local (g := id) (N := ts.length + 1) (M := 0)).length_le
      (Nat.lt_succ_self _) h
    rw [List.length_cons]
    omega

theorem modifiedMember_local : Local g N M 2 0 modifiedMember modifiedMember := by
  have hlocal : Local g N M 1 0 modifiedMember modifiedMember := by
    refine acceptModifier_local.many.bind (m := 1) (by omega) fun modifiers => ?_
    refine (checkAnyIdent_local skippedMembers).bind (m := 1) (by omega) fun isSkipped => ?_
    refine Local.ite (fun _ => skip_none_local) fun _ => ?_
    refine (acceptIdent_local "attribute").bind (m := 1) (by omega) fun isAttribute => ?_
    refine Local.ite (fun _ => ?_) fun _ => ?_
    · exact ((attributeBody_local modifiers).map some).mono (by omega)
    · exact ((operationBody_local modifiers).map some).mono (by omega)
  refine hlocal.taking fun {ts m? rest} h => ?_
  obtain ⟨modifiers, mid, hmany, h⟩ := Parser.bind_eq_ok_iff.1 h
  have hmid := (acceptModifier_local (g := id) (M := 0)).many.length_le (Nat.lt_succ_self _) hmany
  obtain ⟨isSkipped, _, hcheck, h⟩ := Parser.bind_eq_ok_iff.1 h
  obtain ⟨-, rfl⟩ := Prod.mk.inj (Except.ok.inj hcheck)
  split at h
  · rename_i hskipped
    obtain ⟨⟨⟩, _, hskip, h⟩ := Parser.bind_eq_ok_iff.1 h
    obtain ⟨-, rfl⟩ := Prod.mk.inj (Except.ok.inj h)
    rw [hskipped] at hcheck
    have := length_of_skipped hcheck hskip
    omega
  · obtain ⟨isAttribute, behind, haccept, h⟩ := Parser.bind_eq_ok_iff.1 h
    have hbehind := (acceptIdent_local "attribute" (g := id) (M := 0)).length_le
      (Nat.lt_succ_self _) haccept
    have htaken : rest.length + 3 ≤ behind.length := by
      split at h
      · exact ((attributeBody_local (g := id) (M := 0) modifiers).map some).length_le
          (Nat.lt_succ_self _) h
      · have := ((operationBody_local (g := id) (M := 0) modifiers).map some).length_le
          (Nat.lt_succ_self _) h
        omega
    omega

theorem interfaceMember_local : Local g N M 1 0 interfaceMember interfaceMember := by
  refine (checkAnyIdent_local skippedMembers).bind (m := 1) (by omega) fun isSkipped => ?_
  refine Local.ite (fun _ => skip_none_local) fun _ => ?_
  exact (pair_local (.ident "stringifier") (fun _ => rfl) (Local.pure _) modifiedMember_local
    (by omega) (by omega) (by omega)).mono (by omega)

theorem dictionaryMember_local : Local g N M 1 0 dictionaryMember dictionaryMember := by
  refine (acceptIdent_local "required").bind (m := 3) (by omega) fun isRequired => ?_
  refine typeExpr_local.bind (m := 2) (by omega) fun type => ?_
  refine expectIdent_local.bind (m := 1) (by omega) fun name => ?_
  refine optionalDefault_local.bind (m := 1) (by omega) fun _ => ?_
  exact (expectPunct_local ';').bind (by omega) fun _ => Local.pure _

theorem member_local (kind : DefinitionKind) : Local g N M 1 0 (member kind) (member kind) := by
  cases kind with
  | interface => exact interfaceMember_local
  | dictionary => exact dictionaryMember_local

theorem blockItem_local (kind : DefinitionKind) :
    Local g N M 1 0 (blockItem kind) (blockItem kind) := by
  refine skipAttributes_local.bind (m := 1) (by omega) fun _ => ?_
  refine acceptPunct_bind_local (Local.pure _) ?_ (by omega)
  refine atEnd_local.bind (m := 1) (by omega) fun ended => ?_
  refine Local.ite (fun _ => unexpected_local _) fun _ => ?_
  exact (member_local kind).bind (by omega) fun next => Local.pure _

theorem blockItem_settled (kind : DefinitionKind) : Parser.Settled (blockItem kind) :=
  Local.settled (blockItem_local kind) (Nat.le_refl 1)

theorem memberBlock_local (kind : DefinitionKind) :
    Local g N M 2 0 (memberBlock kind) (memberBlock kind) := by
  refine (expectPunct_local '{').bind (m := 1) (by omega) fun _ => ?_
  refine (blockItem_local kind).many.bind (m := 1) (by omega) fun members => ?_
  exact (expectPunct_local ';').bind (by omega) fun _ => Local.pure _

/-! ## Definitions -/

theorem inheritance_local : Local g N M 0 1 inheritance inheritance := by
  refine (acceptPunct_local ':').bind (m := 0) (by omega) fun isColon => ?_
  exact Local.ite (fun _ => (expectIdent_local.map some).mono (by omega)) fun _ => Local.pure _

theorem definitionBody_local (kind : DefinitionKind) (isPartial : Bool) :
    Local g N M 3 0 (definitionBody kind isPartial) (definitionBody kind isPartial) := by
  refine expectIdent_local.bind (m := 2) (by omega) fun name => ?_
  refine inheritance_local.bind (m := 2) (by omega) fun parent? => ?_
  exact (memberBlock_local kind).bind (by omega) fun block => Local.pure _

/-- A statement does not depend on what follows it. -/
theorem declaration_local : Local g N M 1 0 declaration declaration := by
  have hbody : ∀ {N M} (kind : DefinitionKind) (isPartial : Bool),
      Local g N M 1 0 (some <$> definitionBody kind isPartial)
        (some <$> definitionBody kind isPartial) :=
    fun kind isPartial => ((definitionBody_local kind isPartial).map some).mono (by omega)
  refine (acceptIdent_local "partial").bind (m := 1) (by omega) fun isPartial => ?_
  refine (acceptIdent_local "callback").bind (m := 1) (by omega) fun isCallback => ?_
  refine Local.ite (fun _ => ?_) fun _ => ?_
  · refine (acceptIdent_local "interface").bind (m := 1) (by omega) fun isInterface => ?_
    exact Local.ite (fun _ => hbody .interface isPartial) fun _ => skip_none_local
  refine (acceptIdent_local "interface").bind (m := 1) (by omega) fun isInterface => ?_
  refine Local.ite (fun _ => ?_) fun _ => ?_
  · exact (acceptIdent_local "mixin").bind (by omega) fun isMixin => hbody .interface isPartial
  refine (acceptIdent_local "dictionary").bind (m := 1) (by omega) fun isDictionary => ?_
  refine Local.ite (fun _ => hbody .dictionary isPartial) fun _ => ?_
  refine (checkIdent_local "namespace").bind (m := 1) (by omega) fun isNamespace => ?_
  exact Local.ite (fun _ => unexpected_local _) fun _ => skip_none_local

theorem statement_local : Local g N M 0 1 statement statement := by
  refine skipAttributes_local.bind (m := 0) (by omega) fun _ => ?_
  refine atEnd_local.bind (m := 0) (by omega) fun ended => ?_
  exact Local.ite (fun _ => Local.pure _) fun _ => (declaration_local.map some).mono (by omega)

end IdlBind.WebIdl
