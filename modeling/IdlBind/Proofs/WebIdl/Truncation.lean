import IdlBind.Proofs.Parsing.Truncation
import IdlBind.Proofs.WebIdl.Parts

set_option autoImplicit false

/-! # WebIDL in front of a cut

Reader by reader, what is left of WebIDL if tokens are cut off. The only look ahead that a cut leads
astray is the one for an empty pair of square brackets behind a type: the opening bracket alone is
no part of the type (`CutsBrackets`). All other cuts lead to the end of the file. -/

namespace IdlBind.WebIdl

open TokenParser

variable {α : Type} {tokens ts front rest out : List Token}

/-! ## Skipped parts -/

theorem attributeGroup_cutAt : CutAt rest attributeGroup front out := by
  refine .look (f := (·.any (·.isPunct '['))) (fun _ => rfl) (.found rfl) (.ite (fun _ => ?_) ?_)
  · exact ((skipGroup_keptAt '[' ']').bind fun _ _ _ => .pure _).cutAt
  · exact fun _ => (KeptAt.pure _).cutAt

theorem skipAttributes_nil : skipAttributes [] = .ok ((), []) := skipAttributes_of_avoids rfl

theorem skipAttributes_cutAt : CutAt rest skipAttributes front out :=
  (CutAt.many (P := fun _ => True) (fun _ _ => attributeGroup_cutAt) (fun _ _ => trivial)
    (.found rfl) trivial).bind_pure _

theorem skipDefault_nil : skipDefault [] = .error (.unexpectedEof .defaultValue) := rfl

theorem unexpected_cutAt (expected : Expectation) :
    CutAt rest (unexpected expected : TokenParser α) front out := by
  intro a h
  exact absurd h (by simp [unexpected])

theorem skipDefault_cutAt : CutAt rest skipDefault front out := by
  refine .look (f := (·.any (·.isPunct '['))) (fun _ => rfl) (.missing _ skipDefault_nil)
    (.ite (fun _ => (skipGroup_keptAt '[' ']').cutAt) fun _ => ?_)
  refine .look (f := (·.any (·.isPunct '{'))) (fun _ => rfl) (.missing _ rfl)
    (.ite (fun _ => (skipGroup_keptAt '{' '}').cutAt) fun _ => ?_)
  refine .bind (fun _ => .accept (acceptPunct_accepts '-')) (fun isMinus mid _ _ => ?_)
    fun isMinus => .ite (.bind_missing rfl _) (.missing _ rfl)
  refine .ite (fun _ => ?_) fun _ => ?_
  · exact ((KeptAt.expect expectIdent_expects).bind fun _ _ _ => .pure ()).cutAt
  · refine .look (f := Option.isNone) (fun ts => by cases ts <;> rfl) (.missing _ rfl) ?_
    exact .ite (fun _ => unexpected_cutAt _) fun _ => skip_cutAt

/-! ## Pairs of tokens -/

/-- Two tokens that are looked at together. If the cut is between them, what is read if the second
    is missing decides. -/
theorem pair_cutAt (kind : TokenKind) {c : Char} {check : TokenParser Bool}
    {found other : TokenParser α}
    (hcheck : ∀ ts, check ts = .ok (ts.head?.any (·.kind == kind), ts))
    (hend : MeetsEnd other) (hfound : ∀ {front}, CutAt rest found front out)
    (hother : CutAt rest other front out)
    (hbetween : ∀ t, front = [t] → startsPair kind c (t :: rest) = true →
      ∀ a, found rest.tail = .ok (a, out) → Truncated front rest out a (other [t])) :
    CutAt rest (do
      if (← check) && (← checkSecondPunct c) then
        skip
        skip
        found
      else other : TokenParser α) front out := by
  intro a h
  rw [pair_apply check hcheck] at h ⊢
  rcases front with _ | ⟨t, _ | ⟨t', front⟩⟩
  · exact hend.truncated a
  · have hnone : startsPair kind c [t] = false := by simp [startsPair]
    rw [if_neg (by simp [hnone])]
    split at h
    · exact hbetween t rfl ‹_› a h
    · exact hother a h
  · have hpair : startsPair kind c (t :: t' :: front ++ rest)
        = startsPair kind c (t :: t' :: front) := rfl
    rw [hpair] at h
    split at h
    · rename_i hstarts
      rw [if_pos hstarts]
      exact (hfound a h).of_suffix ((List.suffix_cons t' front).trans (List.suffix_cons t _))
    · rename_i hstarts
      rw [if_neg hstarts]
      exact hother a h

/-! ## Empty pairs of brackets -/

/-- Empty pairs of square brackets, one behind the other. -/
inductive EmptyPairs : List Token → Prop
  | nil : EmptyPairs []
  | cons (p p' : Position) {ts : List Token} (h : EmptyPairs ts) :
    EmptyPairs (⟨.punct '[', p⟩ :: ⟨.punct ']', p'⟩ :: ts)

/-- Cutting off `rest` splits one of the empty pairs of brackets in front of `out`. -/
def SplitsPair (ts rest out : List Token) : Prop :=
  ∃ p p' pairs, EmptyPairs pairs ∧ rest = ⟨.punct ']', p'⟩ :: (pairs ++ out) ∧
    (⟨.punct '[', p⟩ :: rest) <:+ ts

theorem SplitsPair.of_suffix {us : List Token} (h : SplitsPair us rest out) (hus : us <:+ ts) :
    SplitsPair ts rest out := by
  obtain ⟨p, p', pairs, hpairs, hrest, hsuffix⟩ := h
  exact ⟨p, p', pairs, hpairs, hrest, hsuffix.trans hus⟩

theorem append_suffix {mid : List Token} (h : mid <:+ front) : mid ++ rest <:+ front ++ rest := by
  obtain ⟨taken, rfl⟩ := h
  exact ⟨taken, (List.append_assoc ..).symm⟩

theorem emptyBrackets_apply (ts : List Token) : emptyBrackets ts
    = if startsPair (.punct '[') ']' ts then .ok (some (), ts.tail.tail) else .ok (none, ts) :=
  pair_apply (checkPunct '[') (fun _ => rfl) ']' (pure (some ())) (pure none) ts

theorem emptyBrackets_eq_ok_some {us : List Token} (h : emptyBrackets ts = .ok (some (), us)) :
    ∃ p p', ts = ⟨.punct '[', p⟩ :: ⟨.punct ']', p'⟩ :: us := by
  rw [emptyBrackets_apply] at h
  split at h
  · rename_i hstarts
    obtain ⟨⟨kind, p⟩, ⟨kind', p'⟩, ts, rfl⟩ := exists_of_startsPair hstarts
    obtain ⟨rfl, rfl⟩ : kind = .punct '[' ∧ kind' = .punct ']' := by
      simpa [startsPair, Token.isPunct] using hstarts
    obtain ⟨-, rfl⟩ := Prod.mk.inj (Except.ok.inj h)
    exact ⟨p, p', rfl⟩
  · exact absurd (Prod.mk.inj (Except.ok.inj h)).1 (by simp)

theorem emptyBrackets_lt {u : Unit} {us : List Token} (h : emptyBrackets ts = .ok (some u, us)) :
    us.length < ts.length := by
  obtain ⟨p, p', rfl⟩ := emptyBrackets_eq_ok_some h
  simp only [List.length_cons]
  omega

theorem emptyBrackets_stop {us : List Token} (h : emptyBrackets ts = .ok (none, us)) : us = ts := by
  rw [emptyBrackets_apply] at h
  split at h
  · exact absurd (Prod.mk.inj (Except.ok.inj h)).1 (by simp)
  · exact (Prod.mk.inj (Except.ok.inj h)).2.symm

theorem many_emptyBrackets_cons {found : List Unit} {us : List Token}
    (h : emptyBrackets ts = .ok (some (), us))
    (hmany : Parser.many emptyBrackets ts = .ok (found, out)) :
    ∃ found', Parser.many emptyBrackets us = .ok (found', out) := by
  obtain ⟨p, p', rfl⟩ := emptyBrackets_eq_ok_some h
  cases found with
  | nil => exact absurd (h.symm.trans (Parser.item_of_many_eq_nil hmany)) (by simp)
  | cons a found =>
    obtain ⟨mid, hitem, hmore⟩ := Parser.exists_of_many_eq_cons emptyBrackets_lt hmany
    obtain ⟨-, rfl⟩ := Prod.mk.inj (Except.ok.inj (h.symm.trans hitem))
    exact ⟨found, hmore⟩

theorem exists_pairs {found : List Unit} (h : Parser.many emptyBrackets ts = .ok (found, out)) :
    ∃ pairs, EmptyPairs pairs ∧ ts = pairs ++ out := by
  rw [Parser.many_eq_ok_iff] at h
  fun_induction Parser.collect emptyBrackets ts generalizing found with
  | case1 ts e hread => exact absurd (Prod.mk.inj h).2 (by simp)
  | case2 ts mid hread =>
    obtain rfl := Except.ok.inj (Prod.mk.inj h).2
    exact ⟨[], .nil, (emptyBrackets_stop hread).symm⟩
  | case3 ts a mid hread hlt more outcome hmore ih =>
    obtain ⟨-, rfl⟩ := Prod.mk.inj h
    obtain ⟨p, p', rfl⟩ := emptyBrackets_eq_ok_some hread
    obtain ⟨pairs, hpairs, rfl⟩ := ih hmore
    exact ⟨_, .cons p p' hpairs, rfl⟩
  | case4 ts a mid hread hlt => exact absurd (emptyBrackets_lt hread) hlt

/-- Pairs of brackets are cut off between pairs. -/
theorem manyBrackets_cutAt (hcut : ¬SplitsPair (front ++ rest) rest out) :
    CutAt rest (Parser.many emptyBrackets) front out := by
  intro found h
  refine CutAt.many (P := fun ts => ts <:+ front ++ rest ∧
    ∃ found, Parser.many emptyBrackets ts = .ok (found, out)) ?_ ?_ (.found (a := none) rfl)
    ⟨List.suffix_refl _, found, h⟩ found h
  · rintro front' ⟨hsuffix, found', hmany⟩ mid
    refine pair_cutAt (.punct '[') (fun _ => rfl) (.found rfl) (KeptAt.pure _).cutAt
      (KeptAt.pure _).cutAt ?_
    -- a cut between the brackets would split a pair
    intro t ht hstarts
    subst ht
    have hread : emptyBrackets (t :: rest) = .ok (some (), rest.tail) := by
      rw [emptyBrackets_apply, if_pos hstarts]
      rfl
    obtain ⟨p, p', htokens⟩ := emptyBrackets_eq_ok_some hread
    obtain ⟨rfl, hrest⟩ := List.cons.inj htokens
    obtain ⟨found'', hmore⟩ := many_emptyBrackets_cons hread hmany
    obtain ⟨pairs, hpairs, htail⟩ := exists_pairs hmore
    exact absurd ⟨p, p', pairs, hpairs, hrest.trans (by rw [htail]), hsuffix⟩ hcut
  · rintro ts us ⟨⟩ ⟨hsuffix, found', hmany⟩ hread
    refine ⟨?_, many_emptyBrackets_cons hread hmany⟩
    obtain ⟨p, p', rfl⟩ := emptyBrackets_eq_ok_some hread
    exact ((List.suffix_cons _ us).trans (List.suffix_cons _ _)).trans hsuffix

theorem typeSuffix_meetsEnd : MeetsEnd typeSuffix :=
  .bind_found (a := false) rfl (.bind_pure (.many (.found (a := none) rfl)) _)

theorem typeSuffix_cutAt (hcut : ¬SplitsPair (front ++ rest) rest out) :
    CutAt rest typeSuffix front out := by
  refine .bind (fun _ => .accept (acceptPunct_accepts '?')) (fun nullable mid _ hmid => ?_)
    fun nullable => .bind_pure (.many (.found (a := none) rfl)) _
  refine (manyBrackets_cutAt fun hsplits => ?_).bind_pure _
  exact hcut (hsplits.of_suffix (append_suffix hmid))

/-! ## Types -/

/-- Behind a type that is read as part of a source, the two brackets of an empty pair are cut
    apart. -/
def CutsBrackets (tokens rest : List Token) : Prop :=
  ∃ ts t out, Place tokens .type ts ∧ typeExpr ts = .ok (t, out) ∧ SplitsPair ts rest out

theorem typeExpr_nil : typeExpr [] = .error (.unexpectedEof .identifier) := by
  rw [typeExpr_eq]
  unfold typeBody
  rw [Parser.bind_apply_of_ok skipAttributes_nil]
  rfl

section

variable {item : TokenParser α}

theorem ItemStart.snoc {ts mid us : List Token} {a : α} {p : Position}
    (h : ItemStart item ts mid) (hitem : item mid = .ok (a, ⟨.punct ',', p⟩ :: us)) :
    ItemStart item ts us := by
  induction h with
  | first ts => exact .next hitem (.first us)
  | next hfirst _ ih => exact .next hfirst (ih hitem)

theorem ItemStart.length_le (hlt : ∀ {ts : List Token} {a : α} {rest}, item ts = .ok (a, rest) →
    rest.length ≤ ts.length) {ts us : List Token} (h : ItemStart item ts us) :
    us.length ≤ ts.length := by
  induction h with
  | first ts => exact Nat.le_refl _
  | next hitem _ ih => exact Nat.le_trans (Nat.le_succ_of_le ih) (hlt hitem)

/-- The items of a list are cut off where they start. -/
theorem items_cutAt (hitem : ∀ {mid}, ItemStart item (front ++ rest) (mid ++ rest) →
      ∀ us, CutAt rest item mid us) (hend : MeetsEnd item) :
    CutAt rest (separated item) front out :=
  separated_cutAt (P := ItemStart item (front ++ rest)) hitem .snoc hend (.first _)

end

/-- What is known of types between angle brackets. -/
theorem typeParameters_cutAt (h : ∀ {q list mid}, front = ⟨.punct '<', q⟩ :: list →
      ItemStart typeExpr (list ++ rest) (mid ++ rest) → ∀ us, CutAt rest typeExpr mid us) :
    CutAt rest (typeParameters typeExpr) front out := by
  refine (KeptAt.expect (expectPunct_expects '<')).bind_cutAt fun _ list hopening _ => ?_
  obtain ⟨q, hq⟩ := expectPunct_eq_ok_iff.1 hopening
  obtain rfl : front = ⟨.punct '<', q⟩ :: list := List.append_cancel_right hq
  refine .bind (fun _ => items_cutAt (h rfl) (.missing _ typeExpr_nil)) (fun types mid _ _ => ?_)
    fun types => .bind_missing rfl _
  exact ((KeptAt.expect (expectPunct_expects '>')).bind fun _ _ _ => .pure types).cutAt

theorem optionalParameters_cutAt (h : ∀ {q list mid}, front = ⟨.punct '<', q⟩ :: list →
      ItemStart typeExpr (list ++ rest) (mid ++ rest) → ∀ us, CutAt rest typeExpr mid us) :
    CutAt rest (optionalParameters typeExpr) front out := by
  refine .look (f := (·.any (·.isPunct '<'))) (fun _ => rfl) (.found rfl) ?_
  exact .ite (fun _ => (typeParameters_cutAt h).bind_pure _) fun _ => (KeptAt.pure _).cutAt

theorem acceptLong_cutAt (base : BasicType) : CutAt rest (acceptLong base) front out := by
  refine .ite (fun _ => ?_) fun _ => (KeptAt.pure base).cutAt
  refine .bind (fun _ => .accept (acceptIdent_accepts "long")) (fun isLong mid _ _ => ?_)
    fun isLong => .ite (.found rfl) (.found rfl)
  exact .ite (fun _ => (KeptAt.pure _).cutAt) fun _ => (KeptAt.pure _).cutAt

/-- Types inside a type stand between angle brackets behind its name, unless that is the name of a
    basic type. -/
theorem typeBehind_cutAt (unsigned unrestricted : Bool) {name : String}
    (hcut : ¬SplitsPair (front ++ rest) rest out)
    (h : BasicType.ofName? name = none → ∀ {q list mid}, front = ⟨.punct '<', q⟩ :: list →
      ItemStart typeExpr (list ++ rest) (mid ++ rest) → ∀ us, CutAt rest typeExpr mid us) :
    CutAt rest (typeBehind typeExpr unsigned unrestricted name) front out := by
  have hsuffix : ∀ {mid} (f : Bool → TypeExpr), mid <:+ front →
      CutAt rest (typeSuffix >>= fun nullable => pure (f nullable)) mid out := by
    intro mid f hmid
    exact (typeSuffix_cutAt
      fun hsplits => hcut (hsplits.of_suffix (append_suffix hmid))).bind_pure f
  have hend : ∀ f : Bool → TypeExpr, MeetsEnd (typeSuffix >>= fun nullable => pure (f nullable)) :=
    fun f => typeSuffix_meetsEnd.bind_pure f
  unfold typeBehind
  cases hname : BasicType.ofName? name with
  | some base =>
    exact .bind (fun _ => acceptLong_cutAt base) (fun _ _ _ hmid => hsuffix _ hmid) fun _ => hend _
  | none =>
    refine .ite (fun _ => ?_) fun _ => ?_
    · exact .bind (fun _ => typeParameters_cutAt (h hname)) (fun _ _ _ hmid => hsuffix _ hmid)
        fun _ => hend _
    · exact .bind (fun _ => optionalParameters_cutAt (h hname)) (fun _ _ _ hmid => hsuffix _ hmid)
        fun _ => hend _

/-- The types of a source are cut off where the source is, unless the cut is between the brackets
    of a pair behind one of them. -/
theorem typeExpr_cutAt (hintact : ¬CutsBrackets tokens rest)
    (hplace : Place tokens .type (front ++ rest)) : CutAt rest typeExpr front out := by
  induction hn : front.length using Nat.strongRecOn generalizing front out with
  | ind n ih =>
  intro t h
  have hcut : ¬SplitsPair (front ++ rest) rest out := fun hsplits =>
    hintact ⟨_, t, out, hplace, h, hsplits⟩
  suffices hbody : CutAt rest (typeBody typeExpr) front out by
    rw [← typeExpr_eq] at hbody
    exact hbody t h
  refine .bind (fun _ => skipAttributes_cutAt) (fun _ mid hskip hmid => ?_)
    fun _ => .missing .identifier rfl
  obtain ⟨hplace, -⟩ := hplace.behindAttributes hskip
  refine .look (f := (·.any (·.isPunct '('))) (fun _ => rfl)
    (.missing .identifier rfl) (.ite (fun _ => ?_) fun _ => ?_)
  · refine (skipGroup_keptAt '(' ')').bind_cutAt fun _ mid' _ hmid' => ?_
    refine (typeSuffix_cutAt fun hsplits => ?_).bind_pure _
    exact hcut (hsplits.of_suffix (append_suffix (hmid'.trans hmid)))
  · refine .bind (fun _ => .accept (acceptIdent_accepts "unsigned"))
      (fun unsigned mid₁ hunsigned hmid₁ => ?_) fun _ => .missing .identifier rfl
    refine .bind (fun _ => .accept (acceptIdent_accepts "unrestricted"))
      (fun unrestricted mid₂ hunrestricted hmid₂ => ?_)
      fun _ => .missing .identifier rfl
    refine (KeptAt.expect expectIdent_expects).bind_cutAt fun name mid₃ hname hmid₃ => ?_
    have hsuffix : mid₃ <:+ front := hmid₃.trans (hmid₂.trans (hmid₁.trans hmid))
    obtain ⟨p, hp⟩ := expectIdent_eq_ok_iff.1 hname
    refine typeBehind_cutAt unsigned unrestricted
      (fun hsplits => hcut (hsplits.of_suffix (append_suffix hsuffix))) ?_
    -- a type between angle brackets has fewer tokens in front of the cut
    rintro hbasic q list us rfl hstart out'
    have hus : us.length < n := by
      have hle := hstart.length_le typeExpr_le
      have hlist := hsuffix.length_le
      simp only [List.length_append, List.length_cons] at hle hlist
      omega
    rw [hp] at hunrestricted
    exact ih us.length hus (hplace.inside (.parameter hunsigned hunrestricted hbasic hstart)) rfl

/-! ## Members -/

theorem optionalDefault_cutAt : CutAt rest optionalDefault front out := by
  refine .bind (fun _ => .accept (acceptPunct_accepts '=')) (fun isEquals mid _ _ => ?_)
    fun _ => .ite (.missing _ skipDefault_nil) (.found rfl)
  exact .ite (fun _ => skipDefault_cutAt) fun _ => (KeptAt.pure ()).cutAt

theorem argument_nil : WebIdl.argument [] = .error (.unexpectedEof .identifier) := by
  unfold WebIdl.argument
  rw [Parser.bind_apply_of_ok skipAttributes_nil, Parser.bind_apply_of_ok rfl, Parser.bind_apply,
    typeExpr_nil]

theorem argument_cutAt (hintact : ¬CutsBrackets tokens rest)
    (hplace : Place tokens .argument (front ++ rest)) : CutAt rest WebIdl.argument front out := by
  refine .bind (fun _ => skipAttributes_cutAt) (fun _ mid hskip _ => ?_)
    fun _ => .bind_found rfl (.bind_missing typeExpr_nil _)
  obtain ⟨hplace, hplain⟩ := hplace.behindAttributes hskip
  refine .bind (fun _ => .accept (acceptIdent_accepts "optional"))
    (fun isOptional mid' hoptional _ => ?_) fun _ => .bind_missing typeExpr_nil _
  refine .bind (fun _ => typeExpr_cutAt hintact (hplace.inside (.argumentType hplain hoptional)))
    (fun type mid _ _ => ?_) fun _ => .missing .identifier rfl
  refine .bind (fun _ => .accept acceptEllipsis_accepts) (fun isVariadic mid _ _ => ?_)
    fun _ => .missing .identifier rfl
  exact (KeptAt.expect expectIdent_expects).bind_cutAt fun name mid _ _ =>
    optionalDefault_cutAt.bind_pure _

theorem arguments_cutAt (h : ∀ {q list mid}, front = ⟨.punct '(', q⟩ :: list →
      Avoids (.punct ')') (list ++ rest) → ItemStart WebIdl.argument (list ++ rest) (mid ++ rest) →
      ∀ us, CutAt rest WebIdl.argument mid us) : CutAt rest arguments front out := by
  refine (KeptAt.expect (expectPunct_expects '(')).bind_cutAt fun _ list hopening _ => ?_
  obtain ⟨q, hq⟩ := expectPunct_eq_ok_iff.1 hopening
  obtain rfl : front = ⟨.punct '(', q⟩ :: list := List.append_cancel_right hq
  have hlist : ∀ us, CutAt rest argumentList list us := by
    intro us
    refine .look (f := (·.any (·.isPunct ')'))) (fun _ => rfl)
      (.bind_missing (Parser.bind_eq_error argument_nil _) _) ?_
    refine .ite (fun _ => (KeptAt.pure []).cutAt) fun hnext => ?_
    exact (items_cutAt (h rfl (Bool.eq_false_iff.2 hnext)) (.missing _ argument_nil)).bind_pure _
  refine .bind hlist (fun arguments mid _ _ => ?_) fun _ => .missing (.punct ')') rfl
  exact ((KeptAt.expect (expectPunct_expects ')')).bind fun _ _ _ => .pure arguments).cutAt

theorem attributeBody_cutAt (modifiers : List Modifier) (hintact : ¬CutsBrackets tokens rest)
    (hplace : Place tokens .type (front ++ rest)) :
    CutAt rest (attributeBody modifiers) front out := by
  refine .bind (fun _ => typeExpr_cutAt hintact hplace) (fun type mid _ _ => ?_)
    fun _ => .missing .identifier rfl
  exact ((KeptAt.expect expectIdent_expects).bind fun name _ _ =>
    (KeptAt.expect (expectPunct_expects ';')).bind fun _ _ _ => .pure _).cutAt

theorem operationBody_cutAt {modifiers : List Modifier} (hintact : ¬CutsBrackets tokens rest)
    (hplace : Place tokens (.member .interface) ts)
    (hstarts : StartsOperation modifiers ts (front ++ rest)) :
    CutAt rest (operationBody modifiers) front out := by
  refine .bind (fun _ => typeExpr_cutAt hintact (hplace.inside (.returnType hstarts)))
    (fun type mid htype _ => ?_) fun _ => .missing (.punct '(') rfl
  refine .bind (fun _ => .accept acceptName_accepts) (fun name? mid' hname _ => ?_)
    fun _ => .missing (.punct '(') rfl
  refine .bind (fun _ => arguments_cutAt ?_) (fun list mid _ _ => ?_)
    fun _ => .missing (.punct ';') rfl
  · rintro q list us rfl hplain hstart
    exact fun _ => argument_cutAt hintact
      (hplace.inside (.argument hstarts htype hname hplain hstart))
  · exact ((KeptAt.expect (expectPunct_expects ';')).bind fun _ _ _ => .pure _).cutAt

theorem skip_none_keptAt : KeptAt rest (skipStatement >>= fun _ => pure none :
    TokenParser (Option α)) front := skipStatement_keptAt.bind fun _ _ _ => .pure none

theorem many_acceptModifier_nil : Parser.many acceptModifier [] = .ok ([], []) :=
  Parser.many_eq_nil rfl

theorem operationBody_nil (modifiers : List Modifier) :
    operationBody modifiers [] = .error (.unexpectedEof .identifier) :=
  Parser.bind_eq_error typeExpr_nil _

/-- Behind its modifiers, a member lacks a type at the end. -/
theorem modifiedMember_eq_missing {modifiers : List Modifier}
    (h : Parser.many acceptModifier ts = .ok (modifiers, [])) :
    modifiedMember ts = .error (.unexpectedEof .identifier) := by
  unfold modifiedMember
  rw [Parser.bind_apply_of_ok h]
  show (some <$> operationBody modifiers) [] = _
  rw [Parser.map_apply, operationBody_nil]
  rfl

/-- Is the token the keyword of a member that is skipped? -/
def startsSkipped (t? : Option Token) : Bool :=
  skippedMembers.any fun name => t?.any (·.isIdent name)

theorem modifiedMember_cutAt (hintact : ¬CutsBrackets tokens rest)
    (hplace : Place tokens (.member .interface) (front ++ rest))
    (hplain : Avoids (.punct '[') (front ++ rest)) : CutAt rest modifiedMember front out := by
  have hend : ∀ modifiers, MeetsEnd (some <$> operationBody modifiers) := fun modifiers =>
    .map (.missing _ (operationBody_nil modifiers)) some
  refine .bind (fun _ => .many (P := fun _ => True) (fun _ _ => .accept acceptModifier_accepts)
    (fun _ _ => trivial) (.found (a := none) rfl) trivial) (fun modifiers mid hmodifiers _ => ?_)
    fun modifiers => hend modifiers
  refine .look (f := startsSkipped) (fun _ => rfl) (hend modifiers) ?_
  refine .ite (fun _ => skip_none_keptAt.cutAt) fun hskipped => ?_
  refine .bind (fun _ => .accept (acceptIdent_accepts "attribute"))
    (fun isAttribute mid' hattribute _ => ?_)
    fun _ => .ite (.map (.bind_missing typeExpr_nil _) some) (hend modifiers)
  rcases acceptIdent_eq_ok_iff.1 hattribute with ⟨rfl, p, hmid⟩ | ⟨rfl, hmid, havoids⟩
  · rw [hmid] at hmodifiers
    exact (attributeBody_cutAt modifiers hintact (hplace.inside (.attributeType hmodifiers))).map _
  · obtain rfl := List.append_cancel_right hmid
    intro m? h
    refine ((operationBody_cutAt hintact hplace ⟨hplain, hmodifiers, ?_⟩).map some) m? h
    -- the type is read where no other word of a member stands
    obtain ⟨m, -, hread⟩ := Parser.map_eq_ok_iff.1 h
    obtain ⟨type, behind, htype, -⟩ := Parser.bind_eq_ok_iff.1 hread
    refine mayStartType_memberWords htype ?_ havoids
      (Parser.item_of_many acceptModifier_settled.length_lt acceptModifier_stop hmodifiers)
    exact congrArg (fun found => Except.ok (found, mid' ++ rest)) (Bool.eq_false_iff.2 hskipped)

theorem interfaceMember_cutAt (hintact : ¬CutsBrackets tokens rest)
    (hplace : Place tokens (.member .interface) (front ++ rest))
    (hplain : Avoids (.punct '[') (front ++ rest)) : CutAt rest interfaceMember front out := by
  have hend : MeetsEnd modifiedMember :=
    .missing _ (modifiedMember_eq_missing many_acceptModifier_nil)
  refine .look (f := startsSkipped) (fun _ => rfl) hend ?_
  refine .ite (fun _ => skip_none_keptAt.cutAt) fun _ => ?_
  refine pair_cutAt (.ident "stringifier") (fun _ => rfl) hend (KeptAt.pure _).cutAt
    (modifiedMember_cutAt hintact hplace hplain) ?_
  rintro ⟨kind, p⟩ - hstarts a -
  obtain ⟨rfl, -⟩ : kind = .ident "stringifier" ∧ _ := by simpa [startsPair] using hstarts
  have hmany : Parser.many acceptModifier [⟨.ident "stringifier", p⟩] = .ok ([.stringifier], []) :=
    Parser.many_cons (acceptModifier_keyword .stringifier p []) (Nat.lt_succ_self _)
      many_acceptModifier_nil
  rw [modifiedMember_eq_missing hmany]
  exact .missing _

theorem dictionaryMember_cutAt (hintact : ¬CutsBrackets tokens rest)
    (hplace : Place tokens (.member .dictionary) (front ++ rest))
    (hplain : Avoids (.punct '[') (front ++ rest)) : CutAt rest dictionaryMember front out := by
  refine .bind (fun _ => .accept (acceptIdent_accepts "required"))
    (fun isRequired mid hrequired _ => ?_) fun _ => .bind_missing typeExpr_nil _
  intro m? h
  obtain ⟨type, behind, htype, -⟩ := Parser.bind_eq_ok_iff.1 h
  have hplace := hplace.inside (.fieldType hplain hrequired (mayStartType_of_typeExpr htype))
  refine (CutAt.bind (fun _ => typeExpr_cutAt hintact hplace) (fun type mid _ _ => ?_)
    fun _ => .missing .identifier rfl) m? h
  refine (KeptAt.expect expectIdent_expects).bind_cutAt fun name mid _ _ => ?_
  refine .bind (fun _ => optionalDefault_cutAt) (fun _ mid _ _ => ?_)
    fun _ => .missing (.punct ';') rfl
  exact ((KeptAt.expect (expectPunct_expects ';')).bind fun _ _ _ => .pure _).cutAt

theorem member_cutAt {kind : DefinitionKind} (hintact : ¬CutsBrackets tokens rest)
    (hplace : Place tokens (.member kind) (front ++ rest))
    (hplain : Avoids (.punct '[') (front ++ rest)) : CutAt rest (member kind) front out := by
  cases kind with
  | interface => exact interfaceMember_cutAt hintact hplace hplain
  | dictionary => exact dictionaryMember_cutAt hintact hplace hplain

theorem blockItem_nil (kind : DefinitionKind) :
    blockItem kind [] = .error (.unexpectedEof (.punct '}')) := by
  unfold blockItem
  rw [Parser.bind_apply_of_ok skipAttributes_nil]
  rfl

theorem blockItem_cutAt {kind : DefinitionKind} (hintact : ¬CutsBrackets tokens rest)
    (hplace : Place tokens (.member kind) (front ++ rest)) :
    CutAt rest (blockItem kind) front out := by
  refine .bind (fun _ => skipAttributes_cutAt) (fun _ mid hskip _ => ?_)
    fun _ => .missing (.punct '}') rfl
  obtain ⟨hplace, hplain⟩ := hplace.behindAttributes hskip
  refine .bind (fun _ => .accept (acceptPunct_accepts '}')) (fun isEnd mid' hend _ => ?_)
    fun _ => .ite (.found rfl) (.missing (.punct '}') rfl)
  refine .ite (fun _ => (KeptAt.pure none).cutAt) fun hnot => ?_
  rcases acceptPunct_eq_ok_iff.1 hend with ⟨rfl, -⟩ | ⟨-, hmid, -⟩
  · exact absurd rfl hnot
  obtain rfl := List.append_cancel_right hmid
  refine .look (f := Option.isNone) (fun ts => by cases ts <;> rfl)
    (.missing (.punct '}') rfl) ?_
  exact .ite (fun _ => unexpected_cutAt _) fun _ =>
    (member_cutAt hintact hplace hplain).bind_pure _

theorem memberBlock_cutAt {kind : DefinitionKind} (hintact : ¬CutsBrackets tokens rest)
    (hplace : ∀ {p us}, front ++ rest = ⟨.punct '{', p⟩ :: us → Place tokens (.member kind) us) :
    CutAt rest (memberBlock kind) front out := by
  refine (KeptAt.expect (expectPunct_expects '{')).bind_cutAt fun _ inner hopening _ => ?_
  obtain ⟨p, hp⟩ := expectPunct_eq_ok_iff.1 hopening
  refine .bind (fun _ => .many (P := Place tokens (.member kind))
    (fun hplace _ => blockItem_cutAt hintact hplace)
    (fun hplace hitem => hplace.inside (.nextMember hitem)) (.missing _ (blockItem_nil kind))
    (hplace hp)) (fun members mid _ _ => ?_) fun _ => .missing (.punct ';') rfl
  exact ((KeptAt.expect (expectPunct_expects ';')).bind fun _ _ _ => .pure _).cutAt

/-! ## Definitions -/

theorem inheritance_cutAt : CutAt rest inheritance front out := by
  refine .bind (fun _ => .accept (acceptPunct_accepts ':')) (fun isColon mid _ _ => ?_)
    fun _ => .ite (.missing .identifier rfl) (.found rfl)
  exact .ite (fun _ => (KeptAt.expect expectIdent_expects).cutAt.map some) fun _ =>
    (KeptAt.pure none).cutAt

theorem definitionBody_cutAt {kind : DefinitionKind} {isPartial : Bool} {mid : List Token}
    (hintact : ¬CutsBrackets tokens rest) (hplace : Place tokens .statement ts)
    (hpartial : acceptIdent "partial" ts = .ok (isPartial, mid))
    (hkeywords : BehindKeywords kind mid (front ++ rest)) :
    CutAt rest (definitionBody kind isPartial) front out := by
  refine (KeptAt.expect expectIdent_expects).bind_cutAt fun name behind hname _ => ?_
  obtain ⟨p, hp⟩ := expectIdent_eq_ok_iff.1 hname
  rw [hp] at hkeywords
  refine .bind (fun _ => inheritance_cutAt) (fun parent? mid' hparent _ => ?_)
    fun _ => .missing (.punct '{') rfl
  refine (memberBlock_cutAt hintact fun hopening => ?_).bind_pure _
  rw [hopening] at hparent
  exact hplace.inside (.firstMember hpartial hkeywords hparent)

/-- A statement lacks a token at the end, behind any of its keywords. -/
theorem skipStatement_nil : skipStatement [] = .error (.unexpectedEof (.punct ';')) := by
  show Except.map _ (closeStatement 0 []) = _
  rw [closeStatement]
  rfl

theorem declaration_cutAt (hintact : ¬CutsBrackets tokens rest)
    (hplace : Place tokens .statement (front ++ rest)) : CutAt rest declaration front out := by
  have hbody : ∀ kind isPartial, MeetsEnd (some <$> definitionBody kind isPartial) :=
    fun kind isPartial => .missing .identifier rfl
  have hskip : MeetsEnd (skipStatement >>= fun _ => pure none : TokenParser (Option Definition)) :=
    .bind_missing skipStatement_nil _
  have hother : ∀ isPartial, MeetsEnd (do
      if isPartial && !(← checkIdent "namespace") then unexpected .partialDefinition
      else
        skipStatement
        pure none : TokenParser (Option Definition)) := by
    intro isPartial
    cases isPartial with
    | true => exact .missing .partialDefinition rfl
    | false => exact hskip
  refine .bind (fun _ => .accept (acceptIdent_accepts "partial"))
    (fun isPartial mid hpartial _ => ?_) hother
  refine .bind (fun _ => .accept (acceptIdent_accepts "callback"))
    (fun isCallback behind hcallback _ => ?_) fun _ => .ite hskip (hother isPartial)
  rcases acceptIdent_eq_ok_iff.1 hcallback with ⟨rfl, p, hmid⟩ | ⟨rfl, hmid, -⟩
  · refine .bind (fun _ => .accept (acceptIdent_accepts "interface"))
      (fun isInterface us hinterface _ => ?_) fun _ => .ite (hbody .interface isPartial) hskip
    rcases acceptIdent_eq_ok_iff.1 hinterface with ⟨rfl, p', hbehind⟩ | ⟨rfl, -⟩
    · rw [hbehind] at hmid
      refine (definitionBody_cutAt hintact hplace hpartial ?_).map some
      exact hmid ▸ .callback p p' _
    · exact skip_none_keptAt.cutAt
  obtain rfl := List.append_cancel_right hmid
  refine .bind (fun _ => .accept (acceptIdent_accepts "interface"))
    (fun isInterface us hinterface _ => ?_)
    fun _ => .ite (hbody .interface isPartial) (hother isPartial)
  rcases acceptIdent_eq_ok_iff.1 hinterface with ⟨rfl, p, hmid⟩ | ⟨rfl, hmid, -⟩
  · refine .bind (fun _ => .accept (acceptIdent_accepts "mixin")) (fun isMixin us' hmixin _ => ?_)
      fun _ => hbody .interface isPartial
    refine (definitionBody_cutAt hintact hplace hpartial ?_).map some
    exact hmid ▸ .interface p hmixin
  obtain rfl := List.append_cancel_right hmid
  refine .bind (fun _ => .accept (acceptIdent_accepts "dictionary"))
    (fun isDictionary us hdictionary _ => ?_)
    fun _ => .ite (hbody .dictionary isPartial) (hother isPartial)
  rcases acceptIdent_eq_ok_iff.1 hdictionary with ⟨rfl, p, hmid⟩ | ⟨rfl, hmid, -⟩
  · refine (definitionBody_cutAt hintact hplace hpartial ?_).map some
    exact hmid ▸ .dictionary p _
  obtain rfl := List.append_cancel_right hmid
  refine .look (f := fun t? => t?.any (·.isIdent "namespace")) (fun _ => rfl)
    (hother isPartial) (.ite (fun _ => unexpected_cutAt _) fun _ => skip_none_keptAt.cutAt)

theorem statement_cutAt (hintact : ¬CutsBrackets tokens rest)
    (hplace : Place tokens .statement (front ++ rest)) : CutAt rest statement front out := by
  refine .bind (fun _ => skipAttributes_cutAt) (fun _ mid hskip _ => ?_)
    fun _ => .found (a := none) rfl
  obtain ⟨hplace, -⟩ := hplace.behindAttributes hskip
  refine .look (f := Option.isNone) (fun ts => by cases ts <;> rfl) (.found (a := none) rfl) ?_
  exact .ite (fun _ => (KeptAt.pure none).cutAt)
    fun _ => (declaration_cutAt hintact hplace).map some

theorem outcome_eq (ts : List Token) :
    (definitions ts).2 = (Parser.many statement ts).map fun _ => () := by
  unfold definitions Parser.many
  rcases Parser.collect statement ts with ⟨found, e | behind⟩ <;> rfl

/-- Tokens in front of a cut are definitions, or they lack a token, if the tokens are definitions
    with those behind the cut. -/
theorem definitions_truncated (h : (definitions (front ++ rest)).2 = .ok ())
    (hintact : ¬CutsBrackets (front ++ rest) rest) : (definitions front).2 = .ok () ∨
      ∃ expected, (definitions front).2 = .error (.unexpectedEof expected) := by
  have hcut : ∀ out, CutAt rest (Parser.many statement) front out := fun out =>
    .many (P := Place (front ++ rest) .statement) (fun hplace _ => statement_cutAt hintact hplace)
      (fun hplace hread => hplace.inside (.nextStatement hread)) (.found statement_nil) .start
  rw [outcome_eq] at h ⊢
  exact CutAt.outcome hcut h

end IdlBind.WebIdl
