import IdlBind.Binding.Parser
import IdlBind.Proofs.Parsing.Truncation

set_option autoImplicit false

/-! # Binding descriptions in front of a cut

What is left of a binding description if tokens are cut off. Keywords that are not known and a
second block are errors of the whole description as well, and all that a cut can add is the end of
the file. -/

namespace IdlBind.Binding

open TokenParser

variable {α : Type} {front rest out : List Token}

/-! ## Steps -/

theorem failWith_keptAt (e : ParseError) : KeptAt rest (failWith e : TokenParser α) front := by
  intro a out h
  exact absurd h (by simp [failWith])

theorem acceptString_accepts : Accepts acceptString
    (fun kind => match kind with | .string text => some (some text) | _ => none) none := by
  refine ⟨rfl, ?_⟩
  rintro ⟨kind, position⟩ rest
  cases kind <;> rfl

theorem expectString_expects : Expects expectString
    (fun kind => match kind with | .string text => some text | _ => none) .stringLiteral := by
  refine ⟨rfl, ?_⟩
  rintro ⟨kind, position⟩ rest
  cases kind <;> rfl

theorem expectCode_expects : Expects expectCode
    (fun kind => match kind with | .codeBlock code => some code | _ => none) .codeBlock := by
  refine ⟨rfl, ?_⟩
  rintro ⟨kind, position⟩ rest
  cases kind <;> rfl

theorem expectKeywordAt_keptAt : KeptAt rest expectKeywordAt front := by
  rintro ⟨name, p⟩ out h
  cases front with
  | nil => exact .inr ⟨.identifier, rfl⟩
  | cons t front =>
    obtain ⟨kind, position⟩ := t
    cases kind with
    | ident name' =>
      obtain ⟨hname, rfl⟩ := Prod.mk.inj (Except.ok.inj h)
      exact .inl ⟨front, List.suffix_cons _ front, rfl,
        congrArg (Except.ok <| Prod.mk · front) hname⟩
    | _ => exact absurd h (by simp [expectKeywordAt])

theorem semicolon_keptAt (a : α) :
    KeptAt rest (expectPunct ';' >>= fun _ => pure a) front :=
  (KeptAt.expect (expectPunct_expects ';')).bind fun _ _ _ => .pure a

/-! ## The binding block -/

theorem entryBody_keptAt (keyword : String) (position : Position) :
    KeptAt rest (entryBody keyword position) front := by
  have hentry : ∀ {p : TokenParser Entry}, KeptAt rest p front →
      KeptAt rest (p >>= fun e => expectPunct ';' >>= fun _ => pure e) front :=
    fun h => h.bind fun e _ _ => semicolon_keptAt e
  unfold entryBody
  dsimp only
  split
  · exact hentry ((KeptAt.expect expectIdent_expects).map Entry.type)
  · exact hentry ((KeptAt.expect expectIdent_expects).map Entry.interface)
  · refine (KeptAt.expect expectString_expects).bind fun ctype _ _ => ?_
    refine (KeptAt.expect expectIdent_expects).bind fun name _ _ => ?_
    exact (KeptAt.pure _).bind fun e _ _ => semicolon_keptAt e
  · exact hentry (failWith_keptAt _)

theorem entry_nil : entry [] = .error (.unexpectedEof .identifier) := rfl

theorem entry_cutAt : CutAt rest entry front out := by
  refine .bind (fun _ => .accept (acceptPunct_accepts '}')) (fun isEnd mid _ _ => ?_)
    fun _ => .ite (.found rfl) (.missing .identifier rfl)
  refine .ite (fun _ => (KeptAt.pure none).cutAt) fun _ => ?_
  exact (expectKeywordAt_keptAt.bind fun r _ _ =>
    (entryBody_keptAt r.1 r.2).bind fun e _ _ => .pure _).cutAt

theorem block_cutAt : CutAt rest block front out := by
  refine (KeptAt.expect expectIdent_expects).bind_cutAt fun name mid _ _ => ?_
  refine (KeptAt.expect (expectPunct_expects '{')).bind_cutAt fun _ mid _ _ => ?_
  refine .bind (fun _ => .many (P := fun _ => True) (fun _ _ => entry_cutAt) (fun _ _ => trivial)
    (.missing _ entry_nil) trivial) (fun entries mid _ _ => ?_)
    fun _ => .found (a := .block name _) rfl
  exact (CutAt.accept (acceptPunct_accepts ';')).bind_pure _

/-! ## Statements -/

theorem statementBody_cutAt (keyword : String) (position : Position) :
    CutAt rest (statementBody keyword position) front out := by
  unfold statementBody
  split
  · exact ((KeptAt.expect expectString_expects).bind fun reference _ _ =>
      semicolon_keptAt (Statement.webIdlFile reference)).cutAt
  · refine (KeptAt.expect expectString_expects).bind_cutAt fun first mid _ _ => ?_
    refine .bind (fun _ => .many (P := fun _ => True) (fun _ _ => .accept acceptString_accepts)
      (fun _ _ => trivial) (.found (a := none) rfl) trivial) (fun others mid _ _ => ?_)
      fun _ => .missing (.punct ';') rfl
    exact (semicolon_keptAt _).cutAt
  · refine (KeptAt.expect expectCode_expects).bind_cutAt fun code mid _ _ => ?_
    exact (CutAt.accept (acceptPunct_accepts ';')).bind_pure _
  · exact (failWith_keptAt _).cutAt

theorem plainStatement_nil : plainStatement [] = .ok (none, []) := rfl

theorem plainStatement_cutAt : CutAt rest plainStatement front out := by
  refine .look (f := Option.isNone) (fun ts => by cases ts <;> rfl) (.found (a := none) rfl) ?_
  refine .look (f := fun t? => t?.any (·.isIdent "binding")) (fun _ => rfl)
    (.ite (.found rfl) (.missing .identifier rfl)) ?_
  refine .ite (fun _ => (KeptAt.pure none).cutAt) fun _ => ?_
  exact expectKeywordAt_keptAt.bind_cutAt fun r mid _ _ =>
    (statementBody_cutAt r.1 r.2).bind_pure _

theorem statements_cutAt : CutAt rest (Parser.many plainStatement) front out :=
  .many (P := fun _ => True) (fun _ _ => plainStatement_cutAt) (fun _ _ => trivial)
    (.found plainStatement_nil) trivial

theorem description_cutAt : CutAt rest description front out := by
  refine .bind (fun _ => statements_cutAt) (fun before mid _ _ => ?_)
    fun before => .found (a := before) rfl
  refine .look (f := Option.isNone) (fun ts => by cases ts <;> rfl) (.found (a := before) rfl) ?_
  refine .ite (fun _ => (KeptAt.pure before).cutAt) fun _ => ?_
  have hnone : Parser.many plainStatement [] = .ok ([], []) :=
    Parser.many_eq_nil plainStatement_nil
  refine .bind (fun _ => skip_cutAt) (fun _ mid _ _ => ?_)
    fun _ => .missing .identifier rfl
  refine .bind (fun _ => block_cutAt) (fun bound mid _ _ => ?_)
    fun bound => .bind_found hnone (.found (a := before ++ [bound]) rfl)
  refine .bind (fun _ => statements_cutAt) (fun behind mid _ _ => ?_)
    fun behind => .found (a := before ++ bound :: behind) rfl
  refine .look (f := id) (fun _ => rfl) (.found (a := before ++ bound :: behind) rfl) ?_
  cases (mid ++ rest).head? with
  | none => exact (KeptAt.pure _).cutAt
  | some t => exact (failWith_keptAt _).cutAt

/-- Tokens in front of a cut are a description, or they lack a token, if the tokens are a
    description with those behind the cut. -/
theorem description_truncated
    (h : (description (front ++ rest)).map (fun _ => ()) = .ok ()) :
    (description front).map (fun _ => ()) = .ok () ∨
      ∃ expected, (description front).map (fun _ => ()) = .error (.unexpectedEof expected) :=
  CutAt.outcome (fun _ => description_cutAt) h

end IdlBind.Binding
