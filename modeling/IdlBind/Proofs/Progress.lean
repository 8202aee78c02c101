import IdlBind.Proofs.Binding.Trace
import IdlBind.Proofs.Language
import IdlBind.Proofs.WebIdl.Trace

set_option autoImplicit false

/-! # Reading makes progress

Each iteration of a loop takes something (`Loop.advances`), so that places go forwards along the run
of either reader, and no loop starts more often than there are tokens, and once more at the end
(`parsing_makes_progress`). What is accepted is read to the end. -/

namespace IdlBind

open TokenParser

/-! ## Single iterations -/

/-- Does the loop take something in each iteration that succeeds? A type, which is read in terms of
    itself, is what its description says of it. -/
def Loop.Advances : Loop → Prop
  | .definitions => WebIdl.statement.Advances
  | .members => ∀ kind, (WebIdl.blockItem kind).Takes
  | .modifiers => WebIdl.acceptModifier.Advances
  | .arguments => WebIdl.argument.Takes
  | .types => WebIdl.typeExpr.Takes ∧ WebIdl.typeExpr = WebIdl.typeBody WebIdl.typeExpr
  | .typeParameters => (commaItem WebIdl.typeExpr).Advances
  | .arraySuffixes => WebIdl.emptyBrackets.Advances
  | .attributes => WebIdl.attributeGroup.Advances
  | .skippedGroup => ∀ opening closing depth ts rest,
      closeGroup opening closing (depth + 1) ts = .ok rest → rest.length < ts.length
  | .skippedStatement => ∀ depth ts rest, closeStatement depth ts = .ok rest →
      rest.length < ts.length
  | .bindingStatements => Binding.plainStatement.Advances ∧ Binding.block.Takes
  | .entries => Binding.entry.Takes
  | .strings => Binding.acceptString.Advances

theorem commaItem_advances {α : Type} {p : TokenParser α} (h : p.Takes) :
    (commaItem p).Advances := by
  intro ts a rest hread
  obtain ⟨isMore, mid, haccept, hread⟩ := Parser.bind_eq_ok_iff.1 hread
  have hle := (Local.forward (acceptPunct_local ',') haccept).length_le
  split at hread
  · obtain ⟨b, -, hitem⟩ := Parser.map_eq_ok_iff.1 hread
    exact Nat.lt_of_lt_of_le (h hitem) hle
  · exact absurd hread (by simp)

theorem Closes.length_le {n : Nat} {close : List Token → Except ParseError (List Token)}
    {ts rest : List Token} (h : Closes id n close ts) (hclose : close ts = .ok rest) :
    rest.length + n ≤ ts.length := by
  rw [Closes, hclose] at h
  obtain ⟨front, rfl, hn, -⟩ := h
  rw [List.length_append]
  omega

/-- Within a group, the next token is taken. -/
theorem closeGroup_lt {opening closing : Char} {depth : Nat} {ts rest : List Token}
    (h : closeGroup opening closing (depth + 1) ts = .ok rest) : rest.length < ts.length := by
  have hle : ∀ {depth ts}, closeGroup opening closing depth ts = .ok rest →
      rest.length ≤ ts.length :=
    fun hclose => Closes.length_le (closes_closeGroup opening closing _ _) hclose
  cases ts with
  | nil => exact absurd h (by simp [closeGroup])
  | cons t ts =>
    rw [closeGroup] at h
    refine Nat.lt_succ_of_le ?_
    split at h
    · exact hle h
    · split at h <;> exact hle h

theorem plainStatement_advances : Binding.plainStatement.Advances := by
  intro ts s rest h
  rcases Binding.plainStatement_cases h with ⟨hnone, -⟩ | ⟨s', keyword, p, behind, -, rfl, -, hbody⟩
  · exact absurd hnone (by simp)
  · exact Nat.lt_succ_of_le ((Binding.Trace.statementBody_traces keyword p).forward hbody).length_le

theorem entry_takes : Binding.entry.Takes := by
  intro ts e? rest h
  rcases Binding.entry_cases h with ⟨-, p, rfl⟩ | ⟨e, keyword, p, behind, -, rfl, hbody⟩
  · exact Nat.lt_succ_self _
  · have hforward := (Binding.Trace.entryBody_traces (n := 0) keyword p).forward hbody
    exact Nat.lt_succ_of_le hforward.length_le

theorem Loop.advances (l : Loop) : l.Advances := by
  cases l with
  | definitions => exact fun _ _ _ h => WebIdl.statement_settled.length_lt h
  | members => exact WebIdl.Trace.blockItem_takes
  | modifiers => exact WebIdl.Trace.acceptModifier_advances
  | arguments => exact WebIdl.Trace.argument_takes
  | types => exact ⟨WebIdl.Trace.typeExpr_takes, WebIdl.typeExpr_eq⟩
  | typeParameters => exact commaItem_advances WebIdl.Trace.typeExpr_takes
  | arraySuffixes => exact WebIdl.Trace.emptyBrackets_advances
  | attributes => exact fun _ _ _ h => WebIdl.attributeGroup_settled.length_lt h
  | skippedGroup => exact fun _ _ _ _ _ h => closeGroup_lt h
  | skippedStatement => exact fun depth ts _ h => Closes.length_le (closes_closeStatement depth ts) h
  | bindingStatements => exact ⟨plainStatement_advances, Binding.Trace.block_takes⟩
  | entries => exact entry_takes
  | strings => exact Binding.Trace.acceptString_advances

/-! ## Whole runs -/

/-- What a traced reader leaves of tokens, and where it was. -/
def Traced.places {α : Type} (x : Traced α) (tokens : List Token) :
    Except ParseError (List Token) × List Mark := ((x tokens).1.map (·.2), (x tokens).2)

namespace Language

/-- What is left of tokens in a language, and the places that its reader was at. -/
def trace : Language → List Token → Except ParseError (List Token) × List Mark
  | .webIdl => (Traced.many (Traced.iteration .definitions WebIdl.Trace.statement)).places
  | .binding => Binding.Trace.description.places

theorem trace_eq (language : Language) (tokens : List Token) :
    (language.trace tokens).1 = match language with
      | .webIdl => (Parser.many WebIdl.statement tokens).map (·.2)
      | .binding => (Binding.description tokens).map (·.2) := by
  cases language with
  | webIdl =>
    have hitem : (Traced.iteration .definitions WebIdl.Trace.statement).run = WebIdl.statement :=
      WebIdl.Trace.statement_traces.run
    exact congrArg (Except.map _) (hitem ▸ congrFun (Traced.run_many _) tokens)
  | binding => exact congrArg (Except.map _) (congrFun Binding.Trace.description_traces.run tokens)

/-- The trace comes to what reading comes to. -/
theorem trace_outcome (language : Language) (tokens : List Token) :
    (language.trace tokens).1.map (fun _ => ()) = language.outcome tokens := by
  rw [trace_eq]
  cases language with
  | webIdl =>
    show _ = (WebIdl.definitions tokens).2
    rw [WebIdl.outcome_eq]
    cases Parser.many WebIdl.statement tokens <;> rfl
  | binding =>
    show _ = (Binding.description tokens).map fun _ => ()
    cases Binding.description tokens <;> rfl

theorem trace_rest {language : Language} {tokens rest : List Token}
    (h : (language.trace tokens).1 = .ok rest) : rest = [] := by
  rw [trace_eq] at h
  cases language with
  | webIdl =>
    obtain ⟨⟨found, left⟩, hmany, rfl⟩ := exists_of_map_eq_ok h
    exact WebIdl.eq_nil_of_collect_statement (Parser.many_eq_ok_iff.1 hmany)
  | binding =>
    obtain ⟨⟨found, left⟩, hread, rfl⟩ := exists_of_map_eq_ok h
    exact Binding.Trace.description_rest hread

theorem trace_ordered (language : Language) (tokens : List Token) :
    Ordered tokens (language.trace tokens).2 := by
  cases language with
  | webIdl =>
    exact WebIdl.Trace.statement_traces.ordered_many (by decide) (Loop.advances .definitions) tokens
  | binding => exact (Binding.Trace.description_traces.orderly tokens).ordered

/-- Reading makes progress. Every iteration of a loop that succeeds takes something. The places of a
    run are among the tokens and never go back; they go forwards from one iteration of a loop to the
    next, so that none starts more often than there are tokens, and once more. What is accepted is
    read to the end. A trace comes to what reading the tokens or their text comes to. -/
theorem parsing_makes_progress (language : Language) (tokens : List Token) :
    (∀ l : Loop, l.Advances) ∧
    (∀ m ∈ (language.trace tokens).2, m.ahead <:+ tokens) ∧
    (language.trace tokens).2.Pairwise Mark.Before ∧
    (∀ l, (language.trace tokens).2.countP (·.loop? = some l) ≤ tokens.length + 1) ∧
    (∀ rest, (language.trace tokens).1 = .ok rest → rest = []) ∧
    (language.trace tokens).1.map (fun _ => ()) = language.outcome tokens ∧
    ∀ source stream, TokenStream.ofString source = .ok stream →
      (language.parse source).map (fun _ => ()) = language.outcome stream.ahead := by
  have hordered := trace_ordered language tokens
  refine ⟨Loop.advances, hordered.ahead, hordered.pairwise, hordered.countP_le, ?_, ?_, ?_⟩
  · intro rest h
    exact trace_rest h
  · exact trace_outcome language tokens
  · intro source stream hstream
    exact outcome_parse language hstream

/-- The loops in a trace, up to the end of the file. -/
example : (Language.webIdl.trace (place [.punct '[', .punct ']', .ident "interface", .ident "Dial",
    .punct '{', .ident "readonly", .ident "attribute", .ident "sequence", .punct '<', .ident "long",
    .punct '[', .punct ']', .punct '>', .ident "marks", .punct ';', .punct '\x7d',
    .punct ';'])).2.filterMap (·.loop?)
    = [.definitions, .attributes, .skippedGroup, .members, .modifiers, .types, .types,
      .arraySuffixes, .members, .definitions] := by decide +kernel

end Language

end IdlBind
