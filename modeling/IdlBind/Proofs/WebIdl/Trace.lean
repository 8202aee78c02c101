import IdlBind.Proofs.Parsing.OrderlyTrace
import IdlBind.Proofs.WebIdl.Truncation

set_option autoImplicit false

/-! # The trace of the WebIDL reader

Each reader under its own name with its loops marked, and that it traces the reader. A loop
starts behind something that is taken, or in front of loops of lower rank alone: members and
arguments start in front of attributes and of a type, a type in front of attributes, and attributes
in front of a group. -/

namespace IdlBind.WebIdl.Trace

open Traced
open TokenParser hiding commaItem separated closeGroup closeStatement skipGroup skipStatement

variable {bound : Nat}

/-! ## Skipped parts -/

def attributeGroup : Traced (Option Unit) := do
  if ← step (checkPunct '[') then
    iteration .attributes (skipGroup '[' ']')
    pure (some ())
  else pure none

theorem attributeGroup_traces : Traces 2 attributeGroup WebIdl.attributeGroup := by
  refine (Traces.stepLocal (checkPunct_local '[')).bind fun isGroup => ?_
  refine .ite (fun _ => ?_) fun _ => .pure none
  have hgroup : Traces 1 (skipGroup '[' ']') (TokenParser.skipGroup '[' ']') := .skipGroup '[' ']'
  have htakes := Local.takes (skipGroup_local '[' ']') (Nat.le_refl 1)
  exact (hgroup.iteration htakes (by decide)).bind fun _ => .pure (some ())

def skipAttributes : Traced Unit := do
  let _ ← many attributeGroup

theorem skipAttributes_traces : Traces 2 skipAttributes WebIdl.skipAttributes :=
  attributeGroup_traces.many.bind fun _ => .pure ()

def skipDefault : Traced Unit := do
  if ← step (checkPunct '[') then skipGroup '[' ']'
  else if ← step (checkPunct '{') then skipGroup '{' '}'
  else if ← step (acceptPunct '-') then
    let _ ← step expectIdent
  else if ← step atEnd then step (unexpected .defaultValue)
  else step skip

theorem skipDefault_traces : Traces bound skipDefault WebIdl.skipDefault := by
  refine (Traces.stepLocal (checkPunct_local '[')).bind fun isList => ?_
  refine .ite (fun _ => .skipGroup '[' ']') fun _ => ?_
  refine (Traces.stepLocal (checkPunct_local '{')).bind fun isRecord => ?_
  refine .ite (fun _ => .skipGroup '{' '}') fun _ => ?_
  refine (Traces.stepLocal (acceptPunct_local '-')).bind fun isMinus => ?_
  refine .ite (fun _ => ?_) fun _ => ?_
  · exact (Traces.stepLocal expectIdent_local).bind fun _ => .pure ()
  refine (Traces.stepLocal atEnd_local).bind fun ended => ?_
  exact .ite (fun _ => .failing nofun)
    fun _ => .stepLocal skip_local

/-! ## Types -/

def typeSuffix : Traced Bool := do
  let nullable ← step (acceptPunct '?')
  let _ ← many (stepIteration .arraySuffixes emptyBrackets)
  pure nullable

theorem emptyBrackets_advances : emptyBrackets.Advances := fun _ _ _ h => emptyBrackets_lt h

theorem typeSuffix_traces : Traces 1 typeSuffix WebIdl.typeSuffix := by
  have hitem : Traces 1 (stepIteration .arraySuffixes emptyBrackets) emptyBrackets :=
    .stepIteration (Local.forward emptyBrackets_local) emptyBrackets_advances (by decide)
  refine (Traces.stepLocal (acceptPunct_local '?')).bind fun nullable => ?_
  exact hitem.many.bind fun _ => .pure nullable

def typeParameters (typeExpr : Traced TypeExpr) : Traced (TypeExpr × List TypeExpr) := do
  step (expectPunct '<')
  -- the loop starts behind the first comma
  let types ← separated typeExpr (iteration .typeParameters typeExpr)
  step (expectPunct '>')
  pure types

def optionalParameters (typeExpr : Traced TypeExpr) : Traced (List TypeExpr) := do
  if ← step (checkPunct '<') then
    let (first, others) ← typeParameters typeExpr
    pure (first :: others)
  else pure []

def typeBehind (typeExpr : Traced TypeExpr) (unsigned unrestricted : Bool) (name : String) :
    Traced TypeExpr := do
  match BasicType.ofName? name with
  | some base =>
    let base ← step (acceptLong base)
    let nullable ← typeSuffix
    pure (.basic base ⟨unsigned, unrestricted, nullable⟩)
  | none =>
    if name = "sequence" || name = "FrozenArray" then
      let (first, others) ← typeParameters typeExpr
      let nullable ← typeSuffix
      pure (.sequence first others ⟨unsigned, unrestricted, nullable⟩)
    else
      let parameters ← optionalParameters typeExpr
      let nullable ← typeSuffix
      pure (.named name parameters ⟨unsigned, unrestricted, nullable⟩)

def typeBody (typeExpr : Traced TypeExpr) : Traced TypeExpr := do
  skipAttributes
  if ← step (checkPunct '(') then
    skipGroup '(' ')'
    let nullable ← typeSuffix
    pure (.basic .any ⟨false, false, nullable⟩)
  else
    let unsigned ← step (acceptIdent "unsigned")
    let unrestricted ← step (acceptIdent "unrestricted")
    let name ← step expectIdent
    typeBehind typeExpr unsigned unrestricted name

def typeExpr : Traced TypeExpr := recursive .types (.unexpectedEof .identifier) typeBody

section

variable {x : Traced TypeExpr} {p : TokenParser TypeExpr}

theorem typeParameters_traces (h : Traces 3 x p) (htakes : p.Takes) :
    Traces bound (typeParameters x) (WebIdl.typeParameters p) := by
  have hitem : Traces 4 (iteration .typeParameters x) p := h.iteration htakes (by decide)
  refine .stepTaking (m := 4) (expectPunct_local '<') (Nat.le_refl 1) fun _ => ?_
  refine ((h.mono (by omega)).separated hitem).bind fun types => ?_
  exact (Traces.stepLocal (expectPunct_local '>')).bind fun _ => .pure types

theorem optionalParameters_traces (h : Traces 3 x p) (htakes : p.Takes) :
    Traces bound (optionalParameters x) (WebIdl.optionalParameters p) := by
  refine (Traces.stepLocal (checkPunct_local '<')).bind fun isOpening => ?_
  refine .ite (fun _ => ?_) fun _ => .pure []
  exact (typeParameters_traces h htakes).bind fun types => .pure (types.1 :: types.2)

theorem typeBehind_traces (h : Traces 3 x p) (htakes : p.Takes) (unsigned unrestricted : Bool)
    (name : String) : Traces 1 (typeBehind x unsigned unrestricted name)
      (WebIdl.typeBehind p unsigned unrestricted name) := by
  have hsuffix : ∀ f : Bool → TypeExpr, Traces 1 (typeSuffix >>= fun nullable => pure (f nullable))
      (WebIdl.typeSuffix >>= fun nullable => pure (f nullable)) :=
    fun f => typeSuffix_traces.bind fun nullable => .pure (f nullable)
  unfold typeBehind WebIdl.typeBehind
  cases BasicType.ofName? name with
  | some base => exact (Traces.stepLocal (acceptLong_local base)).bind fun base => hsuffix _
  | none =>
    refine .ite (fun _ => ?_) fun _ => ?_
    · exact (typeParameters_traces h htakes).bind fun types => hsuffix _
    · exact (optionalParameters_traces h htakes).bind fun parameters => hsuffix _

theorem typeBody_traces (h : Traces 3 x p) (htakes : p.Takes) :
    Traces 2 (typeBody x) (WebIdl.typeBody p) := by
  refine skipAttributes_traces.bind fun _ => ?_
  refine (Traces.stepLocal (checkPunct_local '(')).bind fun isUnion => ?_
  refine .ite (fun _ => ?_) fun _ => ?_
  · refine (Traces.skipGroup '(' ')').bind fun _ => ?_
    exact (typeSuffix_traces.mono (by omega)).bind fun nullable => .pure _
  refine (Traces.stepLocal (acceptIdent_local "unsigned")).bind fun unsigned => ?_
  refine (Traces.stepLocal (acceptIdent_local "unrestricted")).bind
    fun unrestricted => ?_
  refine (Traces.stepLocal expectIdent_local).bind fun name => ?_
  exact (typeBehind_traces h htakes unsigned unrestricted name).mono (by omega)

end

theorem typeExpr_takes : WebIdl.typeExpr.Takes := Local.takes typeExpr_local (Nat.le_refl 1)

theorem typeExpr_traces : Traces 3 typeExpr WebIdl.typeExpr :=
  .recursive typeExpr_takes typeBody_traces (by decide)

/-! ## Members -/

def optionalDefault : Traced Unit := do
  if ← step (acceptPunct '=') then skipDefault

theorem optionalDefault_traces : Traces bound optionalDefault WebIdl.optionalDefault := by
  refine (Traces.stepLocal (acceptPunct_local '=')).bind fun isEquals => ?_
  exact .ite (fun _ => skipDefault_traces) fun _ => .pure ()

def argument : Traced Argument := do
  skipAttributes
  let isOptional ← step (acceptIdent "optional")
  let type ← typeExpr
  let isVariadic ← step acceptEllipsis
  let name ← step expectIdent
  optionalDefault
  pure ⟨if isVariadic then .variadic else if isOptional then .optional else .required, type, name⟩

theorem argument_traces : Traces 3 argument WebIdl.argument := by
  refine (skipAttributes_traces.mono (by omega)).bind fun _ => ?_
  refine (Traces.stepLocal (acceptIdent_local "optional")).bind fun isOptional => ?_
  refine typeExpr_traces.bind fun type => ?_
  refine (Traces.stepLocal acceptEllipsis_local).bind fun isVariadic => ?_
  refine (Traces.stepLocal expectIdent_local).bind fun name => ?_
  exact optionalDefault_traces.bind fun _ => .pure _

def argumentList : Traced (List Argument) := do
  if ← step (checkPunct ')') then pure []
  else
    -- here the first argument belongs to the loop
    let (first, others) ← separated (iteration .arguments argument) (iteration .arguments argument)
    pure (first :: others)

def arguments : Traced (List Argument) := do
  step (expectPunct '(')
  let list ← argumentList
  step (expectPunct ')')
  pure list

theorem argument_takes : WebIdl.argument.Takes := Local.takes argument_local (Nat.le_refl 1)

theorem arguments_traces : Traces bound arguments WebIdl.arguments := by
  have hitem : Traces 4 (iteration .arguments argument) WebIdl.argument :=
    argument_traces.iteration argument_takes (by decide)
  have hlist : Traces 4 argumentList WebIdl.argumentList := by
    refine (Traces.stepLocal (checkPunct_local ')')).bind fun isClosing => ?_
    refine .ite (fun _ => .pure []) fun _ => ?_
    exact (hitem.separated hitem).bind fun list => .pure _
  refine .stepTaking (m := 4) (expectPunct_local '(') (Nat.le_refl 1) fun _ => ?_
  refine hlist.bind fun list => ?_
  exact (Traces.stepLocal (expectPunct_local ')')).bind fun _ => .pure list

def attributeBody (modifiers : List Modifier) : Traced Member := do
  let type ← typeExpr
  let name ← step expectIdent
  step (expectPunct ';')
  pure (.attribute modifiers type name)

theorem attributeBody_traces (modifiers : List Modifier) :
    Traces 3 (attributeBody modifiers) (WebIdl.attributeBody modifiers) := by
  refine typeExpr_traces.bind fun type => ?_
  refine (Traces.stepLocal expectIdent_local).bind fun name => ?_
  exact (Traces.stepLocal (expectPunct_local ';')).bind fun _ => .pure _

def operationBody (modifiers : List Modifier) : Traced Member := do
  let type ← typeExpr
  let name? ← step acceptName
  let list ← arguments
  step (expectPunct ';')
  pure (.operation modifiers type name? list)

theorem operationBody_traces (modifiers : List Modifier) :
    Traces 3 (operationBody modifiers) (WebIdl.operationBody modifiers) := by
  refine typeExpr_traces.bind fun type => ?_
  refine (Traces.stepLocal acceptName_local).bind fun name? => ?_
  refine arguments_traces.bind fun list => ?_
  exact (Traces.stepLocal (expectPunct_local ';')).bind fun _ => .pure _

def modifiedMember : Traced (Option Member) := do
  let modifiers ← many (stepIteration .modifiers acceptModifier)
  if ← step (checkAnyIdent skippedMembers) then
    skipStatement
    pure none
  else if ← step (acceptIdent "attribute") then some <$> attributeBody modifiers
  else some <$> operationBody modifiers

theorem skip_none_traces {α : Type} : Traces 1 (skipStatement >>= fun _ => pure none)
    (TokenParser.skipStatement >>= fun _ => pure (none : Option α)) :=
  Traces.skipStatement.bind fun _ => .pure none

theorem acceptModifier_advances : acceptModifier.Advances := acceptModifier_accepts.advances

theorem modifiedMember_traces : Traces 3 modifiedMember WebIdl.modifiedMember := by
  have hitem : Traces 3 (stepIteration .modifiers acceptModifier) acceptModifier :=
    .stepIteration (Local.forward acceptModifier_local) acceptModifier_advances (by decide)
  refine hitem.many.bind fun modifiers => ?_
  refine (Traces.stepLocal (checkAnyIdent_local skippedMembers)).bind fun isSkipped => ?_
  refine .ite (fun _ => skip_none_traces.mono (by omega)) fun _ => ?_
  refine (Traces.stepLocal (acceptIdent_local "attribute")).bind fun isAttribute => ?_
  refine .ite (fun _ => ?_) fun _ => ?_
  · exact (attributeBody_traces modifiers).map some
  · exact (operationBody_traces modifiers).map some

def interfaceMember : Traced (Option Member) := do
  if ← step (checkAnyIdent skippedMembers) then
    skipStatement
    pure none
  else if (← step (checkIdent "stringifier")) && (← step (checkSecondPunct ';')) then
    step skip
    step skip
    pure (some .stringifier)
  else modifiedMember

theorem interfaceMember_traces : Traces 3 interfaceMember WebIdl.interfaceMember := by
  refine (Traces.stepLocal (checkAnyIdent_local skippedMembers)).bind fun isSkipped => ?_
  refine .ite (fun _ => skip_none_traces.mono (by omega)) fun _ => ?_
  refine (Traces.stepLocal (checkIdent_local "stringifier")).bind fun isBare => ?_
  refine (Traces.look _).bind fun isEnd => ?_
  refine .ite (fun _ => ?_) fun _ => modifiedMember_traces
  refine (Traces.stepLocal skip_local).bind fun _ => ?_
  exact (Traces.stepLocal skip_local).bind fun _ => .pure _

def dictionaryMember : Traced (Option Member) := do
  let _ ← step (acceptIdent "required")
  let type ← typeExpr
  let name ← step expectIdent
  optionalDefault
  step (expectPunct ';')
  pure (some (.attribute [] type name))

theorem dictionaryMember_traces : Traces 3 dictionaryMember WebIdl.dictionaryMember := by
  refine (Traces.stepLocal (acceptIdent_local "required")).bind fun isRequired => ?_
  refine typeExpr_traces.bind fun type => ?_
  refine (Traces.stepLocal expectIdent_local).bind fun name => ?_
  refine optionalDefault_traces.bind fun _ => ?_
  exact (Traces.stepLocal (expectPunct_local ';')).bind fun _ => .pure _

def member : DefinitionKind → Traced (Option Member)
  | .interface => interfaceMember
  | .dictionary => dictionaryMember

def blockItem (kind : DefinitionKind) : Traced (Option (Option Member)) := do
  skipAttributes
  if ← step (acceptPunct '}') then pure none
  else if ← step atEnd then step (unexpected (.punct '}'))
  else
    let next ← member kind
    pure (some next)

theorem blockItem_traces (kind : DefinitionKind) :
    Traces 3 (blockItem kind) (WebIdl.blockItem kind) := by
  have hmember : Traces 3 (member kind) (WebIdl.member kind) := by
    cases kind with
    | interface => exact interfaceMember_traces
    | dictionary => exact dictionaryMember_traces
  refine (skipAttributes_traces.mono (by omega)).bind fun _ => ?_
  refine (Traces.stepLocal (acceptPunct_local '}')).bind fun isEnd => ?_
  refine .ite (fun _ => .pure none) fun _ => ?_
  refine (Traces.stepLocal atEnd_local).bind fun ended => ?_
  refine .ite (fun _ => .failing nofun) fun _ => ?_
  exact hmember.bind fun next => .pure (some next)

def memberBlock (kind : DefinitionKind) : Traced (List Member) := do
  step (expectPunct '{')
  let members ← many (iteration .members (blockItem kind))
  step (expectPunct ';')
  pure (members.filterMap id)

theorem blockItem_takes (kind : DefinitionKind) : (WebIdl.blockItem kind).Takes :=
  Local.takes (blockItem_local kind) (Nat.le_refl 1)

theorem memberBlock_traces (kind : DefinitionKind) :
    Traces bound (memberBlock kind) (WebIdl.memberBlock kind) := by
  have hitem : Traces 4 (iteration .members (blockItem kind)) (WebIdl.blockItem kind) :=
    (blockItem_traces kind).iteration (blockItem_takes kind) (by decide)
  refine .stepTaking (m := 4) (expectPunct_local '{') (Nat.le_refl 1) fun _ => ?_
  refine hitem.many.bind fun members => ?_
  exact (Traces.stepLocal (expectPunct_local ';')).bind fun _ => .pure _

/-! ## Definitions -/

def inheritance : Traced (Option String) := do
  if ← step (acceptPunct ':') then some <$> step expectIdent else pure none

def definitionBody (kind : DefinitionKind) (isPartial : Bool) : Traced Definition := do
  let name ← step expectIdent
  let parent? ← inheritance
  let block ← memberBlock kind
  pure ⟨kind, name, parent?, [block], isPartial⟩

theorem definitionBody_traces (kind : DefinitionKind) (isPartial : Bool) :
    Traces bound (definitionBody kind isPartial) (WebIdl.definitionBody kind isPartial) := by
  have hparent : Traces bound inheritance WebIdl.inheritance := by
    refine (Traces.stepLocal (acceptPunct_local ':')).bind fun isColon => ?_
    exact .ite (fun _ => (Traces.stepLocal expectIdent_local).map some)
      fun _ => .pure none
  refine (Traces.stepLocal expectIdent_local).bind fun name => ?_
  refine hparent.bind fun parent? => ?_
  exact (memberBlock_traces kind).bind fun block => .pure _

def declaration : Traced (Option Definition) := do
  let isPartial ← step (acceptIdent "partial")
  if ← step (acceptIdent "callback") then
    if ← step (acceptIdent "interface") then some <$> definitionBody .interface isPartial
    else
      skipStatement
      pure none
  else if ← step (acceptIdent "interface") then
    let _ ← step (acceptIdent "mixin")
    some <$> definitionBody .interface isPartial
  else if ← step (acceptIdent "dictionary") then some <$> definitionBody .dictionary isPartial
  else if isPartial && !(← step (checkIdent "namespace")) then step (unexpected .partialDefinition)
  else
    skipStatement
    pure none

theorem declaration_traces : Traces 1 declaration WebIdl.declaration := by
  have hbody : ∀ (kind : DefinitionKind) (isPartial : Bool),
      Traces 1 (some <$> definitionBody kind isPartial)
        (some <$> WebIdl.definitionBody kind isPartial) :=
    fun kind isPartial => (definitionBody_traces kind isPartial).map some
  have haccept : ∀ name, Traces 1 (step (acceptIdent name)) (acceptIdent name) :=
    fun name => .stepLocal (acceptIdent_local name)
  refine (haccept "partial").bind fun isPartial => ?_
  refine (haccept "callback").bind fun isCallback => ?_
  refine .ite (fun _ => ?_) fun _ => ?_
  · refine (haccept "interface").bind fun isInterface => ?_
    exact .ite (fun _ => hbody .interface isPartial) fun _ => skip_none_traces
  refine (haccept "interface").bind fun isInterface => ?_
  refine .ite (fun _ => ?_) fun _ => ?_
  · exact (haccept "mixin").bind fun isMixin => hbody .interface isPartial
  refine (haccept "dictionary").bind fun isDictionary => ?_
  refine .ite (fun _ => hbody .dictionary isPartial) fun _ => ?_
  refine (Traces.stepLocal (checkIdent_local "namespace")).bind fun isNamespace => ?_
  exact .ite (fun _ => .failing nofun)
    fun _ => skip_none_traces

def statement : Traced (Option (Option Definition)) := do
  skipAttributes
  if ← step atEnd then pure none else some <$> declaration

theorem statement_traces : Traces 2 statement WebIdl.statement := by
  refine skipAttributes_traces.bind fun _ => ?_
  refine (Traces.stepLocal atEnd_local).bind fun ended => ?_
  exact .ite (fun _ => .pure none) fun _ => (declaration_traces.mono (by omega)).map some

end IdlBind.WebIdl.Trace
