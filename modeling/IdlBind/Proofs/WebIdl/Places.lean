import IdlBind.Proofs.WebIdl.Statements

set_option autoImplicit false

/-! # Places in front of constructs

Where statements, members, arguments and types start among the tokens of a source. What is read from
such a place on is all that the definitions of the source depend on there (`Place.replace`), so that
an insertion that keeps it keeps the definitions. -/

namespace IdlBind.WebIdl

open TokenParser

/-! ## Constructs -/

/-- What extended attributes may stand in front of. -/
inductive Construct where
  | statement
  | member (kind : DefinitionKind)
  | argument
  | type

/-- Reads members up to the closing brace, which is taken. -/
def memberItems (kind : DefinitionKind) : TokenParser (List Member) :=
  List.filterMap id <$> Parser.many (blockItem kind)

/-- The result of reading from a place on. -/
abbrev Construct.Result : Construct → Type
  | .statement => List Definition × Except ParseError Unit
  | .member _ => Except ParseError (List Member × List Token)
  | .argument => Except ParseError (Argument × List Token)
  | .type => Except ParseError (TypeExpr × List Token)

/-- What is read from a place on: all statements, all members of the block, one argument or one
    type. Each of the readers skips extended attributes first. -/
def Construct.read : (c : Construct) → List Token → c.Result
  | .statement => definitions
  | .member kind => memberItems kind
  | .argument => WebIdl.argument
  | .type => typeExpr

/-! ## What stands in front of what -/

/-- What stands behind the keywords of a definition. -/
inductive BehindKeywords : DefinitionKind → List Token → List Token → Prop
  | callback (p p' : Position) (us : List Token) :
    BehindKeywords .interface (⟨.ident "callback", p⟩ :: ⟨.ident "interface", p'⟩ :: us) us
  | interface (p : Position) {ts us : List Token} {isMixin : Bool}
    (hmixin : acceptIdent "mixin" ts = .ok (isMixin, us)) :
    BehindKeywords .interface (⟨.ident "interface", p⟩ :: ts) us
  | dictionary (p : Position) (us : List Token) :
    BehindKeywords .dictionary (⟨.ident "dictionary", p⟩ :: us) us

/-- Does a type start with this token, or a group in front of one, and is it none of these words? -/
def startsTypeBut (words : List String) : TokenKind → Bool
  | .ident name => !words.contains name
  | kind => kind == .punct '[' || kind == .punct '('

/-- Does a type start here, or a group in front of one, and not with one of these words? -/
def mayStartType (words : List String) (ts : List Token) : Bool :=
  ts.head?.any (startsTypeBut words ·.kind)

/-- The words with which a member starts that does not start with a type. -/
def memberWords : List String :=
  "attribute" :: skippedMembers ++ Modifier.all.map Modifier.keyword

/-- An operation in front of `ts` whose type starts in front of `us`, behind its modifiers. -/
structure StartsOperation (modifiers : List Modifier) (ts us : List Token) : Prop where
  plain : Avoids (.punct '[') ts
  modifiers : Parser.many acceptModifier ts = .ok (modifiers, us)
  type : mayStartType memberWords us = true

/-- Where an item starts among items with commas between them. -/
inductive ItemStart {α : Type} (item : TokenParser α) : List Token → List Token → Prop
  | first (ts : List Token) : ItemStart item ts ts
  | next {ts mid us : List Token} {a : α} {p : Position}
    (hitem : item ts = .ok (a, ⟨.punct ',', p⟩ :: mid)) (hmore : ItemStart item mid us) :
    ItemStart item ts us

/-- From a construct that starts in front of `ts` the readers come to one that starts in front of
    `us`: to the same one behind extended attributes, to the next statement or member, or to one
    that is part of it. The types of a union and whatever is skipped are no constructs. -/
inductive Leads : Construct → List Token → Construct → List Token → Prop
  | attributes {c : Construct} {ts us : List Token} (h : attributeGroup ts = .ok (some (), us)) :
    Leads c ts c us
  | nextStatement {ts us : List Token} {d? : Option Definition}
    (h : statement ts = .ok (some d?, us)) : Leads .statement ts .statement us
  | firstMember {kind : DefinitionKind} {ts mid behind us : List Token} {name : String}
    {parent? : Option String} {isPartial : Bool} {p p' : Position}
    (hpartial : acceptIdent "partial" ts = .ok (isPartial, mid))
    (hkeywords : BehindKeywords kind mid (⟨.ident name, p⟩ :: behind))
    (hparent : inheritance behind = .ok (parent?, ⟨.punct '{', p'⟩ :: us)) :
    Leads .statement ts (.member kind) us
  | nextMember {kind : DefinitionKind} {ts us : List Token} {m? : Option Member}
    (h : blockItem kind ts = .ok (some m?, us)) : Leads (.member kind) ts (.member kind) us
  | attributeType {ts us : List Token} {modifiers : List Modifier} {p : Position}
    (h : Parser.many acceptModifier ts = .ok (modifiers, ⟨.ident "attribute", p⟩ :: us)) :
    Leads (.member .interface) ts .type us
  | returnType {ts us : List Token} {modifiers : List Modifier}
    (h : StartsOperation modifiers ts us) : Leads (.member .interface) ts .type us
  | argument {ts mid behind list us : List Token} {modifiers : List Modifier} {type : TypeExpr}
    {name? : Option String} {p : Position} (h : StartsOperation modifiers ts mid)
    (htype : typeExpr mid = .ok (type, behind))
    (hname : acceptName behind = .ok (name?, ⟨.punct '(', p⟩ :: list))
    (hlist : Avoids (.punct ')') list) (hitem : ItemStart WebIdl.argument list us) :
    Leads (.member .interface) ts .argument us
  | fieldType {ts us : List Token} {isRequired : Bool} (hplain : Avoids (.punct '[') ts)
    (h : acceptIdent "required" ts = .ok (isRequired, us)) (htype : mayStartType [] us = true) :
    Leads (.member .dictionary) ts .type us
  | argumentType {ts us : List Token} {isOptional : Bool} (hplain : Avoids (.punct '[') ts)
    (h : acceptIdent "optional" ts = .ok (isOptional, us)) : Leads .argument ts .type us
  | parameter {ts mid list us : List Token} {unsigned unrestricted : Bool} {name : String}
    {p p' : Position} (hunsigned : acceptIdent "unsigned" ts = .ok (unsigned, mid))
    (hunrestricted : acceptIdent "unrestricted" mid
      = .ok (unrestricted, ⟨.ident name, p⟩ :: ⟨.punct '<', p'⟩ :: list))
    (hname : BasicType.ofName? name = none) (hitem : ItemStart typeExpr list us) :
    Leads .type ts .type us

/-- A construct of a source starts in front of the tokens. -/
inductive Place (tokens : List Token) : Construct → List Token → Prop
  | start : Place tokens .statement tokens
  | inside {c c' : Construct} {ts us : List Token} (h : Place tokens c ts)
    (hleads : Leads c ts c' us) : Place tokens c' us

end IdlBind.WebIdl
