import IdlBind.Proofs.Binding.Shape
import IdlBind.Proofs.Parsing.Grammar
import IdlBind.Proofs.Token.Seam

set_option autoImplicit false

/-! # The grammar of binding descriptions

The grammar derives trees from kinds of tokens, and the trees that are read from a description are
the only ones that it derives (`parse_accepts_grammar`, `IsDescription.unique`). What follows a
statement matters only where its semicolon is optional. No statement starts with a semicolon, so
that one that is there belongs to the statement in front of it. -/

namespace IdlBind.Binding

open TokenParser

/-! ## The grammar -/

/-- An entry of a binding block. -/
inductive IsEntry : List TokenKind → Node → Prop
  | type (name : String) :
      IsEntry [.ident "type", .ident name, .punct ';'] (.text .bindingType name)
  | interface (name : String) :
      IsEntry [.ident "interface", .ident name, .punct ';'] (.text .bindingInterface name)
  | privateField (ctype name : String) :
      IsEntry [.ident "private", .string ctype, .ident name, .punct ';']
        (.list .bindingPrivate [.text .string ctype, .text .ident name])

/-- A line of a header comment. -/
inductive IsLine : List TokenKind → Node → Prop
  | string (text : String) : IsLine [.string text] (.text .string text)

/-- A semicolon that may be left out. -/
inductive IsClosing : List TokenKind → Prop
  | absent : IsClosing []
  | present : IsClosing [.punct ';']

/-- A statement. A header comment has at least one line. -/
inductive IsStatement : List TokenKind → Node → Prop
  | webIdlFile (reference : String) :
      IsStatement [.ident "webidlfile", .string reference, .punct ';'] (.text .webIdlFile reference)
  | headerComment {lines : List TokenKind} {trees : List Node} : IsSequence IsLine lines trees →
      trees ≠ [] →
      IsStatement (.ident "hdrcomment" :: (lines ++ [.punct ';'])) (.list .headerComment trees)
  | preamble (code : String) {closing : List TokenKind} : IsClosing closing →
      IsStatement (.ident "preamble" :: .codeBlock code :: closing) (.text .preamble code)
  | block (name : String) {entries closing : List TokenKind} {trees : List Node} :
      IsSequence IsEntry entries trees → IsClosing closing →
      IsStatement
        (.ident "binding" :: .ident name :: .punct '{' :: (entries ++ .punct '}' :: closing))
        (.list .binding (.text .ident name :: trees))

/-- A whole description: statements, of which one at most is a binding block, and the end of the
    file. -/
def IsDescription (kinds : List TokenKind) (trees : List Node) : Prop :=
  ∃ statements, kinds = statements ++ [.eof] ∧ IsSequence IsStatement statements trees ∧
    trees.countP (·.kind = .binding) ≤ 1

/-! ## Steps -/

theorem expectCode_eq_ok_iff {ts rest : List Token} {code : String} :
    expectCode ts = .ok (code, rest) ↔ ∃ p, ts = ⟨.codeBlock code, p⟩ :: rest := by
  unfold expectCode
  split
  · simp
  · simp_all

theorem expectKeywordAt_eq_ok_iff {ts rest : List Token} {keyword : String} {p : Position} :
    expectKeywordAt ts = .ok ((keyword, p), rest) ↔ ts = ⟨.ident keyword, p⟩ :: rest := by
  unfold expectKeywordAt
  split
  · simp [and_assoc]
  · simp_all

/-- What is read in front of a semicolon is not changed by it. -/
theorem semicolon_eq_ok_iff {α : Type} {a b : α} {ts rest : List Token} :
    (do expectPunct ';'; pure a : TokenParser α) ts = .ok (b, rest) ↔
      a = b ∧ ∃ p, ts = ⟨.punct ';', p⟩ :: rest := by
  rw [Parser.bind_eq_ok_iff]
  constructor
  · rintro ⟨_, mid, hsemicolon, h⟩
    obtain ⟨rfl, rfl⟩ := Prod.mk.inj (Except.ok.inj h)
    exact ⟨rfl, expectPunct_eq_ok_iff.1 hsemicolon⟩
  · rintro ⟨rfl, hts⟩
    exact ⟨(), rest, expectPunct_eq_ok_iff.2 hts, rfl⟩

theorem acceptString_eq_ok_some_iff {ts rest : List Token} {text : String} :
    acceptString ts = .ok (some text, rest) ↔ ∃ p, ts = ⟨.string text, p⟩ :: rest := by
  unfold acceptString
  split
  · simp
  · simp_all

theorem acceptString_none {ts rest : List Token} (h : acceptString ts = .ok (none, rest)) :
    rest = ts := by
  unfold acceptString at h
  split at h
  · exact absurd h (by simp)
  · exact (Prod.mk.inj (Except.ok.inj h)).2.symm

/-- An optional semicolon is taken if it is there. -/
theorem acceptPunct_closing {closing rest : List Token}
    (h : IsClosing (closing.map (·.kind))) (hrest : Avoids (.punct ';') rest) :
    ∃ found, acceptPunct ';' (closing ++ rest) = .ok (found, rest) := by
  generalize hkinds : closing.map (·.kind) = kinds at h
  cases h with
  | absent =>
    obtain rfl := List.map_eq_nil_iff.1 hkinds
    exact ⟨false, acceptPunct_of_avoids hrest⟩
  | present =>
    obtain ⟨p, rfl⟩ := map_kind_eq_singleton hkinds
    exact ⟨true, acceptPunct_self ';' p⟩

theorem exists_closing {ts rest : List Token} {found : Bool}
    (h : acceptPunct ';' ts = .ok (found, rest)) :
    ∃ closing, ts = closing ++ rest ∧ IsClosing (closing.map (·.kind)) := by
  rcases acceptPunct_eq_ok_iff.1 h with ⟨-, p, rfl⟩ | ⟨-, rfl, -⟩
  · exact ⟨[_], rfl, .present⟩
  · exact ⟨[], rfl, .absent⟩

/-! ## Readers -/

theorem recognizes_line :
    Recognizes IsLine (fun _ => True) (Node.text .string) acceptString where
  ne_nil h := by
    cases h
    exact List.cons_ne_nil _ _
  ends _ := trivial
  sound h := by
    obtain ⟨p, rfl⟩ := acceptString_eq_ok_some_iff.1 h
    exact ⟨[_], rfl, .string _⟩
  complete {front b rest} h _ := by
    generalize hkinds : front.map (·.kind) = kinds at h
    cases h with
    | string text =>
      obtain ⟨p, rfl⟩ := map_kind_eq_singleton hkinds
      exact ⟨text, rfl, rfl⟩

theorem named_cases {make : String → Entry} {ts rest : List Token} {e : Entry}
    (h : (do let e ← make <$> expectIdent; expectPunct ';'; pure e : TokenParser Entry) ts
      = .ok (e, rest)) :
    ∃ name p q, e = make name ∧ ts = ⟨.ident name, p⟩ :: ⟨.punct ';', q⟩ :: rest := by
  obtain ⟨e', behind, hread, h⟩ := Parser.bind_eq_ok_iff.1 h
  obtain ⟨rfl, q, rfl⟩ := semicolon_eq_ok_iff.1 h
  obtain ⟨name, rfl, hname⟩ := Parser.map_eq_ok_iff.1 hread
  obtain ⟨p, rfl⟩ := expectIdent_eq_ok_iff.1 hname
  exact ⟨name, p, q, rfl, rfl⟩

theorem entryBody_sound {keyword : String} {p : Position} {ts rest : List Token} {e : Entry}
    (h : entryBody keyword p ts = .ok (e, rest)) :
    ∃ front, ts = front ++ rest ∧ IsEntry (.ident keyword :: front.map (·.kind)) e.toNode := by
  unfold entryBody at h
  split at h
  · obtain ⟨name, q, r, rfl, rfl⟩ := named_cases h
    exact ⟨[_, _], rfl, .type name⟩
  · obtain ⟨name, q, r, rfl, rfl⟩ := named_cases h
    exact ⟨[_, _], rfl, .interface name⟩
  · obtain ⟨ctype, mid, hctype, h⟩ := Parser.bind_eq_ok_iff.1 h
    obtain ⟨name, mid', hname, h⟩ := Parser.bind_eq_ok_iff.1 h
    obtain ⟨rfl, q, rfl⟩ := semicolon_eq_ok_iff.1 h
    obtain ⟨r, rfl⟩ := expectString_eq_ok_iff.1 hctype
    obtain ⟨r', rfl⟩ := expectIdent_eq_ok_iff.1 hname
    exact ⟨[_, _, _], rfl, .privateField ctype name⟩
  · exact absurd h (by simp [failWith, Parser.bind_apply])

theorem entryBody_complete {front : List Token} {keyword : String} {tree : Node}
    (h : IsEntry (.ident keyword :: front.map (·.kind)) tree) (p : Position) (rest : List Token) :
    ∃ e, Entry.toNode e = tree ∧ entryBody keyword p (front ++ rest) = .ok (e, rest) := by
  generalize hkinds : TokenKind.ident keyword :: front.map (·.kind) = kinds at h
  cases h with
  | type name =>
    obtain ⟨⟨⟩, hfront⟩ := List.cons.inj hkinds
    obtain ⟨q, more, rfl, hmore⟩ := map_kind_eq_cons hfront
    obtain ⟨r, rfl⟩ := map_kind_eq_singleton hmore
    exact ⟨.type name, rfl, rfl⟩
  | interface name =>
    obtain ⟨⟨⟩, hfront⟩ := List.cons.inj hkinds
    obtain ⟨q, more, rfl, hmore⟩ := map_kind_eq_cons hfront
    obtain ⟨r, rfl⟩ := map_kind_eq_singleton hmore
    exact ⟨.interface name, rfl, rfl⟩
  | privateField ctype name =>
    obtain ⟨⟨⟩, hfront⟩ := List.cons.inj hkinds
    obtain ⟨q, more, rfl, hmore⟩ := map_kind_eq_cons hfront
    obtain ⟨r, last, rfl, hlast⟩ := map_kind_eq_cons hmore
    obtain ⟨s, rfl⟩ := map_kind_eq_singleton hlast
    exact ⟨.privateField ctype name, rfl, rfl⟩

theorem IsEntry.exists_keyword {kinds : List TokenKind} {tree : Node} (h : IsEntry kinds tree) :
    ∃ keyword more, kinds = .ident keyword :: more := by
  cases h with
  | type => exact ⟨_, _, rfl⟩
  | interface => exact ⟨_, _, rfl⟩
  | privateField => exact ⟨_, _, rfl⟩

/-- What the reader of entries can do: end the block, or read a keyword and what is behind it. -/
theorem entry_cases {ts rest : List Token} {e? : Option Entry} (h : entry ts = .ok (e?, rest)) :
    (e? = none ∧ ∃ p, ts = ⟨.punct '}', p⟩ :: rest) ∨
      ∃ e keyword p behind, e? = some e ∧ ts = ⟨.ident keyword, p⟩ :: behind ∧
        entryBody keyword p behind = .ok (e, rest) := by
  unfold entry at h
  obtain ⟨closed, mid, hclosed, hopen⟩ := Parser.bind_eq_ok_iff.1 h
  rcases acceptPunct_eq_ok_iff.1 hclosed with ⟨rfl, hts⟩ | ⟨rfl, rfl, -⟩
  · obtain ⟨rfl, rfl⟩ : none = e? ∧ mid = rest := by simpa using hopen
    exact .inl ⟨rfl, hts⟩
  · rw [if_neg (by simp)] at hopen
    obtain ⟨⟨keyword, p⟩, behind, hkeyword, hread⟩ := Parser.bind_eq_ok_iff.1 hopen
    obtain ⟨e, last, hbody, hsome⟩ := Parser.bind_eq_ok_iff.1 hread
    obtain ⟨rfl, rfl⟩ : some e = e? ∧ last = rest := by simpa using hsome
    exact .inr ⟨e, keyword, p, behind, rfl, expectKeywordAt_eq_ok_iff.1 hkeyword, hbody⟩

theorem entry_of_body {keyword : String} {p : Position} {behind rest : List Token} {e : Entry}
    (h : entryBody keyword p behind = .ok (e, rest)) :
    entry (⟨.ident keyword, p⟩ :: behind) = .ok (some e, rest) := by
  have hkeyword : expectKeywordAt (⟨.ident keyword, p⟩ :: behind) = .ok ((keyword, p), behind) :=
    rfl
  unfold entry
  rw [Parser.bind_apply_of_ok (acceptPunct_of_avoids (avoids_cons (by simp) _)), if_neg (by simp),
    Parser.bind_apply_of_ok hkeyword]
  dsimp only
  rw [Parser.bind_apply_of_ok h]
  rfl

theorem recognizes_entry : Recognizes IsEntry (fun _ => True) Entry.toNode entry where
  ne_nil h := by
    obtain ⟨keyword, more, rfl⟩ := h.exists_keyword
    exact List.cons_ne_nil _ _
  ends _ := trivial
  sound {ts e rest} h := by
    rcases entry_cases h with ⟨hnone, -⟩ | ⟨e', keyword, p, behind, he, rfl, hbody⟩
    · exact absurd hnone (by simp)
    · obtain rfl := Option.some.inj he
      obtain ⟨front, rfl, hfront⟩ := entryBody_sound hbody
      exact ⟨⟨.ident keyword, p⟩ :: front, rfl, hfront⟩
  complete {front tree rest} h _ := by
    obtain ⟨keyword, more, hkinds⟩ := h.exists_keyword
    obtain ⟨p, behind, rfl, -⟩ := map_kind_eq_cons hkinds
    obtain ⟨e, htree, hbody⟩ := entryBody_complete h p rest
    exact ⟨e, htree, entry_of_body hbody⟩

theorem block_sound {ts rest : List Token} {s : Statement} (h : block ts = .ok (s, rest)) :
    ∃ front, ts = front ++ rest ∧
      IsStatement (.ident "binding" :: front.map (·.kind)) s.toNode := by
  unfold block at h
  obtain ⟨name, afterName, hname, h⟩ := Parser.bind_eq_ok_iff.1 h
  obtain ⟨_, afterBrace, hbrace, h⟩ := Parser.bind_eq_ok_iff.1 h
  obtain ⟨entries, afterEntries, hentries, h⟩ := Parser.bind_eq_ok_iff.1 h
  obtain ⟨found, last, hsemicolon, h⟩ := Parser.bind_eq_ok_iff.1 h
  obtain ⟨rfl, rfl⟩ : Statement.block name entries = s ∧ last = rest := by simpa using h
  obtain ⟨p, rfl⟩ := expectIdent_eq_ok_iff.1 hname
  obtain ⟨q, rfl⟩ := expectPunct_eq_ok_iff.1 hbrace
  obtain ⟨front, stop, rfl, hstop, hfront⟩ := recognizes_entry.sound_many hentries
  rcases entry_cases hstop with ⟨-, r, rfl⟩ | ⟨e, keyword, r, behind, hsome, -, -⟩
  · obtain ⟨closing, rfl, hclosing⟩ := exists_closing hsemicolon
    refine ⟨⟨.ident name, p⟩ :: ⟨.punct '{', q⟩ :: (front ++ ⟨.punct '}', r⟩ :: closing), by simp,
      ?_⟩
    rw [List.map_cons, List.map_cons, List.map_append, List.map_cons]
    exact .block name hfront hclosing
  · exact absurd hsome (by simp)

theorem block_complete {front rest : List Token} {tree : Node}
    (h : IsStatement (.ident "binding" :: front.map (·.kind)) tree)
    (hrest : Avoids (.punct ';') rest) :
    ∃ s, Statement.toNode s = tree ∧ block (front ++ rest) = .ok (s, rest) := by
  generalize hkinds : TokenKind.ident "binding" :: front.map (·.kind) = kinds at h
  cases h with
  | block name hentries hclosing =>
    obtain ⟨p, behind, rfl, hbehind⟩ := map_kind_eq_cons (List.cons.inj hkinds).2
    obtain ⟨q, body, rfl, hbody⟩ := map_kind_eq_cons hbehind
    obtain ⟨entries, ending, rfl, rfl, hending⟩ := List.map_eq_append_iff.1 hbody
    obtain ⟨r, closing, rfl, rfl⟩ := map_kind_eq_cons hending
    have hstop : entry (⟨.punct '}', r⟩ :: (closing ++ rest)) = .ok (none, closing ++ rest) := rfl
    obtain ⟨es, rfl, hmany⟩ := recognizes_entry.complete_many hentries hstop trivial
    obtain ⟨found, hsemicolon⟩ := acceptPunct_closing hclosing hrest
    refine ⟨.block name es, rfl, ?_⟩
    have htokens : (⟨.ident name, p⟩ :: ⟨.punct '{', q⟩ :: (entries ++ ⟨.punct '}', r⟩ :: closing))
        ++ rest = ⟨.ident name, p⟩ :: ⟨.punct '{', q⟩ ::
          (entries ++ ⟨.punct '}', r⟩ :: (closing ++ rest)) := by simp
    unfold block
    rw [htokens, Parser.bind_apply_of_ok (expectIdent_ident name p),
      Parser.bind_apply_of_ok (expectPunct_self '{' q), Parser.bind_apply_of_ok hmany,
      Parser.bind_apply_of_ok hsemicolon]
    rfl
  | webIdlFile => exact absurd (List.cons.inj hkinds).1 (by simp)
  | headerComment => exact absurd (List.cons.inj hkinds).1 (by simp)
  | preamble => exact absurd (List.cons.inj hkinds).1 (by simp)

/-! ## Statements -/

theorem IsStatement.exists_keyword {kinds : List TokenKind} {tree : Node}
    (h : IsStatement kinds tree) : ∃ keyword more, kinds = .ident keyword :: more := by
  cases h with
  | webIdlFile => exact ⟨_, _, rfl⟩
  | headerComment => exact ⟨_, _, rfl⟩
  | preamble => exact ⟨_, _, rfl⟩
  | block => exact ⟨_, _, rfl⟩

/-- The keyword tells whether a statement is a binding block. -/
theorem IsStatement.keyword_eq_binding_iff {keyword : String} {more : List TokenKind} {tree : Node}
    (h : IsStatement (.ident keyword :: more) tree) :
    keyword = "binding" ↔ tree.kind = .binding := by
  cases h with
  | webIdlFile => simp
  | headerComment => simp
  | preamble => simp
  | block => simp

theorem statementBody_sound {keyword : String} {p : Position} {ts rest : List Token} {s : Statement}
    (h : statementBody keyword p ts = .ok (s, rest)) :
    ∃ front, ts = front ++ rest ∧ IsStatement (.ident keyword :: front.map (·.kind)) s.toNode := by
  unfold statementBody at h
  split at h
  · obtain ⟨reference, behind, hreference, h⟩ := Parser.bind_eq_ok_iff.1 h
    obtain ⟨rfl, q, rfl⟩ := semicolon_eq_ok_iff.1 h
    obtain ⟨r, rfl⟩ := expectString_eq_ok_iff.1 hreference
    exact ⟨[_, _], rfl, .webIdlFile reference⟩
  · obtain ⟨first, afterFirst, hfirst, h⟩ := Parser.bind_eq_ok_iff.1 h
    obtain ⟨others, afterOthers, hothers, h⟩ := Parser.bind_eq_ok_iff.1 h
    obtain ⟨rfl, q, rfl⟩ := semicolon_eq_ok_iff.1 h
    obtain ⟨r, rfl⟩ := expectString_eq_ok_iff.1 hfirst
    obtain ⟨lines, stop, rfl, hstop, hlines⟩ := recognizes_line.sound_many hothers
    obtain rfl := acceptString_none hstop
    refine ⟨⟨.string first, r⟩ :: (lines ++ [⟨.punct ';', q⟩]), by simp, ?_⟩
    have hall : IsSequence IsLine (.string first :: lines.map (·.kind))
        ((first :: others).map (Node.text .string)) := .cons (.string first) hlines
    have hstatement := IsStatement.headerComment hall (by simp)
    rw [List.map_cons, List.map_append]
    exact hstatement
  · obtain ⟨code, behind, hcode, h⟩ := Parser.bind_eq_ok_iff.1 h
    obtain ⟨found, last, hsemicolon, h⟩ := Parser.bind_eq_ok_iff.1 h
    obtain ⟨rfl, rfl⟩ : Statement.preamble code = s ∧ last = rest := by simpa using h
    obtain ⟨q, rfl⟩ := expectCode_eq_ok_iff.1 hcode
    obtain ⟨closing, rfl, hclosing⟩ := exists_closing hsemicolon
    exact ⟨⟨.codeBlock code, q⟩ :: closing, rfl, .preamble code hclosing⟩
  · exact absurd h (by simp [failWith])

theorem statementBody_complete {front rest : List Token} {keyword : String} {tree : Node}
    (h : IsStatement (.ident keyword :: front.map (·.kind)) tree) (hkeyword : keyword ≠ "binding")
    (hrest : Avoids (.punct ';') rest) (p : Position) :
    ∃ s, Statement.toNode s = tree ∧ statementBody keyword p (front ++ rest) = .ok (s, rest) := by
  generalize hkinds : TokenKind.ident keyword :: front.map (·.kind) = kinds at h
  cases h with
  | webIdlFile reference =>
    obtain ⟨⟨⟩, hfront⟩ := List.cons.inj hkinds
    obtain ⟨q, more, rfl, hmore⟩ := map_kind_eq_cons hfront
    obtain ⟨r, rfl⟩ := map_kind_eq_singleton hmore
    exact ⟨.webIdlFile reference, rfl, rfl⟩
  | headerComment hlines hne =>
    obtain ⟨⟨⟩, hfront⟩ := List.cons.inj hkinds
    cases hlines with
    | nil => exact absurd rfl hne
    | cons hfirst hothers =>
      obtain ⟨first⟩ := hfirst
      obtain ⟨q, more, rfl, hmore⟩ := map_kind_eq_cons hfront
      obtain ⟨lines, ending, rfl, rfl, hending⟩ := List.map_eq_append_iff.1 hmore
      obtain ⟨r, rfl⟩ := map_kind_eq_singleton hending
      have hstop : acceptString (⟨.punct ';', r⟩ :: rest) = .ok (none, ⟨.punct ';', r⟩ :: rest) :=
        rfl
      obtain ⟨others, rfl, hmany⟩ := recognizes_line.complete_many hothers hstop trivial
      have hstring : expectString (⟨.string first, q⟩ :: (lines ++ ⟨.punct ';', r⟩ :: rest))
          = .ok (first, lines ++ ⟨.punct ';', r⟩ :: rest) := rfl
      refine ⟨.headerComment first others, rfl, ?_⟩
      have htokens : ⟨.string first, q⟩ :: (lines ++ [⟨.punct ';', r⟩]) ++ rest
          = ⟨.string first, q⟩ :: (lines ++ ⟨.punct ';', r⟩ :: rest) := by simp
      rw [htokens, statementBody, Parser.bind_apply_of_ok hstring, Parser.bind_apply_of_ok hmany]
      exact semicolon_eq_ok_iff.2 ⟨rfl, r, rfl⟩
  | preamble code hclosing =>
    obtain ⟨⟨⟩, hfront⟩ := List.cons.inj hkinds
    obtain ⟨q, closing, rfl, rfl⟩ := map_kind_eq_cons hfront
    obtain ⟨found, hsemicolon⟩ := acceptPunct_closing hclosing hrest
    have hcode : expectCode (⟨.codeBlock code, q⟩ :: (closing ++ rest))
        = .ok (code, closing ++ rest) := rfl
    refine ⟨.preamble code, rfl, ?_⟩
    rw [List.cons_append, statementBody, Parser.bind_apply_of_ok hcode,
      Parser.bind_apply_of_ok hsemicolon]
    rfl
  | block =>
    obtain ⟨⟨⟩, -⟩ := List.cons.inj hkinds
    exact absurd rfl hkeyword

/-- The tokens at which the reader of statements other than binding blocks stops. -/
def StartsBlock (ts : List Token) : Prop := ∃ p behind, ts = ⟨.ident "binding", p⟩ :: behind

theorem plainStatement_of_ne {kind : TokenKind} (h : kind ≠ .ident "binding") (p : Position)
    (ts : List Token) :
    plainStatement (⟨kind, p⟩ :: ts)
      = (expectKeywordAt >>= fun (keyword, position) => some <$> statementBody keyword position)
        (⟨kind, p⟩ :: ts) := by
  have hend : atEnd (⟨kind, p⟩ :: ts) = .ok (false, ⟨kind, p⟩ :: ts) := rfl
  unfold plainStatement
  rw [Parser.bind_apply_of_ok hend,
    Parser.bind_apply_of_ok (checkIdent_of_avoids (avoids_cons h ts)), if_neg (by simp)]
  simp only [map_eq_pure_bind]

/-- What the reader of statements other than binding blocks can do: stop at the end or at a binding
    block, or read a keyword and what is behind it. -/
theorem plainStatement_cases {ts rest : List Token} {s? : Option Statement}
    (h : plainStatement ts = .ok (s?, rest)) :
    (s? = none ∧ rest = ts ∧ (ts = [] ∨ StartsBlock ts)) ∨
      ∃ s keyword p behind, s? = some s ∧ ts = ⟨.ident keyword, p⟩ :: behind ∧
        keyword ≠ "binding" ∧ statementBody keyword p behind = .ok (s, rest) := by
  rcases ts with _ | ⟨⟨kind, p⟩, ts⟩
  · obtain ⟨rfl, rfl⟩ := Prod.mk.inj (Except.ok.inj h)
    exact .inl ⟨rfl, rfl, .inl rfl⟩
  by_cases hbinding : kind = .ident "binding"
  · subst hbinding
    obtain ⟨rfl, rfl⟩ := Prod.mk.inj (Except.ok.inj h)
    exact .inl ⟨rfl, rfl, .inr ⟨p, ts, rfl⟩⟩
  · rw [plainStatement_of_ne hbinding] at h
    obtain ⟨⟨keyword, q⟩, behind, hkeyword, hread⟩ := Parser.bind_eq_ok_iff.1 h
    obtain ⟨s, rfl, hbody⟩ := Parser.map_eq_ok_iff.1 hread
    obtain ⟨htoken, rfl⟩ := List.cons.inj (expectKeywordAt_eq_ok_iff.1 hkeyword)
    obtain ⟨rfl, rfl⟩ := Token.mk.inj htoken
    refine .inr ⟨s, keyword, p, ts, rfl, rfl, ?_, hbody⟩
    rintro rfl
    exact hbinding rfl

/-- A statement other than a binding block. -/
def IsPlain (kinds : List TokenKind) (tree : Node) : Prop :=
  IsStatement kinds tree ∧ tree.kind ≠ .binding

theorem recognizes_plain :
    Recognizes IsPlain (Avoids (.punct ';')) Statement.toNode plainStatement where
  ne_nil h := by
    obtain ⟨keyword, more, rfl⟩ := h.1.exists_keyword
    exact List.cons_ne_nil _ _
  ends {front tree rest} h := by
    obtain ⟨keyword, more, hkinds⟩ := h.1.exists_keyword
    obtain ⟨p, behind, rfl, -⟩ := map_kind_eq_cons hkinds
    exact avoids_cons (by simp) _
  sound {ts s rest} h := by
    rcases plainStatement_cases h with ⟨hnone, -⟩ | ⟨s', keyword, p, behind, hs, rfl, hne, hbody⟩
    · exact absurd hnone (by simp)
    · obtain rfl := Option.some.inj hs
      obtain ⟨front, rfl, hfront⟩ := statementBody_sound hbody
      exact ⟨⟨.ident keyword, p⟩ :: front, rfl, hfront, mt hfront.keyword_eq_binding_iff.2 hne⟩
  complete {front tree rest} h hrest := by
    obtain ⟨hstatement, hne⟩ := h
    obtain ⟨keyword, more, hkinds⟩ := hstatement.exists_keyword
    obtain ⟨p, behind, rfl, -⟩ := map_kind_eq_cons hkinds
    have hkeyword : keyword ≠ "binding" := mt hstatement.keyword_eq_binding_iff.1 hne
    obtain ⟨s, htree, hbody⟩ := statementBody_complete hstatement hkeyword hrest p
    refine ⟨s, htree, ?_⟩
    rw [List.cons_append, plainStatement_of_ne (by simpa using hkeyword)]
    have hread : expectKeywordAt (⟨.ident keyword, p⟩ :: (behind ++ rest))
        = .ok ((keyword, p), behind ++ rest) := rfl
    rw [Parser.bind_apply_of_ok hread]
    exact Parser.map_eq_ok_iff.2 ⟨s, rfl, hbody⟩

/-! ## Descriptions -/

theorem description_of_end {ts : List Token} {ss : List Statement}
    (h : Parser.many plainStatement ts = .ok (ss, [])) : description ts = .ok (ss, []) := by
  unfold description
  rw [Parser.bind_apply_of_ok h]
  rfl

theorem description_of_block {ts behind mid : List Token} {t : Token}
    {before others : List Statement} {bound : Statement}
    (hbefore : Parser.many plainStatement ts = .ok (before, t :: behind))
    (hbound : block behind = .ok (bound, mid))
    (hothers : Parser.many plainStatement mid = .ok (others, [])) :
    description ts = .ok (before ++ bound :: others, []) := by
  have hend : atEnd (t :: behind) = .ok (false, t :: behind) := rfl
  have hskip : skip (t :: behind) = .ok ((), behind) := rfl
  unfold description
  rw [Parser.bind_apply_of_ok hbefore, Parser.bind_apply_of_ok hend, if_neg (by simp),
    Parser.bind_apply_of_ok hskip, Parser.bind_apply_of_ok hbound, Parser.bind_apply_of_ok hothers]
  rfl

theorem plain_of_many {ts rest : List Token} {ss : List Statement}
    (h : Parser.many plainStatement ts = .ok (ss, rest)) :
    ∃ front, ts = front ++ rest ∧ (rest = [] ∨ StartsBlock rest) ∧
      IsSequence IsStatement (front.map (·.kind)) (ss.map Statement.toNode) := by
  obtain ⟨front, stop, rfl, hstop, hfront⟩ := recognizes_plain.sound_many h
  rcases plainStatement_cases hstop with ⟨-, rfl, hend⟩ | ⟨s, _, _, _, hs, -⟩
  · exact ⟨front, rfl, hend, hfront.mono fun _ _ _ hplain => hplain.1⟩
  · exact absurd hs (by simp)

theorem description_sound {ts rest : List Token} {ss : List Statement}
    (h : description ts = .ok (ss, rest)) :
    IsSequence IsStatement (ts.map (·.kind)) (ss.map Statement.toNode) := by
  rcases description_cases h with
    hall | ⟨before, t, behind, bound, mid, others, hbefore, hbound, hothers, rfl⟩
  · obtain ⟨front, rfl, -, hfront⟩ := plain_of_many hall
    rwa [List.append_nil]
  · obtain ⟨front, rfl, hstop, hfront⟩ := plain_of_many hbefore
    obtain ⟨body, rfl, hbody⟩ := block_sound hbound
    obtain ⟨more, rfl, -, hmore⟩ := plain_of_many hothers
    obtain ⟨p, _, hstart⟩ : StartsBlock (t :: (body ++ (more ++ []))) :=
      hstop.resolve_left (List.cons_ne_nil _ _)
    obtain ⟨rfl, -⟩ := List.cons.inj hstart
    rw [List.append_nil, List.map_append, List.map_append, List.map_cons, List.map_cons,
      List.map_append]
    exact hfront.append (.cons hbody hmore)

theorem isPlain_of_countP_eq_zero {kinds : List TokenKind} {trees : List Node}
    (h : IsSequence IsStatement kinds trees) (hcount : trees.countP (·.kind = .binding) = 0) :
    IsSequence IsPlain kinds trees := by
  refine h.mono fun _ tree htree hstatement => ⟨hstatement, ?_⟩
  simpa using List.countP_eq_zero.1 hcount tree htree

theorem many_of_plain {front rest : List Token} {trees : List Node}
    (h : IsSequence IsPlain (front.map (·.kind)) trees) (hrest : rest = [] ∨ StartsBlock rest) :
    ∃ ss, ss.map Statement.toNode = trees ∧
      Parser.many plainStatement (front ++ rest) = .ok (ss, rest) := by
  rcases hrest with rfl | ⟨p, behind, rfl⟩
  · exact recognizes_plain.complete_many h rfl rfl
  · exact recognizes_plain.complete_many h rfl (avoids_cons (by simp) _)

theorem description_complete {ts : List Token} {trees : List Node}
    (h : IsSequence IsStatement (ts.map (·.kind)) trees)
    (hcount : trees.countP (·.kind = .binding) ≤ 1) :
    ∃ ss rest, ss.map Statement.toNode = trees ∧ description ts = .ok (ss, rest) := by
  by_cases hblock : ∃ tree ∈ trees, tree.kind = .binding
  · obtain ⟨tree, htree, hkind⟩ := hblock
    obtain ⟨before, others, rfl⟩ := List.append_of_mem htree
    rw [List.countP_append, List.countP_cons_of_pos (by simpa using hkind)] at hcount
    obtain ⟨frontKinds, restKinds, hts, hfront, hrest⟩ := h.exists_append
    cases hrest with
    | cons hbound hothers =>
      obtain ⟨front, ending, rfl, rfl, hending⟩ := List.map_eq_append_iff.1 hts
      obtain ⟨bound, more, rfl, rfl, rfl⟩ := List.map_eq_append_iff.1 hending
      obtain ⟨keyword, bodyKinds, hkeyword⟩ := hbound.exists_keyword
      obtain ⟨p, body, rfl, -⟩ := map_kind_eq_cons hkeyword
      obtain rfl : keyword = "binding" := hbound.keyword_eq_binding_iff.2 hkind
      have hplain := isPlain_of_countP_eq_zero hothers (by omega)
      have hmore : Avoids (.punct ';') (more ++ []) := recognizes_plain.ends_sequence hplain rfl
      obtain ⟨us, rfl, hbehind⟩ := many_of_plain hplain (.inl rfl)
      rw [List.append_nil] at hmore hbehind
      obtain ⟨s, rfl, hread⟩ := block_complete hbound hmore
      obtain ⟨ss, rfl, hbefore⟩ := many_of_plain (isPlain_of_countP_eq_zero hfront (by omega))
        (.inr ⟨p, body ++ more, rfl⟩)
      refine ⟨ss ++ s :: us, [], by simp, ?_⟩
      exact description_of_block hbefore hread hbehind
  · have hplain := isPlain_of_countP_eq_zero h (List.countP_eq_zero.2 (by simpa using hblock))
    obtain ⟨ss, rfl, hmany⟩ := many_of_plain hplain (.inl rfl)
    rw [List.append_nil] at hmany
    exact ⟨ss, [], rfl, description_of_end hmany⟩

/-- The grammar is unambiguous: the tokens determine the trees. -/
theorem IsDescription.unique {kinds : List TokenKind} {trees trees' : List Node}
    (h : IsDescription kinds trees) (h' : IsDescription kinds trees') : trees = trees' := by
  obtain ⟨statements, rfl, hsequence, hcount⟩ := h
  obtain ⟨statements', hkinds, hsequence', hcount'⟩ := h'
  obtain ⟨rfl, -⟩ := List.append_inj' hkinds rfl
  have hplace : (place statements).map (·.kind) = statements := by
    rw [place, List.map_map]
    exact List.map_id statements
  rw [← hplace] at hsequence hsequence'
  -- both are what is read from tokens of these kinds
  obtain ⟨ss, rest, rfl, hread⟩ := description_complete hsequence hcount
  obtain ⟨ss', rest', rfl, hread'⟩ := description_complete hsequence' hcount'
  obtain ⟨rfl, -⟩ := Prod.mk.inj (Except.ok.inj (hread.symm.trans hread'))
  rfl

theorem countP_binding (ss : List Statement) :
    (ss.map Statement.toNode).countP (·.kind = .binding) = ss.countP Statement.isBlock := by
  rw [List.countP_map]
  exact List.countP_congr fun s _ => by simpa using kind_toNode_eq_binding_iff s

theorem parse_eq_ok_iff {source : String} {trees : List Node} :
    parse source = .ok trees ↔
      ∃ tokens, tokenize source = .ok tokens ∧ IsDescription (tokens.map (·.kind)) trees := by
  unfold parse
  constructor
  · intro h
    obtain ⟨ss, hparse, rfl⟩ := exists_of_map_eq_ok h
    obtain ⟨stream, rest, hstream, hread⟩ := exists_stream_of_parseText hparse
    refine ⟨_, TokenStream.tokenize_eq hstream, stream.ahead.map (·.kind), by simp,
      description_sound hread, ?_⟩
    rw [countP_binding]
    exact countP_isBlock_le_one hread
  · rintro ⟨tokens, htokens, kinds, hkinds, hstatements, hcount⟩
    obtain ⟨body, ending, rfl, rfl, hending⟩ := List.map_eq_append_iff.1 hkinds
    obtain ⟨p, rfl⟩ := map_kind_eq_singleton hending
    obtain ⟨ss, rest, rfl, hread⟩ := description_complete hstatements hcount
    have hstream : TokenStream.ofString source = .ok ⟨body, p⟩ := by
      rw [TokenStream.ofString, htokens]
      exact congrArg Except.ok (TokenStream.ofTokens_append body ⟨.eof, p⟩)
    rw [parseText, hstream]
    show (do let (ss, _) ← description body; pure ss : Except ParseError (List Statement)).map _ = _
    rw [hread]
    rfl

/-- The reader accepts the grammar and nothing else. A description is read as some trees if and only
    if its text has tokens, and these derive the trees; every other text is an error. -/
theorem parse_accepts_grammar (source : String) :
    (∀ trees, parse source = .ok trees ↔
      ∃ tokens, tokenize source = .ok tokens ∧ IsDescription (tokens.map (·.kind)) trees) ∧
    ((∃ e, parse source = .error e) ↔
      ¬∃ tokens trees, tokenize source = .ok tokens ∧
        IsDescription (tokens.map (·.kind)) trees) := by
  refine ⟨fun trees => parse_eq_ok_iff, ?_⟩
  cases hparse : parse source with
  | error e =>
    refine ⟨fun _ => ?_, fun _ => ⟨e, rfl⟩⟩
    rintro ⟨tokens, trees, htokens⟩
    exact absurd (parse_eq_ok_iff.2 ⟨tokens, htokens⟩) (by simp [hparse])
  | ok trees =>
    obtain ⟨tokens, htokens⟩ := parse_eq_ok_iff.1 hparse
    exact ⟨by simp, fun h => absurd ⟨tokens, trees, htokens⟩ h⟩

end IdlBind.Binding
