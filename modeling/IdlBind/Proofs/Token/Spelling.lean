import IdlBind.Proofs.Token.Integers

set_option autoImplicit false

/-! # Spelling tokens

Every token but floating-point numbers and the end of the file has a spelling. Spelled tokens with a
blank between them are read back, and no others are ever read (`lexing_undoes_spelling`). -/

namespace IdlBind

namespace TokenKind

/-- The text of a string with a backslash in front of quotes and backslashes. -/
def quoted (text : List Char) : List Char :=
  text.flatMap fun c => if c = '"' ∨ c = '\\' then ['\\', c] else [c]

/-- The spelling of a token. -/
def spelling : TokenKind → List Char
  | .ident name => name.toList
  | .string text => '"' :: (quoted text.toList ++ ['"'])
  | .integer value => (toString value.toInt).toList
  | .float _ => []
  | .codeBlock code => '%' :: '{' :: (code.toList ++ ['%', '}'])
  | .ellipsis => ['.', '.', '.']
  | .punct c => [c]
  | .eof => []

/-- Is there a spelling? An identifier starts with a letter or an underscore and goes on with
    letters, digits, underscores and hyphens; a code block does not hold its closing mark. -/
def IsSpellable : TokenKind → Prop
  | .ident name => ∃ c cs, name.toList = c :: cs ∧ (c.isAlpha = true ∨ c = '_') ∧
      ∀ d ∈ cs, d.isAlphanum = true ∨ d = '_' ∨ d = '-'
  | .string _ => True
  | .integer _ => True
  | .float _ => False
  | .codeBlock code => ¬['%', '}'] <:+: code.toList
  | .ellipsis => True
  | .punct c => c = '.' ∨ c ∈ "{}()[];:,=<>?*-&|".toList
  | .eof => False

end TokenKind

/-- The spellings of tokens, with a blank between them. -/
def spell (kinds : List TokenKind) : String :=
  String.ofList ([' '].intercalate (kinds.map TokenKind.spelling))

namespace Lexer

theorem startsIdent_iff (c : Char) : startsIdent c = true ↔ c.isAlpha = true ∨ c = '_' := by
  simp [startsIdent]

theorem continuesIdent_iff (c : Char) :
    continuesIdent c = true ↔ c.isAlphanum = true ∨ c = '_' ∨ c = '-' := by
  simp [continuesIdent, or_assoc]

theorem isPunct_iff (c : Char) :
    isPunct c = true ↔ c = '.' ∨ c ∈ "{}()[];:,=<>?*-&|".toList := by
  simp [isPunct]
  grind

/-! ## Strings -/

theorem isQuoted_quoted (text : List Char) : IsQuoted (TokenKind.quoted text) text := by
  induction text with
  | nil => exact .nil
  | cons c text ih =>
    by_cases hquote : c = '"'
    · subst hquote
      exact .escape ih
    by_cases hbackslash : c = '\\'
    · subst hbackslash
      exact .escape ih
    · rw [TokenKind.quoted, List.flatMap_cons, if_neg (by simp [hquote, hbackslash])]
      exact .plain hquote hbackslash ih

/-! ## Integers -/

theorem toList_toString (n : Int) :
    (toString n).toList = signText (decide (n < 0)) ++ Nat.toDigits 10 n.natAbs := by
  rw [Number.toList_toString_int]
  by_cases hneg : n < 0 <;> simp [signText, hneg]

/-- A sign and digits are read as the integer that they denote. -/
theorem readKind_integer {negative : Bool} {digits rest : List Char} {v : Int64}
    (hdigits : ∀ c ∈ digits, c.isDigit = true)
    (hv : Number.ofDecimalDigits negative digits = .ok v) (hrest : EndsToken rest) (p : Position) :
    readKind (signText negative ++ digits ++ rest) p
      = (.ok (.integer v), ⟨rest, p.after (signText negative ++ digits)⟩) := by
  have hne : digits ≠ [] := by
    rintro rfl
    exact absurd hv (by simp [Number.ofDecimalDigits])
  let l : IntegerLiteral := ⟨negative, none, digits, by simp, hne, hdigits⟩
  have hextends : ∀ c ∈ rest.head?, ¬l.Extends c := by
    intro c hc
    obtain rfl := hrest c hc
    simp [l, IntegerLiteral.Extends]
  have htoken : l.token = .ok (.integer v) := by simp [l, IntegerLiteral.token, decimalToken, hv]
  have hread := IntegerLiteral.readKind_text hextends p
  rw [htoken, IntegerLiteral.text] at hread
  exact hread

/-! ## Reading spelled tokens -/

theorem readKind_spelling {kind : TokenKind} (h : kind.IsSpellable) {rest : List Char}
    (hrest : EndsToken rest) (p : Position) :
    readKind (kind.spelling ++ rest) p = (.ok kind, ⟨rest, p.after kind.spelling⟩) := by
  cases kind with
  | ident name =>
    obtain ⟨c, cs, hname, hc, hcs⟩ := h
    rw [TokenKind.spelling, hname, List.cons_append,
      readKind_ident ((startsIdent_iff c).2 hc) (fun d hd => (continuesIdent_iff d).2 (hcs d hd))
        hrest, ← hname, String.ofList_toList]
  | string text =>
    show readKind ('"' :: (TokenKind.quoted text.toList ++ ['"'] ++ rest)) p = _
    rw [readKind, List.append_assoc, readString_quoted (isQuoted_quoted text.toList)]
    simp [readString, TokenKind.spelling, Position.after_append]
  | integer value =>
    rw [TokenKind.spelling, toList_toString]
    exact readKind_integer
      (fun c hc => Nat.isDigit_of_mem_toDigits (by decide) (Nat.le_refl 10) hc)
      (Number.ofDecimalDigits_toDigits value) hrest p
  | codeBlock code =>
    have htext : (TokenKind.codeBlock code).spelling ++ rest
        = '%' :: '{' :: (code.toList ++ '%' :: '}' :: rest) := by simp [TokenKind.spelling]
    rw [htext, readKind, readCode_closed h]
    simp only [String.ofList_toList]
    rfl
  | ellipsis => rfl
  | punct c => exact readKind_punct ((isPunct_iff c).2 h) hrest p
  | float value => exact absurd h id
  | eof => exact absurd h id

/-- The spelling of an integer starts with a minus or a digit. -/
theorem exists_spelling_integer (value : Int64) :
    ∃ c cs, (TokenKind.integer value).spelling = c :: cs ∧ (c = '-' ∨ c.isDigit = true) := by
  rw [TokenKind.spelling, toList_toString]
  by_cases hneg : value.toInt < 0
  · exact ⟨'-', _, by rw [decide_eq_true hneg]; rfl, .inl rfl⟩
  · rw [decide_eq_false hneg]
    rcases hdigits : Nat.toDigits 10 value.toInt.natAbs with _ | ⟨c, cs⟩
    · exact absurd hdigits (by simp)
    · have hc : c ∈ Nat.toDigits 10 value.toInt.natAbs := by
        rw [hdigits]
        exact List.mem_cons_self
      exact ⟨c, cs, rfl, .inr (Nat.isDigit_of_mem_toDigits (by decide) (Nat.le_refl 10) hc)⟩

/-- A spelling starts neither with a blank nor as a comment does. -/
theorem exists_spelling_cons {kind : TokenKind} (h : kind.IsSpellable) :
    ∃ c cs, kind.spelling = c :: cs ∧ Text.isBlank c = false ∧ c ≠ '/' := by
  cases kind with
  | ident name =>
    obtain ⟨c, cs, hname, hc, -⟩ := h
    have hstart := (startsIdent_iff c).2 hc
    have hslash : c ≠ '/' := by
      rintro rfl
      exact absurd hstart (by decide)
    exact ⟨c, cs, hname, isBlank_of_startsIdent hstart, hslash⟩
  | string text => exact ⟨'"', _, rfl, by decide, by decide⟩
  | integer value =>
    obtain ⟨c, cs, hcs, rfl | hdigit⟩ := exists_spelling_integer value
    · exact ⟨'-', cs, hcs, by decide, by decide⟩
    · exact ⟨c, cs, hcs, isBlank_of_isDigit hdigit, ne_of_isDigit hdigit (by decide)⟩
  | codeBlock code => exact ⟨'%', _, rfl, by decide, by decide⟩
  | ellipsis => exact ⟨'.', _, rfl, by decide, by decide⟩
  | punct c =>
    obtain ⟨hblank, -, -, hslash, -⟩ := isPunct_cases ((isPunct_iff c).2 h)
    exact ⟨c, [], rfl, hblank, hslash⟩
  | float value => exact absurd h id
  | eof => exact absurd h id

theorem next_spelling {kind : TokenKind} (h : kind.IsSpellable) {rest : List Char}
    (hrest : EndsToken rest) (p : Position) :
    (Lexer.mk (kind.spelling ++ rest) p).next
      = (.ok ⟨kind, p⟩, ⟨rest, p.after kind.spelling⟩) := by
  have hgap : skipGap .blank (kind.spelling ++ rest) p = (none, ⟨kind.spelling ++ rest, p⟩) := by
    obtain ⟨c, cs, hcs, hblank, hslash⟩ := exists_spelling_cons h
    rw [hcs]
    exact skipGap_of_not_blank hblank hslash (cs ++ rest) p
  exact next_eq_ok_iff.2 ⟨_, hgap, readKind_spelling h hrest p, rfl⟩

theorem ne_eof_of_isSpellable {kind : TokenKind} (h : kind.IsSpellable) : kind ≠ .eof := by
  rintro rfl
  exact h

theorem tokens_spelling {kinds : List TokenKind} (h : ∀ kind ∈ kinds, kind.IsSpellable)
    (p : Position) :
    ∃ ts, (Lexer.mk ([' '].intercalate (kinds.map TokenKind.spelling)) p).tokens = .ok ts ∧
      ts.map (·.kind) = kinds ++ [.eof] := by
  induction kinds generalizing p with
  | nil => exact ⟨[⟨.eof, p⟩], tokens_of_eof rfl rfl, rfl⟩
  | cons kind kinds ih =>
    obtain ⟨hkind, hrest⟩ := List.forall_mem_cons.1 h
    rcases kinds with _ | ⟨following, kinds⟩
    · have hnext := next_spelling hkind endsToken_nil p
      rw [List.append_nil] at hnext
      refine ⟨[⟨kind, p⟩, ⟨.eof, p.after kind.spelling⟩], ?_, rfl⟩
      rw [List.map_singleton, List.intercalate_singleton,
        tokens_of_ok hnext (ne_eof_of_isSpellable hkind), tokens_of_eof rfl rfl]
      rfl
    · obtain ⟨ts, htokens, hkinds⟩ := ih hrest ((p.after kind.spelling).next ' ')
      refine ⟨⟨kind, p⟩ :: ts, ?_, by rw [List.map_cons, hkinds]; rfl⟩
      have htext : [' '].intercalate ((kind :: following :: kinds).map TokenKind.spelling)
          = kind.spelling ++ ' ' :: [' '].intercalate
              ((following :: kinds).map TokenKind.spelling) := by
        rw [List.map_cons, List.map_cons, List.intercalate_cons_cons, List.append_assoc]
        rfl
      rw [htext, tokens_of_ok (next_spelling hkind (endsToken_blank _) p)
        (ne_eof_of_isSpellable hkind), tokens_congr (next_blank _ _), htokens]
      rfl

/-! ## Tokens that are read -/

theorem isSpellable_of_isLexeme {lexeme rest : List Char} {outcome : Except LexicalError TokenKind}
    (h : IsLexeme lexeme rest outcome) {kind : TokenKind} (hkind : outcome = .ok kind) :
    (∃ value, kind = .float value) ∨ kind = .eof ∨ kind.IsSpellable := by
  cases h with
  | eof => exact .inr (.inl (Except.ok.inj hkind).symm)
  | numeral hnumeral =>
    rcases hnumeral.kind_cases hkind with ⟨value, rfl⟩ | hfloat
    · exact .inr (.inr trivial)
    · exact .inl hfloat
  | @ident c cs _ hstart hcs =>
    obtain rfl := Except.ok.inj hkind
    exact .inr (.inr ⟨c, cs, String.toList_ofList, (startsIdent_iff c).1 hstart,
      fun d hd => (continuesIdent_iff d).1 (hcs d hd)⟩)
  | codeBlock hcode =>
    obtain rfl := Except.ok.inj hkind
    refine .inr (.inr ?_)
    rwa [TokenKind.IsSpellable, String.toList_ofList]
  | punct hpunct =>
    obtain rfl := Except.ok.inj hkind
    exact .inr (.inr ((isPunct_iff _).1 hpunct))
  | string =>
    obtain rfl := Except.ok.inj hkind
    exact .inr (.inr trivial)
  | ellipsis =>
    obtain rfl := Except.ok.inj hkind
    exact .inr (.inr trivial)
  | _ => exact absurd hkind (by simp)

theorem isSpellable_of_next {l l' : Lexer} {t : Token} (h : l.next = (.ok t, l')) :
    (∃ value, t.kind = .float value) ∨ t.kind = .eof ∨ t.kind.IsSpellable := by
  obtain ⟨skipped, lexeme, -, hpiece, -, -⟩ := exists_piece_of_ok h
  exact isSpellable_of_isLexeme hpiece.isLexeme rfl

end Lexer

/-- Reading undoes spelling. Spelled tokens are read as these tokens and the end of the file, and
    every token that a lexer reads is a floating-point number, the end of the file, or can be
    spelled. -/
theorem lexing_undoes_spelling :
    (∀ kinds : List TokenKind, (∀ kind ∈ kinds, kind.IsSpellable) →
      ∃ ts, tokenize (spell kinds) = .ok ts ∧ ts.map (·.kind) = kinds ++ [.eof]) ∧
    ∀ (l l' : Lexer) (t : Token), l.next = (.ok t, l') →
      (∃ value, t.kind = .float value) ∨ t.kind = .eof ∨ t.kind.IsSpellable := by
  refine ⟨fun kinds h => ?_, fun l l' t h => Lexer.isSpellable_of_next h⟩
  rw [tokenize, Lexer.ofString, spell, String.toList_ofList]
  exact Lexer.tokens_spelling h .start

/-- Tokens of every kind that has a spelling: hyphens, points, marks of comments, and the least and
    the greatest integer. -/
def mixture : List TokenKind :=
  [.ident "a-1", .punct '-', .integer Int64.minValue, .integer Int64.maxValue, .ident "_",
    .string "\\\"//\n", .codeBlock "%.\"/*", .punct '.', .ellipsis, .punct '|']

theorem lexing_undoes_spelling_mixture :
    spell mixture = "a-1 - -9223372036854775808 9223372036854775807 " ++
      "_ \"\\\\\\\"//\n\" %\x7b%.\"/*%\x7d . ... |" ∧
    (∀ kind ∈ mixture, kind.IsSpellable) ∧
    ∃ ts, tokenize (spell mixture) = .ok ts ∧ ts.map (·.kind) = mixture ++ [.eof] := by
  have hspellable : ∀ kind ∈ mixture, kind.IsSpellable := by
    simp only [mixture, List.forall_mem_cons, TokenKind.IsSpellable]
    refine ⟨⟨'a', ['-', '1'], by decide, by decide, by simp⟩, by decide, trivial, trivial,
      ⟨'_', [], by decide, by decide, by simp⟩, trivial, by decide, by decide, trivial, by decide,
      by simp⟩
  exact ⟨by decide, hspellable, lexing_undoes_spelling.1 mixture hspellable⟩

end IdlBind
